import JoinTrace.Proofs.ReplayPrefix

-- A replay that is called again and again. Each call comes to an end, and each that observes a join
-- uses up two events at least; the first that does not is the last to tell anything.
namespace JoinTrace

namespace TraceGrammar
variable {α : Type} {front : List (Event α)} {joins : List (Join α)}

theorem Item.two_each (item : Item front joins) : 2*joins.length ≤ front.length := by
  cases item with
  | foreign => simp
  | waited =>
    simp only [List.length_cons,List.length_append,List.length_nil]
    omega
  | alone => simp

theorem Items.two_each (items : Items front joins) : 2*joins.length ≤ front.length := by
  induction items with
  | nil => simp
  | cons first rest ih =>
    have here := first.two_each
    simp only [List.length_append]
    omega

end TraceGrammar

namespace Replay
variable {α : Type} {heap : HeapId}

theorem step_joined_consumes {trace after : Trace α} {start last : Event α}
    (met : step heap trace = .ok (.joined start last after)) :
    after.remaining+2 ≤ trace.remaining := by
  obtain ⟨front,items,split⟩ := step_sound .any met
  have two := items.two_each
  simp only [Cursor.remaining,split,List.length_append,List.length_singleton] at two ⊢
  omega

def loop {σ τ : Type} (turn : σ → τ ⊕ σ) : Nat → σ → Option τ
  | 0,_ => none
  | limit+1,state =>
    match turn state with
    | .inl result => some result
    | .inr next => loop turn limit next

def openingTurn (heap : HeapId) (trace : Trace α) : Except (Stop α) (Trace α) ⊕ Trace α :=
  match trace.next with
  | none => .inl (.ok trace)
  | some (event,after) =>
    if event.isJoinEnd then
      match expectStage heap .generationDetermined event with
      | .error e => .inl (.error ⟨e,after⟩)
      | .ok () => .inr after
    else if event.isRestartEnd then .inr after
    else .inl (giveBack after)

def stepTurn (heap : HeapId) (trace : Trace α) : Except (Stop α) (Finding α) ⊕ Trace α :=
  match trace.next with
  | none => .inl (.ok (.exhausted trace))
  | some (start,after) =>
    if start.isRestartStart then
      match passRestartEnd after with
      | .error stop => .inl (.error stop)
      | .ok rest => .inr rest
    else if start.edge = .start then
      .inl ((endOf heap start after).map fun ended => .ofEnd start ended.2 ended.1)
    else .inl (unbalanced heap after (.strayEnd start.kind start.stage))

-- A loop whose turns leave less and less is not given up before it is over.
theorem loop_enough {σ τ : Type} {turn : σ → τ ⊕ σ} {solve : σ → τ} {left : σ → Nat}
    (unfolds : ∀ state, solve state = (turn state).elim id solve)
    (less : ∀ state next, turn state = .inr next → left next < left state) {limit : Nat} {state : σ}
    (enough : left state < limit) : loop turn limit state = some (solve state) := by
  induction limit generalizing state with
  | zero => omega
  | succ limit ih =>
    rw [loop,unfolds]
    cases turned : turn state with
    | inl result => rfl
    | inr next =>
      have fewer := less state next turned
      exact ih (by omega)

theorem openingTurn_less {trace next : Trace α} (turned : openingTurn heap trace = .inr next) :
    next.remaining < trace.remaining := by
  unfold openingTurn at turned
  split at turned
  · cases turned
  · rename_i event after read
    have less := Cursor.next_remaining read
    split at turned
    · split at turned
      · cases turned
      · cases turned; exact less
    · split at turned
      · cases turned; exact less
      · cases turned

theorem passOpening_turn (heap : HeapId) (trace : Trace α) :
    passOpening heap trace = (openingTurn heap trace).elim id (passOpening heap) := by
  unfold openingTurn
  cases read : trace.next with
  | none => exact passOpening_end read
  | some seen =>
    obtain ⟨event,after⟩ := seen
    rw [passOpening_read read]
    dsimp only
    split
    · cases expectStage heap .generationDetermined event <;> rfl
    · split <;> rfl

theorem stepTurn_less {trace next : Trace α} (turned : stepTurn heap trace = .inr next) :
    next.remaining < trace.remaining := by
  unfold stepTurn at turned
  split at turned
  · cases turned
  · rename_i start after read
    have less := Cursor.next_remaining read
    split at turned
    · split at turned
      · cases turned
      · rename_i rest passed
        have kept := (follows_passRestartEnd passed).remaining
        cases turned
        omega
    · split at turned <;> cases turned

theorem step_turn (heap : HeapId) (trace : Trace α) :
    step heap trace = (stepTurn heap trace).elim id (step heap) := by
  unfold stepTurn
  cases read : trace.next with
  | none => exact step_end read
  | some seen =>
    obtain ⟨start,after⟩ := seen
    by_cases foreign : start.isRestartStart
    · obtain ⟨rest,passed⟩ := passRestartEnd_ok after
      rw [step_foreign read foreign passed]
      simp only [if_pos foreign,passed]
      rfl
    · rw [step_own read foreign]
      simp only [if_neg foreign]
      split <;> rfl

end Replay

namespace Replayer
open Replay
variable {α : Type}

def openedWithin (limit : Nat) (replayer : Replayer α) :
    Option (Except (Stop α) (Trace α)) :=
  match replayer.state,replayer.trace.next with
  | .initial,some (first,after) =>
    if first.isRestartStart then loop (openingTurn replayer.heap) limit after
    else some replayer.opened
  | _,_ => some replayer.opened

def foundWithin (limit : Nat) (replayer : Replayer α) :
    Option (Except (Stop α) (Finding α)) :=
  match replayer.openedWithin limit with
  | none => none
  | some (.error stop) => some (.error stop)
  | some (.ok trace) => loop (stepTurn replayer.heap) limit trace

theorem openedWithin_eq {limit : Nat} {replayer : Replayer α}
    (enough : replayer.trace.remaining < limit) :
    replayer.openedWithin limit = some replayer.opened := by
  unfold openedWithin
  split
  · rename_i first after initial read
    have less := Cursor.next_remaining read
    split
    · rename_i restarts
      rw [loop_enough (passOpening_turn replayer.heap) (fun _ _ => openingTurn_less) (by omega)]
      simp [opened,initial,passInitial,read,restarts]
    · rfl
  · rfl

theorem foundWithin_eq {limit : Nat} {replayer : Replayer α}
    (enough : replayer.trace.remaining < limit) :
    replayer.foundWithin limit = some replayer.found := by
  rw [foundWithin,openedWithin_eq enough,found]
  cases ready : replayer.opened with
  | error e => rfl
  | ok trace =>
    have less := opened_remaining ready
    exact loop_enough (step_turn replayer.heap) (fun _ _ => stepTurn_less) (by omega)

theorem found_joined_consumes {replayer : Replayer α} {first last : Event α} {trace : Trace α}
    (met : replayer.found = .ok (.joined first last trace)) :
    trace.remaining+2 ≤ replayer.trace.remaining := by
  unfold found at met
  split at met
  · cases met
  · rename_i entered ready
    have consumed := step_joined_consumes met
    have less := opened_remaining ready
    omega

variable {events : List (Event α)}

abbrev Answer (α : Type) := Option (Except (AnalysisError α) (Observation α))

def Answer.isObservation : Answer α → Bool
  | some (.ok _) => true
  | _ => false

def Answer.isRefusal : Answer α → Bool
  | some (.error _) => true
  | _ => false

structure Fair (stopped : Trace α) (e : AnalysisError α) : Prop where
  steps : ∀ position, e ≠ .stepBackRefused position
  place : ∀ blamed index finding, e = .unbalanced blamed index finding → index = stopped.position

theorem fair_mismatch (stopped : Trace α) (heap : HeapId) (expected found : Stage) :
    Fair stopped (.stageMismatch heap expected found) := ⟨by simp,by simp⟩

theorem fair_truncated (stopped : Trace α) (heap : HeapId) (stage : Stage) :
    Fair stopped (.truncated heap stage) := ⟨by simp,by simp⟩

theorem fair_unbalanced (stopped : Trace α) (heap : HeapId) (finding : Imbalance) :
    Fair stopped (.unbalanced heap stopped.position finding) := by
  refine ⟨by simp,?_⟩
  intro blamed place found same
  cases same
  rfl

inductive Called (replayer : Replayer α) : Answer α × Replayer α → Prop where
  | settled (done : replayer.state = .finished) : Called replayer (none,replayer)
  | observed {seen : Observation α} {after : Replayer α} (live : replayer.state ≠ .finished)
      (follows : replayer.trace.Follows after.trace) (running : after.state ≠ .finished)
      (consumed : after.trace.remaining+2 ≤ replayer.trace.remaining) :
      Called replayer (some (.ok seen),after)
  | refused {e : AnalysisError α} {after : Replayer α} (live : replayer.state ≠ .finished)
      (follows : replayer.trace.Follows after.trace) (done : after.state = .finished)
      (fair : Fair after.trace e) : Called replayer (some (.error e),after)
  | exhausted {after : Replayer α} (live : replayer.state ≠ .finished)
      (follows : replayer.trace.Follows after.trace) (done : after.state = .finished)
      (read : after.trace.ahead = []) : Called replayer (none,after)

theorem Called.follows {before after : Replayer α} {given : Answer α}
    (called : Called before (given,after)) : before.trace.Follows after.trace := by
  cases called with
  | settled => exact .refl _
  | observed _ follows => exact follows
  | refused _ follows => exact follows
  | exhausted _ follows => exact follows

theorem Called.silent {before after : Replayer α} {given : Answer α}
    (called : Called before (given,after)) (silent : ∀ seen, given ≠ some (.ok seen)) :
    after.state = .finished := by
  cases called with
  | settled done => exact done
  | observed => exact absurd rfl (silent _)
  | refused _ _ done => exact done
  | exhausted _ _ done => exact done

theorem Called.fair {before after : Replayer α} {e : AnalysisError α}
    (called : Called before (some (.error e),after)) : Fair after.trace e := by
  cases called with
  | refused _ _ _ fair => exact fair

-- A replay of `events` that has observed some joins and been refused some times: the events of the
-- joins are used up, and a replay that ended without an error has read its list to the end.
structure Progress (events : List (Event α)) (after : Replayer α) (observed refused : Nat) : Prop where
  placed : after.trace.whole = events
  paid : 2*observed+after.trace.remaining ≤ events.length
  clean : after.state ≠ .finished → refused = 0
  once : refused ≤ 1
  read : after.state = .finished → refused = 0 → after.trace.ahead = []

theorem Progress.place {events : List (Event α)} {after : Replayer α} {observed refused : Nat}
    (progress : Progress events after observed refused) :
    after.trace.position + after.trace.remaining = events.length := by
  rw [Cursor.position_add_remaining,progress.placed]

theorem progress_start (heap : HeapId) (events : List (Event α)) (policy : TrailingPolicy) :
    Progress events (start heap events policy) 0 0 :=
  ⟨rfl,by simp [start,Cursor.remaining,Cursor.ofList],fun _ => rfl,Nat.zero_le 1,
    fun done => absurd done (start_live heap events policy)⟩

theorem Progress.call {before after : Replayer α} {given : Answer α} {observed refused : Nat}
    (progress : Progress events before observed refused) (called : Called before (given,after)) :
    Progress events after (observed + if given.isObservation then 1 else 0)
      (refused + if given.isRefusal then 1 else 0) := by
  obtain ⟨placed,paid,clean,once,read⟩ := progress
  have still : after.trace.whole = events := called.follows.whole.trans placed
  cases called with
  | settled done => exact ⟨placed,paid,clean,once,read⟩
  | observed live _ running consumed =>
    have none := clean live
    refine ⟨still,?_,fun _ => none,once,fun done => absurd done running⟩
    simp only [Answer.isObservation,if_true]
    omega
  | refused live follows done =>
    have none := clean live
    have kept := follows.remaining
    refine ⟨still,?_,fun live => absurd done live,?_,fun _ again => ?_⟩
    · simp only [Answer.isObservation,Bool.false_eq_true,if_false]
      omega
    · simp [Answer.isRefusal,none]
    · simp [Answer.isRefusal] at again
  | exhausted live _ done read =>
    have none := clean live
    refine ⟨still,?_,fun live => absurd done live,once,fun _ _ => read⟩
    simp only [Answer.isObservation,Bool.false_eq_true,if_false,Cursor.remaining,read,List.length_nil]
    omega

variable [Scalar α]

theorem next_called (replayer : Replayer α) : Called replayer replayer.next := by
  by_cases done : replayer.state = .finished
  · rw [next,if_pos done]
    exact .settled done
  · have keeps := keeps_found replayer
    have told := found_told replayer
    rw [next,if_neg done]
    generalize met : replayer.found = found at keeps told
    cases told with
    | refused =>
      cases keeps with
      | mismatched heap expected found follows =>
        exact .refused done follows rfl (fair_mismatch ..)
      | unbalanced heap finding follows => exact .refused done follows rfl (fair_unbalanced ..)
    | joined =>
      cases keeps with
      | passed follows => exact .observed done follows (by simp) (found_joined_consumes met)
    | unended read =>
      cases keeps with
      | passed follows =>
        dsimp only
        split
        · exact .exhausted done follows rfl read
        · exact .refused done follows rfl (fair_truncated ..)
    | exhausted read =>
      cases keeps with
      | passed follows => exact .exhausted done follows rfl read

theorem next_finished {replayer : Replayer α} (done : replayer.state = .finished) :
    replayer.next = (none,replayer) := by rw [next,if_pos done]

def afterCalls (replayer : Replayer α) : Nat → Replayer α
  | 0 => replayer
  | n+1 => (replayer.afterCalls n).next.2

def answer (replayer : Replayer α) (n : Nat) : Answer α := (replayer.afterCalls n).next.1

def answered (replayer : Replayer α) (kind : Answer α → Bool) (n : Nat) : Nat :=
  (List.range n).countP fun k => kind (replayer.answer k)

theorem answered_succ (replayer : Replayer α) (kind : Answer α → Bool) (n : Nat) :
    replayer.answered kind (n+1) =
      replayer.answered kind n + if kind (replayer.answer n) then 1 else 0 := by
  simp [answered,List.range_succ,List.countP_append,List.countP_cons]

theorem answered_none {replayer : Replayer α} {kind : Answer α → Bool} {n : Nat}
    (none : ∀ k < n, kind (replayer.answer k) = false) : replayer.answered kind n = 0 := by
  refine List.countP_eq_zero.mpr fun k member => ?_
  simp [none k (List.mem_range.mp member)]

theorem answered_clean {replayer : Replayer α} {n : Nat} (ended : replayer.answer n = none)
    (clean : ∀ k < n, ∀ e, replayer.answer k ≠ some (.error e)) :
    replayer.answered Answer.isRefusal (n+1) = 0 := by
  refine answered_none fun k before => ?_
  rcases Nat.lt_succ_iff_lt_or_eq.mp before with earlier | rfl
  · cases given : replayer.answer k with
    | none => rfl
    | some answer =>
      cases answer with
      | ok => rfl
      | error e => exact absurd given (clean k earlier e)
  · rw [ended]
    rfl

theorem afterCalls_finished {replayer : Replayer α} {n : Nat}
    (done : (replayer.afterCalls n).state = .finished) {later : Nat} (behind : n ≤ later) :
    replayer.afterCalls later = replayer.afterCalls n := by
  induction later, behind using Nat.le_induction with
  | base => rfl
  | succ later _ ih => rw [afterCalls,ih,next_finished done]

theorem progress_calls (heap : HeapId) (events : List (Event α)) (policy : TrailingPolicy) (n : Nat) :
    Progress events ((start heap events policy).afterCalls n)
      ((start heap events policy).answered Answer.isObservation n)
      ((start heap events policy).answered Answer.isRefusal n) := by
  induction n with
  | zero => exact progress_start heap events policy
  | succ n ih =>
    rw [answered_succ,answered_succ]
    exact ih.call (next_called _)

end Replayer

theorem calls_settle {α : Type} [Scalar α] (heap : HeapId) (events : List (Event α))
    (policy : TrailingPolicy) :
    let replayer := Replayer.start heap events policy
    (∀ n, (replayer.afterCalls n).trace.whole = events ∧
      (replayer.afterCalls n).trace.position ≤ events.length ∧
      (replayer.afterCalls n).trace.position ≤ (replayer.afterCalls (n+1)).trace.position ∧
      (replayer.afterCalls n).foundWithin (events.length+1) = some (replayer.afterCalls n).found ∧
      (∀ position, replayer.answer n ≠ some (.error (.stepBackRefused position))) ∧
      (∀ blamed index finding, replayer.answer n = some (.error (.unbalanced blamed index finding)) →
        index = (replayer.afterCalls (n+1)).trace.position ∧ index ≤ events.length) ∧
      replayer.answered Replayer.Answer.isObservation n ≤ events.length/2 ∧
      replayer.answered Replayer.Answer.isRefusal n ≤ 1) ∧
    (∀ n, (∀ seen, replayer.answer n ≠ some (.ok seen)) → ∀ later, n < later →
      replayer.answer later = none ∧ replayer.afterCalls later = replayer.afterCalls (n+1)) ∧
    ∀ n, replayer.answer n = none → (∀ k < n, ∀ e, replayer.answer k ≠ some (.error e)) →
      (replayer.afterCalls (n+1)).trace.isExhausted := by
  intro replayer
  have progress (n : Nat) : Replayer.Progress events (replayer.afterCalls n)
      (replayer.answered Replayer.Answer.isObservation n)
      (replayer.answered Replayer.Answer.isRefusal n) :=
    Replayer.progress_calls heap events policy n
  have called (n : Nat) : Replayer.Called (replayer.afterCalls n)
      (replayer.answer n,replayer.afterCalls (n+1)) := Replayer.next_called _
  refine ⟨?_,?_,?_⟩
  · intro n
    have here := (progress n).place
    have next := (progress (n+1)).place
    have onward := (called n).follows.remaining
    have paid := (progress n).paid
    refine ⟨(progress n).placed,by omega,by omega,Replayer.foundWithin_eq (by omega),?_,?_,by omega,
      (progress n).once⟩
    · intro position given
      exact (given ▸ called n).fair.steps position rfl
    · intro blamed index finding given
      have named := (given ▸ called n).fair.place blamed index finding rfl
      exact ⟨named,by omega⟩
  · intro n silent later behind
    have done := (called n).silent silent
    have same := Replayer.afterCalls_finished done behind
    refine ⟨?_,same⟩
    rw [Replayer.answer,same,Replayer.next_finished done]
  · intro n ended clean
    have done := (called n).silent (by simp [ended])
    have read := (progress (n+1)).read done (Replayer.answered_clean ended clean)
    simp [Cursor.isExhausted,Cursor.remaining,read]

theorem calls_settle_sample :
    (Replayer.start 0 Sample.mismatched .any).answer 1 =
      some (.error (.stageMismatch 0 .beginMarkPhase .done)) ∧
    ((Replayer.start 0 Sample.mismatched .any).afterCalls 2).trace.position = 7 ∧
    (Replayer.start 0 Sample.mismatched .any).answer 7 = none ∧
    ((Replayer.start 0 Sample.mismatched .any).afterCalls 7).trace.position = 7 ∧
    (Replayer.start 0 Sample.trace .doneOnly).answer 3 = none ∧
    ((Replayer.start 0 Sample.trace .doneOnly).afterCalls 4).trace.isExhausted ∧
    ((Replayer.start 0 Sample.trace .doneOnly).afterCalls 9).truncatedStage = some .done := by
  have refused : (Replayer.start 0 Sample.mismatched .any).answer 1 =
      some (.error (.stageMismatch 0 .beginMarkPhase .done)) := by decide +kernel
  have reached : ((Replayer.start 0 Sample.mismatched .any).afterCalls 2).trace.position = 7 := by
    decide +kernel
  have ended : (Replayer.start 0 Sample.trace .doneOnly).answer 3 = none := by decide +kernel
  have dropped : ((Replayer.start 0 Sample.trace .doneOnly).afterCalls 4).truncatedStage =
      some .done := by decide +kernel
  have clean : ∀ k < 3, ∀ e, (Replayer.start 0 Sample.trace .doneOnly).answer k ≠
      some (.error e) := by
    have observed : ∀ k < 3, ((Replayer.start 0 Sample.trace .doneOnly).answer k).isRefusal =
        false := by decide +kernel
    intro k early e given
    have told := observed k early
    rw [given] at told
    cases told
  obtain ⟨_,silent,_⟩ := calls_settle 0 Sample.mismatched .any
  obtain ⟨_,settled,read⟩ := calls_settle 0 Sample.trace .doneOnly
  have none := (silent 1 (by simp [refused]) 7 (by decide)).1
  have stopped := (silent 1 (by simp [refused]) 7 (by decide)).2
  have same := (settled 3 (by simp [ended]) 9 (by decide)).2
  exact ⟨refused,reached,none,stopped ▸ reached,ended,read 3 ended clean,same ▸ dropped⟩

end JoinTrace
