import JoinTrace.Proofs.ReplayScan
import JoinTrace.Proofs.TrailingPolicy

-- A restart of another heap may stand between any two joins, or within a join that waits: the replay
-- goes on behind it as if it were not there. Only the places that later findings name move up.
namespace JoinTrace

def AnalysisError.later {α : Type} (more : Nat) : AnalysisError α → AnalysisError α
  | .unbalanced heap index finding => .unbalanced heap (index+more) finding
  | e => e

def Outcome.later {α : Type} (more : Nat) (outcome : Outcome α) : Outcome α :=
  (outcome.1,outcome.2.map (·.later more))

namespace Stand
variable {α : Type} {heap : HeapId} {policy : TrailingPolicy} {index : Nat}

theorem stop_later (more : Nat) (stand : Stand α) :
    stand.stop heap policy (index+more) = (stand.stop heap policy index).map (·.later more) := by
  have cut (stage : Stage) : (unendedError heap policy stage : Option (AnalysisError α)) =
      (unendedError heap policy stage).map (·.later more) := by
    unfold unendedError
    split <;> rfl
  cases stand with
  | unopened | opening | ready | initial => rfl
  | waiting start | alone start | restarting start => exact cut start.stage

-- Where another heap's restart may begin: no join is under way, and no event is still due.
inductive Resting : Stand α → Prop where
  | opening : Resting .opening
  | ready (loose : Bool) : Resting (.ready loose)

theorem resting_of_stop {stand : Stand α} (entered : stand ≠ .unopened)
    (stopped : stand.stop heap .strict index = none) : stand.Resting := by
  cases stand with
  | unopened => exact absurd rfl entered
  | opening => exact .opening
  | ready loose => exact .ready loose
  | initial | waiting | alone | restarting => cases stopped

variable [Scalar α]

theorem advance_later (more : Nat) (event : Event α) (stand : Stand α) :
    stand.advance heap (index+more) event =
      (stand.advance heap index event).mapError (·.later more) := by
  cases reads_advance heap event stand with
  | moved _ same => rw [same (index+more),same index]; rfl
  | mismatched same => rw [same (index+more),same index]; rfl
  | refused same => rw [same (index+more),same index]; rfl

theorem advance_entered {stand next : Stand α} {event : Event α} {seen : List (Observation α)}
    (advanced : stand.advance heap index event = .ok (seen,next)) : next ≠ .unopened := by
  cases reads_advance heap event stand with
  | moved entered same =>
    cases (same index).symm.trans advanced
    exact entered
  | mismatched same => cases (same index).symm.trans advanced
  | refused same => cases (same index).symm.trans advanced

theorem Resting.advance_start {stand : Stand α} (resting : stand.Resting) {event : Event α}
    (starts : event.edge = .start) (index : Nat) :
    stand.advance heap index event = beginJoin heap index event := by
  obtain ⟨notRestart,notJoin⟩ := Event.not_isEnd starts
  cases resting with
  | opening => simp [advance,notRestart,notJoin]
  | ready loose => simp [advance,notRestart]

end Stand

section Scan
open Stand TraceGrammar
variable {α : Type} [Scalar α] {heap : HeapId} {policy : TrailingPolicy}

theorem scan_cons {stand next : Stand α} {index : Nat} {event : Event α}
    {seen : List (Observation α)} (advanced : stand.advance heap (index+1) event = .ok (seen,next))
    (rest : List (Event α)) :
    scan heap policy stand index (event :: rest) =
      (scan heap policy next (index+1) rest).following seen := by
  rw [scan,advanced]

theorem scan_later (more : Nat) (stand : Stand α) (index : Nat) (events : List (Event α)) :
    scan heap policy stand (index+more) events =
      (scan heap policy stand index events).later more := by
  -- On the events, with the stand they are read at left open.
  induction events generalizing stand index with
  | nil => exact congrArg ([],·) (stop_later more stand)
  | cons event rest ih =>
    have advanced : stand.advance heap (index+more+1) event =
        (stand.advance heap (index+1) event).mapError (·.later more) := by
      rw [Nat.add_right_comm]
      exact advance_later more event stand
    rw [scan,scan,advanced]
    cases stand.advance heap (index+1) event with
    | error e => rfl
    | ok read =>
      obtain ⟨seen,next⟩ := read
      change (scan heap policy next (index+more+1) rest).following seen = _
      rw [Nat.add_right_comm,ih]
      rfl

-- Whatever follows a list that is accepted is read from one stand, the same under every policy.
theorem scan_append {stand : Stand α} {index : Nat} {first : List (Event α)}
    (entered : first = [] → stand ≠ .unopened) (clean : (scan heap .strict stand index first).2 = none) :
    ∃ seen next, Resting next ∧ ∀ policy rest,
      scan heap policy stand index (first ++ rest) =
        (scan heap policy next (index+first.length) rest).following seen := by
  induction first generalizing stand index with
  | nil => exact ⟨[],stand,resting_of_stop (entered rfl) clean,fun policy rest => rfl⟩
  | cons event first ih =>
    cases advanced : stand.advance heap (index+1) event with
    | error e =>
      rw [scan,advanced] at clean
      cases clean
    | ok read =>
      obtain ⟨seen,next⟩ := read
      rw [scan_cons advanced] at clean
      obtain ⟨later,last,resting,read⟩ := ih (fun _ => advance_entered advanced) clean
      refine ⟨seen ++ later,last,resting,?_⟩
      intro policy rest
      rw [List.cons_append,scan_cons advanced,read,List.length_cons,Nat.add_right_comm index]
      simp [Outcome.following,Nat.add_assoc]

theorem scan_resting {stand : Stand α} (resting : stand.Resting) {rest : List (Event α)}
    (fresh : Fresh rest) (index : Nat) :
    scan heap policy stand index rest = scan heap policy (.ready false) index rest := by
  cases rest with
  | nil => cases resting <;> rfl
  | cons event rest =>
    have starts := fresh_cons.mp fresh
    rw [scan,scan,resting.advance_start starts,(Resting.ready false).advance_start starts]

-- A join that waits has come to the same whether or not a restart went by, unless one begins now.
theorem scan_waiting (start : Event α) {rest : List (Event α)}
    (calm : ∀ event ∈ rest.head?, ¬ event.isRestartStart) (index : Nat) :
    scan heap policy (.waiting start .left) index rest =
      scan heap policy (.waiting start .untouched) index rest := by
  cases rest with
  | nil => rfl
  | cons event rest =>
    have other : event.isRestartStart = false := by simpa using calm event rfl
    rw [scan,scan,advance,advance,if_neg (by simp [other])]

variable {first last : Event α}

theorem scan_between {stand : Stand α} (resting : stand.Resting) (starts : first.isRestartStart)
    (ends : last.isRestartEnd) {rest : List (Event α)} (fresh : Fresh rest) (index : Nat) :
    scan heap policy stand index ([first, last] ++ rest) =
      (scan heap policy stand index rest).later 2 := by
  have begins : stand.advance heap (index+1) first = .ok ([],.ready true) := by
    rw [resting.advance_start (Event.isRestartStart_iff.mp starts).2,beginJoin,if_pos starts]
  have closes : (ready true).advance heap (index+1+1) last = .ok ([],.ready false) := by
    simp [advance,ends]
  rw [scan_resting resting fresh,← scan_later]
  exact (scan_cons begins _).trans (scan_cons closes rest)

theorem scan_within (start : Event α) (starts : first.isRestartStart) (ends : last.isRestartEnd)
    {rest : List (Event α)} (calm : ∀ event ∈ rest.head?, ¬ event.isRestartStart) (index : Nat) :
    scan heap policy (.waiting start .untouched) index ([first, last] ++ rest) =
      (scan heap policy (.waiting start .untouched) index rest).later 2 := by
  have begins : (waiting start .untouched).advance heap (index+1) first =
      .ok ([],.waiting start .entered) := by
    simp [advance,starts]
  have closes : (waiting start .entered).advance heap (index+1+1) last =
      .ok ([],.waiting start .left) := by
    simp [advance,ends]
  rw [← scan_later,← scan_waiting start calm]
  exact (scan_cons begins _).trans (scan_cons closes rest)

end Scan

section Dropped
open TraceGrammar
variable {α : Type}

def droppedStage (policy : TrailingPolicy) : Option (AnalysisError α) → Option Stage
  | some (.truncated _ stage) => if policy.tolerates stage then some stage else none
  | _ => none

theorem droppedStage_later (policy : TrailingPolicy) (more : Nat)
    (failure : Option (AnalysisError α)) :
    droppedStage policy (failure.map (·.later more)) = droppedStage policy failure := by
  cases failure with
  | none => rfl
  | some e => cases e <;> rfl

theorem Ending.Under.dropped_eq {heap : HeapId} {policy : TrailingPolicy} {ending : Ending α}
    {failure refusal : Option (AnalysisError α)} {dropped kept : Option Stage}
    (under : ending.Under heap policy failure dropped)
    (strict : ending.Under heap .strict refusal kept) : dropped = droppedStage policy refusal := by
  cases under with
  | complete => cases strict; rfl
  | refused malformed =>
    cases strict
    cases malformed <;> rfl
  | dropped tolerated =>
    obtain ⟨rfl,_⟩ := strict.of_untolerated id
    exact (if_pos (tolerates_iff.mpr tolerated)).symm
  | truncated untolerated =>
    obtain ⟨rfl,_⟩ := strict.of_untolerated id
    exact (if_neg (mt tolerates_iff.mp untolerated)).symm

end Dropped

namespace Replayer
open TraceGrammar
variable {α : Type}

structure Delayed (more : Nat) (run longer : Run α) : Prop where
  given : longer.1 = run.1
  ended : longer.2.1 = run.2.1.map (·.later more)
  dropped : longer.2.2.truncatedStage = run.2.2.truncatedStage

variable [Scalar α] {heap : HeapId}

theorem truncatedStage_eq (heap : HeapId) (events : List (Event α)) (policy : TrailingPolicy) :
    (start heap events policy).run.2.2.truncatedStage =
      droppedStage policy (start heap events .strict).run.2.1 := by
  obtain ⟨_,_,ends⟩ := ends_under (start heap events policy) (start_live heap events policy) rfl
  exact (ends policy).ended.dropped_eq (ends .strict).ended

theorem delayed_of_scan {events longer : List (Event α)} {more : Nat}
    (scans : ∀ policy, scan heap policy .unopened 0 longer =
      (scan heap policy .unopened 0 events).later more) (policy : TrailingPolicy) :
    Delayed more (start heap events policy).run (start heap longer policy).run := by
  have told (policy : TrailingPolicy) : (start heap longer policy).outcome =
      (start heap events policy).outcome.later more := by
    rw [outcome_scan,outcome_scan,scans]
  obtain ⟨given,ended⟩ := Prod.mk.inj (told policy)
  obtain ⟨_,strict⟩ := Prod.mk.inj (told .strict)
  refine ⟨given,ended,?_⟩
  rw [truncatedStage_eq,truncatedStage_eq,strict]
  exact droppedStage_later policy more _

end Replayer

theorem foreign_restart_passes {α : Type} [Scalar α] {heap : HeapId} {front : List (Event α)}
    (begun : front ≠ []) (accepted : (Replayer.start heap front .strict).run.2.1 = none)
    {first last : Event α} (starts : first.isRestartStart) (ends : last.isRestartEnd)
    (policy : TrailingPolicy) :
    (∀ rest, TraceGrammar.Fresh rest →
      Replayer.Delayed 2 (Replayer.start heap (front ++ rest) policy).run
        (Replayer.start heap (front ++ [first, last] ++ rest) policy).run) ∧
    ∀ join rest, join.isJoinStart → (∀ event ∈ rest.head?, ¬ event.isRestartStart) →
      Replayer.Delayed 2 (Replayer.start heap (front ++ [join] ++ rest) policy).run
        (Replayer.start heap (front ++ [join, first, last] ++ rest) policy).run := by
  have clean : (scan heap .strict .unopened 0 front).2 = none :=
    (congrArg Prod.snd (Replayer.outcome_scan heap front .strict)).symm.trans accepted
  obtain ⟨seen,stand,resting,read⟩ := scan_append (fun none => absurd none begun) clean
  refine ⟨?_,?_⟩
  · intro rest fresh
    refine Replayer.delayed_of_scan (fun policy => ?_) policy
    rw [List.append_assoc,read,read,scan_between resting starts ends fresh]
    rfl
  · intro join rest joins calm
    refine Replayer.delayed_of_scan (fun policy => ?_) policy
    obtain ⟨kind,edge⟩ := Event.isJoinStart_iff.mp joins
    have waits : stand.advance heap (0+front.length+1) join = .ok ([],.waiting join .untouched) := by
      have own : join.isRestartStart = false := (Event.not_isRestart (by simp [kind])).1
      simp [resting.advance_start edge,Stand.beginJoin,own,edge,kind]
    rw [List.append_assoc,List.append_assoc,read,read]
    simp only [List.cons_append,List.nil_append]
    rw [scan_cons waits,scan_cons waits]
    exact congrArg (Outcome.following · seen) (scan_within join starts ends calm _)

namespace Sample

def settled : List (Event ℚ) := trace.take 10

def overtaken : List (Event ℚ) := [join .start .done 40, join .start .beginMarkPhase 41]

end Sample

theorem foreign_restart_passes_sample :
    (Replayer.start 0 Sample.settled .strict).run.2.1 = none ∧
    (Replayer.start 0 (Sample.settled ++ Sample.overtaken) .any).run.2.1 =
      some (.unbalanced 0 12 (.noJoinEnd .done .join .start .beginMarkPhase)) ∧
    (Replayer.start 0 (Sample.settled ++ [Sample.restart .start 36, Sample.restart .finish 37] ++
        Sample.overtaken) .any).run.2.1 =
      some (.unbalanced 0 14 (.noJoinEnd .done .join .start .beginMarkPhase)) ∧
    (Replayer.start 0 (Sample.settled ++ [Sample.join .start .done 40, Sample.restart .start 36,
        Sample.restart .finish 37] ++ []) .doneOnly).run.2.2.truncatedStage = some .done := by
  have clean : (Replayer.start 0 Sample.settled .strict).run.2.1 = none := by decide +kernel
  have refused : (Replayer.start 0 (Sample.settled ++ Sample.overtaken) .any).run.2.1 =
      some (.unbalanced 0 12 (.noJoinEnd .done .join .start .beginMarkPhase)) := by decide +kernel
  have dropped : (Replayer.start 0 (Sample.settled ++ [Sample.join .start .done 40] ++ [])
      .doneOnly).run.2.2.truncatedStage = some .done := by decide +kernel
  have starts : (Sample.restart .start 36).isRestartStart := rfl
  have ends : (Sample.restart .finish 37).isRestartEnd := rfl
  obtain ⟨between,_⟩ := foreign_restart_passes (by decide) clean starts ends .any
  obtain ⟨_,within⟩ := foreign_restart_passes (by decide) clean starts ends .doneOnly
  have later := (between Sample.overtaken (TraceGrammar.fresh_cons.mpr rfl)).ended
  have cut := (within (Sample.join .start .done 40) [] rfl (by simp)).dropped
  rw [refused] at later
  exact ⟨clean,refused,later,cut.trans dropped⟩

end JoinTrace
