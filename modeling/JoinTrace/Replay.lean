import JoinTrace.Config
import JoinTrace.Cursor
import JoinTrace.Error

-- Replay of one heap's events into the time it spent in each join. A heap's list is in time
-- order, but restarts fired by other heaps' threads stand between its own events. How a join ends
-- depends on how it was entered: a plain join waits for its own join end, whereas the last joiner
-- and the first right-joiner end when they restart the others.
namespace JoinTrace

namespace Replay
variable {α : Type}

abbrev Trace (α : Type) := Cursor (Event α)

structure Stop (α : Type) where
  error : AnalysisError α
  trace : Trace α

-- The index of a finding is that of the event after the culprit.
def unbalanced {β : Type} (heap : HeapId) (trace : Trace α) (finding : Imbalance) :
    Except (Stop α) β :=
  .error ⟨.unbalanced heap trace.position finding,trace⟩

def expectStage (heap : HeapId) (expected : Stage) (event : Event α) :
    Except (AnalysisError α) Unit :=
  if event.stage = expected then .ok () else .error (.stageMismatch heap expected event.stage)

def giveBack (trace : Trace α) : Except (Stop α) (Trace α) :=
  match trace.stepBack with
  | some earlier => .ok earlier
  | none => .error ⟨.stepBackRefused trace.position,trace⟩

def passOpening (heap : HeapId) (trace : Trace α) : Except (Stop α) (Trace α) :=
  match _read : trace.next with
  | none => .ok trace
  | some (event,after) =>
    if event.isJoinEnd then
      match expectStage heap .generationDetermined event with
      | .error e => .error ⟨e,after⟩
      | .ok () => passOpening heap after
    else if event.isRestartEnd then passOpening heap after
    else giveBack after
termination_by trace.remaining
decreasing_by all_goals exact Cursor.next_remaining ‹_›

-- `generation_determined` is joined before tracing starts, so a trace may hold only its tail.
-- Whether it began as a join or as a last join is then unknown, hence all of it is discarded.
def passInitial (heap : HeapId) (trace : Trace α) : Except (Stop α) (Trace α) :=
  match trace.next with
  | none => .ok trace
  | some (first,trace) =>
    if first.isRestartStart then passOpening heap trace
    else if first.isJoinStart then
      match expectStage heap .generationDetermined first with
      | .error e => .error ⟨e,trace⟩
      | .ok () =>
        match trace.next with
        | none => unbalanced heap trace .initialWithoutEnd
        | some (last,trace) =>
          if last.isJoinEnd then
            match expectStage heap .generationDetermined last with
            | .error e => .error ⟨e,trace⟩
            | .ok () => .ok trace
          else unbalanced heap trace (.initialNotEnded last.kind last.edge)
    else if first.isJoinEnd then
      match expectStage heap .generationDetermined first with
      | .error e => .error ⟨e,trace⟩
      | .ok () => .ok trace
    else unbalanced heap trace (.strayOpening first.kind first.edge first.stage)

-- A restart end follows its start at once or later, being fired from another thread.
def passRestartEnd (trace : Trace α) : Except (Stop α) (Trace α) :=
  match trace.next with
  | none => .ok trace
  | some (event,after) => if event.isRestartEnd then .ok after else giveBack after

def nextBeyondRestart (trace : Trace α) : Option (Event α) × Trace α :=
  match trace.next with
  | none => (none,trace)
  | some (event,trace) =>
    if event.isRestartStart then
      match trace.next with
      | none => (none,trace)
      | some (second,trace) =>
        if second.isRestartEnd then
          match trace.next with
          | none => (none,trace)
          | some (third,trace) => (some third,trace)
        else (some second,trace)
    else (some event,trace)

def restartPairEnd (heap : HeapId) (trace : Trace α) :
    Except (Stop α) (Option (Event α) × Trace α) :=
  match trace.next with
  | none => .ok (none,trace)
  | some (first,trace) =>
    if first.isRestartStart then
      match trace.next with
      | none => .ok (none,trace)
      | some (last,trace) =>
        if last.isRestartEnd then .ok (some last,trace)
        else unbalanced heap trace (.noRestartEnd last.kind last.edge last.stage)
    else unbalanced heap trace (.noRestartStart first.kind first.edge first.stage)

def endOf (heap : HeapId) (start : Event α) (trace : Trace α) :
    Except (Stop α) (Option (Event α) × Trace α) :=
  match start.kind with
  | .lastJoin | .firstRJoin => restartPairEnd heap trace
  | .join =>
    match nextBeyondRestart trace with
    | (none,trace) => .ok (none,trace)
    | (some last,trace) =>
      if last.isJoinEnd then
        match expectStage heap start.stage last with
        | .error e => .error ⟨e,trace⟩
        | .ok () =>
          match passRestartEnd trace with
          | .error stop => .error stop
          | .ok trace => .ok (some last,trace)
      else unbalanced heap trace (.noJoinEnd start.stage last.kind last.edge last.stage)
  | .restart => unbalanced heap trace .restartAsJoin

inductive Finding (α : Type) where
  | joined (start last : Event α) (trace : Trace α)
  | unended (start : Event α) (trace : Trace α)
  | exhausted (trace : Trace α)

section Places
variable {β : Type} {heap : HeapId} {origin trace after : Trace α} {event : Event α}
  {place : β → Trace α} {result : Except (Stop α) β}

theorem giveBack_read {trace after : Trace α} {event : Event α}
    (read : trace.next = some (event,after)) :
    giveBack after = .ok { trace with canStepBack := false } := by
  simp [giveBack,Cursor.stepBack_next read]

theorem passRestartEnd_ok (trace : Trace α) : ∃ after, passRestartEnd trace = .ok after := by
  unfold passRestartEnd
  split
  · exact ⟨trace,rfl⟩
  · rename_i event after read
    split
    · exact ⟨after,rfl⟩
    · exact ⟨_,giveBack_read read⟩

-- What a reader comes to from `origin`: a place behind it, or an error beside such a place, which
-- is the one that an imbalance names. No reader is refused a step back.
inductive Keeps (origin : Trace α) (place : β → Trace α) : Except (Stop α) β → Prop where
  | passed {result : β} (follows : origin.Follows (place result)) : Keeps origin place (.ok result)
  | mismatched {reached : Trace α} (heap : HeapId) (expected found : Stage)
      (follows : origin.Follows reached) :
      Keeps origin place (.error ⟨.stageMismatch heap expected found,reached⟩)
  | unbalanced {reached : Trace α} (heap : HeapId) (finding : Imbalance)
      (follows : origin.Follows reached) :
      Keeps origin place (.error ⟨.unbalanced heap reached.position finding,reached⟩)

theorem Keeps.behind (keeps : Keeps trace place result) (follows : origin.Follows trace) :
    Keeps origin place result := by
  cases keeps with
  | passed later => exact .passed (follows.trans later)
  | mismatched heap expected found later => exact .mismatched heap expected found (follows.trans later)
  | unbalanced heap finding later => exact .unbalanced heap finding (follows.trans later)

theorem Keeps.follows {result : β} (keeps : Keeps origin place (.ok result)) :
    origin.Follows (place result) := by
  cases keeps with
  | passed follows => exact follows

theorem keeps_unbalanced (follows : origin.Follows trace) (finding : Imbalance) :
    Keeps origin place (unbalanced heap trace finding) := .unbalanced heap finding follows

theorem keeps_refused {expected : Stage} {e : AnalysisError α}
    (refused : expectStage heap expected event = .error e) (follows : origin.Follows trace) :
    Keeps origin place (.error ⟨e,trace⟩) := by
  unfold expectStage at refused
  split at refused
  · cases refused
  · cases refused
    exact .mismatched _ _ _ follows

theorem keeps_giveBack (read : trace.next = some (event,after)) :
    Keeps trace id (giveBack after) := by
  rw [giveBack_read read]
  exact .passed ⟨rfl,Nat.le_refl _⟩

theorem keeps_passRestartEnd (trace : Trace α) : Keeps trace id (passRestartEnd trace) := by
  unfold passRestartEnd
  split
  · exact .passed (.refl trace)
  · rename_i event after read
    split
    · exact .passed (Cursor.follows_next read)
    · exact keeps_giveBack read

theorem follows_passRestartEnd (passed : passRestartEnd trace = .ok after) :
    trace.Follows after := by
  have keeps := keeps_passRestartEnd trace
  rw [passed] at keeps
  exact keeps.follows

end Places

-- A restart in the place of a join start is another heap's: our own follows our own last join.
def step (heap : HeapId) (trace : Trace α) : Except (Stop α) (Finding α) :=
  match _read : trace.next with
  | none => .ok (.exhausted trace)
  | some (start,after) =>
    if start.isRestartStart then
      match _passed : passRestartEnd after with
      | .error stop => .error stop
      | .ok rest => step heap rest
    else if start.edge = .start then
      match endOf heap start after with
      | .error stop => .error stop
      | .ok (none,rest) => .ok (.unended start rest)
      | .ok (some last,rest) => .ok (.joined start last rest)
    else unbalanced heap after (.strayEnd start.kind start.stage)
termination_by trace.remaining
decreasing_by
  exact Nat.lt_of_le_of_lt (follows_passRestartEnd ‹_›).remaining (Cursor.next_remaining ‹_›)

section Places
variable {heap : HeapId} {trace after : Trace α}

theorem keeps_passOpening (heap : HeapId) (trace : Trace α) :
    Keeps trace id (passOpening heap trace) := by
  fun_induction passOpening heap trace with
  | case1 trace => exact .passed (.refl trace)
  | case2 trace event after read ends e refused =>
    exact keeps_refused refused (Cursor.follows_next read)
  | case3 trace event after read ends checked ih => exact ih.behind (Cursor.follows_next read)
  | case4 trace event after read other ends ih => exact ih.behind (Cursor.follows_next read)
  | case5 trace event after read => exact keeps_giveBack read

theorem keeps_passInitial (heap : HeapId) (trace : Trace α) :
    Keeps trace id (passInitial heap trace) := by
  unfold passInitial
  split
  · exact .passed (.refl trace)
  · rename_i first after read
    have further := Cursor.follows_next read
    split
    · exact (keeps_passOpening heap after).behind further
    · split
      · split
        · rename_i refused
          exact keeps_refused refused further
        · split
          · exact keeps_unbalanced further _
          · rename_i last rest reread
            have beyond := further.trans (Cursor.follows_next reread)
            split
            · split
              · rename_i refused
                exact keeps_refused refused beyond
              · exact .passed beyond
            · exact keeps_unbalanced beyond _
      · split
        · split
          · rename_i refused
            exact keeps_refused refused further
          · exact .passed further
        · exact keeps_unbalanced further _

theorem follows_nextBeyondRestart (trace : Trace α) :
    trace.Follows (nextBeyondRestart trace).2 := by
  unfold nextBeyondRestart
  split
  · exact .refl trace
  · rename_i first after read
    have further := Cursor.follows_next read
    split
    · split
      · exact further
      · rename_i second rest reread
        have beyond := further.trans (Cursor.follows_next reread)
        split
        · split
          · exact beyond
          · rename_i third last final
            exact beyond.trans (Cursor.follows_next final)
        · exact beyond
    · exact further

theorem keeps_restartPairEnd (heap : HeapId) (trace : Trace α) :
    Keeps trace Prod.snd (restartPairEnd heap trace) := by
  unfold restartPairEnd
  split
  · exact .passed (.refl trace)
  · rename_i first after read
    have further := Cursor.follows_next read
    split
    · split
      · exact .passed further
      · rename_i last rest reread
        have beyond := further.trans (Cursor.follows_next reread)
        split
        · exact .passed beyond
        · exact keeps_unbalanced beyond _
    · exact keeps_unbalanced further _

theorem keeps_endOf (heap : HeapId) (start : Event α) (trace : Trace α) :
    Keeps trace Prod.snd (endOf heap start trace) := by
  unfold endOf
  split
  · exact keeps_restartPairEnd heap trace
  · exact keeps_restartPairEnd heap trace
  · have looked := follows_nextBeyondRestart trace
    generalize nextBeyondRestart trace = seen at looked
    obtain ⟨found,rest⟩ := seen
    cases found with
    | none => exact .passed looked
    | some last =>
      dsimp only
      split
      · split
        · rename_i refused
          exact keeps_refused refused looked
        · obtain ⟨after,passed⟩ := passRestartEnd_ok rest
          simp only [passed]
          exact .passed (looked.trans (follows_passRestartEnd passed))
      · exact keeps_unbalanced looked _
  · exact keeps_unbalanced (.refl trace) _

def Finding.reached : Finding α → Trace α
  | .joined _ _ trace | .unended _ trace | .exhausted trace => trace

theorem keeps_step (heap : HeapId) (trace : Trace α) :
    Keeps trace Finding.reached (step heap trace) := by
  fun_induction step heap trace with
  | case1 trace => exact .passed (.refl trace)
  | case2 trace start after read starts stop refused =>
    obtain ⟨_,passed⟩ := passRestartEnd_ok after
    cases passed.symm.trans refused
  | case3 trace start after read starts rest passed ih =>
    exact ih.behind ((Cursor.follows_next read).trans (follows_passRestartEnd passed))
  | case4 trace start after read own starts stop refused =>
    have ends := (keeps_endOf heap start after).behind (Cursor.follows_next read)
    rw [refused] at ends
    cases ends with
    | mismatched heap expected found follows => exact .mismatched heap expected found follows
    | unbalanced heap finding follows => exact .unbalanced heap finding follows
  | case5 trace start after read own starts rest ended =>
    have ends := (keeps_endOf heap start after).behind (Cursor.follows_next read)
    rw [ended] at ends
    cases ends with
    | passed follows => exact .passed follows
  | case6 trace start after read own starts last rest ended =>
    have ends := (keeps_endOf heap start after).behind (Cursor.follows_next read)
    rw [ended] at ends
    cases ends with
    | passed follows => exact .passed follows
  | case7 trace start after read => exact keeps_unbalanced (Cursor.follows_next read) _

theorem step_joined_remaining {heap : HeapId} {trace after : Trace α} {start last : Event α}
    (met : step heap trace = .ok (.joined start last after)) :
    after.remaining < trace.remaining := by
  fun_induction step heap trace with
  | case1 => cases met
  | case2 => cases met
  | case3 trace first next read isRestart rest passed ih =>
    have kept := (follows_passRestartEnd passed).remaining
    exact Nat.lt_trans (ih met) (Nat.lt_of_le_of_lt kept (Cursor.next_remaining read))
  | case4 => cases met
  | case5 => cases met
  | case6 trace start next read notRestart isStart found rest ended =>
    cases met
    have keeps := keeps_endOf heap start next
    rw [ended] at keeps
    exact Nat.lt_of_le_of_lt keeps.follows.remaining (Cursor.next_remaining read)
  | case7 => cases met

end Places

end Replay

end JoinTrace
