import JoinTrace.Proofs.ReplayGrammar

-- What the readers of a replay give when more events follow the list. Each is settled by the
-- events it reads: those that follow matter only to a reader that came to the end of the list.
namespace JoinTrace

inductive AnalysisError.Malformed {α : Type} : AnalysisError α → Prop where
  | unbalanced (heap : HeapId) (index : Nat) (finding : Imbalance) :
      Malformed (.unbalanced heap index finding)
  | stageMismatch (heap : HeapId) (expected found : Stage) :
      Malformed (.stageMismatch heap expected found)

namespace Cursor
variable {ε : Type}

def followedBy (cursor : Cursor ε) (more : List ε) : Cursor ε :=
  { cursor with ahead := cursor.ahead ++ more }

theorem next_followedBy {cursor after : Cursor ε} {entry : ε}
    (read : cursor.next = some (entry,after)) (more : List ε) :
    (cursor.followedBy more).next = some (entry,after.followedBy more) := by
  unfold next at read
  split at read
  · cases read
  · rename_i ahead
    cases Option.some.inj read
    simp [next,followedBy,ahead]

end Cursor

namespace Replay
variable {α : Type} {heap : HeapId}

theorem expectStage_malformed {expected : Stage} {event : Event α} {e : AnalysisError α}
    (refused : expectStage heap expected event = .error e) : e.Malformed := by
  unfold expectStage at refused
  split at refused
  · cases refused
  · cases refused
    exact .stageMismatch ..

inductive Passes (more : List (Event α)) :
    Except (Stop α) (Trace α) → Except (Stop α) (Trace α) → Prop where
  | refused {stop later : Stop α} (malformed : stop.error.Malformed)
      (same : later.error = stop.error) : Passes more (.error stop) (.error later)
  | passed (after : Trace α) : Passes more (.ok after) (.ok (after.followedBy more))
  | ranOut {after : Trace α} {result : Except (Stop α) (Trace α)}
      (read : after.ahead = []) : Passes more (.ok after) result

-- Where two replays stand that have read the same events, if the shorter list has any left.
def Leads (more : List (Event α)) (after later : Trace α) : Prop :=
  after.ahead ≠ [] → later = after.followedBy more

inductive Looks (more : List (Event α)) :
    Option (Event α) × Trace α → Option (Event α) × Trace α → Prop where
  | met (event : Event α) (after : Trace α) :
      Looks more (some event,after) (some event,after.followedBy more)
  | ranOut {after : Trace α} {result : Option (Event α) × Trace α} (read : after.ahead = []) :
      Looks more (none,after) result

inductive Seeks (more : List (Event α)) : Except (Stop α) (Option (Event α) × Trace α) →
    Except (Stop α) (Option (Event α) × Trace α) → Prop where
  | refused {stop later : Stop α} (malformed : stop.error.Malformed)
      (same : later.error = stop.error) : Seeks more (.error stop) (.error later)
  | found {last : Event α} {after later : Trace α} (leads : Leads more after later) :
      Seeks more (.ok (some last,after)) (.ok (some last,later))
  | ranOut {after : Trace α} {result : Except (Stop α) (Option (Event α) × Trace α)}
      (read : after.ahead = []) : Seeks more (.ok (none,after)) result

inductive Meets (more : List (Event α)) :
    Except (Stop α) (Finding α) → Except (Stop α) (Finding α) → Prop where
  | refused {stop later : Stop α} (malformed : stop.error.Malformed)
      (same : later.error = stop.error) : Meets more (.error stop) (.error later)
  | joined {start last : Event α} {after later : Trace α} (leads : Leads more after later) :
      Meets more (.ok (.joined start last after)) (.ok (.joined start last later))
  | unended {start : Event α} {after : Trace α} {result : Except (Stop α) (Finding α)}
      (read : after.ahead = []) : Meets more (.ok (.unended start after)) result
  | exhausted {after : Trace α} {result : Except (Stop α) (Finding α)}
      (read : after.ahead = []) : Meets more (.ok (.exhausted after)) result

variable {trace : Trace α}

theorem passRestartEnd_leads (trace : Trace α) (more : List (Event α)) :
    ∃ after later, passRestartEnd trace = .ok after ∧
      passRestartEnd (trace.followedBy more) = .ok later ∧ Leads more after later := by
  cases read : trace.next with
  | none =>
    obtain ⟨later,passed⟩ := passRestartEnd_ok (trace.followedBy more)
    have stays : passRestartEnd trace = .ok trace := by simp only [passRestartEnd,read]
    exact ⟨trace,later,stays,passed,fun left => absurd (Cursor.next_eq_none.mp read) left⟩
  | some seen =>
    obtain ⟨event,after⟩ := seen
    have further := Cursor.next_followedBy read more
    simp only [passRestartEnd,read,further,giveBack_read read,giveBack_read further]
    split
    · exact ⟨_,_,rfl,rfl,fun _ => rfl⟩
    · exact ⟨_,_,rfl,rfl,fun _ => rfl⟩

theorem passOpening_passes (heap : HeapId) (trace : Trace α) (more : List (Event α)) :
    Passes more (passOpening heap trace) (passOpening heap (trace.followedBy more)) := by
  fun_induction passOpening heap trace with
  | case1 trace read => exact .ranOut (Cursor.next_eq_none.mp read)
  | case2 trace event after read ends e refused =>
    rw [passOpening_read (Cursor.next_followedBy read more),if_pos ends,refused]
    exact .refused (expectStage_malformed refused) rfl
  | case3 trace event after read ends checked ih =>
    rw [passOpening_read (Cursor.next_followedBy read more),if_pos ends,checked]
    exact ih
  | case4 trace event after read other ends ih =>
    rw [passOpening_read (Cursor.next_followedBy read more),if_neg other,if_pos ends]
    exact ih
  | case5 trace event after read other further =>
    have reread := Cursor.next_followedBy read more
    rw [passOpening_read reread,if_neg other,if_neg further,giveBack_read read,giveBack_read reread]
    exact .passed { trace with canStepBack := false }

-- A list that holds nothing but the start of the initial stage.
def LoneInitialStart (events : List (Event α)) : Prop :=
  ∃ start, events = [start] ∧ start.isJoinStart ∧ start.stage = .generationDetermined

theorem passInitial_lone (heap : HeapId) (trace : Trace α) (lone : LoneInitialStart trace.ahead) :
    ∃ stopped, passInitial heap trace =
      .error ⟨.unbalanced heap (trace.position+1) .initialWithoutEnd,stopped⟩ := by
  obtain ⟨start,ahead,starts,initial⟩ := lone
  have other : start.kind ≠ .restart := by simp [(Event.isJoinStart_iff.mp starts).1]
  simp [passInitial,Cursor.next,ahead,Event.not_isRestart other,starts,expectStage_same initial,
    unbalanced,Cursor.position]

theorem passInitial_passes (whole : ¬ LoneInitialStart trace.ahead) (more : List (Event α)) :
    Passes more (passInitial heap trace) (passInitial heap (trace.followedBy more)) := by
  cases read : trace.next with
  | none =>
    have stays : passInitial heap trace = .ok trace := by simp only [passInitial,read]
    rw [stays]
    exact .ranOut (Cursor.next_eq_none.mp read)
  | some seen =>
    obtain ⟨first,after⟩ := seen
    simp only [passInitial,read,Cursor.next_followedBy read more]
    split
    · exact passOpening_passes heap after more
    · split
      · rename_i starts
        cases checked : expectStage heap .generationDetermined first with
        | error e => exact .refused (expectStage_malformed checked) rfl
        | ok =>
          cases reread : after.next with
          | none =>
            have ahead : trace.ahead = [first] := by
              rw [(Cursor.next_eq_some read).1,Cursor.next_eq_none.mp reread]
            exact absurd ⟨first,ahead,starts,stage_of_expected checked⟩ whole
          | some seen =>
            obtain ⟨last,rest⟩ := seen
            simp only [Cursor.next_followedBy reread more]
            split
            · cases closed : expectStage heap .generationDetermined last with
              | error e => exact .refused (expectStage_malformed closed) rfl
              | ok => exact .passed rest
            · exact .refused (.unbalanced ..) rfl
      · split
        · cases checked : expectStage heap .generationDetermined first with
          | error e => exact .refused (expectStage_malformed checked) rfl
          | ok => exact .passed after
        · exact .refused (.unbalanced ..) rfl

theorem nextBeyondRestart_looks (trace : Trace α) (more : List (Event α)) :
    Looks more (nextBeyondRestart trace) (nextBeyondRestart (trace.followedBy more)) := by
  cases read : trace.next with
  | none =>
    simp only [nextBeyondRestart,read]
    exact .ranOut (Cursor.next_eq_none.mp read)
  | some seen =>
    obtain ⟨first,after⟩ := seen
    simp only [nextBeyondRestart,read,Cursor.next_followedBy read more]
    split
    · cases reread : after.next with
      | none => exact .ranOut (Cursor.next_eq_none.mp reread)
      | some seen =>
        obtain ⟨second,rest⟩ := seen
        simp only [Cursor.next_followedBy reread more]
        split
        · cases final : rest.next with
          | none => exact .ranOut (Cursor.next_eq_none.mp final)
          | some seen =>
            obtain ⟨third,last⟩ := seen
            simp only [Cursor.next_followedBy final more]
            exact .met third last
        · exact .met second rest
    · exact .met first after

theorem restartPairEnd_seeks (heap : HeapId) (trace : Trace α) (more : List (Event α)) :
    Seeks more (restartPairEnd heap trace) (restartPairEnd heap (trace.followedBy more)) := by
  cases read : trace.next with
  | none =>
    simp only [restartPairEnd,read]
    exact .ranOut (Cursor.next_eq_none.mp read)
  | some seen =>
    obtain ⟨first,after⟩ := seen
    simp only [restartPairEnd,read,Cursor.next_followedBy read more]
    split
    · cases reread : after.next with
      | none => exact .ranOut (Cursor.next_eq_none.mp reread)
      | some seen =>
        obtain ⟨last,rest⟩ := seen
        simp only [Cursor.next_followedBy reread more]
        split
        · exact .found fun _ => rfl
        · exact .refused (.unbalanced ..) rfl
    · exact .refused (.unbalanced ..) rfl

theorem endOf_seeks (heap : HeapId) (start : Event α) (trace : Trace α) (more : List (Event α)) :
    Seeks more (endOf heap start trace) (endOf heap start (trace.followedBy more)) := by
  unfold endOf
  split
  · exact restartPairEnd_seeks heap trace more
  · exact restartPairEnd_seeks heap trace more
  · have looks := nextBeyondRestart_looks trace more
    generalize nextBeyondRestart trace = seen at looks
    generalize nextBeyondRestart (trace.followedBy more) = seen' at looks
    cases looks with
    | ranOut read => exact .ranOut read
    | met last rest =>
      simp only
      split
      · cases checked : expectStage heap start.stage last with
        | error e => exact .refused (expectStage_malformed checked) rfl
        | ok =>
          obtain ⟨after,later,passed,passed',leads⟩ := passRestartEnd_leads rest more
          simp only [passed,passed']
          exact .found leads
      · exact .refused (.unbalanced ..) rfl
  · exact .refused (.unbalanced ..) rfl

theorem step_own {after : Trace α} {start : Event α} (read : trace.next = some (start,after))
    (own : ¬ start.isRestartStart) :
    step heap trace =
      if start.edge = .start then
        (endOf heap start after).map fun ended => .ofEnd start ended.2 ended.1
      else unbalanced heap after (.strayEnd start.kind start.stage) := by
  rw [step]
  split
  · rename_i ended
    cases read.symm.trans ended
  · rename_i other reread
    cases Option.some.inj (read.symm.trans reread)
    rw [if_neg own]
    cases endOf heap start after with
    | error e => rfl
    | ok ended =>
      obtain ⟨last,rest⟩ := ended
      cases last <;> rfl

theorem step_meets (heap : HeapId) (trace : Trace α) (more : List (Event α)) :
    Meets more (step heap trace) (step heap (trace.followedBy more)) := by
  fun_induction step heap trace with
  | case1 trace read => exact .exhausted (Cursor.next_eq_none.mp read)
  | case2 trace start after read starts e refused =>
    obtain ⟨_,passed⟩ := passRestartEnd_ok after
    cases passed.symm.trans refused
  | case3 trace start after read starts rest passed ih =>
    obtain ⟨_,later,passed',further,leads⟩ := passRestartEnd_leads after more
    cases passed.symm.trans passed'
    rw [step_foreign (Cursor.next_followedBy read more) starts further]
    by_cases left : rest.ahead = []
    · rw [step_end (Cursor.next_eq_none.mpr left)]
      exact .exhausted left
    · rw [leads left]
      exact ih
  | case4 trace start after read own starts e refused =>
    have seeks := endOf_seeks heap start after more
    rw [refused] at seeks
    rw [step_own (Cursor.next_followedBy read more) own,if_pos starts]
    generalize endOf heap start (after.followedBy more) = result at seeks
    cases seeks with
    | refused malformed same => exact .refused malformed same
  | case5 trace start after read own starts rest ended =>
    have seeks := endOf_seeks heap start after more
    rw [ended] at seeks
    generalize endOf heap start (after.followedBy more) = result at seeks
    cases seeks with
    | ranOut left => exact .unended left
  | case6 trace start after read own starts last rest ended =>
    have seeks := endOf_seeks heap start after more
    rw [ended] at seeks
    rw [step_own (Cursor.next_followedBy read more) own,if_pos starts]
    generalize endOf heap start (after.followedBy more) = result at seeks
    cases seeks with
    | found leads => exact .joined leads
  | case7 trace start after read own ends =>
    rw [step_own (Cursor.next_followedBy read more) own,if_neg ends]
    exact .refused (.unbalanced ..) rfl

end Replay
end JoinTrace
