import JoinTrace.Proofs.StageListing

-- A phase table changed in place. All stages of a call are checked before either map is touched, so
-- a refused call changes neither, and a sequence of calls makes the table of the accepted ones.
namespace JoinTrace

namespace PhaseTable
variable {α : Type} {phase : Phase} {stages : List Stage} {table : PhaseTable}

abbrev InPlace (α τ : Type) := ExceptT (AnalysisError α) (StateM PhaseTable) τ

namespace InPlace

def on (change : InPlace α Unit) (table : PhaseTable) : Except (AnalysisError α) Unit × PhaseTable :=
  change.run.run table

theorem on_bind (first second : InPlace α Unit) (table : PhaseTable) :
    on (first >>= fun _ => second) table =
      match first.on table with
      | (.error refusal,after) => (.error refusal,after)
      | (.ok (),after) => second.on after := by
  simp only [on,ExceptT.run_bind,StateT.run_bind]
  rcases first.run.run table with ⟨outcome,after⟩
  cases outcome <;> rfl

end InPlace

def checkFree (phase : Phase) (stage : Stage) : InPlace α Unit := do
  match (← get).phaseOf stage with
  | some first => throw (.phaseConflict stage first phase)
  | none => return

def putPhase (phase : Phase) (stage : Stage) : InPlace α Unit :=
  modify fun table => ⟨table.stagesByPhase,table.phaseByStage.insert stage phase⟩

def putStages (phase : Phase) (stages : List Stage) : InPlace α Unit :=
  modify fun table =>
    ⟨table.stagesByPhase.upsert phase fun listed => listed.getD [] ++ stages,table.phaseByStage⟩

def enter (phase : Phase) (stages : List Stage) : InPlace α Unit := do
  stages.forM (checkFree phase)
  stages.forM (putPhase phase)
  putStages phase stages

theorem checkFree_on (stage : Stage) : InPlace.on (α := α) (checkFree phase stage) table =
    match table.phaseOf stage with
    | some first => (.error (.phaseConflict stage first phase),table)
    | none => (.ok (),table) := by
  change InPlace.on (match table.phaseOf stage with | some first => _ | none => _) table = _
  cases table.phaseOf stage <;> rfl

theorem checks_on : InPlace.on (α := α) (stages.forM (checkFree phase)) table =
    match table.taken? stages with
    | some (stage,first) => (.error (.phaseConflict stage first phase),table)
    | none => (.ok (),table) := by
  induction stages with
  | nil => rfl
  | cons stage rest ih =>
    change InPlace.on (checkFree phase stage >>= fun _ => rest.forM (checkFree phase)) table = _
    rw [InPlace.on_bind,checkFree_on,taken?,List.findSome?_cons]
    cases table.phaseOf stage with
    | some first => rfl
    | none => exact ih

theorem puts_on : InPlace.on (α := α) (stages.forM (putPhase phase)) table =
    (.ok (),⟨table.stagesByPhase,
      stages.foldl (fun assigned stage => assigned.insert stage phase) table.phaseByStage⟩) := by
  induction stages generalizing table with
  | nil => rfl
  | cons stage rest ih => exact ih

-- Every stage was checked before the first was put, so a refusal comes before any change.
theorem enter_on : InPlace.on (α := α) (enter phase stages) table =
    match table.insertPhase phase stages with
    | .error refusal => (.error refusal,table)
    | .ok next => (.ok (),next) := by
  rw [enter,InPlace.on_bind,checks_on,insertPhase]
  cases table.taken? stages with
  | some taken => rfl
  | none =>
    dsimp only
    rw [InPlace.on_bind,puts_on]
    rfl

def attempts (α : Type) (calls : List (Phase × List Stage)) :
    StateM PhaseTable (List (Except (AnalysisError α) Unit)) :=
  calls.mapM fun call => (enter call.1 call.2).run

def outcomes (α : Type) (calls : List (Phase × List Stage)) : List (Except (AnalysisError α) Unit) :=
  ((attempts α calls).run empty).1

def tableAfter (α : Type) (calls : List (Phase × List Stage)) : PhaseTable :=
  ((attempts α calls).run empty).2

def acceptedOf (outcomes : List (Except (AnalysisError α) Unit)) (calls : List (Phase × List Stage)) :
    List (Phase × List Stage) :=
  ((calls.zip outcomes).filter (·.2.isOk)).map (·.1)

theorem attempts_cons (call : Phase × List Stage) (rest : List (Phase × List Stage))
    (table : PhaseTable) : (attempts α (call :: rest)).run table =
      let (outcome,next) := (enter call.1 call.2).on table
      let (outcomes,after) := (attempts α rest).run next
      (outcome :: outcomes,after) := by
  rw [attempts,List.mapM_cons]
  rfl

theorem attempts_run (calls : List (Phase × List Stage)) (table : PhaseTable) :
    ∃ outcomes after, (attempts α calls).run table = (outcomes,after) ∧
      outcomes.length = calls.length ∧
      (acceptedOf outcomes calls).foldlM
        (fun table entry => insertPhase (α := α) table entry.1 entry.2) table = .ok after ∧
      calls.foldl (fun table entry =>
        if (table.taken? entry.2).isSome then table else table.assign entry.1 entry.2) table = after := by
  -- On the calls, with the table they start from left open.
  induction calls generalizing table with
  | nil => exact ⟨[],table,rfl,rfl,rfl,rfl⟩
  | cons call rest ih =>
    cases taken : table.taken? call.2 with
    | some found =>
      have refused : table.insertPhase call.1 call.2 =
          .error (.phaseConflict (α := α) found.1 found.2 call.1) := by rw [insertPhase,taken]
      obtain ⟨outcomes,after,ran,length,made,skipped⟩ := ih table
      refine ⟨.error (.phaseConflict found.1 found.2 call.1) :: outcomes,after,?_,
        congrArg Nat.succ length,made,?_⟩
      · simp only [attempts_cons,enter_on,refused,ran]
      · rw [List.foldl_cons,taken]
        exact skipped
    | none =>
      have accepted : table.insertPhase (α := α) call.1 call.2 = .ok (table.assign call.1 call.2) :=
        insertPhase_ok_iff.mpr ⟨taken,rfl⟩
      obtain ⟨outcomes,after,ran,length,made,skipped⟩ := ih (table.assign call.1 call.2)
      refine ⟨.ok () :: outcomes,after,?_,congrArg Nat.succ length,?_,?_⟩
      · simp only [attempts_cons,enter_on,accepted,ran]
      · change List.foldlM _ table (call :: acceptedOf outcomes rest) = _
        rw [List.foldlM_cons,accepted]
        exact made
      · rw [List.foldl_cons,taken]
        exact skipped

theorem insertPhase_error_iff {refusal : AnalysisError α} :
    table.insertPhase phase stages = .error refusal ↔
      ∃ earlier stage later first, stages = earlier ++ stage :: later ∧
        (∀ before ∈ earlier, table.phaseOf before = none) ∧ table.phaseOf stage = some first ∧
        refusal = .phaseConflict stage first phase := by
  have refused : table.insertPhase phase stages = .error refusal ↔ ∃ stage first,
      table.taken? stages = some (stage,first) ∧ .phaseConflict stage first phase = refusal := by
    unfold insertPhase
    cases table.taken? stages with
    | none => simp
    | some found => simp [Prod.ext_iff,and_assoc]
  rw [refused]
  simp only [taken?,List.findSome?_eq_some_iff,Option.map_eq_some_iff,Option.map_eq_none_iff]
  constructor
  · rintro ⟨stage,first,⟨earlier,found,later,same,⟨phase,assigned,pair⟩,free⟩,rfl⟩
    cases pair
    exact ⟨earlier,stage,later,first,same,free,assigned,rfl⟩
  · rintro ⟨earlier,stage,later,first,same,free,assigned,rfl⟩
    exact ⟨stage,first,⟨earlier,stage,later,same,⟨first,assigned,rfl⟩,free⟩,rfl⟩

theorem insertPhase_refuses_iff :
    (∃ refusal : AnalysisError α, table.insertPhase phase stages = .error refusal) ↔
      ∃ stage ∈ stages, ∃ first, table.phaseOf stage = some first := by
  constructor
  · rintro ⟨refusal,refused⟩
    obtain ⟨earlier,stage,later,first,rfl,_,assigned,_⟩ := insertPhase_error_iff.mp refused
    exact ⟨stage,by simp,first,assigned⟩
  · rintro ⟨stage,listed,first,assigned⟩
    cases inserted : table.insertPhase (α := α) phase stages with
    | error refusal => exact ⟨refusal,rfl⟩
    | ok next =>
      have free := taken?_eq_none.mp (insertPhase_ok_iff.mp inserted).1 stage listed
      cases free.symm.trans assigned

theorem insertions_atomic (calls : List (Phase × List Stage)) :
    (tableAfter α calls).Consistent ∧
    (outcomes α calls).length = calls.length ∧
    ofEntries (α := α) (acceptedOf (outcomes α calls) calls) = .ok (tableAfter α calls) ∧
    ofEntriesSkipping calls = tableAfter α calls ∧
    ∀ (table : PhaseTable) (phase : Phase) (stages : List Stage),
      (∀ refusal after, (enter phase stages).on table = (.error refusal,after) ↔
        table.insertPhase (α := α) phase stages = .error refusal ∧ after = table) ∧
      (∀ after, (enter (α := α) phase stages).on table = (.ok (),after) ↔
        table.insertPhase (α := α) phase stages = .ok after) ∧
      ((∃ refusal, table.insertPhase (α := α) phase stages = .error refusal) ↔
        ∃ stage ∈ stages, ∃ first, table.phaseOf stage = some first) ∧
      ∀ refusal, table.insertPhase (α := α) phase stages = .error refusal ↔
        ∃ earlier stage later first, stages = earlier ++ stage :: later ∧
          (∀ before ∈ earlier, table.phaseOf before = none) ∧ table.phaseOf stage = some first ∧
          refusal = .phaseConflict stage first phase := by
  obtain ⟨outcomes,after,ran,length,made,skipped⟩ := attempts_run (α := α) calls empty
  have told : PhaseTable.outcomes α calls = outcomes := congrArg Prod.fst ran
  have left : tableAfter α calls = after := congrArg Prod.snd ran
  rw [told,left]
  refine ⟨(made_ofEntries made).consistent,length,made,skipped,fun table phase stages => ?_⟩
  refine ⟨?_,?_,insertPhase_refuses_iff,fun _ => insertPhase_error_iff⟩
  · rw [enter_on]
    cases table.insertPhase (α := α) phase stages <;> simp [eq_comm]
  · rw [enter_on]
    cases table.insertPhase (α := α) phase stages <;> simp

example : (outcomes Float [(.mark,[.beginMarkPhase]), (.plan,[.decideOnCompaction, .beginMarkPhase]),
      (.mark,[.scanSizedrefDone])]).map (·.isOk) = [true,false,true] ∧
    (tableAfter Float [(.mark,[.beginMarkPhase]), (.plan,[.decideOnCompaction, .beginMarkPhase]),
      (.mark,[.scanSizedrefDone])]).stagesOf .mark = [.beginMarkPhase, .scanSizedrefDone] := by decide

end PhaseTable
end JoinTrace
