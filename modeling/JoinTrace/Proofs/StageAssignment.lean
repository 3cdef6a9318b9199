import JoinTrace.PhaseTable
import JoinTrace.Proofs.SortedMapLaws

-- The two maps of a phase table are kept by separate updates. They stay inverse to each other, so
-- that the table splits the stages into those of each phase and those of none.
namespace JoinTrace
open SortedMap

namespace PhaseTable
variable {α : Type} {table next : PhaseTable} {phase : Phase} {stages : List Stage}

theorem taken?_eq_none : table.taken? stages = none ↔ ∀ stage ∈ stages, table.phaseOf stage = none := by
  simp only [taken?,List.findSome?_eq_none_iff,Option.map_eq_none_iff]

theorem insertPhase_ok_iff :
    table.insertPhase (α := α) phase stages = .ok next ↔
      table.taken? stages = none ∧ table.assign phase stages = next := by
  unfold insertPhase
  cases table.taken? stages with
  | none => simp
  | some taken => simp

-- The tables there are: entries are assigned one by one, each to stages that have no phase yet.
inductive Made : PhaseTable → Prop where
  | empty : Made empty
  | assign {table : PhaseTable} (earlier : Made table) (phase : Phase) {stages : List Stage}
      (free : table.taken? stages = none) : Made (table.assign phase stages)

theorem made_ofEntries {entries : List (Phase × List Stage)}
    (built : ofEntries (α := α) entries = .ok table) : table.Made := by
  have grown (start : PhaseTable) (made : start.Made)
      (ran : entries.foldlM (fun table entry => insertPhase (α := α) table entry.1 entry.2) start =
        .ok table) : table.Made := by
    -- On the entries, with the table they are added to left open.
    clear built
    induction entries generalizing start with
    | nil =>
      cases ran
      exact made
    | cons entry rest ih =>
      rw [List.foldlM_cons] at ran
      cases inserted : start.insertPhase (α := α) entry.1 entry.2 with
      | error e => rw [inserted] at ran; cases ran
      | ok after =>
        rw [inserted] at ran
        obtain ⟨free,rfl⟩ := insertPhase_ok_iff.mp inserted
        exact ih _ (made.assign entry.1 free) ran
  exact grown empty .empty built

theorem phaseOf_assign (stage : Stage) :
    (table.assign phase stages).phaseOf stage =
      if stage ∈ stages then some phase else table.phaseOf stage := by
  have put (assigned : SortedMap Stage Phase) :
      (stages.foldl (fun assigned stage => assigned.insert stage phase) assigned).get? stage =
        if stage ∈ stages then some phase else assigned.get? stage := by
    induction stages generalizing assigned with
    | nil => rfl
    | cons first rest ih =>
      simp only [List.foldl_cons,ih,get?_insert,Ranked.rank_eq_iff,List.mem_cons]
      by_cases here : first = stage
      · simp [here]
      · simp [here,Ne.symm here]
  exact put table.phaseByStage

theorem stagesOf_assign (other : Phase) :
    (table.assign phase stages).stagesOf other =
      if phase = other then table.stagesOf other ++ stages else table.stagesOf other := by
  simp only [stagesOf,assign,get?_upsert,Ranked.rank_eq_iff]
  by_cases same : phase = other
  · simp [same]
  · simp [same]

def Consistent (table : PhaseTable) : Prop :=
  ∀ stage phase, stage ∈ table.stagesOf phase ↔ table.phaseOf stage = some phase

theorem Consistent.assign (consistent : table.Consistent) (free : table.taken? stages = none) :
    (table.assign phase stages).Consistent := by
  intro stage other
  rw [stagesOf_assign,phaseOf_assign]
  by_cases listed : stage ∈ stages
  · have absent : stage ∉ table.stagesOf other := by
      rw [consistent,taken?_eq_none.mp free stage listed]
      exact nofun
    by_cases same : phase = other
    · simp [same,listed]
    · simp [same,listed,absent]
  · by_cases same : phase = other
    · simp [same,listed,consistent stage other]
    · simp [same,listed,consistent stage other]

theorem Made.consistent (made : table.Made) : table.Consistent := by
  induction made with
  | empty => exact fun _ _ => ⟨nofun,nofun⟩
  | assign _ _ free ih => exact ih.assign free

def unassigned (table : PhaseTable) : List Stage :=
  Stage.all.filter fun stage => table.phaseOf stage = none

theorem Consistent.stages_perm (consistent : table.Consistent)
    (distinct : ∀ phase, (table.stagesOf phase).Nodup) :
    (Phase.all.flatMap table.stagesOf ++ table.unassigned).Perm Stage.all := by
  have apart {phase other : Phase} (different : phase ≠ other) :
      (table.stagesOf phase).Disjoint (table.stagesOf other) := by
    intro stage first second
    rw [consistent] at first second
    exact different (Option.some.inj (first.symm.trans second))
  have stagesOnce : Stage.all.Nodup := by decide
  have phasesOnce : Phase.all.Nodup := by decide
  have listedOnce : (Phase.all.flatMap table.stagesOf).Nodup :=
    List.nodup_flatMap.mpr ⟨fun phase _ => distinct phase,phasesOnce.imp apart⟩
  have rest : (Phase.all.flatMap table.stagesOf).Disjoint table.unassigned := by
    intro stage listed free
    obtain ⟨phase,_,member⟩ := List.mem_flatMap.mp listed
    have none := of_decide_eq_true (List.mem_filter.mp free).2
    rw [consistent,none] at member
    cases member
  refine (List.perm_ext_iff_of_nodup
    (List.nodup_append'.mpr ⟨listedOnce,stagesOnce.filter _,rest⟩) stagesOnce).mpr fun stage => ?_
  refine iff_of_true ?_ (Stage.mem_all stage)
  rw [List.mem_append,List.mem_flatMap]
  cases assigned : table.phaseOf stage with
  | none => exact .inr (List.mem_filter.mpr ⟨Stage.mem_all stage,decide_eq_true assigned⟩)
  | some phase => exact .inl ⟨phase,Phase.mem_all phase,(consistent stage phase).mpr assigned⟩

end PhaseTable
end JoinTrace
