import Mathlib.Data.List.Induction
import Mathlib.Data.List.Nodup
import JoinTrace.Proofs.StageAssignment

-- How often the entries of a phase table list a stage, and how often the table then does. Entries
-- that share a stage are refused; one that lists a stage twice is not, and the table keeps both.
namespace JoinTrace

namespace PhaseTable
variable {α : Type} {table next : PhaseTable} {entries : List (Phase × List Stage)}
  {entry : Phase × List Stage} {stage : Stage}

def Apart (entries : List (Phase × List Stage)) : Prop :=
  entries.Pairwise fun entry later => entry.2.Disjoint later.2

theorem apart_concat : Apart (entries ++ [entry]) ↔
    Apart entries ∧ ∀ earlier ∈ entries, earlier.2.Disjoint entry.2 := by
  simp [Apart,List.pairwise_append]

theorem ofEntries_concat : ofEntries (α := α) (entries ++ [entry]) = .ok next ↔
    ∃ table, ofEntries (α := α) entries = .ok table ∧ table.taken? entry.2 = none ∧
      table.assign entry.1 entry.2 = next := by
  unfold ofEntries
  rw [List.foldlM_append]
  cases entries.foldlM (fun table entry => insertPhase (α := α) table entry.1 entry.2) empty with
  | error e => simp [bind,Except.bind]
  | ok table =>
    have last : [entry].foldlM (fun table entry => insertPhase (α := α) table entry.1 entry.2) table =
        table.insertPhase entry.1 entry.2 := bind_pure _
    simp [bind,Except.bind,last,insertPhase_ok_iff]

theorem stagesOf_ofEntries (built : ofEntries (α := α) entries = .ok table) (phase : Phase) :
    table.stagesOf phase = (entries.filter (·.1 = phase)).flatMap (·.2) := by
  -- On the entries from the end, as the table grows at its last entry.
  induction entries using List.reverseRecOn generalizing table with
  | nil =>
    cases built
    rfl
  | append_singleton earlier entry ih =>
    obtain ⟨before,made,_,rfl⟩ := ofEntries_concat.mp built
    rw [stagesOf_assign,ih made,List.filter_append,List.flatMap_append]
    by_cases same : entry.1 = phase
    · simp [same]
    · simp [same]

theorem phaseOf_ofEntries (built : ofEntries (α := α) entries = .ok table) (stage : Stage)
    (phase : Phase) : table.phaseOf stage = some phase ↔
      ∃ entry ∈ entries, entry.1 = phase ∧ stage ∈ entry.2 := by
  rw [← (made_ofEntries built).consistent,stagesOf_ofEntries built]
  simp [and_assoc]

theorem free_ofEntries (built : ofEntries (α := α) entries = .ok table) (stages : List Stage) :
    table.taken? stages = none ↔ ∀ entry ∈ entries, entry.2.Disjoint stages := by
  rw [taken?_eq_none]
  constructor
  · intro free entry listed stage first second
    cases (free stage second).symm.trans ((phaseOf_ofEntries built stage _).mpr
      ⟨entry,listed,rfl,first⟩)
  · intro apart stage member
    refine Option.eq_none_iff_forall_ne_some.mpr fun phase assigned => ?_
    obtain ⟨entry,listed,_,first⟩ := (phaseOf_ofEntries built stage phase).mp assigned
    exact apart entry listed first member

theorem ofEntries_ok_iff : (∃ table, ofEntries (α := α) entries = .ok table) ↔ Apart entries := by
  induction entries using List.reverseRecOn with
  | nil => exact iff_of_true ⟨empty,rfl⟩ .nil
  | append_singleton earlier entry ih =>
    rw [apart_concat,← ih]
    constructor
    · rintro ⟨next,built⟩
      obtain ⟨table,made,free,_⟩ := ofEntries_concat.mp built
      exact ⟨⟨table,made⟩,(free_ofEntries made entry.2).mp free⟩
    · rintro ⟨⟨table,made⟩,apart⟩
      exact ⟨_,ofEntries_concat.mpr ⟨table,made,(free_ofEntries made entry.2).mpr apart,rfl⟩⟩

theorem count_kept (keep : Phase × List Stage → Bool)
    (kept : ∀ entry ∈ entries, stage ∈ entry.2 → keep entry) :
    ((entries.filter keep).flatMap (·.2)).count stage = (entries.flatMap (·.2)).count stage := by
  induction entries with
  | nil => rfl
  | cons first rest ih =>
    obtain ⟨here,later⟩ := List.forall_mem_cons.mp kept
    rw [List.flatMap_cons,List.count_append,← ih later]
    cases keeps : keep first with
    | true => rw [List.filter_cons_of_pos keeps,List.flatMap_cons,List.count_append]
    | false =>
      have unlisted : stage ∉ first.2 := fun listed => by simp [keeps] at here; exact here listed
      rw [List.filter_cons_of_neg (by simp [keeps]),List.count_eq_zero.mpr unlisted,Nat.zero_add]

theorem count_stagesOf (built : ofEntries (α := α) entries = .ok table) (stage : Stage)
    (phase : Phase) : (table.stagesOf phase).count stage =
      if table.phaseOf stage = some phase then (entries.flatMap (·.2)).count stage else 0 := by
  split
  next assigned =>
    rw [stagesOf_ofEntries built]
    refine count_kept _ fun entry listed member => decide_eq_true ?_
    have own := (phaseOf_ofEntries built stage entry.1).mpr ⟨entry,listed,rfl,member⟩
    exact Option.some.inj (own.symm.trans assigned)
  next elsewhere =>
    exact List.count_eq_zero.mpr fun listed =>
      elsewhere (((made_ofEntries built).consistent stage phase).mp listed)

theorem ofEntries_lists (entries : List (Phase × List Stage)) :
    ((∃ table, ofEntries (α := α) entries = .ok table) ↔ Apart entries) ∧
    (∀ table, ofEntries (α := α) entries = .ok table → ∀ stage phase,
      (table.phaseOf stage = some phase ↔
        ∃ entry ∈ entries, entry.1 = phase ∧ stage ∈ entry.2) ∧
      (table.stagesOf phase).count stage =
        if table.phaseOf stage = some phase then (entries.flatMap (·.2)).count stage else 0) ∧
    ((∀ entry ∈ entries, entry.2.Nodup) →
      ((∃ table, ofEntries (α := α) entries = .ok table) ↔ (entries.flatMap (·.2)).Nodup) ∧
      ∀ table, ofEntries (α := α) entries = .ok table → ∀ stage phase,
        (table.stagesOf phase).count stage =
          if table.phaseOf stage = some phase then 1 else 0) := by
  refine ⟨ofEntries_ok_iff,fun table built stage phase => ?_,fun each => ?_⟩
  · exact ⟨phaseOf_ofEntries built stage phase,count_stagesOf built stage phase⟩
  · have once : Apart entries ↔ (entries.flatMap (·.2)).Nodup := by
      rw [List.nodup_flatMap,and_iff_right each]
      rfl
    refine ⟨ofEntries_ok_iff.trans once,fun table built stage phase => ?_⟩
    rw [count_stagesOf built]
    split
    next assigned =>
      obtain ⟨entry,listed,_,member⟩ := (phaseOf_ofEntries built stage phase).mp assigned
      exact List.count_eq_one_of_mem (once.mp (ofEntries_ok_iff.mp ⟨table,built⟩))
        (List.mem_flatMap.mpr ⟨entry,listed,member⟩)
    next => rfl

theorem ofEntries_lists_sample :
    ∃ table, ofEntries (α := Float) [(.mark,[.beginMarkPhase]),(.plan,[.decideOnCompaction]),
        (.mark,[.scanSizedrefDone])] = .ok table ∧
      table.phaseOf .scanSizedrefDone = some .mark ∧
      (table.stagesOf .mark).count .scanSizedrefDone = 1 ∧
      (table.stagesOf .plan).count .scanSizedrefDone = 0 := by
  obtain ⟨accepted,listed,exact⟩ := ofEntries_lists (α := Float)
    [(.mark,[.beginMarkPhase]),(.plan,[.decideOnCompaction]),(.mark,[.scanSizedrefDone])]
  obtain ⟨table,built⟩ := accepted.mpr (by simp [Apart])
  have assigned : table.phaseOf .scanSizedrefDone = some .mark :=
    ((listed table built _ _).1).mpr ⟨(.mark,[.scanSizedrefDone]),by decide⟩
  refine ⟨table,built,assigned,?_,?_⟩
  · rw [(exact (by decide)).2 table built,if_pos assigned]
  · rw [(exact (by decide)).2 table built,assigned]
    rfl

theorem repeat_within_entry_kept :
    ¬ ([(.mark,[.beginMarkPhase,.beginMarkPhase])].flatMap
      (fun entry : Phase × List Stage => entry.2)).Nodup ∧
    (∃ table, ofEntries (α := Float) [(.mark,[.beginMarkPhase,.beginMarkPhase])] = .ok table ∧
      table.phaseOf .beginMarkPhase = some .mark ∧
      (table.stagesOf .mark).count .beginMarkPhase = 2) ∧
    ofEntries (α := Float) [(.mark,[.beginMarkPhase]),(.mark,[.beginMarkPhase])] =
      .error (.phaseConflict .beginMarkPhase .mark .mark) :=
  ⟨by decide,⟨_,rfl,by decide,by decide⟩,rfl⟩

end PhaseTable
end JoinTrace
