import Mathlib.Data.List.Nodup
import JoinTrace.Proofs.CatalogNames
import JoinTrace.Proofs.HeapMetrics

-- The catalog of join metrics can be made for every phase table. Its names are stems joined to
-- tails by the last underscore in them, and no two of them agree in both.
namespace JoinTrace.JoinCatalog
variable {α : Type}

def joined (stem tail : String) : String := stem ++ "_" ++ tail

theorem toList_joined (stem tail : String) :
    (joined stem tail).toList = stem.toList ++ '_' :: tail.toList := by
  simp [joined,String.toList_append]

theorem split_last {mark : Char} {stem stem' tail tail' : List Char}
    (free : mark ∉ tail) (free' : mark ∉ tail')
    (same : stem ++ mark :: tail = stem' ++ mark :: tail') : stem = stem' ∧ tail = tail' := by
  rcases List.append_eq_append_iff.mp same with ⟨gap,rfl,rest⟩ | ⟨gap,rfl,rest⟩
  · cases gap with
    | nil => simpa using rest
    | cons head gap =>
      obtain ⟨rfl,rfl⟩ := List.cons.inj rest
      simp at free
  · cases gap with
    | nil => simpa [eq_comm] using rest
    | cons head gap =>
      obtain ⟨rfl,rfl⟩ := List.cons.inj rest
      simp at free'

theorem joined_inj {stem stem' tail tail' : String} (free : '_' ∉ tail.toList)
    (free' : '_' ∉ tail'.toList) (same : joined stem tail = joined stem' tail') :
    stem = stem' ∧ tail = tail' := by
  have lists := congrArg String.toList same
  rw [toList_joined,toList_joined] at lists
  obtain ⟨stems,tails⟩ := split_last free free' lists
  exact ⟨String.toList_inj.mp stems,String.toList_inj.mp tails⟩

theorem joined_nodup {stems tails : List String} (distinct : stems.Nodup) (apart : tails.Nodup)
    (free : ∀ tail ∈ tails, '_' ∉ tail.toList) :
    (stems.flatMap fun stem => tails.map (joined stem)).Nodup := by
  refine List.nodup_flatMap.mpr ⟨fun stem _ => ?_,distinct.imp fun different => ?_⟩
  · refine apart.map_on fun tail member tail' member' same => ?_
    exact (joined_inj (free tail member) (free tail' member') same).2
  · intro name member member'
    obtain ⟨tail,listed,rfl⟩ := List.mem_map.mp member
    obtain ⟨tail',listed',same⟩ := List.mem_map.mp member'
    exact different (joined_inj (free tail' listed') (free tail listed) same).1.symm

def floatNames (table : PhaseTable) : List String :=
  joinTimeMetrics ++ Stage.measured.map Stage.name ++ table.phases.map Phase.name

theorem phases_nodup (table : PhaseTable) : table.phases.Nodup := by
  refine table.stagesByPhase.ordered.imp fun lower same => ?_
  rw [same] at lower
  exact Nat.lt_irrefl _ lower

theorem phaseName_inj {a b : Phase} (same : a.name = b.name) : a = b := by
  cases a <;> cases b <;> first | rfl | exact absurd same (by decide)

set_option maxRecDepth 4000 in
theorem fixedNames_nodup :
    (ranAloneMetric :: "HeapCount" :: (joinTimeMetrics ++ Stage.measured.map Stage.name)).Nodup := by
  decide

set_option maxRecDepth 4000 in
theorem phaseName_fresh (phase : Phase) :
    phase.name ∉ ranAloneMetric :: "HeapCount" :: (joinTimeMetrics ++ Stage.measured.map Stage.name) := by
  cases phase <;> decide

theorem floatNames_nodup (table : PhaseTable) :
    (ranAloneMetric :: "HeapCount" :: floatNames table).Nodup := by
  refine List.nodup_append.mpr ⟨fixedNames_nodup,?_,?_⟩
  · exact (phases_nodup table).map_on fun _ _ _ _ => phaseName_inj
  · rintro name fixed _ ofPhase rfl
    obtain ⟨phase,_,rfl⟩ := List.mem_map.mp ofPhase
    exact phaseName_fresh phase fixed

def tails : List String :=
  ["",ranAloneMetric].flatMap fun filter =>
    [AggregateFn.mean,.max,.min,.sum,.p95,.stdev].map fun aggregate =>
      aggregate.name ++ Generated.restricted "Where" filter

def otherNames : List String :=
  ["Count" ++ ranAloneMetric,"Pct" ++ ranAloneMetric,
    "Count" ++ ranAloneMetric ++ "Where" ++ ranAloneMetric,
    "Pct" ++ ranAloneMetric ++ "Where" ++ ranAloneMetric,
    "HeapCount",joined "HeapCount" ("Where" ++ ranAloneMetric)]

theorem tails_free : tails.Nodup ∧ ∀ tail ∈ tails, '_' ∉ tail.toList := by decide

theorem otherNames_apart {stem tail : String} (fresh : stem ≠ "HeapCount")
    (free : '_' ∉ tail.toList) : joined stem tail ∉ otherNames := by
  have marked : '_' ∈ (joined stem tail).toList := by simp [toList_joined]
  intro member
  rcases List.mem_append.mp (show joined stem tail ∈ otherNames.take 5 ++ otherNames.drop 5 from
    (List.take_append_drop 5 otherNames).symm ▸ member) with unmarked | last
  · have none : ∀ name ∈ otherNames.take 5, '_' ∉ name.toList := by decide
    exact none _ unmarked marked
  · have same : joined stem tail = joined "HeapCount" ("Where" ++ ranAloneMetric) :=
      List.mem_singleton.mp last
    exact fresh (joined_inj free (by decide) same).1

theorem names_nodup (table : PhaseTable) :
    ((floatNames table).flatMap (fun stem => tails.map (joined stem)) ++ otherNames).Nodup := by
  obtain ⟨apart,free⟩ := tails_free
  obtain ⟨_,fresh,distinct⟩ := by simpa only [List.nodup_cons] using floatNames_nodup table
  refine List.nodup_append.mpr ⟨joined_nodup distinct apart free,by decide,?_⟩
  rintro name made _ other rfl
  obtain ⟨stem,listed,made⟩ := List.mem_flatMap.mp made
  obtain ⟨tail,possible,rfl⟩ := List.mem_map.mp made
  have different : stem ≠ "HeapCount" := fun same => fresh (same ▸ listed)
  exact otherNames_apart different (free tail possible) other

theorem generated_float (name : String) (read : HeapSummary α → Failable α) :
    (["",ranAloneMetric].flatMap (floatMetric name read).generated).map (·.name) =
      tails.map (joined name) := by
  simp [ElementMetric.generated,floatMetric,tails,joined,Generated.name,String.append_assoc]

theorem generated_alone :
    (["",ranAloneMetric].flatMap (aloneMetric (α := α)).generated).map (·.name) ++
      ["",ranAloneMetric].map (fun filter => (Generated.special "HeapCount" filter).name) =
    otherNames := by
  have each (filter : String) : (aloneMetric (α := α)).generated filter =
      [.count ranAloneMetric filter,.pct ranAloneMetric filter] := rfl
  rw [funext each]
  decide

variable [Scalar α]

theorem floatMetrics_names (table : PhaseTable) :
    (floatMetrics (α := α) table).map (·.name) = floatNames table := by
  simp [floatMetrics,floatNames,floatMetric,stageMetric,phaseMetric,joinTimeMetrics,
    Function.comp_def]

theorem floatMetrics_kind (table : PhaseTable) :
    (floatMetrics (α := α) table).filter (·.kind = .bool) = [] := by
  refine List.filter_eq_nil_iff.mpr fun metric member => ?_
  obtain ⟨name,read,_,rfl⟩ := floatMetrics_read table metric member
  simp [floatMetric]

theorem filterOrder_eq (table : PhaseTable) :
    (builder (α := α) table).filterOrder = ["",ranAloneMetric] := by
  simp [CatalogBuilder.filterOrder,builder,metrics_eq,floatMetrics_kind,aloneMetric,boolMetric]

theorem generated_names (table : PhaseTable) :
    (builder (α := α) table).generated.map (·.name) =
      (floatNames table).flatMap (fun stem => tails.map (joined stem)) ++ otherNames := by
  have floats : (floatMetrics (α := α) table).flatMap (fun metric =>
      (["",ranAloneMetric].flatMap metric.generated).map (·.name)) =
      (floatNames table).flatMap fun stem => tails.map (joined stem) := by
    rw [← floatMetrics_names (α := α),List.flatMap_map]
    refine List.flatMap_congr fun metric member => ?_
    obtain ⟨name,read,_,rfl⟩ := floatMetrics_read table metric member
    exact generated_float name read
  have whole : (builder (α := α) table).generated =
      (floatMetrics (α := α) table).flatMap (fun metric =>
        ["",ranAloneMetric].flatMap metric.generated) ++
        (["",ranAloneMetric].flatMap (aloneMetric (α := α)).generated ++
          ["",ranAloneMetric].map fun filter => .special "HeapCount" filter) := by
    rw [CatalogBuilder.generated,filterOrder_eq]
    simp [builder,metrics_eq,heapCount]
  rw [whole,List.map_append,List.map_flatMap,floats,List.map_append,List.map_map]
  exact congrArg _ (generated_alone (α := α))

theorem ofTable_ok (table : PhaseTable) :
    ofTable (α := α) table = .ok (builder table).catalog := by
  refine ((builder table).build_registers.ok_iff _).mpr ⟨?_,rfl⟩
  rw [CatalogBuilder.claims_nodup_iff]
  refine ⟨?_,?_,?_⟩
  · rw [filterOrder_eq]
    decide
  · have distinct := floatNames_nodup table
    have named : (builder (α := α) table).metrics.map (·.name) =
        floatNames table ++ [ranAloneMetric] := by
      rw [← floatMetrics_names (α := α)]
      simp [builder,metrics_eq,aloneMetric,boolMetric]
    rw [named]
    obtain ⟨fresh,distinct⟩ := List.nodup_cons.mp distinct
    have front : (ranAloneMetric :: floatNames table).Nodup :=
      List.nodup_cons.mpr ⟨mt (List.mem_cons_of_mem _) fresh,(List.nodup_cons.mp distinct).2⟩
    exact (List.perm_append_singleton ..).nodup_iff.mpr front
  · rw [generated_names]
    exact names_nodup table

end JoinTrace.JoinCatalog
