import Mathlib.Data.List.FinRange
import Mathlib.Data.List.OfFn
import JoinTrace.Proofs.CatalogAnswers
import JoinTrace.Proofs.CatalogNames

-- What every statistic of a catalog is worth, said from the parts its builder was given: the
-- elements a filter's name stands for, what a metric gives on them place by place, and what the
-- statistic's family makes of that.
namespace JoinTrace
variable {α C E V : Type}

namespace ElementGetter

inductive Looks (get : ElementGetter C E V) (container : C) (elements : List E) :
    Failable (Fin elements.length → V) → Prop where
  | found {value : Fin elements.length → V}
      (each : ∀ place, get container elements place = .ok (value place)) :
      Looks get container elements (.ok value)
  | failed {place : Fin elements.length} {failure : Failure}
      (here : get container elements place = .error failure)
      (earlier : ∀ other < place, ∃ value, get container elements other = .ok value) :
      Looks get container elements (.error failure)

variable {get : ElementGetter C E V} {container : C} {elements : List E}
  {outcome other : Failable (Fin elements.length → V)}

theorem Looks.values (looked : get.Looks container elements outcome) :
    get.values container elements = outcome.map List.ofFn := by
  cases looked with
  | @found value each =>
    have same : get container elements = fun place => pure (value place) := funext each
    rw [ElementGetter.values,same,List.mapM_pure,← List.ofFn_eq_map]
    rfl
  | @failed place failure here earlier =>
    obtain ⟨before,after,split⟩ := List.append_of_mem (List.mem_finRange place)
    refine mapM_error_iff.mpr ⟨before,place,after,split,fun other member => ?_,here⟩
    have ordered := List.pairwise_lt_finRange elements.length
    rw [split] at ordered
    exact earlier other ((List.pairwise_append.mp ordered).2.2 other member place (by simp))

theorem looks_exists (get : ElementGetter C E V) (container : C) (elements : List E) :
    ∃ outcome, get.Looks container elements outcome := by
  cases ran : get.values container elements with
  | ok values =>
    have each (place : Fin elements.length) := mapM_ok_mem ran place (List.mem_finRange place)
    choose value each using each
    exact ⟨_,.found each⟩
  | error failure =>
    obtain ⟨before,place,after,split,earlier,here⟩ := mapM_error_iff.mp ran
    refine ⟨_,.failed here fun other lower => earlier other ?_⟩
    have ordered := List.pairwise_lt_finRange elements.length
    have listed := List.mem_finRange other
    rw [split] at ordered listed
    rcases List.mem_append.mp listed with before | later
    · exact before
    · rcases List.mem_cons.mp later with rfl | later
      · exact absurd lower (Nat.lt_irrefl _)
      · have above := (List.pairwise_cons.mp (List.pairwise_append.mp ordered).2.1).1 other later
        exact absurd lower (Nat.lt_asymm above)

theorem Looks.unique (looked : get.Looks container elements outcome)
    (again : get.Looks container elements other) : outcome = other := by
  have same := looked.values.symm.trans again.values
  cases outcome with
  | error failure =>
    cases other with
    | error reason => exact congrArg _ (Except.error.inj same)
    | ok value => cases same
  | ok value =>
    cases other with
    | error reason => cases same
    | ok again => exact congrArg _ (List.ofFn_injective (Except.ok.inj same))

end ElementGetter

namespace Measurement

def flagged (elements : List E) (flag : Fin elements.length → Bool) : List E :=
  ((List.finRange elements.length).filter flag).map elements.get

theorem zip_ofFn (elements : List E) (flag : Fin elements.length → Bool) :
    ((elements.zip (List.ofFn flag)).filter (·.2)).map (·.1) = flagged elements flag := by
  have paired : elements.zip (List.ofFn flag) =
      (List.finRange elements.length).map fun place => (elements.get place,flag place) := by
    rw [← List.zip_map',List.map_get_finRange,List.ofFn_eq_map]
  rw [paired,List.filter_map,List.map_map]
  rfl

theorem elementsWhere_looks {all : C → Failable (List E)} {get : ElementGetter C E Bool}
    {container : C} {elements : List E} {flags : Failable (Fin elements.length → Bool)}
    (listed : all container = .ok elements) (looked : get.Looks container elements flags) :
    elementsWhere all get container = flags.map (flagged elements) := by
  have bound : elementsWhere all get container = get.values container elements >>= fun flags =>
      pure (((elements.zip flags).filter (·.2)).map (·.1)) := by rw [elementsWhere,listed]; rfl
  rw [bound,looked.values]
  cases flags with
  | error failure => rfl
  | ok flag => exact congrArg Except.ok (zip_ofFn elements flag)

theorem count_looks {get : ElementGetter C E Bool} {container : C} {elements : List E}
    {flags : Failable (Fin elements.length → Bool)} (looked : get.Looks container elements flags) :
    count get container elements = flags.map fun flag => (List.ofFn flag).count true := by
  rw [count,looked.values]
  cases flags <;> rfl

end Measurement

def Generated.filter : Generated → String
  | .count _ filter => filter
  | .pct _ filter => filter
  | .float _ _ filter => filter
  | .special _ filter => filter

namespace CatalogBuilder

-- The elements that a filter's name stands for. A bool metric is looked up in the list of all
-- elements, and keeps those in whose place there it holds.
inductive Selects (builder : CatalogBuilder α C E) (container : C) :
    String → Failable (List E) → Prop where
  | all : Selects builder container "" (builder.elements container)
  | caller {filter : Filter C E} (listed : filter ∈ builder.filters) :
      Selects builder container filter.name (filter.elements container)
  | missing {name : String} {get : ElementGetter C E Bool} {failure : Failure}
      (listed : ⟨name,.bool get⟩ ∈ builder.metrics)
      (absent : builder.elements container = .error failure) :
      Selects builder container name (.error failure)
  | holding {name : String} {get : ElementGetter C E Bool} {elements : List E}
      {flags : Failable (Fin elements.length → Bool)}
      (listed : ⟨name,.bool get⟩ ∈ builder.metrics)
      (present : builder.elements container = .ok elements)
      (looked : get.Looks container elements flags) :
      Selects builder container name (flags.map (Measurement.flagged elements))

inductive Measures [Scalar α] (builder : CatalogBuilder α C E) (container : C)
    (elements : List E) : Generated → Failable (MetricValue α) → Prop where
  | count {metric filter : String} {get : ElementGetter C E Bool}
      {flags : Failable (Fin elements.length → Bool)}
      (listed : ⟨metric,.bool get⟩ ∈ builder.metrics)
      (looked : get.Looks container elements flags) :
      Measures builder container elements (.count metric filter)
        (flags.map fun flag => .int ((List.ofFn flag).count true))
  | pctOfNone {metric filter : String} {get : ElementGetter C E Bool}
      (listed : ⟨metric,.bool get⟩ ∈ builder.metrics) (empty : elements = []) :
      Measures builder container elements (.pct metric filter)
        (.error ⟨"can't get pct with no elements"⟩)
  | pct {metric filter : String} {get : ElementGetter C E Bool}
      {flags : Failable (Fin elements.length → Bool)}
      (listed : ⟨metric,.bool get⟩ ∈ builder.metrics) (some : elements ≠ [])
      (looked : get.Looks container elements flags) :
      Measures builder container elements (.pct metric filter)
        (flags.map fun flag => .float (Scalar.ofNat 100 *
          Scalar.ofNat ((List.ofFn flag).count true) / Scalar.ofNat elements.length))
  | float {metric filter : String} {aggregate : AggregateFn} {get : ElementGetter C E α}
      {values : Failable (Fin elements.length → α)}
      (listed : ⟨metric,.float get⟩ ∈ builder.metrics)
      (looked : get.Looks container elements values) :
      Measures builder container elements (.float metric aggregate filter)
        (values.bind fun value => (aggregate.apply (List.ofFn value)).map .float)
  | special {special : SpecialAggregate α C E} {filter : String}
      (listed : special ∈ builder.specials) :
      Measures builder container elements (.special special.name filter)
        (special.evaluate container elements)

-- A statistic fails as its filter does, before anything is measured.
inductive Denotes [Scalar α] (builder : CatalogBuilder α C E) (container : C) :
    Generated → Failable (MetricValue α) → Prop where
  | missing {origin : Generated} {failure : Failure}
      (selected : builder.Selects container origin.filter (.error failure)) :
      Denotes builder container origin (.error failure)
  | measured {origin : Generated} {elements : List E} {value : Failable (MetricValue α)}
      (selected : builder.Selects container origin.filter (.ok elements))
      (made : builder.Measures container elements origin value) :
      Denotes builder container origin value

variable {builder : CatalogBuilder α C E} {container : C}

theorem selects_holding {name : String} {get : ElementGetter C E Bool}
    (listed : ⟨name,.bool get⟩ ∈ builder.metrics) :
    builder.Selects container name (Measurement.elementsWhere builder.elements get container) := by
  cases all : builder.elements container with
  | error failure =>
    have failed : Measurement.elementsWhere builder.elements get container = .error failure := by
      rw [Measurement.elementsWhere,all]
      rfl
    rw [failed]
    exact .missing listed all
  | ok elements =>
    obtain ⟨flags,looked⟩ := get.looks_exists container elements
    rw [Measurement.elementsWhere_looks all looked]
    exact .holding listed all looked

theorem selects_allFilters (container : C) {filter : Filter C E}
    (listed : filter ∈ builder.allFilters) :
    builder.Selects container filter.name (filter.elements container) := by
  rcases List.mem_cons.mp listed with rfl | listed
  · exact .all
  rcases List.mem_append.mp listed with caller | made
  · exact .caller caller
  · obtain ⟨⟨name,get | get⟩,metric,made⟩ := List.mem_filterMap.mp made
    · cases made
      exact selects_holding metric
    · cases made

theorem Selects.listed {name : String} {outcome : Failable (List E)}
    (selects : builder.Selects container name outcome) :
    ∃ filter ∈ builder.allFilters, filter.name = name ∧ filter.elements container = outcome := by
  have made {name : String} {get : ElementGetter C E Bool}
      (listed : ⟨name,.bool get⟩ ∈ builder.metrics) :
      ⟨name,Measurement.elementsWhere builder.elements get⟩ ∈ builder.allFilters :=
    List.mem_cons_of_mem _ (List.mem_append_right _ (List.mem_filterMap.mpr ⟨_,listed,rfl⟩))
  cases selects with
  | all => exact ⟨_,List.mem_cons_self,rfl,rfl⟩
  | caller listed => exact ⟨_,List.mem_cons_of_mem _ (List.mem_append_left _ listed),rfl,rfl⟩
  | missing listed absent =>
    refine ⟨_,made listed,rfl,?_⟩
    simp only [Measurement.elementsWhere,absent]
    rfl
  | holding listed present looked =>
    exact ⟨_,made listed,rfl,Measurement.elementsWhere_looks present looked⟩

theorem Selects.unique (distinct : builder.filterOrder.Nodup) {name : String}
    {outcome other : Failable (List E)} (selects : builder.Selects container name outcome)
    (again : builder.Selects container name other) : outcome = other := by
  obtain ⟨filter,listed,named,rfl⟩ := selects.listed
  obtain ⟨filter',listed',named',rfl⟩ := again.listed
  rw [← allFilters_names] at distinct
  rw [List.inj_on_of_nodup_map distinct listed listed' (named.trans named'.symm)]

structure Distinct (builder : CatalogBuilder α C E) : Prop where
  filters : builder.filterOrder.Nodup
  metrics : (builder.metrics.map (·.name)).Nodup
  specials : (builder.specials.map (·.name)).Nodup

theorem distinct_of_claims (distinct : builder.claims.Nodup) : builder.Distinct := by
  obtain ⟨filters,metrics,generated⟩ := builder.claims_nodup_iff.mp distinct
  refine ⟨filters,metrics,?_⟩
  -- Over all elements a special aggregate is written as it is.
  have unfiltered : builder.specials.map (·.name) =
      (builder.specials.map fun special => Generated.special special.name "").map (·.name) := by
    simp [Generated.name,Generated.restricted,Function.comp_def]
  rw [unfiltered]
  refine generated.sublist (.map _ ((List.Sublist.trans ?_ (List.sublist_append_right ..))))
  exact List.sublist_append_left ..

variable [Scalar α] {elements : List E} {origin : Generated} {value other : Failable (MetricValue α)}

theorem Measures.unique (distinct : builder.Distinct)
    (measures : builder.Measures container elements origin value)
    (again : builder.Measures container elements origin other) : value = other := by
  have same {metric metric' : ElementMetric α C E} (listed : metric ∈ builder.metrics)
      (listed' : metric' ∈ builder.metrics) (named : metric.name = metric'.name) :
      metric = metric' := List.inj_on_of_nodup_map distinct.metrics listed listed' named
  cases measures with
  | count listed looked =>
    cases again with
    | count listed' looked' =>
      cases same listed listed' rfl
      rw [looked.unique looked']
  | pctOfNone listed empty =>
    cases again with
    | pctOfNone => rfl
    | pct _ some => exact absurd empty some
  | pct listed some looked =>
    cases again with
    | pctOfNone _ empty => exact absurd empty some
    | pct listed' _ looked' =>
      cases same listed listed' rfl
      rw [looked.unique looked']
  | float listed looked =>
    cases again with
    | float listed' looked' =>
      cases same listed listed' rfl
      rw [looked.unique looked']
  | @special special _ listed =>
    generalize named : special.name = name at again
    cases again with
    | special listed' => rw [List.inj_on_of_nodup_map distinct.specials listed listed' named]

theorem Denotes.unique (distinct : builder.Distinct)
    (denotes : builder.Denotes container origin value)
    (again : builder.Denotes container origin other) : value = other := by
  cases denotes with
  | missing selected =>
    cases again with
    | missing selected' => cases selected.unique distinct.filters selected'; rfl
    | measured selected' => cases selected.unique distinct.filters selected'
  | measured selected made =>
    cases again with
    | missing selected' => cases selected.unique distinct.filters selected'
    | measured selected' made' =>
      cases selected.unique distinct.filters selected'
      exact made.unique distinct made'

theorem denotes_bind {filter : Filter C E} (listed : filter ∈ builder.allFilters)
    (ranged : origin.filter = filter.name) {next : List E → Failable (MetricValue α)}
    (measures : ∀ elements, builder.Measures container elements origin (next elements)) :
    builder.Denotes container origin (filter.elements container >>= next) := by
  have selected := selects_allFilters container listed
  rw [← ranged] at selected
  cases kept : filter.elements container with
  | error failure => exact .missing (kept ▸ selected)
  | ok elements => exact .measured (kept ▸ selected) (measures elements)

theorem measures_count {name filter : String} {get : ElementGetter C E Bool}
    (listed : ⟨name,.bool get⟩ ∈ builder.metrics) (elements : List E) :
    builder.Measures container elements (.count name filter)
      (Measurement.count get container elements >>= fun counted => pure (.int counted)) := by
  obtain ⟨flags,looked⟩ := get.looks_exists container elements
  rw [Measurement.count_looks looked]
  have measured : builder.Measures container elements (.count name filter) _ :=
    .count listed looked
  cases flags <;> exact measured

theorem measures_pct {name filter : String} {get : ElementGetter C E Bool}
    (listed : ⟨name,.bool get⟩ ∈ builder.metrics) (elements : List E) :
    builder.Measures container elements (.pct name filter)
      (if elements.isEmpty then fail "can't get pct with no elements"
      else Measurement.count get container elements >>= fun counted =>
        pure (.float (Scalar.ofNat 100 * Scalar.ofNat counted / Scalar.ofNat elements.length))) := by
  split
  · rename_i empty
    exact .pctOfNone listed (List.isEmpty_iff.mp empty)
  · rename_i some
    obtain ⟨flags,looked⟩ := get.looks_exists container elements
    rw [Measurement.count_looks looked]
    have measured : builder.Measures container elements (.pct name filter) _ :=
      .pct listed (mt List.isEmpty_iff.mpr some) looked
    cases flags <;> exact measured

theorem measures_float {name filter : String} {get : ElementGetter C E α}
    (listed : ⟨name,.float get⟩ ∈ builder.metrics) (aggregate : AggregateFn) (elements : List E) :
    builder.Measures container elements (.float name aggregate filter)
      (get.values container elements >>= fun values => (aggregate.apply values).map .float) := by
  obtain ⟨values,looked⟩ := get.looks_exists container elements
  rw [looked.values]
  have measured : builder.Measures container elements (.float name aggregate filter) _ :=
    .float listed looked
  cases values <;> exact measured

theorem metricEntries_denote {metric : ElementMetric α C E} {filter : Filter C E}
    (measured : metric ∈ builder.metrics) (listed : filter ∈ builder.allFilters) :
    ∀ origin ∈ metric.generated filter.name, ∃ entry ∈ metricEntries metric filter,
      entry.metric = origin.descriptor ∧
        builder.Denotes container origin (entry.evaluate container) := by
  intro origin made
  obtain ⟨name,get | get⟩ := metric
  · simp only [ElementMetric.generated,ElementMetric.kind_bool,List.mem_cons,List.not_mem_nil,
      or_false] at made
    rcases made with rfl | rfl
    · refine ⟨_,List.mem_cons_self,?_,denotes_bind listed rfl (measures_count measured)⟩
      simp [Generated.descriptor,Generated.name,Generated.filteredName_eq]
    · refine ⟨_,List.mem_cons_of_mem _ List.mem_cons_self,?_,
        denotes_bind listed rfl (measures_pct measured)⟩
      simp [Generated.descriptor,Generated.name,Generated.filteredName_eq]
  · simp only [ElementMetric.generated,ElementMetric.kind_float] at made
    obtain ⟨aggregate,known,rfl⟩ := List.mem_map.mp made
    refine ⟨_,List.mem_map.mpr ⟨aggregate,known,rfl⟩,?_,
      denotes_bind listed rfl (measures_float measured aggregate)⟩
    simp [Generated.descriptor,Generated.name,Generated.filteredName_eq]

theorem entry_denotes (container : C) {origin : Generated} (made : origin ∈ builder.generated) :
    ∃ entry ∈ builder.entriesOver builder.allFilters, entry.metric = origin.descriptor ∧
      builder.Denotes container origin (entry.evaluate container) := by
  have filterNamed {name : String} (ordered : name ∈ builder.filterOrder) :
      ∃ filter ∈ builder.allFilters, filter.name = name :=
    List.mem_map.mp (builder.allFilters_names ▸ ordered)
  rcases List.mem_append.mp made with measured | whole
  · obtain ⟨metric,listed,made⟩ := List.mem_flatMap.mp measured
    obtain ⟨_,ordered,made⟩ := List.mem_flatMap.mp made
    obtain ⟨filter,kept,rfl⟩ := filterNamed ordered
    obtain ⟨entry,member,denotes⟩ := metricEntries_denote listed kept origin made
    exact ⟨entry,List.mem_append_left _ (List.mem_flatMap.mpr
      ⟨metric,listed,List.mem_flatMap.mpr ⟨filter,kept,member⟩⟩),denotes⟩
  · obtain ⟨_,ordered,made⟩ := List.mem_flatMap.mp whole
    obtain ⟨filter,kept,rfl⟩ := filterNamed ordered
    obtain ⟨special,listed,rfl⟩ := List.mem_map.mp made
    refine ⟨specialEntry filter special,List.mem_append_right _ (List.mem_flatMap.mpr
      ⟨filter,kept,List.mem_map.mpr ⟨special,listed,rfl⟩⟩),?_,?_⟩
    · simp [specialEntry,Generated.descriptor,Generated.name,Generated.specialName_eq]
    · exact denotes_bind kept rfl fun elements => .special listed

def readings : CatalogBuilder ℚ (List (Option ℚ)) (Option ℚ) where
  elements all := .ok all
  metrics := [⟨"First",.bool fun _ _ place => .ok (place.val == 0)⟩,
    ⟨"Last",.bool fun _ listed place => .ok (place.val+1 == listed.length)⟩,
    ⟨"Read",.float fun _ listed place => (listed.get place).elim (fail "no reading") .ok⟩]
  filters := [⟨"Reversed",fun all => .ok all.reverse⟩]
  specials := []

theorem build_evaluates_denotation {made : Catalog α C} (built : builder.build = .ok made)
    (container : C) :
    made.metrics = builder.generated.map (·.descriptor) ∧
    (∀ origin ∈ builder.generated, ∃ value,
      made.evaluate container origin.descriptor.name = .ok value ∧
        ∀ other, builder.Denotes container origin other ↔ other = value) ∧
    made.Consistent container := by
  obtain ⟨fresh,rfl⟩ := (builder.build_registers.ok_iff made).mp built
  have distinct := distinct_of_claims fresh
  have named : builder.catalog.names.Nodup := by
    rw [catalog_names]
    exact (builder.claims_nodup_iff.mp fresh).2.2
  refine ⟨builder.catalog_metrics,fun origin made => ?_,Catalog.consistent named container⟩
  obtain ⟨entry,listed,described,denotes⟩ := entry_denotes container made
  have found : builder.catalog.get? origin.descriptor.name = some entry :=
    (Catalog.get?_eq_some_iff named).mpr ⟨listed,congrArg _ described⟩
  refine ⟨entry.evaluate container,Catalog.evaluate_ok_iff.mpr ⟨entry,found,rfl⟩,fun other => ?_⟩
  constructor
  · intro again
    exact again.unique distinct denotes
  · rintro rfl
    exact denotes

theorem build_evaluates_denotation_sample : ∃ made, readings.build = .ok made ∧
    made.evaluate [some 1,none,some 3] "CountFirstWhereLast" = .ok (.ok (.int 1)) ∧
    readings.Denotes [some 1,none,some 3] (.count "First" "Last") (.ok (.int 1)) ∧
    readings.Denotes [some 1,none,some 3] (.float "Read" .max "") (.error ⟨"no reading"⟩) ∧
    readings.Denotes [some 1,none,some 3] (.float "Read" .max "Last") (.ok (.float 3)) := by
  have built : readings.build = .ok readings.catalog :=
    (readings.build_registers.ok_iff _).mpr ⟨by decide,rfl⟩
  obtain ⟨_,valued,_⟩ := build_evaluates_denotation built [some 1,none,some 3]
  have denotes {origin : Generated} {value : Failable (MetricValue ℚ)}
      (made : origin ∈ readings.generated)
      (computed : readings.catalog.evaluate [some 1,none,some 3] origin.descriptor.name = .ok value) :
      readings.Denotes [some 1,none,some 3] origin value := by
    obtain ⟨_,evaluated,only⟩ := valued origin made
    exact (only value).mpr (Except.ok.inj (computed.symm.trans evaluated))
  exact ⟨_,built,by rfl,denotes (by decide) (by rfl),denotes (by decide) (by rfl),
    denotes (by decide) (by rfl)⟩

end CatalogBuilder
end JoinTrace
