import JoinTrace.Proofs.CatalogAnswers
import JoinTrace.Proofs.CatalogNames

namespace JoinTrace

theorem filteredName_where {filter : String} (named : filter ≠ "") (base : String) :
    filteredName base filter = base ++ "Where" ++ filter := by
  rw [Generated.filteredName_eq,Generated.restricted,if_neg named,String.append_assoc]

namespace Measurement
variable {α C E : Type} {filter : Filter C E} {container : C} {elements : List E}

theorem countOf_elements (selected : filter.elements container = .ok elements)
    (get : ElementGetter C E Bool) : countOf (α := α) filter get container =
      (count get container elements).map fun counted => .int counted := by
  rw [countOf,selected]
  change (count get container elements >>= fun counted => pure (MetricValue.int counted)) = _
  cases count get container elements <;> rfl

theorem countOf_missing {failure : Failure} (missing : filter.elements container = .error failure)
    (get : ElementGetter C E Bool) : countOf (α := α) filter get container = .error failure := by
  rw [countOf,missing]
  rfl

theorem pctOf_missing [Scalar α] {failure : Failure}
    (missing : filter.elements container = .error failure) (get : ElementGetter C E Bool) :
    pctOf (α := α) filter get container = .error failure := by
  rw [pctOf,missing]
  rfl

theorem pctOf_nothing [Scalar α] (selected : filter.elements container = .ok [])
    (get : ElementGetter C E Bool) :
    pctOf (α := α) filter get container = fail "can't get pct with no elements" := by
  rw [pctOf,selected]
  rfl

theorem pctOf_elements [Scalar α] (selected : filter.elements container = .ok elements)
    (some : elements ≠ []) (get : ElementGetter C E Bool) : pctOf filter get container =
      (count get container elements).map fun counted => .float
        (Scalar.ofNat 100 * Scalar.ofNat counted / Scalar.ofNat elements.length : α) := by
  rw [pctOf,selected]
  change (if elements.isEmpty then _ else count get container elements >>= fun counted =>
    pure (MetricValue.float _)) = _
  rw [if_neg (mt List.isEmpty_iff.mp some)]
  cases count get container elements <;> rfl

theorem floatOf_elements [Scalar α] (selected : filter.elements container = .ok elements)
    (get : ElementGetter C E α) (aggregate : AggregateFn) : floatOf filter get aggregate container =
      (get.values container elements).bind fun values => (aggregate.apply values).map .float := by
  rw [floatOf,selected]
  change (get.values container elements >>= fun values => aggregate.apply values >>= fun value =>
    pure (MetricValue.float value)) = _
  cases get.values container elements with
  | error failure => rfl
  | ok values =>
    change (aggregate.apply values >>= fun value => pure (MetricValue.float value)) =
      (aggregate.apply values).map .float
    cases aggregate.apply values <;> rfl

end Measurement

namespace CatalogBuilder
variable {α C E : Type} {builder : CatalogBuilder α C E} {name : String} {filter : Filter C E}

theorem allElements_listed : ⟨"",builder.elements⟩ ∈ builder.allFilters := List.mem_cons_self

theorem caller_listed (listed : filter ∈ builder.filters) : filter ∈ builder.allFilters :=
  List.mem_cons_of_mem _ (List.mem_append_left _ listed)

theorem boolFilter_listed {get : ElementGetter C E Bool}
    (listed : ⟨name,.bool get⟩ ∈ builder.metrics) :
    ⟨name,Measurement.elementsWhere builder.elements get⟩ ∈ builder.allFilters :=
  List.mem_cons_of_mem _ (List.mem_append_right _ (List.mem_filterMap.mpr ⟨_,listed,rfl⟩))

variable [Scalar α] {made : Catalog α C} (built : builder.build = .ok made)
include built

theorem build_distinct : builder.filterOrder.Nodup ∧ made = builder.catalog ∧ made.names.Nodup := by
  obtain ⟨fresh,rfl⟩ := (builder.build_registers.ok_iff made).mp built
  obtain ⟨filters,_,generated⟩ := builder.claims_nodup_iff.mp fresh
  exact ⟨filters,rfl,builder.catalog_names ▸ generated⟩

-- The empty name is taken by the filter of all elements.
theorem caller_named (listed : filter ∈ builder.filters) : filter.name ≠ "" := by
  rintro unnamed
  refine (List.nodup_cons.mp (build_distinct built).1).1 (List.mem_append_left _ ?_)
  exact List.mem_map.mpr ⟨filter,listed,unnamed⟩

theorem boolFilter_named {get : ElementGetter C E Bool}
    (listed : ⟨name,.bool get⟩ ∈ builder.metrics) : name ≠ "" := by
  rintro rfl
  refine (List.nodup_cons.mp (build_distinct built).1).1 (List.mem_append_right _ ?_)
  exact List.mem_map.mpr ⟨_,List.mem_filter.mpr ⟨listed,rfl⟩,rfl⟩

theorem evaluate_listed {entry : CatalogEntry α C}
    (listed : entry ∈ builder.entriesOver builder.allFilters) (container : C) :
    made.evaluate container entry.metric.name = .ok (entry.evaluate container) := by
  obtain ⟨_,rfl,names⟩ := build_distinct built
  exact Catalog.evaluate_ok_iff.mpr
    ⟨entry,(Catalog.get?_eq_some_iff names).mpr ⟨listed,rfl⟩,rfl⟩

theorem evaluate_metric {metric : ElementMetric α C E} (measured : metric ∈ builder.metrics)
    (kept : filter ∈ builder.allFilters) {entry : CatalogEntry α C}
    (listed : entry ∈ metricEntries metric filter) (container : C) :
    made.evaluate container entry.metric.name = .ok (entry.evaluate container) :=
  evaluate_listed built (List.mem_append_left _ (List.mem_flatMap.mpr
    ⟨metric,measured,List.mem_flatMap.mpr ⟨filter,kept,listed⟩⟩)) container

section Bool
variable {get : ElementGetter C E Bool} (measured : ⟨name,.bool get⟩ ∈ builder.metrics)
  (kept : filter ∈ builder.allFilters) (container : C)
include measured kept

theorem evaluate_count : made.evaluate container ("Count" ++ filteredName name filter.name) =
    .ok (Measurement.countOf filter get container) :=
  evaluate_metric built measured kept List.mem_cons_self container

theorem evaluate_pct : made.evaluate container ("Pct" ++ filteredName name filter.name) =
    .ok (Measurement.pctOf filter get container) :=
  evaluate_metric built measured kept (List.mem_cons_of_mem _ List.mem_cons_self) container

end Bool

theorem evaluate_float {get : ElementGetter C E α} (measured : ⟨name,.float get⟩ ∈ builder.metrics)
    (kept : filter ∈ builder.allFilters) (aggregate : AggregateFn) (container : C) :
    made.evaluate container (filteredName (name ++ "_" ++ aggregate.name) filter.name) =
      .ok (Measurement.floatOf filter get aggregate container) :=
  evaluate_metric built measured kept
    (List.mem_map.mpr ⟨aggregate,by cases aggregate <;> decide,rfl⟩) container

end CatalogBuilder
end JoinTrace
