import JoinTrace.Proofs.CatalogNames
import JoinTrace.Proofs.Rearranged

-- A catalog over exact numbers does not tell containers apart whose elements differ in their order
-- alone, provided that its metrics read one element each and its filters keep to the same ones.
namespace JoinTrace
variable {C E V : Type}

def ElementGetter.Reads (get : ElementGetter C E V) (read : E → Failable V) : Prop :=
  ∀ container elements place, get container elements place = read (elements.get place)

theorem ElementGetter.Reads.values {get : ElementGetter C E V} {read : E → Failable V}
    (reads : get.Reads read) (container : C) (elements : List E) :
    get.values container elements = elements.mapM read := by
  have placed : get container elements = read ∘ elements.get := funext (reads container elements)
  rw [ElementGetter.values,placed,← List.mapM_map,List.map_get_finRange]

inductive ElementMetric.Placeless : ElementMetric ℚ C E → Prop where
  | bool {name : String} {get : ElementGetter C E Bool} (holds : E → Bool)
      (reads : get.Reads fun element => .ok (holds element)) : Placeless ⟨name,.bool get⟩
  | float {name : String} {get : ElementGetter C E ℚ} (read : E → Failable ℚ)
      (alike : FailsAlike read) (reads : get.Reads read) : Placeless ⟨name,.float get⟩

structure CatalogBuilder.OrderFree (alike : C → C → Prop) (builder : CatalogBuilder ℚ C E) :
    Prop where
  elements : ∀ {a b}, alike a b → Rearranged (builder.elements a) (builder.elements b)
  filters : ∀ filter ∈ builder.filters, ∀ {a b}, alike a b →
    Rearranged (filter.elements a) (filter.elements b)
  metrics : ∀ metric ∈ builder.metrics, metric.Placeless
  specials : ∀ special ∈ builder.specials, ∀ {a b}, alike a b → ∀ {items others : List E},
    items.Perm others → special.evaluate a items = special.evaluate b others

namespace Measurement
variable {a b : C}

theorem zip_filter (holds : E → Bool) (elements : List E) :
    ((elements.zip (elements.map holds)).filter (·.2)).map (·.1) = elements.filter holds := by
  induction elements with
  | nil => rfl
  | cons element rest ih =>
    rw [List.map_cons,List.zip_cons_cons]
    cases kept : holds element with
    | false => simpa [kept] using ih
    | true => simpa [kept] using ih

theorem flags_eq {get : ElementGetter C E Bool} {holds : E → Bool}
    (reads : get.Reads fun element => .ok (holds element)) (container : C) (elements : List E) :
    get.values container elements = .ok (elements.map holds) := by
  rw [reads.values]
  exact List.mapM_pure

theorem elementsWhere_rearranged {all : C → Failable (List E)} {get : ElementGetter C E Bool}
    {holds : E → Bool} (reads : get.Reads fun element => .ok (holds element))
    (same : Rearranged (all a) (all b)) :
    Rearranged (elementsWhere all get a) (elementsWhere all get b) := by
  refine same.bind fun items others perm => ?_
  have kept := perm.filter holds
  rw [← zip_filter holds items,← zip_filter holds others] at kept
  rw [flags_eq reads,flags_eq reads]
  exact .values kept

theorem count_perm {get : ElementGetter C E Bool} {holds : E → Bool}
    (reads : get.Reads fun element => .ok (holds element)) {items others : List E}
    (perm : items.Perm others) : count get a items = count get b others := by
  unfold count
  rw [flags_eq reads,flags_eq reads]
  exact congrArg Except.ok ((perm.map holds).count_eq true)

variable {filter : Filter C E} (same : Rearranged (filter.elements a) (filter.elements b))
include same

theorem countOf_eq {get : ElementGetter C E Bool} {holds : E → Bool}
    (reads : get.Reads fun element => .ok (holds element)) :
    countOf (α := ℚ) filter get a = countOf filter get b := by
  refine same.bind_eq fun items others perm => ?_
  rw [count_perm reads perm]

theorem pctOf_eq {get : ElementGetter C E Bool} {holds : E → Bool}
    (reads : get.Reads fun element => .ok (holds element)) :
    pctOf (α := ℚ) filter get a = pctOf filter get b := by
  refine same.bind_eq fun items others perm => ?_
  rw [perm.isEmpty_eq,perm.length_eq,count_perm reads perm]

theorem floatOf_eq {get : ElementGetter C E ℚ} {read : E → Failable ℚ} (alike : FailsAlike read)
    (reads : get.Reads read) (aggregate : AggregateFn) :
    floatOf filter get aggregate a = floatOf filter get aggregate b := by
  refine same.bind_eq fun items others perm => ?_
  rw [reads.values,reads.values]
  refine (Rearranged.mapM alike perm).bind_eq fun values others perm => ?_
  rw [Exact.apply_perm aggregate perm]

end Measurement

namespace CatalogBuilder
variable {builder : CatalogBuilder ℚ C E} {alike : C → C → Prop} {a b : C}

theorem OrderFree.allFilters (free : builder.OrderFree alike) (same : alike a b) :
    ∀ filter ∈ builder.allFilters, Rearranged (filter.elements a) (filter.elements b) := by
  intro filter member
  rcases List.mem_cons.mp member with rfl | member
  · exact free.elements same
  rcases List.mem_append.mp member with caller | made
  · exact free.filters filter caller same
  · obtain ⟨metric,listed,made⟩ := List.mem_filterMap.mp made
    cases free.metrics metric listed with
    | bool holds reads =>
      cases made
      exact Measurement.elementsWhere_rearranged reads (free.elements same)
    | float read fails reads => cases made

theorem OrderFree.entry_eq (free : builder.OrderFree alike) (same : alike a b) :
    ∀ entry ∈ builder.entriesOver builder.allFilters, entry.evaluate a = entry.evaluate b := by
  intro entry member
  rcases List.mem_append.mp member with measured | whole
  · obtain ⟨metric,listed,measured⟩ := List.mem_flatMap.mp measured
    obtain ⟨filter,kept,made⟩ := List.mem_flatMap.mp measured
    have rearranged := free.allFilters same filter kept
    cases free.metrics metric listed with
    | bool holds reads =>
      rcases List.mem_cons.mp made with rfl | made
      · exact Measurement.countOf_eq rearranged reads
      · cases List.mem_singleton.mp made
        exact Measurement.pctOf_eq rearranged reads
    | float read fails reads =>
      obtain ⟨aggregate,_,rfl⟩ := List.mem_map.mp made
      exact Measurement.floatOf_eq rearranged fails reads aggregate
  · obtain ⟨filter,kept,made⟩ := List.mem_flatMap.mp whole
    obtain ⟨special,listed,rfl⟩ := List.mem_map.mp made
    exact (free.allFilters same filter kept).bind_eq fun items others perm =>
      free.specials special listed same perm

theorem OrderFree.evaluateAll_eq (free : builder.OrderFree alike) (same : alike a b) :
    builder.catalog.evaluateAll a = builder.catalog.evaluateAll b :=
  List.map_congr_left fun entry member => by rw [free.entry_eq same entry member]

end CatalogBuilder
end JoinTrace
