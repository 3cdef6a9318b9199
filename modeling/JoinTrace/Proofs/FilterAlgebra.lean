import Mathlib.Algebra.BigOperators.Group.List.Basic
import JoinTrace.Proofs.CatalogFamilies
import JoinTrace.Proofs.CatalogOrder

-- What bool metrics make of each other's filters. A bool metric filters elements in one pass and
-- counts them in another; where it reads one element at a time, both come to the same elements, and
-- a metric and its negation split whatever is measured over them.
namespace JoinTrace
variable {α C E : Type}

def CatalogBuilder.ReadsBool (builder : CatalogBuilder α C E) (name : String) (holds : E → Bool) :
    Prop :=
  ∃ get, ⟨name,.bool get⟩ ∈ builder.metrics ∧ get.Reads fun element => .ok (holds element)

def CatalogBuilder.ReadsFloat (builder : CatalogBuilder α C E) (name : String) (value : E → α) :
    Prop :=
  ∃ get, ⟨name,.float get⟩ ∈ builder.metrics ∧ get.Reads fun element => .ok (value element)

structure CatalogBuilder.Opposed [Scalar α] (builder : CatalogBuilder α C E) (made : Catalog α C)
    (kept dropped : String) (keep : E → Bool) : Prop where
  built : builder.build = .ok made
  holds : builder.ReadsBool kept keep
  fails : builder.ReadsBool dropped fun element => !keep element

def Failable.larger : Failable ℚ → Failable ℚ → Failable ℚ
  | .ok x,.ok y => .ok (max x y)
  | .ok x,.error _ => .ok x
  | .error _,other => other

namespace Catalog

def Says (catalog : Catalog α C) (container : C) (name : String) (value : MetricValue α) : Prop :=
  catalog.evaluate container name = .ok (.ok value)

structure CountsSplit (made : Catalog α C) (container : C) (elements : List E)
    (counted kept dropped : String) (isCounted keep : E → Bool) : Prop where
  both : made.Says container ("Count" ++ counted ++ "Where" ++ kept)
    (.int (elements.countP fun element => isCounted element && keep element))
  bothAgain : made.Says container ("Count" ++ kept ++ "Where" ++ counted)
    (.int (elements.countP fun element => isCounted element && keep element))
  own : ∃ whole, made.Says container ("Count" ++ counted ++ "Where" ++ counted) (.int whole) ∧
    made.Says container ("Count" ++ counted) (.int whole)
  split : ∃ part rest, made.Says container ("Count" ++ counted ++ "Where" ++ kept) (.int part) ∧
    made.Says container ("Count" ++ counted ++ "Where" ++ dropped) (.int rest) ∧
    made.Says container ("Count" ++ counted) (.int (part + rest))
  whole : ∃ part rest, made.Says container ("Count" ++ kept) (.int part) ∧
    made.Says container ("Count" ++ dropped) (.int rest) ∧ part + rest = elements.length

structure FloatsSplit (made : Catalog ℚ C) (container : C) (measured kept dropped : String) :
    Prop where
  sum : ∃ part rest,
    made.Says container (measured ++ "_" ++ "Sum" ++ "Where" ++ kept) (.float part) ∧
    made.Says container (measured ++ "_" ++ "Sum" ++ "Where" ++ dropped) (.float rest) ∧
    made.Says container (measured ++ "_" ++ "Sum") (.float (part + rest))
  max : ∃ part rest : Failable ℚ,
    made.evaluate container (measured ++ "_" ++ "Max" ++ "Where" ++ kept) = .ok (part.map .float) ∧
    made.evaluate container (measured ++ "_" ++ "Max" ++ "Where" ++ dropped) =
      .ok (rest.map .float) ∧
    made.evaluate container (measured ++ "_" ++ "Max") = .ok ((part.larger rest).map .float)

end Catalog

namespace Measurement
variable {container : C} {elements : List E}

theorem count_reads {get : ElementGetter C E Bool} {holds : E → Bool}
    (reads : get.Reads fun element => .ok (holds element)) (container : C) (elements : List E) :
    count get container elements = .ok (elements.countP holds) := by
  rw [count,flags_eq reads]
  exact congrArg Except.ok (by simp [List.count,List.countP_map,Function.comp_def])

theorem elementsWhere_reads {all : C → Failable (List E)} (listed : all container = .ok elements)
    {get : ElementGetter C E Bool} {holds : E → Bool}
    (reads : get.Reads fun element => .ok (holds element)) :
    elementsWhere all get container = .ok (elements.filter holds) := by
  have flags := flags_eq reads container elements
  rw [elementsWhere,listed]
  change (get.values container elements >>= fun flags => pure _) = _
  rw [flags]
  exact congrArg Except.ok (zip_filter holds elements)

end Measurement

namespace CatalogBuilder
variable [Scalar α] {builder : CatalogBuilder α C E} {made : Catalog α C} {container : C}
  {elements selected : List E} {name : String} {holds keep : E → Bool} (built : builder.build = .ok made)
include built

theorem says_count (reads : builder.ReadsBool name holds) {filter : Filter C E}
    (listed : filter ∈ builder.allFilters) (given : filter.elements container = .ok selected) :
    made.Says container ("Count" ++ filteredName name filter.name) (.int (selected.countP holds)) := by
  obtain ⟨get,measured,reads⟩ := reads
  rw [Catalog.Says,evaluate_count built measured listed,Measurement.countOf_elements given,
    Measurement.count_reads reads]
  rfl

theorem evaluate_aggregate {value : E → α} (reads : builder.ReadsFloat name value)
    {filter : Filter C E} (listed : filter ∈ builder.allFilters)
    (given : filter.elements container = .ok selected) (aggregate : AggregateFn) :
    made.evaluate container (filteredName (name ++ "_" ++ aggregate.name) filter.name) =
      .ok ((aggregate.apply (selected.map value)).map .float) := by
  obtain ⟨get,measured,reads⟩ := reads
  have values : get.values container selected = .ok (selected.map value) := by
    rw [reads.values]
    exact List.mapM_pure
  rw [evaluate_float built measured listed,Measurement.floatOf_elements given,values]
  rfl

theorem says_count_caller (reads : builder.ReadsBool name holds) {filter : Filter C E}
    (listed : filter ∈ builder.filters) (given : filter.elements container = .ok selected) :
    made.Says container ("Count" ++ name ++ "Where" ++ filter.name)
      (.int (selected.countP holds)) := by
  have counted := says_count built reads (caller_listed listed) given
  rwa [filteredName_where (caller_named built listed),← String.append_assoc,
    ← String.append_assoc] at counted

variable (given : builder.elements container = .ok elements)
include given

theorem filter_reads (reads : builder.ReadsBool name keep) :
    ∃ filter ∈ builder.allFilters, filter.name = name ∧ name ≠ "" ∧
      filter.elements container = .ok (elements.filter keep) := by
  obtain ⟨get,measured,reads⟩ := reads
  exact ⟨_,boolFilter_listed measured,rfl,boolFilter_named built measured,
    Measurement.elementsWhere_reads given reads⟩

theorem says_count_all (reads : builder.ReadsBool name holds) :
    made.Says container ("Count" ++ name) (.int (elements.countP holds)) :=
  says_count built reads allElements_listed given

theorem says_count_where (reads : builder.ReadsBool name holds) {other : String}
    (filters : builder.ReadsBool other keep) :
    made.Says container ("Count" ++ name ++ "Where" ++ other)
      (.int (elements.countP fun element => holds element && keep element)) := by
  obtain ⟨filter,listed,rfl,named,selected⟩ := filter_reads built given filters
  have counted := says_count built reads listed selected
  rw [filteredName_where named,← String.append_assoc,← String.append_assoc,
    List.countP_filter] at counted
  exact counted

theorem evaluate_aggregate_all {value : E → α} (reads : builder.ReadsFloat name value)
    (aggregate : AggregateFn) : made.evaluate container (name ++ "_" ++ aggregate.name) =
      .ok ((aggregate.apply (elements.map value)).map .float) :=
  evaluate_aggregate built reads allElements_listed given aggregate

theorem evaluate_aggregate_where {value : E → α} (reads : builder.ReadsFloat name value)
    {other : String} (filters : builder.ReadsBool other keep) (aggregate : AggregateFn) :
    made.evaluate container (name ++ "_" ++ aggregate.name ++ "Where" ++ other) =
      .ok ((aggregate.apply ((elements.filter keep).map value)).map .float) := by
  obtain ⟨filter,listed,rfl,named,selected⟩ := filter_reads built given filters
  rw [← filteredName_where named]
  exact evaluate_aggregate built reads listed selected aggregate

end CatalogBuilder

section Split
variable [Scalar α] {builder : CatalogBuilder α C E} {made : Catalog α C} {container : C}
  {elements : List E} {counted kept dropped : String} {isCounted keep : E → Bool}

theorem countP_add_not (keep : E → Bool) (elements : List E) :
    elements.countP keep + elements.countP (fun element => !keep element) = elements.length := by
  simpa using (List.length_eq_countP_add_countP (l := elements) keep).symm

theorem countP_split (isCounted keep : E → Bool) (elements : List E) :
    elements.countP (fun element => isCounted element && keep element) +
      elements.countP (fun element => isCounted element && !keep element) =
        elements.countP isCounted := by
  rw [List.countP_eq_countP_filter_add elements isCounted keep,List.countP_filter,List.countP_filter]

namespace CatalogBuilder.Opposed
variable (opposed : builder.Opposed made kept dropped keep)
include opposed

theorem counts_split (counts : builder.ReadsBool counted isCounted)
    (given : builder.elements container = .ok elements) :
    made.CountsSplit container elements counted kept dropped isCounted keep := by
  obtain ⟨built,holds,fails⟩ := opposed
  refine ⟨?_,?_,?_,?_,?_⟩
  · exact says_count_where built given counts holds
  · have again := says_count_where built given holds counts
    simp only [Bool.and_comm] at again ⊢
    exact again
  · have own := says_count_where built given counts counts
    simp only [Bool.and_self] at own
    exact ⟨_,own,says_count_all built given counts⟩
  · have whole := says_count_all built given counts
    rw [← countP_split isCounted keep] at whole
    exact ⟨_,_,says_count_where built given counts holds,says_count_where built given counts fails,
      whole⟩
  · refine ⟨_,_,says_count_all built given holds,says_count_all built given fails,?_⟩
    exact_mod_cast countP_add_not keep elements

theorem caller_split {filter : Filter C E} (listed : filter ∈ builder.filters) {selected : List E}
    (given : filter.elements container = .ok selected) : ∃ part rest,
      made.Says container ("Count" ++ kept ++ "Where" ++ filter.name) (.int part) ∧
      made.Says container ("Count" ++ dropped ++ "Where" ++ filter.name) (.int rest) ∧
      part + rest = selected.length := by
  obtain ⟨built,holds,fails⟩ := opposed
  refine ⟨_,_,says_count_caller built holds listed given,
    says_count_caller built fails listed given,?_⟩
  exact_mod_cast countP_add_not keep selected

end CatalogBuilder.Opposed
end Split

section Exact

theorem Exact.max_append (values others : List ℚ) : Aggregate.max (values ++ others) =
    (Aggregate.max values).larger (Aggregate.max others) := by
  have picks : (Scalar.max : ℚ → ℚ → ℚ) = max := funext₂ max_eq
  cases values with
  | nil => rfl
  | cons first rest =>
    cases others with
    | nil => rw [List.append_nil]; rfl
    | cons other more =>
      simp only [List.cons_append,Aggregate.max,Failable.larger,List.foldl_append,List.foldl_cons,
        picks,List.foldl_assoc]

variable {builder : CatalogBuilder ℚ C E} {made : Catalog ℚ C} {container : C} {elements : List E}
  {measured kept dropped : String} {value : E → ℚ} {keep : E → Bool}

theorem map_split (value : E → ℚ) (keep : E → Bool) (elements : List E) :
    (elements.map value).Perm ((elements.filter keep).map value ++
      (elements.filter fun element => !keep element).map value) := by
  rw [← List.map_append]
  exact ((List.filter_append_perm keep elements).map value).symm

theorem CatalogBuilder.Opposed.floats_split (opposed : builder.Opposed made kept dropped keep)
    (reads : builder.ReadsFloat measured value) (given : builder.elements container = .ok elements) :
    made.FloatsSplit container measured kept dropped := by
  obtain ⟨built,holds,fails⟩ := opposed
  have perm := map_split value keep elements
  constructor
  · have whole := evaluate_aggregate_all built given reads .sum
    rw [AggregateFn.apply,Exact.sum_perm perm,Exact.sum_eq,List.sum_append] at whole
    refine ⟨_,_,evaluate_aggregate_where built given reads holds .sum,
      evaluate_aggregate_where built given reads fails .sum,?_⟩
    rw [Exact.sum_eq,Exact.sum_eq]
    exact whole
  · have whole := evaluate_aggregate_all built given reads .max
    rw [AggregateFn.apply,Exact.max_perm perm,Exact.max_append] at whole
    exact ⟨_,_,evaluate_aggregate_where built given reads holds .max,
      evaluate_aggregate_where built given reads fails .max,whole⟩

end Exact

theorem filters_split {C E : Type} :
    (∀ {α : Type} [Scalar α] {builder : CatalogBuilder α C E} {made : Catalog α C}
      {kept dropped : String} {keep : E → Bool}, builder.Opposed made kept dropped keep →
      ∀ container,
        (∀ elements, builder.elements container = .ok elements → ∀ counted isCounted,
          builder.ReadsBool counted isCounted →
          made.CountsSplit container elements counted kept dropped isCounted keep) ∧
        ∀ filter ∈ builder.filters, ∀ selected, filter.elements container = .ok selected →
          ∃ part rest,
            made.Says container ("Count" ++ kept ++ "Where" ++ filter.name) (.int part) ∧
            made.Says container ("Count" ++ dropped ++ "Where" ++ filter.name) (.int rest) ∧
            part + rest = selected.length) ∧
    ∀ {builder : CatalogBuilder ℚ C E} {made : Catalog ℚ C} {kept dropped : String}
      {keep : E → Bool}, builder.Opposed made kept dropped keep →
      ∀ container elements, builder.elements container = .ok elements → ∀ measured value,
        builder.ReadsFloat measured value → made.FloatsSplit container measured kept dropped := by
  constructor
  · intro α _ builder made kept dropped keep opposed container
    exact ⟨fun elements given counted isCounted counts => opposed.counts_split counts given,
      fun filter listed selected given => opposed.caller_split listed given⟩
  · intro builder made kept dropped keep opposed container elements given measured value reads
    exact opposed.floats_split reads given

namespace Sample

def parities : CatalogBuilder ℚ (List Nat) Nat where
  elements numbers := .ok numbers
  metrics := [⟨"Small",.bool fun _ numbers place => .ok (numbers.get place < 3)⟩,
    ⟨"Even",.bool fun _ numbers place => .ok (numbers.get place % 2 == 0)⟩,
    ⟨"Odd",.bool fun _ numbers place => .ok !(numbers.get place % 2 == 0)⟩,
    ⟨"Size",.float fun _ numbers place => .ok (numbers.get place)⟩]
  filters := [⟨"Tail",fun numbers => .ok numbers.tail⟩]
  specials := []

end Sample

theorem filters_split_sample : ∃ made, Sample.parities.Opposed made "Even" "Odd" (· % 2 == 0) ∧
    made.CountsSplit [1,2,4] [1,2,4] "Small" "Even" "Odd" (· < 3) (· % 2 == 0) ∧
    made.Says [1,2,4] "CountSmallWhereEven" (.int 1) ∧
    (∃ part rest, made.Says [1,2,4] "CountEvenWhereTail" (.int part) ∧
      made.Says [1,2,4] "CountOddWhereTail" (.int rest) ∧ part + rest = 2) ∧
    made.FloatsSplit [1,2,4] "Size" "Even" "Odd" := by
  have built : Sample.parities.build = .ok Sample.parities.catalog :=
    (Sample.parities.build_registers.ok_iff _).mpr ⟨by decide +kernel,rfl⟩
  have opposed : Sample.parities.Opposed Sample.parities.catalog "Even" "Odd" (· % 2 == 0) :=
    ⟨built,⟨_,.tail _ List.mem_cons_self,fun _ _ _ => rfl⟩,
      ⟨_,.tail _ (.tail _ List.mem_cons_self),fun _ _ _ => rfl⟩⟩
  obtain ⟨counts,callers⟩ := filters_split.1 opposed [1,2,4]
  have split := counts [1,2,4] rfl "Small" (· < 3) ⟨_,List.mem_cons_self,fun _ _ _ => rfl⟩
  exact ⟨_,opposed,split,split.both,callers _ List.mem_cons_self [2,4] rfl,
    filters_split.2 opposed [1,2,4] _ rfl "Size" (fun number => number)
      ⟨_,.tail _ (.tail _ (.tail _ List.mem_cons_self)),fun _ _ _ => rfl⟩⟩

end JoinTrace
