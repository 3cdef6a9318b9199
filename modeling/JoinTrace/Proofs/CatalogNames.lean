import JoinTrace.Proofs.Exact
import JoinTrace.Proofs.Registration

-- Which names a catalog has, said from the names its builder was given. The names of filters,
-- element metrics and aggregates must each be free of repeats, and the first repeat met in the
-- order in which names are claimed is the one reported.
namespace JoinTrace

-- An aggregate by what its name is made from; the empty filter is that of all elements.
inductive Generated where
  | count (metric filter : String)
  | pct (metric filter : String)
  | float (metric : String) (aggregate : AggregateFn) (filter : String)
  | special (aggregate filter : String)
  deriving DecidableEq

namespace Generated

def restricted (joint filter : String) : String := if filter = "" then "" else joint ++ filter

def name : Generated → String
  | .count metric filter => "Count" ++ (metric ++ restricted "Where" filter)
  | .pct metric filter => "Pct" ++ (metric ++ restricted "Where" filter)
  | .float metric aggregate filter =>
    metric ++ "_" ++ aggregate.name ++ restricted "Where" filter
  | .special aggregate filter => aggregate ++ restricted "_Where" filter

def descriptor (origin : Generated) : AggregateMetric :=
  match origin with
  | .count metric filter => ⟨origin.name,.count,some metric,filter,true⟩
  | .pct metric filter => ⟨origin.name,.pct,some metric,filter,true⟩
  | .float metric aggregate filter => ⟨origin.name,.float aggregate,some metric,filter,true⟩
  | .special _ filter => ⟨origin.name,.special,none,filter,true⟩

theorem descriptor_name (origin : Generated) : origin.descriptor.name = origin.name := by
  cases origin <;> rfl

theorem filteredName_eq (base filter : String) :
    filteredName base filter = base ++ restricted "Where" filter := by
  unfold filteredName restricted
  by_cases all : filter = ""
  · simp [all]
  · simp [all,String.isEmpty_iff,String.append_assoc]

theorem specialName_eq (base filter : String) :
    specialName base filter = base ++ restricted "_Where" filter := by
  unfold specialName restricted
  by_cases all : filter = ""
  · simp [all]
  · simp [all,String.isEmpty_iff,String.append_assoc]

end Generated

namespace ElementMetric
variable {α C E : Type}

def generated (metric : ElementMetric α C E) (filter : String) : List Generated :=
  match metric.kind with
  | .bool => [.count metric.name filter,.pct metric.name filter]
  | .float => [AggregateFn.mean,.max,.min,.sum,.p95,.stdev].map fun aggregate =>
    .float metric.name aggregate filter

def claims (metric : ElementMetric α C E) : List Claim :=
  match metric.kind with
  | .bool => [(.elementMetric,metric.name),(.filter,metric.name)]
  | .float => [(.elementMetric,metric.name)]

@[simp] theorem kind_bool (name : String) (get : ElementGetter C E Bool) :
    (⟨name,.bool get⟩ : ElementMetric α C E).kind = .bool := rfl

@[simp] theorem kind_float (name : String) (get : ElementGetter C E α) :
    (⟨name,.float get⟩ : ElementMetric α C E).kind = .float := rfl

theorem names_claims (metric : ElementMetric α C E) :
    Claim.names .filter metric.claims = (if metric.kind = .bool then [metric.name] else []) ∧
      Claim.names .elementMetric metric.claims = [metric.name] ∧
      Claim.names .aggregateMetric metric.claims = [] := by
  unfold claims
  cases metric.kind <;> simp

end ElementMetric

namespace CatalogBuilder
variable {α C E : Type}

def filterOrder (builder : CatalogBuilder α C E) : List String :=
  "" :: builder.filters.map (·.name) ++
    (builder.metrics.filter (·.kind = .bool)).map (·.name)

def generated (builder : CatalogBuilder α C E) : List Generated :=
  builder.metrics.flatMap (fun metric => builder.filterOrder.flatMap metric.generated) ++
    builder.filterOrder.flatMap fun filter =>
      builder.specials.map fun special => .special special.name filter

def filterClaims (builder : CatalogBuilder α C E) : List Claim :=
  (.filter,"") :: builder.filters.map (fun filter => (.filter,filter.name)) ++
    builder.metrics.flatMap ElementMetric.claims

def claims (builder : CatalogBuilder α C E) : List Claim :=
  builder.filterClaims ++ builder.generated.map fun origin => (.aggregateMetric,origin.name)

variable (builder : CatalogBuilder α C E)

def boolFilter (metric : ElementMetric α C E) : Option (Filter C E) :=
  match metric.measurement with
  | .bool get => some ⟨metric.name,Measurement.elementsWhere builder.elements get⟩
  | .float _ => none

def allFilters : List (Filter C E) :=
  ⟨"",builder.elements⟩ :: builder.filters ++ builder.metrics.filterMap builder.boolFilter

theorem boolFilter_names (metrics : List (ElementMetric α C E)) :
    (metrics.filterMap builder.boolFilter).map (·.name) =
      (metrics.filter (·.kind = .bool)).map (·.name) := by
  induction metrics with
  | nil => rfl
  | cons metric rest ih =>
    obtain ⟨name,get | get⟩ := metric
    · have made : builder.boolFilter ⟨name,.bool get⟩ =
          some ⟨name,Measurement.elementsWhere builder.elements get⟩ := rfl
      simp [made,ih]
    · have made : builder.boolFilter ⟨name,.float get⟩ = none := rfl
      simp [made,ih]

theorem allFilters_names : builder.allFilters.map (·.name) = builder.filterOrder := by
  simp only [allFilters,filterOrder,List.map_append,List.map_cons,boolFilter_names]

theorem names_metricClaims (metrics : List (ElementMetric α C E)) :
    Claim.names .filter (metrics.flatMap ElementMetric.claims) =
        (metrics.filter (·.kind = .bool)).map (·.name) ∧
      Claim.names .elementMetric (metrics.flatMap ElementMetric.claims) =
        metrics.map (·.name) ∧
      Claim.names .aggregateMetric (metrics.flatMap ElementMetric.claims) = [] := by
  induction metrics with
  | nil => exact ⟨rfl,rfl,rfl⟩
  | cons metric rest ih =>
    obtain ⟨filters,elements,aggregates⟩ := metric.names_claims
    rw [List.flatMap_cons]
    simp only [Claim.names_append,filters,elements,aggregates,ih]
    by_cases bool : metric.kind = .bool <;> simp [bool]

theorem names_filterClaims :
    Claim.names .filter builder.filterClaims = builder.filterOrder ∧
      Claim.names .elementMetric builder.filterClaims = builder.metrics.map (·.name) ∧
      Claim.names .aggregateMetric builder.filterClaims = [] := by
  obtain ⟨filters,elements,aggregates⟩ := names_metricClaims builder.metrics
  simp [filterClaims,filterOrder,filters,elements,aggregates]

theorem claims_nodup_iff :
    builder.claims.Nodup ↔ builder.filterOrder.Nodup ∧ (builder.metrics.map (·.name)).Nodup ∧
      (builder.generated.map (·.name)).Nodup := by
  obtain ⟨filters,elements,aggregates⟩ := builder.names_filterClaims
  rw [Claim.nodup_iff_names]
  constructor
  · intro distinct
    refine ⟨?_,?_,?_⟩
    · simpa [claims,filters] using distinct .filter
    · simpa [claims,elements] using distinct .elementMetric
    · simpa [claims,aggregates] using distinct .aggregateMetric
  · rintro ⟨ofFilters,ofMetrics,ofAggregates⟩ kind
    cases kind with
    | filter => simpa [claims,filters] using ofFilters
    | elementMetric => simpa [claims,elements] using ofMetrics
    | aggregateMetric => simpa [claims,aggregates] using ofAggregates

theorem addMetric_registers {held : List Claim} {words : CatalogWords C E}
    (metric : ElementMetric α C E)
    (filters : Claim.names .filter held = words.filters.map (·.name))
    (metrics : Claim.names .elementMetric held = words.metrics) (distinct : held.Nodup) :
    Registers (α := α) (held ++ metric.claims)
      ⟨words.filters ++ (builder.boolFilter metric).toList,words.metrics ++ [metric.name]⟩
      (builder.addMetric words metric) := by
  have first : Registers (α := α) (held ++ [(.elementMetric,metric.name)])
      (words.metrics ++ [metric.name])
      (addUnique .elementMetric id words.metrics metric.name) :=
    .addUnique metric.name (metrics.trans (List.map_id _).symm) distinct
  obtain ⟨name,get | get⟩ := metric
  · have claimed : held ++ ElementMetric.claims (α := α) (E := E) ⟨name,.bool get⟩ =
        held ++ [(.elementMetric,name)] ++ [(.filter,name)] := by simp [ElementMetric.claims]
    rw [claimed]
    refine first.bind fun fresh => ?_
    have known : Claim.names .filter (held ++ [(.elementMetric,name)]) =
        words.filters.map (·.name) := by simpa using filters
    let filter : Filter C E := ⟨name,Measurement.elementsWhere builder.elements get⟩
    let next (filters : List (Filter C E)) : CatalogWords C E := ⟨filters,words.metrics ++ [name]⟩
    exact (Registers.addUnique filter known fresh).map next
  · have none : (builder.boolFilter ⟨name,.float get⟩).toList = [] := rfl
    rw [none,List.append_nil]
    exact .map _ first

theorem addFilters_registers :
    Registers (α := α) builder.filterClaims builder.allFilters builder.addFilters := by
  let start : List Claim :=
    (.filter,"") :: builder.filters.map (fun filter => ((.filter,filter.name) : Claim))
  have known : Claim.names .filter [(.filter,"")] =
      ([⟨"",builder.elements⟩] : List (Filter C E)).map (·.name) := rfl
  have callers : Registers (α := α) start (⟨"",builder.elements⟩ :: builder.filters)
      (builder.filters.foldlM (addUnique .filter Filter.name) [⟨"",builder.elements⟩]) :=
    .addAll known (by simp) builder.filters
  refine callers.bind fun fresh => ?_
  let after (done : List (ElementMetric α C E)) : CatalogWords C E :=
    ⟨⟨"",builder.elements⟩ :: builder.filters ++ done.filterMap builder.boolFilter,
      done.map (·.name)⟩
  have stepwise (done : List (ElementMetric α C E)) (metric : ElementMetric α C E)
      (fresh : (start ++ done.flatMap ElementMetric.claims).Nodup) :
      Registers (α := α) (start ++ done.flatMap ElementMetric.claims ++ metric.claims)
        (after (done ++ [metric])) (builder.addMetric (after done) metric) := by
    obtain ⟨filters,elements,_⟩ := names_metricClaims done
    have next : after (done ++ [metric]) =
        ⟨(after done).filters ++ (builder.boolFilter metric).toList,
          (after done).metrics ++ [metric.name]⟩ := by
      cases made : builder.boolFilter metric <;> simp [after,made]
    rw [next]
    refine builder.addMetric_registers metric ?_ ?_ fresh
    · simp [start,after,filters,boolFilter_names]
    · simp [start,after,elements]
  have whole := Registers.foldlM after _ stepwise [] builder.metrics
    (by simpa [start] using fresh)
  have opened : after [] = ⟨⟨"",builder.elements⟩ :: builder.filters,[]⟩ := by simp [after]
  rw [List.flatMap_nil,List.append_nil,opened] at whole
  exact whole.map CatalogWords.filters

variable [Scalar α]

theorem metricEntries_metrics (metric : ElementMetric α C E) (filter : Filter C E) :
    (metricEntries metric filter).map (·.metric) =
      (metric.generated filter.name).map Generated.descriptor := by
  obtain ⟨name,get | get⟩ := metric
  · simp [metricEntries,ElementMetric.generated,Generated.descriptor,Generated.name,
      Generated.filteredName_eq]
  · simp [metricEntries,ElementMetric.generated,Generated.descriptor,Generated.name,
      Generated.filteredName_eq,AggregateFn.all]

theorem entriesOver_metrics :
    (builder.entriesOver builder.allFilters).map (·.metric) =
      builder.generated.map Generated.descriptor := by
  simp only [entriesOver,generated,← allFilters_names,List.map_append,List.map_flatMap,
    List.flatMap_map,metricEntries_metrics]
  congr 1
  simp [specialEntry,Generated.descriptor,Generated.name,Generated.specialName_eq,
    Function.comp_def]

theorem entries_names :
    (builder.entriesOver builder.allFilters).map (·.metric.name) =
      builder.generated.map (·.name) := by
  have whole := congrArg (List.map AggregateMetric.name) builder.entriesOver_metrics
  simpa only [List.map_map,Function.comp_def,Generated.descriptor_name] using whole

def catalog : Catalog α C :=
  ⟨builder.entriesOver builder.allFilters,builder.allFilters.map (·.name)⟩

theorem build_registers : Registers builder.claims builder.catalog builder.build := by
  refine builder.addFilters_registers.bind fun fresh => ?_
  obtain ⟨_,_,none⟩ := builder.names_filterClaims
  have whole : Registers (α := α) _ _ ((builder.entriesOver builder.allFilters).foldlM
      (addUnique .aggregateMetric (·.metric.name)) []) :=
    .addAll none fresh (builder.entriesOver builder.allFilters)
  have claimed := congrArg (List.map fun name => ((.aggregateMetric,name) : Claim))
    builder.entries_names
  simp only [List.map_map,Function.comp_def] at claimed
  rw [claimed] at whole
  let wrap (entries : List (CatalogEntry α C)) : Catalog α C :=
    ⟨entries,builder.allFilters.map (·.name)⟩
  exact whole.map wrap

theorem catalog_names : builder.catalog.names = builder.generated.map (·.name) :=
  builder.entries_names

theorem catalog_metrics : builder.catalog.metrics = builder.generated.map (·.descriptor) :=
  builder.entriesOver_metrics

theorem catalog_filters : builder.catalog.filterNames = builder.filterOrder :=
  builder.allFilters_names

def sample (words : List String) : CatalogBuilder ℚ Unit Nat where
  elements _ := .ok [1,2]
  metrics := words.map (fun name => ⟨name,.bool fun _ _ _ => .ok true⟩) ++
    [⟨"X",.float fun _ _ place => .ok place⟩]
  filters := [⟨"Even",fun _ => .ok [2]⟩]
  specials := [⟨"S",fun _ elements => .ok (.int elements.length)⟩]

theorem build_claims_names :
    ((∃ made, builder.build = .ok made) ↔
      builder.filterOrder.Nodup ∧ (builder.metrics.map (·.name)).Nodup ∧
        (builder.generated.map (·.name)).Nodup) ∧
    (∀ made, builder.build = .ok made →
      made.names = builder.generated.map (·.name) ∧
        made.filterNames = builder.filterOrder ∧
        made.metrics = builder.generated.map (·.descriptor)) ∧
    ∀ error, builder.build = .error error ↔
      ∃ kind name, error = .duplicateName kind name ∧ FirstRepeat builder.claims (kind,name) := by
  have registers := builder.build_registers
  refine ⟨?_,?_,registers.error_iff⟩
  · rw [← claims_nodup_iff]
    constructor
    · rintro ⟨made,built⟩
      exact ((registers.ok_iff made).mp built).1
    · intro distinct
      exact ⟨builder.catalog,(registers.ok_iff _).mpr ⟨distinct,rfl⟩⟩
  · intro made built
    obtain rfl := ((registers.ok_iff made).mp built).2
    exact ⟨builder.catalog_names,builder.catalog_filters,builder.catalog_metrics⟩

theorem build_claims_names_sample :
    (∃ made, (sample ["A"]).build = .ok made ∧ made.filterNames = ["","Even","A"] ∧
      made.names.take 7 = ["CountA","PctA","CountAWhereEven","PctAWhereEven","CountAWhereA",
        "PctAWhereA","X_Mean"]) ∧
    (sample ["A","B","AWhereB"]).build =
      .error (.duplicateName .aggregateMetric "CountAWhereB") := by
  obtain ⟨accepted,named,_⟩ := build_claims_names (sample ["A"])
  obtain ⟨made,built⟩ := accepted.mpr ⟨by decide,by decide,by decide⟩
  obtain ⟨names,filters,_⟩ := named made built
  refine ⟨⟨made,built,filters,?_⟩,?_⟩
  · rw [names]
    decide
  · refine ((build_claims_names (sample ["A","B","AWhereB"])).2.2 _).mpr ⟨_,_,rfl,?_⟩
    exact ⟨(sample ["A","B","AWhereB"]).claims.take 29,
      (sample ["A","B","AWhereB"]).claims.drop 30,by decide,by decide,by decide⟩

end CatalogBuilder
end JoinTrace
