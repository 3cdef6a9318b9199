import JoinTrace.Catalog.Metric
import JoinTrace.Error

-- A catalog of named statistics over the elements of a container, derived from measurements of
-- one element. Readers match on the names, so their format is fixed: a bool metric M gives CountM
-- and PctM, a float metric M gives M_Mean and its siblings, a special aggregate A gives A. Each
-- stands once for all elements and once per filter F, as CountMWhereF, M_MeanWhereF and A_WhereF;
-- every bool metric is also a filter.
namespace JoinTrace

structure CatalogEntry (α C : Type) where
  metric : AggregateMetric
  evaluate : C → Failable (MetricValue α)

structure Catalog (α C : Type) where
  entries : List (CatalogEntry α C)
  filterNames : List String

structure CatalogBuilder (α C E : Type) where
  elements : C → Failable (List E)
  metrics : List (ElementMetric α C E)
  filters : List (Filter C E)
  specials : List (SpecialAggregate α C E)

def filteredName (base filter : String) : String :=
  if filter.isEmpty then base else base ++ "Where" ++ filter

def specialName (base filter : String) : String :=
  if filter.isEmpty then base else base ++ "_Where" ++ filter

def addUnique {α τ : Type} (kind : NameKind) (name : τ → String) (held : List τ) (item : τ) :
    Except (AnalysisError α) (List τ) :=
  if held.any (name · == name item) then .error (.duplicateName kind (name item))
  else .ok (held ++ [item])

structure CatalogWords (C E : Type) where
  filters : List (Filter C E)
  metrics : List String

namespace CatalogBuilder
variable {α C E : Type}

def addMetric (builder : CatalogBuilder α C E) (words : CatalogWords C E)
    (metric : ElementMetric α C E) : Except (AnalysisError α) (CatalogWords C E) := do
  let metrics ← addUnique .elementMetric id words.metrics metric.name
  match metric.measurement with
  | .float _ => return ⟨words.filters,metrics⟩
  | .bool get =>
    let filter := ⟨metric.name,Measurement.elementsWhere builder.elements get⟩
    return ⟨← addUnique .filter Filter.name words.filters filter,metrics⟩

def addFilters (builder : CatalogBuilder α C E) : Except (AnalysisError α) (List (Filter C E)) := do
  let callers ← builder.filters.foldlM (addUnique .filter Filter.name) [⟨"",builder.elements⟩]
  let words ← builder.metrics.foldlM builder.addMetric ⟨callers,[]⟩
  return words.filters

variable [Scalar α]

def metricEntries (metric : ElementMetric α C E) (filter : Filter C E) :
    List (CatalogEntry α C) :=
  match metric.measurement with
  | .bool get =>
    let base := filteredName metric.name filter.name
    [⟨⟨"Count" ++ base,.count,some metric.name,filter.name,true⟩,Measurement.countOf filter get⟩,
      ⟨⟨"Pct" ++ base,.pct,some metric.name,filter.name,true⟩,Measurement.pctOf filter get⟩]
  | .float get => AggregateFn.all.map fun aggregate =>
    ⟨⟨filteredName (metric.name ++ "_" ++ aggregate.name) filter.name,.float aggregate,
      some metric.name,filter.name,true⟩,Measurement.floatOf filter get aggregate⟩

def specialEntry (filter : Filter C E) (special : SpecialAggregate α C E) : CatalogEntry α C :=
  ⟨⟨specialName special.name filter.name,.special,none,filter.name,true⟩,
    Measurement.specialOf filter special⟩

def entriesOver (builder : CatalogBuilder α C E) (filters : List (Filter C E)) :
    List (CatalogEntry α C) :=
  builder.metrics.flatMap (fun metric => filters.flatMap (metricEntries metric)) ++
    filters.flatMap fun filter => builder.specials.map (specialEntry filter)

def build (builder : CatalogBuilder α C E) : Except (AnalysisError α) (Catalog α C) := do
  let filters ← builder.addFilters
  let entries ← (builder.entriesOver filters).foldlM
    (addUnique .aggregateMetric (·.metric.name)) []
  return ⟨entries,filters.map (·.name)⟩

end CatalogBuilder

namespace Catalog
variable {α C : Type}

def names (catalog : Catalog α C) : List String := catalog.entries.map (·.metric.name)

def metrics (catalog : Catalog α C) : List AggregateMetric := catalog.entries.map (·.metric)

def size (catalog : Catalog α C) : Nat := catalog.entries.length

def get? (catalog : Catalog α C) (name : String) : Option (CatalogEntry α C) :=
  catalog.entries.find? (·.metric.name == name)

def evaluate (catalog : Catalog α C) (container : C) (name : String) :
    Except (AnalysisError α) (Failable (MetricValue α)) :=
  match catalog.get? name with
  | some entry => .ok (entry.evaluate container)
  | none => .error (.unknownMetric name)

def evaluateAll (catalog : Catalog α C) (container : C) :
    List (String × Failable (MetricValue α)) :=
  catalog.entries.map fun entry => (entry.metric.name,entry.evaluate container)

def evaluateSelected (catalog : Catalog α C) (container : C) (names : List String) :
    Except (AnalysisError α) (List (String × Failable (MetricValue α))) :=
  names.eraseDups.mapM fun name => do return (name,← catalog.evaluate container name)

def listText (names : List String) : String :=
  "[" ++ String.intercalate ", " (names.map Quoted.quoted) ++ "]"

def text (catalog : Catalog α C) : String :=
  "StatisticsCatalog \x7b filters: " ++ listText catalog.filterNames ++ ", metrics: " ++
    listText catalog.names ++ " \x7d"

end Catalog
end JoinTrace
