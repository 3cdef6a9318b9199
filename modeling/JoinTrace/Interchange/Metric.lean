import JoinTrace.Catalog.Metric
import JoinTrace.Json

namespace JoinTrace
open JsonForm

inductive FamilyTag where
  | count | pct | float | special
  deriving DecidableEq

namespace FamilyTag

def all : List FamilyTag := [.count, .pct, .float, .special]

def name : FamilyTag → String
  | .count => "count"
  | .pct => "pct"
  | .float => "float"
  | .special => "special"

instance : Named FamilyTag := ⟨all,name⟩

def plain? : FamilyTag → Option AggregateFamily
  | .count => some .count
  | .pct => some .pct
  | .special => some .special
  | .float => none

def family? (tag : FamilyTag) (content : Option Json) : Option AggregateFamily :=
  match tag.plain?,content with
  | some family,none => some family
  | some family,some .null => some family
  | some _,some _ => none
  | none,some json => (JsonForm.read? json).map .float
  | none,none => none

end FamilyTag

def writeFamily : AggregateFamily → Json
  | .count => .object [("family",write FamilyTag.count)]
  | .pct => .object [("family",write FamilyTag.pct)]
  | .float aggregate => .object [("family",write FamilyTag.float), ("fn",write aggregate)]
  | .special => .object [("family",write FamilyTag.special)]

def readFamily? : Json → Option AggregateFamily
  | .object fields =>
    match (fields.lookup "family").bind JsonForm.read? with
    | some tag => FamilyTag.family? tag (fields.lookup "fn")
    | none => none
  | .list [tag,content] =>
    match JsonForm.read? tag with
    | some tag => FamilyTag.family? tag (some content)
    | none => none
  | _ => none

instance : JsonForm AggregateFamily := ⟨writeFamily,readFamily?⟩

instance : JsonForm AggregateMetric where
  write metric := .object [
    ("name",write metric.name), ("family",write metric.family),
    ("element_metric",write metric.elementMetric), ("filter",write metric.filter),
    ("is_aggregate",write metric.isAggregate)]
  read? json := do
    let field ← json.record? ["name", "family", "element_metric", "filter", "is_aggregate"] []
    return ⟨← Json.required? field "name",← Json.required? field "family",
      ← Json.optional? field "element_metric",← Json.required? field "filter",
      ← Json.required? field "is_aggregate"⟩

end JoinTrace
