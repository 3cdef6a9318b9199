import JoinTrace.Failable
import JoinTrace.SortedMap

namespace JoinTrace

-- A JSON document. Numbers written with a fraction or an exponent are kept apart from integers.
inductive Json where
  | null
  | bool (value : Bool)
  | int (value : Int)
  | real (value : Float)
  | text (value : String)
  | list (items : List Json)
  | object (fields : List (String × Json))

structure JsonText where
  print : Json → String
  read? : String → Option Json

class JsonForm (α : Type) where
  write : α → Json
  read? : Json → Option α

namespace JsonForm

def readBool? : Json → Option Bool
  | .bool value => some value
  | _ => none

def readText? : Json → Option String
  | .text value => some value
  | _ => none

def readInt? (low high : Int) : Json → Option Int
  | .int value => if low ≤ value ∧ value ≤ high then some value else none
  | _ => none

-- Any number, but not null: a number that is not finite is written as null and so is lost.
def writeFloat (value : Float) : Json := if value.isFinite then .real value else .null

def readFloat? : Json → Option Float
  | .int value => some (Float.ofInt value)
  | .real value => some value
  | _ => none

def readName? {α : Type} [Named α] : Json → Option α
  | .text name => Named.ofName? name
  | .object [(name,.null)] => Named.ofName? name
  | _ => none

instance : JsonForm Bool := ⟨.bool,readBool?⟩
instance : JsonForm String := ⟨.text,readText?⟩
instance : JsonForm Float := ⟨writeFloat,readFloat?⟩

instance : JsonForm UInt32 where
  write value := .int value.toNat
  read? json := (readInt? 0 4294967295 json).map fun value => UInt32.ofNat value.toNat

instance : JsonForm Int32 where
  write value := .int value.toInt
  read? json := (readInt? (-2147483648) 2147483647 json).map Int32.ofInt

instance {α : Type} [Named α] : JsonForm α := ⟨fun value => .text (Named.name value),readName?⟩

variable {α : Type} [JsonForm α]

def readList? : Json → Option (List α)
  | .list items => items.mapM read?
  | _ => none

def writeOption : Option α → Json
  | none => .null
  | some value => write value

def readOption? : Json → Option (Option α)
  | .null => some none
  | json => (read? json).map some

instance : JsonForm (List α) := ⟨fun items => .list (items.map write),readList?⟩
instance : JsonForm (Option α) := ⟨writeOption,readOption?⟩

end JsonForm

namespace Json
variable {α : Type} [JsonForm α]

-- The fields of a record, by name or by position. Of a record given as a list, only the fields in
-- `defaulted` may be left out, and only from its end.
def record? (always defaulted : List String) : Json → Option (String → Option Json)
  | .object fields => some fun name => fields.lookup name
  | .list items =>
    if always.length ≤ items.length ∧ items.length ≤ (always ++ defaulted).length then
      some fun name => ((always ++ defaulted).zip items).lookup name
    else none
  | _ => none

def required? (field : String → Option Json) (name : String) : Option α :=
  (field name).bind JsonForm.read?

def optional? (field : String → Option Json) (name : String) : Option (Option α) :=
  match field name with
  | none => some none
  | some json => JsonForm.readOption? json

def defaulted? (field : String → Option Json) (name : String) (default : α) : Option α :=
  match field name with
  | none => some default
  | some json => JsonForm.read? json

end Json

class KeyForm (κ : Type) where
  text : κ → String
  ofText? : String → Option κ

instance {κ : Type} [Named κ] : KeyForm κ := ⟨Named.name,Named.ofName?⟩

instance : KeyForm UInt32 where
  text key := toString key.toNat
  ofText? text :=
    let value := Nat.ofDigitChars 10 text.toList 0
    if toString value = text ∧ value < 4294967296 then some (UInt32.ofNat value) else none

namespace JsonForm

def readEntry? {κ ν : Type} [KeyForm κ] [JsonForm ν] (field : String × Json) :
    Option (κ × ν) := do
  return (← KeyForm.ofText? field.1,← read? field.2)

def readMap? {κ ν : Type} [Ranked κ] [KeyForm κ] [JsonForm ν] : Json → Option (SortedMap κ ν)
  | .object fields => (fields.mapM readEntry?).map SortedMap.ofList
  | _ => none

instance {κ ν : Type} [Ranked κ] [KeyForm κ] [JsonForm ν] : JsonForm (SortedMap κ ν) where
  write map := .object (map.entries.map fun entry => (KeyForm.text entry.1,write entry.2))
  read? := readMap?

instance : JsonForm Failure where
  write failure := .object [("reason",write failure.reason)]
  read? json := do
    let field ← json.record? ["reason"] []
    return ⟨← Json.required? field "reason"⟩

instance {α : Type} [JsonForm α] : JsonForm (Failable α) where
  write
    | .ok value => .object [("Ok",write value)]
    | .error failure => .object [("Err",write failure)]
  read?
    | .object [("Ok",json)] => (read? json).map .ok
    | .object [("Err",json)] => (read? json).map .error
    | _ => none

def writeMetricValue : MetricValue Float → Json
  | .bool value => write value
  | .int value => .int value
  | .float value => write value

def readMetricValue? : Json → Option (MetricValue Float)
  | .bool value => some (.bool value)
  | .int value =>
    if -9223372036854775808 ≤ value ∧ value ≤ 9223372036854775807 then some (.int value)
    else some (.float (Float.ofInt value))
  | .real value => some (.float value)
  | _ => none

instance : JsonForm (MetricValue Float) := ⟨writeMetricValue,readMetricValue?⟩

end JsonForm
end JoinTrace
