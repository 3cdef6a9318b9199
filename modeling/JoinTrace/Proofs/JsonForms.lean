import JoinTrace.Json
import JoinTrace.Proofs.SortedMapLaws

-- Which values come back from their documents: each form is faithful when the forms of its parts
-- are. What a text keeps of a document is assumed of the library that prints and reads it.
namespace JoinTrace
open JsonForm

namespace Json

mutual
def Writable (survives : Float → Prop) : Json → (levels : Nat) → Prop
  | .int value,_ => -9223372036854775808 ≤ value ∧ value ≤ 18446744073709551615
  | .real value,_ => survives value
  | .list items,levels => 0 < levels ∧ WritableItems survives items (levels-1)
  | .object fields,levels =>
    0 < levels ∧ (fields.map (·.1)).Nodup ∧ WritableFields survives fields (levels-1)
  | _,_ => True

def WritableItems (survives : Float → Prop) : List Json → (levels : Nat) → Prop
  | [],_ => True
  | item :: rest,levels => item.Writable survives levels ∧ WritableItems survives rest levels

def WritableFields (survives : Float → Prop) : List (String × Json) → (levels : Nat) → Prop
  | [],_ => True
  | (_,value) :: rest,levels => value.Writable survives levels ∧ WritableFields survives rest levels
end

end Json

-- The assumption: integers are printed without a fraction and other numbers with one or with an
-- exponent, in digits that are read back to the same number where it is one that `survives`. What
-- is nested deeper than 127 levels may be refused.
def JsonText.Sound (text : JsonText) (survives : Float → Prop) : Prop :=
  ∀ json : Json, json.Writable survives 127 → text.read? (text.print json) = some json

inductive Numeric where
  | float (value : Float)
  | integer (value : Int)
  deriving DecidableEq

namespace Numeric

def InRange : Numeric → Prop
  | .float value => value.isFinite = true
  | .integer value => -9223372036854775808 ≤ value ∧ value ≤ 9223372036854775807

instance : DecidablePred InRange
  | .float value => inferInstanceAs (Decidable (value.isFinite = true))
  | .integer _ => inferInstanceAs (Decidable (_ ∧ _))

def Legible (survives : Float → Prop) : Numeric → Prop
  | .float value => survives value
  | .integer value => (Json.int value).Writable survives 0

end Numeric

class Contents (α : Type) where
  numbers : α → List Numeric

open Contents

def InRange {α : Type} [Contents α] (value : α) : Prop := ∀ number ∈ numbers value, number.InRange

instance {α : Type} [Contents α] (value : α) : Decidable (InRange value) :=
  inferInstanceAs (Decidable (∀ number ∈ numbers value, number.InRange))

def Legible (survives : Float → Prop) {α : Type} [Contents α] (value : α) : Prop :=
  ∀ number ∈ numbers value, number.Legible survives

theorem numberless {α : Type} [Contents α] {value : α} {p : Numeric → Prop}
    (empty : numbers value = []) : ∀ number ∈ numbers value, p number := by
  intro number held
  rw [empty] at held
  cases held

-- The documents of the type are nested to `levels` levels at most.
class Faithful (α : Type) [JsonForm α] [Contents α] (levels : outParam Nat) : Prop where
  reads : ∀ {value : α}, InRange value → read? (write value) = some value
  writable : ∀ {survives : Float → Prop} {bound : Nat} {value : α}, levels ≤ bound →
    Legible survives value → (write value).Writable survives bound

namespace Faithful
variable {α : Type} [JsonForm α] [Contents α] {levels bound : Nat} [Faithful α levels]
  {survives : Float → Prop} {value : α}

theorem within (legible : Legible survives value) (deep : levels ≤ bound := by omega) :
    (write value).Writable survives bound := writable deep legible

theorem bare (empty : numbers value = []) (deep : levels ≤ bound := by omega) :
    (write value).Writable survives bound := writable deep (numberless empty)

end Faithful

-- A form of which null is no value, so that an option of it can be absent.
class Present (α : Type) [JsonForm α] : Prop where
  null_unread : read? (α := α) .null = none

class NamesApart (α : Type) [Named α] : Prop where
  ofName?_name : ∀ value : α, Named.ofName? (Named.name value) = some value

def Returns (text : JsonText) (survives : Float → Prop) {α : Type} [JsonForm α] [Contents α]
    (value : α) : Prop :=
  read? (write value) = some value ∧
    ((∀ x, .float x ∈ numbers value → survives x) →
      (text.read? (text.print (write value))).bind read? = some value)

theorem InRange.legible {survives : Float → Prop} {α : Type} [Contents α] {value : α}
    (fits : InRange value) (kept : ∀ x, .float x ∈ numbers value → survives x) :
    Legible survives value := by
  intro number held
  have within := fits number held
  cases number with
  | float x => exact kept x held
  | integer value =>
    simp only [Numeric.InRange] at within
    simp only [Numeric.Legible,Json.Writable]
    omega

theorem Faithful.returns {text : JsonText} {survives : Float → Prop} (sound : text.Sound survives)
    {α : Type} [JsonForm α] [Contents α] {levels : Nat} [Faithful α levels] (deep : levels ≤ 127)
    {value : α} (fits : InRange value) : Returns text survives value := by
  have reads := Faithful.reads fits
  refine ⟨reads,fun kept => ?_⟩
  rw [sound _ (Faithful.writable deep (fits.legible kept))]
  exact reads

section Scalars

instance : Contents Bool := ⟨fun _ => []⟩
instance : Contents String := ⟨fun _ => []⟩
instance : Contents UInt32 := ⟨fun _ => []⟩
instance : Contents Int32 := ⟨fun _ => []⟩
instance : Contents Float := ⟨fun value => [.float value]⟩
instance {α : Type} [Named α] : Contents α := ⟨fun _ => []⟩

instance : Faithful Bool 0 := ⟨fun _ => rfl,fun _ _ => trivial⟩
instance : Faithful String 0 := ⟨fun _ => rfl,fun _ _ => trivial⟩

instance : Faithful UInt32 0 where
  reads {value} _ := by
    have bound := value.toNat_lt
    have fits : (0 : Int) ≤ value.toNat ∧ (value.toNat : Int) ≤ 4294967295 := by omega
    simp [read?,write,readInt?,fits.2]
  writable {_ _ value} _ _ := by
    have bound := value.toNat_lt
    simp only [write,Json.Writable]
    omega

instance : Faithful Int32 0 where
  reads {value} _ := by
    have low := value.le_toInt
    have high := value.toInt_lt
    have fits : -2147483648 ≤ value.toInt ∧ value.toInt ≤ 2147483647 := by omega
    simp [read?,write,readInt?,fits]
  writable {_ _ value} _ _ := by
    have low := value.le_toInt
    have high := value.toInt_lt
    simp only [write,Json.Writable]
    omega

theorem writeFloat_finite {value : Float} (finite : value.isFinite = true) :
    write value = .real value := if_pos finite

instance : Faithful Float 0 where
  reads {value} fits := by
    rw [writeFloat_finite (fits (.float value) List.mem_cons_self)]
    rfl
  writable {_ bound value} _ legible := by
    change (writeFloat value).Writable _ bound
    unfold writeFloat
    split
    · exact legible (.float value) List.mem_cons_self
    · trivial

instance {α : Type} [Named α] [NamesApart α] : Faithful α 0 where
  reads {value} _ := NamesApart.ofName?_name value
  writable _ _ := trivial

instance : Present String := ⟨rfl⟩
instance : Present Float := ⟨rfl⟩

end Scalars

section Containers
variable {α : Type} [JsonForm α] [Contents α]

instance : Contents (List α) := ⟨fun items => items.flatMap numbers⟩
instance : Contents (Option α) := ⟨fun value => value.toList.flatMap numbers⟩

theorem mapM_written {α β : Type} {f : β → Option α} {g : α → β} {items : List α}
    (back : ∀ item ∈ items, f (g item) = some item) : (items.map g).mapM f = some items := by
  induction items with
  | nil => rfl
  | cons item rest ih =>
    have first := back item List.mem_cons_self
    have later := ih fun other member => back other (List.mem_cons_of_mem _ member)
    simp [first,later]

theorem writableItems {survives : Float → Prop} {levels : Nat} {items : List Json}
    (each : ∀ item ∈ items, item.Writable survives levels) :
    Json.WritableItems survives items levels := by
  induction items with
  | nil => trivial
  | cons item rest ih =>
    exact ⟨each item List.mem_cons_self,
      ih fun other member => each other (List.mem_cons_of_mem _ member)⟩

theorem writableFields {survives : Float → Prop} {levels : Nat} {fields : List (String × Json)}
    (each : ∀ field ∈ fields, field.2.Writable survives levels) :
    Json.WritableFields survives fields levels := by
  induction fields with
  | nil => trivial
  | cons field rest ih =>
    exact ⟨each field List.mem_cons_self,
      ih fun other member => each other (List.mem_cons_of_mem _ member)⟩

omit [Contents α] in
theorem readOption?_present {json : Json} (present : json ≠ .null) :
    readOption? (α := α) json = (read? json).map some := by
  cases json <;> first | rfl | exact absurd rfl present

theorem write_ne_null {levels : Nat} [Faithful α levels] [Present α] {value : α}
    (fits : InRange value) : write value ≠ .null := by
  intro same
  have reads := Faithful.reads fits
  rw [same,Present.null_unread] at reads
  cases reads

variable {levels : Nat} [Faithful α levels]

instance : Faithful (List α) (levels+1) where
  reads {items} fits := by
    refine mapM_written fun item member => Faithful.reads fun number held => ?_
    exact fits number (List.mem_flatMap.mpr ⟨item,member,held⟩)
  writable {_ bound items} deep legible := by
    refine ⟨by omega,writableItems fun written member => ?_⟩
    obtain ⟨item,listed,rfl⟩ := List.mem_map.mp member
    exact Faithful.within fun number held =>
      legible number (List.mem_flatMap.mpr ⟨item,listed,held⟩)

instance [Present α] : Faithful (Option α) levels where
  reads {value} fits := by
    cases value with
    | none => rfl
    | some value =>
      have inside : InRange value := by simpa [InRange,numbers] using fits
      change readOption? (write value) = _
      rw [readOption?_present (write_ne_null inside),Faithful.reads inside]
      rfl
  writable {survives _ value} deep legible := by
    cases value with
    | none => trivial
    | some value =>
      have inside : Legible survives value := by simpa [Legible,numbers] using legible
      exact Faithful.within (α := α) inside

end Containers

section Maps
open Ranked

class LawfulKey (κ : Type) [KeyForm κ] : Prop where
  ofText?_text : ∀ key : κ, KeyForm.ofText? (KeyForm.text key) = some key

instance {κ : Type} [Named κ] [NamesApart κ] : LawfulKey κ := ⟨NamesApart.ofName?_name⟩

instance : LawfulKey UInt32 where
  ofText?_text key := by
    have text : KeyForm.text key = Nat.repr key.toNat := rfl
    have digits : Nat.ofDigitChars 10 (Nat.repr key.toNat).toList 0 = key.toNat := by
      rw [Nat.repr_eq_ofList_toDigits,String.toList_ofList,
        Nat.ofDigitChars_toDigits (by decide) (by decide)]
    have bound := key.toNat_lt
    rw [text]
    simp only [KeyForm.ofText?,digits]
    simpa using bound

theorem text_inj {κ : Type} [KeyForm κ] [LawfulKey κ] {key other : κ}
    (same : KeyForm.text key = KeyForm.text other) : key = other := by
  have read := LawfulKey.ofText?_text key
  rw [same,LawfulKey.ofText?_text] at read
  exact (Option.some.inj read).symm

variable {κ ν : Type} [KeyForm κ] [LawfulKey κ] [JsonForm ν] [Contents ν] {levels : Nat}

theorem readEntry?_written [Faithful ν levels] {entry : κ × ν} (fits : InRange entry.2) :
    readEntry? (KeyForm.text entry.1,write entry.2) = some entry := by
  unfold readEntry?
  simp [LawfulKey.ofText?_text,Faithful.reads fits]

variable [Ranked κ] [Faithful ν levels]

instance : Contents (SortedMap κ ν) := ⟨fun map => map.values.flatMap numbers⟩

instance : Faithful (SortedMap κ ν) (levels+1) where
  reads {map} fits := by
    have entries : (map.entries.map fun entry => (KeyForm.text entry.1,write entry.2)).mapM
        readEntry? = some map.entries := by
      refine mapM_written fun entry member => readEntry?_written fun number held => ?_
      have listed : entry.2 ∈ map.values := List.mem_map_of_mem member
      exact fits number (List.mem_flatMap.mpr ⟨entry.2,listed,held⟩)
    change (List.mapM readEntry? _).map SortedMap.ofList = _
    rw [entries,Option.map_some,SortedMap.ofList_entries]
  writable {_ bound map} deep legible := by
    refine ⟨by omega,?_,writableFields fun field member => ?_⟩
    · have keys : (map.entries.map (·.1)).Nodup :=
        map.ordered.imp fun lower same => Nat.ne_of_lt lower (congrArg rank same)
      have texts := keys.map fun _ _ same => text_inj same
      rw [List.map_map] at texts ⊢
      exact texts
    · obtain ⟨entry,listed,rfl⟩ := List.mem_map.mp member
      refine Faithful.within (fun number held => ?_)
      exact legible number (List.mem_flatMap.mpr ⟨entry.2,List.mem_map_of_mem listed,held⟩)

end Maps

section Metrics

instance {α : Type} [Contents α] : Contents (Failable α) where
  numbers
    | .ok value => numbers value
    | .error _ => []

instance : Contents (MetricValue Float) where
  numbers
    | .bool _ => []
    | .int value => [.integer value]
    | .float value => [.float value]

instance : Contents Failure := ⟨fun _ => []⟩

instance : Faithful Failure 1 where
  reads _ := rfl
  writable deep _ := ⟨deep,by simp,trivial,trivial⟩

instance {α : Type} {levels : Nat} [JsonForm α] [Contents α] [Faithful α levels] :
    Faithful (Failable α) (max levels 1 + 1) where
  reads {value} fits := by
    cases value with
    | ok value =>
      have inside : InRange value := fits
      change (read? (write value)).map Except.ok = _
      rw [Faithful.reads inside]
      rfl
    | error failure =>
      change (read? (write failure)).map Except.error = _
      rw [Faithful.reads (numberless rfl)]
      rfl
  writable {_ bound value} deep legible := by
    cases value with
    | ok value =>
      have inside : Legible _ value := legible
      exact ⟨by omega,by simp,Faithful.within inside,trivial⟩
    | error failure =>
      exact ⟨by omega,by simp,Faithful.bare rfl,trivial⟩

instance : Faithful (MetricValue Float) 0 where
  reads {value} fits := by
    cases value with
    | bool value => rfl
    | int value =>
      have bounds := fits (.integer value) List.mem_cons_self
      exact if_pos bounds
    | float value =>
      have finite := fits (.float value) List.mem_cons_self
      change readMetricValue? (write value) = _
      rw [writeFloat_finite finite]
      rfl
  writable {_ bound value} deep legible := by
    cases value with
    | bool value => trivial
    | int value => exact legible (.integer value) List.mem_cons_self
    | float value =>
      have inside : Legible _ value := legible
      change (write value).Writable _ bound
      exact Faithful.within inside

end Metrics
end JoinTrace
