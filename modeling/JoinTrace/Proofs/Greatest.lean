import JoinTrace.Aggregate
import JoinTrace.Proofs.NumberOrder

-- The largest of a list that may hold NaNs. A maximum passes over them, so it is the largest number
-- of the list wherever that has one.
namespace JoinTrace
open Scalar (Number)

class NumericScalar (α : Type) [Scalar α] : Prop extends OrderedScalar α where
  le_numbers {x y : α} : Scalar.le x y → Number x ∧ Number y

instance : NumericScalar ℚ where
  le_numbers _ := ⟨by simp [Number,Scalar.isNaN,Scalar.eq],by simp [Number,Scalar.isNaN,Scalar.eq]⟩

instance : NumericScalar Float where
  le_numbers low := by
    obtain ⟨a,b,here,there,_⟩ := Binary64.le_iff.mp low
    exact ⟨Binary64.number_iff.mpr ⟨a,here⟩,Binary64.number_iff.mpr ⟨b,there⟩⟩

section Alike
variable {α : Type} [Scalar α]

def Alike (x y : α) : Prop := Scalar.eq x y ∨ Scalar.isNaN x ∧ Scalar.isNaN y

theorem Alike.eq {x y : α} (alike : Alike x y) (number : Number y) : Scalar.eq x y := by
  rcases alike with same | ⟨_,none⟩
  · exact same
  · cases none.symm.trans number

structure Greatest (values : List α) (largest : α) : Prop where
  listed : largest ∈ values
  above : ∀ value ∈ values, Number value → Scalar.le value largest

theorem Greatest.of_mem_iff {values others : List α} {largest : α} (found : Greatest values largest)
    (same : ∀ value, value ∈ values ↔ value ∈ others) : Greatest others largest :=
  ⟨(same _).mp found.listed,fun value member => found.above value ((same _).mpr member)⟩

variable [NumericScalar α]

theorem max_picks (x y : α) : (Scalar.max x y = x ∨ Scalar.max x y = y) ∧
    (Number x → Scalar.le x (Scalar.max x y)) ∧ (Number y → Scalar.le y (Scalar.max x y)) := by
  have reflexive {z : α} (number : Number z) : Scalar.le z z := OrderedScalar.le_refl number
  unfold Scalar.max
  split
  · rename_i chosen
    refine ⟨.inr rfl,fun number => ?_,reflexive⟩
    rw [show Scalar.isNaN x = false from number,Bool.or_false] at chosen
    exact (OrderedScalar.lt_iff.mp chosen).1
  · rename_i kept
    obtain ⟨notBelow,number⟩ := Bool.or_eq_false_iff.mp (Bool.eq_false_iff.mpr kept)
    exact ⟨.inl rfl,reflexive,fun other => (OrderedScalar.not_lt number other).mp notBelow⟩

theorem greatest_foldl (first : α) (rest : List α) :
    Greatest (first :: rest) (rest.foldl Scalar.max first) := by
  induction rest generalizing first with
  | nil =>
    refine ⟨List.mem_cons_self,List.forall_mem_singleton.mpr fun number => ?_⟩
    exact OrderedScalar.le_refl number
  | cons second rest ih =>
    obtain ⟨picked,overFirst,overSecond⟩ := max_picks first second
    obtain ⟨listed,above⟩ := ih (Scalar.max first second)
    -- What the first two are held to exceeds both, and the rest is compared with it alone.
    have through {value : α} (below : Scalar.le value (Scalar.max first second)) :
        Scalar.le value (rest.foldl Scalar.max (Scalar.max first second)) :=
      OrderedScalar.le_trans below (above _ List.mem_cons_self (NumericScalar.le_numbers below).2)
    refine ⟨?_,List.forall_mem_cons.mpr ⟨fun number => through (overFirst number),
      List.forall_mem_cons.mpr ⟨fun number => through (overSecond number),fun value member =>
        above value (List.mem_cons_of_mem _ member)⟩⟩⟩
    rw [List.foldl_cons]
    rcases List.mem_cons.mp listed with held | later
    · rw [held]
      rcases picked with first | second
      · simp [first]
      · simp [second]
    · exact List.mem_cons_of_mem _ (List.mem_cons_of_mem _ later)

theorem greatest_max {values : List α} {largest : α} (found : Aggregate.max values = .ok largest) :
    Greatest values largest := by
  cases values with
  | nil => cases found
  | cons first rest =>
    cases found
    exact greatest_foldl first rest

namespace Greatest

theorem alike {values : List α} {largest other : α} (found : Greatest values largest)
    (again : Greatest values other) : Alike largest other := by
  have number {x y : α} (below : Number x → Scalar.le x y) (none : ¬ Number y) : ¬ Number x :=
    fun number => none (NumericScalar.le_numbers (below number)).2
  have upwards := again.above largest found.listed
  have downwards := found.above other again.listed
  by_cases first : Number largest
  · by_cases second : Number other
    · exact .inl (OrderedScalar.eq_iff.mpr ⟨upwards first,downwards second⟩)
    · exact absurd first (number upwards second)
  · have second := number downwards first
    exact .inr ⟨by simpa [Number] using first,by simpa [Number] using second⟩

theorem flatMap {τ : Type} {items : List τ} {members : τ → List α} {tops : List α} {largest : α}
    (found : Greatest tops largest)
    (each : ∀ item ∈ items, ∃ top ∈ tops, Greatest (members item) top)
    (only : ∀ top ∈ tops, ∃ item ∈ items, Greatest (members item) top) :
    Greatest (items.flatMap members) largest := by
  constructor
  · obtain ⟨item,listed,top⟩ := only largest found.listed
    exact List.mem_flatMap.mpr ⟨item,listed,top.listed⟩
  · intro value member number
    obtain ⟨item,listed,inside⟩ := List.mem_flatMap.mp member
    obtain ⟨top,held,greatest⟩ := each item listed
    have below := greatest.above value inside number
    exact OrderedScalar.le_trans below (found.above top held (NumericScalar.le_numbers below).2)

theorem eq_of_number {values : List α} {largest other : α} (found : Greatest values largest)
    (alike : Alike other largest) {value : α} (member : value ∈ values) (number : Number value) :
    Scalar.eq other largest :=
  alike.eq (NumericScalar.le_numbers (found.above value member number)).2

end Greatest
end Alike
end JoinTrace
