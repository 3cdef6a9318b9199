import Mathlib.Data.Prod.Lex
import Mathlib.Order.Compare
import JoinTrace.Proofs.Exact

-- The order of times. Exact numbers and binary64 numbers are each compared by one linear preorder,
-- outside of which a NaN stands alone; the two zeros of binary64 take one place in it.
namespace JoinTrace

def Scalar.Number {α : Type} [Scalar α] (x : α) : Prop := Scalar.isNaN x = false

instance {α : Type} [Scalar α] (x : α) : Decidable (Scalar.Number x) :=
  inferInstanceAs (Decidable (_ = _))

open Scalar (Number)

class OrderedScalar (α : Type) [Scalar α] : Prop where
  le_trans {x y z : α} : Scalar.le x y → Scalar.le y z → Scalar.le x z
  le_total {x y : α} : Number x → Number y → Scalar.le x y ∨ Scalar.le y x
  lt_iff {x y : α} : Scalar.lt x y ↔ Scalar.le x y ∧ ¬ Scalar.le y x
  eq_iff {x y : α} : Scalar.eq x y ↔ Scalar.le x y ∧ Scalar.le y x

namespace OrderedScalar
variable {α : Type} [Scalar α] [OrderedScalar α] {x y : α}

theorem le_refl (number : Number x) : Scalar.le x x := (le_total number number).elim id id

theorem not_lt (first : Number x) (second : Number y) : Scalar.lt x y = false ↔ Scalar.le y x := by
  rw [← Bool.not_eq_true,lt_iff]
  have total := le_total first second
  tauto

theorem min_choice (first : Number x) (second : Number y) :
    Scalar.min x y = x ∧ Scalar.le x y ∨ Scalar.min x y = y ∧ Scalar.le y x := by
  unfold Scalar.min
  rw [show Scalar.isNaN x = false from first,Bool.or_false]
  split
  next lower => exact .inr ⟨rfl,(lt_iff.mp lower).1⟩
  next notLower => exact .inl ⟨rfl,(not_lt second first).mp (Bool.eq_false_iff.mpr notLower)⟩

theorem max_choice (first : Number x) (second : Number y) :
    Scalar.max x y = x ∧ Scalar.le y x ∨ Scalar.max x y = y ∧ Scalar.le x y := by
  unfold Scalar.max
  rw [show Scalar.isNaN x = false from first,Bool.or_false]
  split
  next higher => exact .inr ⟨rfl,(lt_iff.mp higher).1⟩
  next notHigher => exact .inl ⟨rfl,(not_lt first second).mp (Bool.eq_false_iff.mpr notHigher)⟩

end OrderedScalar

instance : OrderedScalar ℚ where
  le_trans low high := by
    simp only [Scalar.le,decide_eq_true_eq] at low high ⊢
    exact low.trans high
  le_total _ _ := by
    simp only [Scalar.le,decide_eq_true_eq]
    exact le_total ..
  lt_iff := by
    simp only [Scalar.lt,Scalar.le,decide_eq_true_eq]
    exact lt_iff_le_not_ge
  eq_iff := by
    simp only [Scalar.eq,Scalar.le,decide_eq_true_eq]
    exact le_antisymm_iff

namespace Binary64
open Float.Model

-- Where a number lies: by sign and size first, the finite ones of a sign by exponent and mantissa.
def place : UnpackedFloat → Option (ℤ ×ₗ ℤ ×ₗ ℤ)
  | .notANumber => none
  | .infinity .negative => some (toLex (-2,toLex (0,0)))
  | .finite .negative mantissa exponent _ => some (toLex (-1,toLex (-exponent,-mantissa)))
  | .zero _ => some (toLex (0,toLex (0,0)))
  | .finite .positive mantissa exponent _ => some (toLex (1,toLex (exponent,mantissa)))
  | .infinity .positive => some (toLex (2,toLex (0,0)))

theorem cmp_finite (sign e f m n : ℤ) :
    cmp (toLex (sign,toLex (e,m))) (toLex (sign,toLex (f,n))) = (cmp e f).then (cmp m n) := by
  rw [cmp_eq_compare,cmp_eq_compare,cmp_eq_compare]
  simp [Prod.Lex.compare_def,compareLex,compareOn]

theorem cmp_positive (m n : ℕ) (e f : ℤ) :
    cmp (toLex ((1 : ℤ),toLex (e,(m : ℤ)))) (toLex (1,toLex (f,(n : ℤ)))) =
      (compare e f).then (compare m n) := by
  rw [cmp_finite,Nat.strictMono_cast.cmp_map_eq,cmp_eq_compare,cmp_eq_compare]

theorem cmp_negative (m n : ℕ) (e f : ℤ) :
    cmp (toLex ((-1 : ℤ),toLex (-e,-(m : ℤ)))) (toLex (-1,toLex (-f,-(n : ℤ)))) =
      ((compare e f).then (compare m n)).swap := by
  have turned : StrictAnti fun k : ℤ => -k := fun _ _ => neg_lt_neg
  rw [cmp_finite,turned.cmp_map_eq,turned.cmp_map_eq,Nat.strictMono_cast.cmp_map_eq,
    Ordering.swap_then,← cmp_eq_compare,← cmp_eq_compare,cmp_swap,cmp_swap]

theorem compare_place (a b : UnpackedFloat) :
    a.compare b = (place a).bind fun x => (place b).map (cmp x) := by
  rcases a with (_ | _) | _ | (_ | _) | ⟨_ | _,m,e,_⟩ <;>
    rcases b with (_ | _) | _ | (_ | _) | ⟨_ | _,n,f,_⟩ <;> try rfl
  · exact congrArg some (cmp_negative m n e f).symm
  · exact congrArg some (cmp_positive m n e f).symm

def position (x : Float) : Option (ℤ ×ₗ ℤ ×ₗ ℤ) := place x.toModel.unpack

variable {x y : Float}

theorem compare_any (test : Ordering → Bool) {relation : ℤ ×ₗ ℤ ×ₗ ℤ → ℤ ×ₗ ℤ ×ₗ ℤ → Prop}
    (means : ∀ a b, test (cmp a b) ↔ relation a b) :
    (x.toModel.unpack.compare y.toModel.unpack).any test ↔
      ∃ a b, position x = some a ∧ position y = some b ∧ relation a b := by
  rw [compare_place,← position,← position]
  cases position x with
  | none =>
    change false = true ↔ _
    simp
  | some a =>
    cases position y with
    | none =>
      change false = true ↔ _
      simp
    | some b =>
      change test (cmp a b) = true ↔ _
      rw [means]
      simp

theorem le_iff : Scalar.le x y ↔ ∃ a b, position x = some a ∧ position y = some b ∧ a ≤ b := by
  have means (a b : ℤ ×ₗ ℤ ×ₗ ℤ) : (cmp a b).isLE ↔ a ≤ b := by
    rw [← Ordering.ne_gt_iff_isLE]
    exact (not_congr (cmp_eq_gt_iff a b)).trans not_lt
  rw [← compare_any _ means]
  exact decide_eq_true_iff

theorem lt_iff : Scalar.lt x y ↔ ∃ a b, position x = some a ∧ position y = some b ∧ a < b := by
  rw [← compare_any (· == .lt) fun a b => beq_iff_eq.trans (cmp_eq_lt_iff a b)]
  refine decide_eq_true_iff.trans ?_
  change (_ == some Ordering.lt) = true ↔ _
  cases x.toModel.unpack.compare y.toModel.unpack <;> simp

theorem eq_iff : Scalar.eq x y ↔ ∃ a b, position x = some a ∧ position y = some b ∧ a = b := by
  rw [← compare_any (· == .eq) fun a b => beq_iff_eq.trans (cmp_eq_eq_iff a b)]
  change (_ == some Ordering.eq) = true ↔ _
  cases x.toModel.unpack.compare y.toModel.unpack <;> simp

theorem number_iff : Number x ↔ ∃ a, position x = some a := by
  rw [Number,Scalar.isNaN,Bool.not_eq_false',eq_iff]
  constructor
  · rintro ⟨a,_,here,_⟩
    exact ⟨a,here⟩
  · rintro ⟨a,here⟩
    exact ⟨a,a,here,here,rfl⟩

instance : OrderedScalar Float where
  le_trans low high := by
    obtain ⟨a,b,first,second,below⟩ := le_iff.mp low
    obtain ⟨_,c,again,third,above⟩ := le_iff.mp high
    cases second.symm.trans again
    exact le_iff.mpr ⟨a,c,first,third,below.trans above⟩
  le_total first second := by
    obtain ⟨a,here⟩ := number_iff.mp first
    obtain ⟨b,there⟩ := number_iff.mp second
    exact (le_total a b).imp (le_iff.mpr ⟨a,b,here,there,·⟩) (le_iff.mpr ⟨b,a,there,here,·⟩)
  lt_iff {x y} := by
    rw [lt_iff,le_iff,le_iff]
    constructor
    · rintro ⟨a,b,here,there,below⟩
      refine ⟨⟨a,b,here,there,below.le⟩,?_⟩
      rintro ⟨_,_,there',here',above⟩
      cases here.symm.trans here'
      cases there.symm.trans there'
      exact below.not_ge above
    · rintro ⟨⟨a,b,here,there,below⟩,notAbove⟩
      exact ⟨a,b,here,there,below.lt_of_not_ge fun above => notAbove ⟨b,a,there,here,above⟩⟩
  eq_iff {x y} := by
    rw [eq_iff,le_iff,le_iff]
    constructor
    · rintro ⟨a,_,here,there,rfl⟩
      exact ⟨⟨a,a,here,there,le_refl a⟩,⟨a,a,there,here,le_refl a⟩⟩
    · rintro ⟨⟨a,b,here,there,below⟩,_,_,there',here',above⟩
      cases here.symm.trans here'
      cases there.symm.trans there'
      exact ⟨a,b,here,there,below.antisymm above⟩

end Binary64
end JoinTrace
