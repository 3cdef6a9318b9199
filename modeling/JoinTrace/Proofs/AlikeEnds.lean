import Mathlib.Data.Option.Basic
import Mathlib.Order.Basic
import JoinTrace.Proofs.Foremost
import JoinTrace.Proofs.Greatest

-- The two ends of a list of times. Which of several equal times is picked depends on the order of the
-- list, where only the sign of a zero can show it; which number that is does not.
namespace JoinTrace
open Scalar (Number)

instance {α : Type} [upwards : Scalar α] : Scalar αᵒᵈ :=
  { (show Scalar αᵒᵈ from upwards) with
    lt := fun x y => upwards.lt y x
    le := fun x y => upwards.le y x }

variable {α : Type} [Scalar α] {x y x' y' : α} {values others : List α}

instance [NumericScalar α] : NumericScalar αᵒᵈ where
  le_trans {x y z} low high := OrderedScalar.le_trans (α := α) (x := z) (y := y) (z := x) high low
  le_total {x y} first second := OrderedScalar.le_total (α := α) (x := y) (y := x) second first
  lt_iff {x y} := OrderedScalar.lt_iff (α := α) (x := y) (y := x)
  eq_iff {x y} := (OrderedScalar.eq_iff (α := α) (x := x) (y := y)).trans and_comm
  le_numbers {x y} low := (NumericScalar.le_numbers (α := α) (x := y) (y := x) low).symm

structure Least (values : List α) (smallest : α) : Prop where
  listed : smallest ∈ values
  below : ∀ value ∈ values, Number value → Scalar.le smallest value

theorem least_iff {smallest : α} :
    Least values smallest ↔ Greatest (α := αᵒᵈ) values smallest :=
  ⟨fun found => ⟨found.listed,found.below⟩,fun found => ⟨found.listed,found.above⟩⟩

theorem Least.of_mem_iff {smallest : α} (found : Least values smallest)
    (same : ∀ value, value ∈ values ↔ value ∈ others) : Least others smallest :=
  least_iff.mpr ((least_iff.mp found).of_mem_iff same)

theorem scan_perm {choose : α → α → α} {Best : List α → α → Prop}
    (folds : ∀ first rest, Best (first :: rest) (rest.foldl choose first))
    (alike : ∀ {best other}, Best values best → Best others other → Alike best other)
    (perm : values.Perm others) :
    Option.Rel Alike (values.foldl (consider choose) none) (others.foldl (consider choose) none) := by
  cases values with
  | nil =>
    obtain rfl := perm.nil_eq
    exact .none
  | cons first rest =>
    cases others with
    | nil => exact absurd perm.symm.nil_eq nofun
    | cons other more =>
      have scanned (item : α) (items : List α) :
          (item :: items).foldl (consider choose) none = some (items.foldl choose item) := by
        induction items generalizing item with
        | nil => rfl
        | cons next items ih => exact ih (choose item next)
      rw [scanned,scanned]
      exact .some (alike (folds first rest) (folds other more))

variable [NumericScalar α]

theorem Alike.symm (alike : Alike x y) : Alike y x := by
  rcases alike with same | none
  · exact .inl (OrderedScalar.eq_iff.mpr (OrderedScalar.eq_iff.mp same).symm)
  · exact .inr none.symm

theorem Alike.refl (x : α) : Alike x x := by
  by_cases number : Number x
  · have low := OrderedScalar.le_refl number
    exact .inl (OrderedScalar.eq_iff.mpr ⟨low,low⟩)
  · have none : Scalar.isNaN x := by simpa [Number] using number
    exact .inr ⟨none,none⟩

theorem Alike.le (first : Alike x x') (second : Alike y y') (low : Scalar.le x y) :
    Scalar.le x' y' := by
  obtain ⟨number,number'⟩ := NumericScalar.le_numbers low
  have lower := (OrderedScalar.eq_iff.mp (first.symm.eq number)).1
  have upper := (OrderedScalar.eq_iff.mp (second.symm.eq number')).2
  exact OrderedScalar.le_trans lower (OrderedScalar.le_trans low upper)

theorem Alike.lt_iff (first : Alike x x') (second : Alike y y') :
    Scalar.lt x y = Scalar.lt x' y' := by
  have upwards : Scalar.le x y ↔ Scalar.le x' y' := ⟨first.le second,first.symm.le second.symm⟩
  have downwards : Scalar.le y x ↔ Scalar.le y' x' := ⟨second.le first,second.symm.le first.symm⟩
  rw [Bool.eq_iff_iff,OrderedScalar.lt_iff,OrderedScalar.lt_iff,upwards,downwards]

theorem least_foldl (first : α) (rest : List α) :
    Least (first :: rest) (rest.foldl Scalar.min first) :=
  least_iff.mpr (greatest_foldl (α := αᵒᵈ) first rest)

theorem least_min {smallest : α} (found : Aggregate.min values = .ok smallest) :
    Least values smallest := by
  cases values with
  | nil => cases found
  | cons first rest =>
    cases found
    exact least_foldl first rest

theorem Least.alike {smallest other : α} (found : Least values smallest)
    (again : Least values other) : Alike smallest other :=
  (least_iff.mp found).alike (least_iff.mp again)

theorem earliest_perm (perm : values.Perm others) :
    Option.Rel Alike (earliest values) (earliest others) := by
  refine scan_perm least_foldl (fun found again => ?_) perm
  exact found.alike (again.of_mem_iff fun _ => perm.mem_iff.symm)

theorem latest_perm (perm : values.Perm others) :
    Option.Rel Alike (latest values) (latest others) := by
  refine scan_perm greatest_foldl (fun found again => ?_) perm
  exact found.alike (again.of_mem_iff fun _ => perm.mem_iff.symm)

end JoinTrace
