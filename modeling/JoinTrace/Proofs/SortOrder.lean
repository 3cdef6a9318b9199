import JoinTrace.Aggregate
import JoinTrace.Proofs.Exact

-- The order values are sorted in. It tells any two values apart, the zeros of binary64 and its NaN
-- included, so that a sorted list does not show the order it came from.
namespace JoinTrace

class SortedScalar (α : Type) [Scalar α] : Prop where
  before_trans {x y z : α} : Scalar.sortsBefore x y → Scalar.sortsBefore y z → Scalar.sortsBefore x z
  before_total (x y : α) : Scalar.sortsBefore x y ∨ Scalar.sortsBefore y x
  before_antisymm {x y : α} : Scalar.sortsBefore x y → Scalar.sortsBefore y x → x = y

instance : SortedScalar ℚ where
  before_trans low high := by
    simp only [Scalar.sortsBefore,decide_eq_true_eq] at low high ⊢
    exact low.trans high
  before_total x y := by
    simp only [Scalar.sortsBefore,decide_eq_true_eq]
    exact le_total x y
  before_antisymm low high := by
    simp only [Scalar.sortsBefore,decide_eq_true_eq] at low high
    exact le_antisymm low high

namespace Binary64

theorem toBits_inj {x y : Float} (same : x.toBits = y.toBits) : x = y := by
  obtain ⟨⟨bits,valid⟩⟩ := x
  obtain ⟨⟨other,valid'⟩⟩ := y
  cases show bits = other from same
  rfl

-- Numbers of one sign have keys of one sign, which count their bits up or down.
theorem totalKey_inj {x y : Float} (same : totalKey x = totalKey y) : x = y := by
  have lower := x.toBits.toNat_lt
  have lower' := y.toBits.toNat_lt
  unfold totalKey at same
  refine toBits_inj (UInt64.toNat_inj.mp ?_)
  dsimp only at same
  split at same <;> split at same <;> omega

instance : SortedScalar Float where
  before_trans low high := by
    simp only [Scalar.sortsBefore,decide_eq_true_eq] at low high ⊢
    exact low.trans high
  before_total x y := by
    simp only [Scalar.sortsBefore,decide_eq_true_eq]
    exact le_total (totalKey x) (totalKey y)
  before_antisymm low high := by
    simp only [Scalar.sortsBefore,decide_eq_true_eq] at low high
    exact totalKey_inj (le_antisymm low high)

end Binary64

namespace Scalar
variable {α : Type} [Scalar α] [SortedScalar α] {values others : List α}

theorem sorted_ordered (values : List α) : (sorted values).Pairwise (sortsBefore · ·) := by
  apply List.pairwise_mergeSort
  · intro x y z
    exact SortedScalar.before_trans
  · intro x y
    simpa using SortedScalar.before_total x y

theorem sorted_perm (perm : values.Perm others) : sorted values = sorted others := by
  have same : (sorted values).Perm (sorted others) :=
    (List.mergeSort_perm ..).trans (perm.trans (List.mergeSort_perm ..).symm)
  exact same.eq_of_pairwise (fun _ _ _ _ => SortedScalar.before_antisymm) (sorted_ordered values)
    (sorted_ordered others)

end Scalar

namespace Aggregate
variable {α : Type} [Scalar α] [SortedScalar α] {values others : List α}

theorem median_perm (perm : values.Perm others) : median values = median others := by
  simp only [median,Scalar.sorted_perm perm]

theorem percentile_perm (perm : values.Perm others) (percent : α) :
    percentile values percent = percentile others percent := by
  simp only [percentile,Scalar.sorted_perm perm]

end Aggregate
end JoinTrace
