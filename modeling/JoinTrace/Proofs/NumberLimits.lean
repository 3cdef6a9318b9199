import Mathlib.Algebra.Order.Field.Power
import Mathlib.Tactic.Positivity
import JoinTrace.Proofs.Greatest

-- The finite numbers of binary64, each an exact number, and the infinities beyond them. A difference
-- with an infinity is one, and so is every product but that with a zero; a NaN passes through all.
namespace JoinTrace.Binary64
open Float.Model UnpackedFloat
open Scalar (Number)

variable {x y : Float}

theorem isNaN_iff : x.isNaN ↔ x.toModel.unpack = .notANumber := by
  change x.toModel.unpack.isNaN ↔ _
  cases x.toModel.unpack with
  | notANumber => exact ⟨fun _ => rfl,fun _ => rfl⟩
  | infinity | zero | finite => exact ⟨nofun,nofun⟩

theorem isInf_iff : x.isInf ↔ ∃ sign, x.toModel.unpack = .infinity sign := by
  change x.toModel.unpack.isInf ↔ _
  cases x.toModel.unpack with
  | infinity sign => exact ⟨fun _ => ⟨sign,rfl⟩,fun _ => rfl⟩
  | notANumber | zero | finite => exact ⟨nofun,nofun⟩

theorem isFinite_of (notNaN : x.isNaN = false) (notInf : x.isInf = false) : x.isFinite := by
  change x.toModel.unpack.isNaN = false at notNaN
  change x.toModel.unpack.isInf = false at notInf
  change x.toModel.unpack.isFinite
  generalize x.toModel.unpack = model at notNaN notInf
  cases model with
  | notANumber => cases notNaN
  | infinity => cases notInf
  | zero | finite => rfl

theorem number_iff_notNaN : Number x ↔ x.isNaN = false := by
  rw [number_iff,← Bool.not_eq_true,isNaN_iff,position]
  generalize x.toModel.unpack = model
  rcases model with (_ | _) | _ | (_ | _) | ⟨_ | _,_,_,_⟩
  case notANumber =>
    refine ⟨fun placed => ?_,fun number => absurd rfl number⟩
    obtain ⟨_,absent⟩ := placed
    cases absent
  all_goals
    refine ⟨fun _ same => ?_,fun _ => ⟨_,rfl⟩⟩
    cases same

theorem le_isNaN (nan : x.isNaN ∨ y.isNaN) : Scalar.le x y = false := by
  refine Bool.eq_false_iff.mpr fun below => ?_
  obtain ⟨first,second⟩ := NumericScalar.le_numbers below
  rcases nan with nan | nan
  · cases nan.symm.trans (number_iff_notNaN.mp first)
  · cases nan.symm.trans (number_iff_notNaN.mp second)

theorem eq_zero (nonneg : 0 ≤ x) (notPositive : ¬ 0 < x) : x == 0 := by
  have low : Scalar.le 0 x := nonneg
  have high : Scalar.le x 0 := by
    by_contra above
    exact notPositive (show Scalar.lt 0 x from OrderedScalar.lt_iff.mpr ⟨low,above⟩)
  exact show Scalar.eq x 0 from OrderedScalar.eq_iff.mpr ⟨high,low⟩

section Exact

def valueOf : UnpackedFloat → Option ℚ
  | .zero _ => some 0
  | .finite .positive mantissa exponent _ => some (mantissa * 2 ^ exponent)
  | .finite .negative mantissa exponent _ => some (-(mantissa * 2 ^ exponent))
  | .infinity _ | .notANumber => none

def rational? (x : Float) : Option ℚ := valueOf x.toModel.unpack

theorem rational_of_finite (finite : x.isFinite) : ∃ number, rational? x = some number := by
  change x.toModel.unpack.isFinite at finite
  unfold rational?
  generalize x.toModel.unpack = model at finite ⊢
  rcases model with _ | _ | _ | ⟨_ | _,_,_,_⟩
  · cases finite
  · cases finite
  all_goals exact ⟨_,rfl⟩

theorem valueOf_nonneg {model : UnpackedFloat} {number : ℚ} (value : valueOf model = some number)
    {at_least : ℤ ×ₗ ℤ ×ₗ ℤ} (placed : place model = some at_least)
    (above : toLex (0,toLex (0,0)) ≤ at_least) : 0 ≤ number := by
  rcases model with _ | _ | _ | ⟨_ | _,mantissa,exponent,_⟩
  · cases value
  · cases value
  · cases value
    exact le_refl _
  · cases placed
    rw [Prod.Lex.toLex_le_toLex] at above
    norm_num at above
  · cases value
    positivity

theorem rational_nonneg (positive : 0 ≤ x) {number : ℚ} (value : rational? x = some number) :
    0 ≤ number := by
  obtain ⟨_,_,zero,placed,above⟩ := le_iff.mp (show Scalar.le 0 x from positive)
  have origin : position 0 = some (toLex (0,toLex (0,0))) := rfl
  cases origin.symm.trans zero
  exact valueOf_nonneg value placed above

end Exact

section Infinite

theorem unpack_nan : (Float.Model.pack .notANumber).unpack = .notANumber := rfl

theorem unpack_infinity (sign : Sign) :
    (Float.Model.pack (.infinity sign)).unpack = .infinity sign := by
  cases sign <;> rfl

theorem unpack_sub (x y : Float) : (x - y).toModel.unpack = (Float.Model.pack
    (UnpackedFloat.sub .binary64 x.toModel.unpack y.toModel.unpack)).unpack := rfl

theorem unpack_mul (x y : Float) : (x * y).toModel.unpack = (Float.Model.pack
    (UnpackedFloat.mul .binary64 x.toModel.unpack y.toModel.unpack)).unpack := rfl

theorem unpack_abs (x : Float) :
    x.abs.toModel.unpack = (Float.Model.pack x.toModel.unpack.abs).unpack := rfl

theorem sub_isNaN (nan : x.isNaN ∨ y.isNaN) : (x - y).isNaN := by
  rw [isNaN_iff,unpack_sub]
  rcases nan with nan | nan
  · rw [isNaN_iff.mp nan]
    exact unpack_nan
  · rw [isNaN_iff.mp nan]
    cases x.toModel.unpack <;> exact unpack_nan

theorem abs_isNaN (nan : x.isNaN) : x.abs.isNaN := by
  rw [isNaN_iff,unpack_abs,isNaN_iff.mp nan]
  exact unpack_nan

def Top (x : Float) : Prop := x.toModel.unpack = .infinity .positive

theorem abs_top (infinite : x.isInf) : Top x.abs := by
  obtain ⟨sign,here⟩ := isInf_iff.mp infinite
  rw [Top,unpack_abs,here]
  exact unpack_infinity .positive

def OneInfinite (x y : Float) : Prop := x.isInf ∧ y.isFinite ∨ x.isFinite ∧ y.isInf

theorem oneInfinite (numbers : ¬ (x.isNaN ∨ y.isNaN)) (one : x.isInf ≠ y.isInf) :
    OneInfinite x y := by
  simp only [not_or,Bool.not_eq_true] at numbers
  cases first : x.isInf
  · have second : y.isInf := by simpa [first] using one.symm
    exact .inr ⟨isFinite_of numbers.1 first,second⟩
  · have second : y.isInf = false := by simpa [first] using one.symm
    exact .inl ⟨first,isFinite_of numbers.2 second⟩

theorem sub_isInf (apart : OneInfinite x y) : (x - y).isInf := by
  rw [isInf_iff,unpack_sub]
  rcases apart with ⟨infinite,finite⟩ | ⟨finite,infinite⟩
  · obtain ⟨sign,here⟩ := isInf_iff.mp infinite
    change y.toModel.unpack.isFinite at finite
    refine ⟨sign,?_⟩
    rw [here]
    generalize y.toModel.unpack = other at finite
    cases other with
    | infinity | notANumber => cases finite
    | zero | finite => exact unpack_infinity sign
  · obtain ⟨sign,here⟩ := isInf_iff.mp infinite
    change x.toModel.unpack.isFinite at finite
    refine ⟨-sign,?_⟩
    rw [here]
    generalize x.toModel.unpack = other at finite
    cases other with
    | infinity | notANumber => cases finite
    | zero | finite => exact unpack_infinity (-sign)

theorem position_top (top : Top x) : position x = some (toLex (2,toLex (0,0))) := by
  rw [position,show x.toModel.unpack = _ from top]
  rfl

theorem top_number (top : Top x) : Number x := number_iff.mpr ⟨_,position_top top⟩

theorem place_top {model : UnpackedFloat} {placed : ℤ ×ₗ ℤ ×ₗ ℤ} (here : place model = some placed)
    (above : toLex (2,toLex (0,0)) ≤ placed) : model = .infinity .positive := by
  rcases model with (_ | _) | _ | _ | ⟨_ | _,_,_,_⟩
  · cases here
    norm_num [Prod.Lex.toLex_le_toLex] at above
  · rfl
  all_goals
    cases here
    try norm_num [Prod.Lex.toLex_le_toLex] at above

theorem Top.of_le (top : Top x) (below : Scalar.le x y) : Top y := by
  obtain ⟨_,_,first,second,above⟩ := le_iff.mp below
  cases (position_top top).symm.trans first
  exact place_top second above

theorem Top.le (first : Top x) (second : Top y) : Scalar.le x y :=
  le_iff.mpr ⟨_,_,position_top first,position_top second,le_refl _⟩

theorem Top.not_finite (top : Top x) : x.isFinite = false := by
  change x.toModel.unpack.isFinite = false
  rw [show x.toModel.unpack = _ from top]
  rfl

theorem max_top (top : Top x ∨ Top y) : Top (Scalar.max x y) := by
  unfold Scalar.max
  split
  · rename_i chosen
    rcases top with top | top
    · rw [show Scalar.isNaN x = false from top_number top,Bool.or_false] at chosen
      exact top.of_le (OrderedScalar.lt_iff.mp chosen).1
    · exact top
  · rename_i kept
    obtain ⟨notBelow,number⟩ := Bool.or_eq_false_iff.mp (Bool.eq_false_iff.mpr kept)
    rcases top with top | top
    · exact top
    · exact top.of_le ((OrderedScalar.not_lt number (top_number top)).mp notBelow)

theorem mul_top (finite : x.isFinite) (positive : 0 < x) (top : Top y) : Top (x * y) := by
  obtain ⟨_,_,zero,here,above⟩ := lt_iff.mp (show Scalar.lt 0 x from positive)
  have origin : position 0 = some (toLex (0,toLex (0,0))) := rfl
  cases origin.symm.trans zero
  rw [Top,unpack_mul,show y.toModel.unpack = _ from top]
  change x.toModel.unpack.isFinite at finite
  unfold position at here
  generalize x.toModel.unpack = model at finite here
  rcases model with _ | _ | _ | ⟨_ | _,_,_,_⟩
  · cases finite
  · cases finite
  · cases here
    norm_num at above
  · cases here
    norm_num [Prod.Lex.toLex_lt_toLex] at above
  · exact unpack_infinity .positive

theorem mul_isNaN (zero : x == 0) (top : Top y) : (x * y).isNaN := by
  obtain ⟨_,_,here,origin,rfl⟩ := eq_iff.mp (show Scalar.eq x 0 from zero)
  cases (rfl : position 0 = some (toLex (0,toLex (0,0)))).symm.trans origin
  rw [isNaN_iff,unpack_mul,show y.toModel.unpack = _ from top]
  unfold position at here
  generalize x.toModel.unpack = model at here
  rcases model with (_ | _) | _ | _ | ⟨_ | _,_,_,_⟩
  all_goals first | exact unpack_nan | cases here

end Infinite
end JoinTrace.Binary64
