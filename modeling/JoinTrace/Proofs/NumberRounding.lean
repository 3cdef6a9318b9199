import Mathlib
import JoinTrace.Proofs.NumberOrder

-- How binary64 rounds. A result is found with its first digits and the word whether there are more,
-- cut to 53 bits, and taken to the nearer of the two numbers around it, so that it passes no number of
-- the format which the exact result does not pass.
namespace JoinTrace.Binary64
open Float.Model UnpackedFloat

structure Normal (mantissa : ℕ) : Prop where
  low : 2 ^ 52 ≤ mantissa
  high : mantissa < 2 ^ 53

theorem Normal.log2 {mantissa : ℕ} (normal : Normal mantissa) : mantissa.log2 = 52 := by
  obtain ⟨low,high⟩ := normal
  exact (Nat.log2_eq_iff (by omega)).mpr ⟨low,high⟩

section Mantissa
variable {extended : ExtendedMantissa}

def Whole (extended : ExtendedMantissa) : Prop :=
  extended.roundBit = false ∧ extended.stickyBit = false

theorem whole_ofAccuracy {mantissa : ℕ} {accuracy : Accuracy} :
    Whole (.ofMantissaAndAccuracy mantissa accuracy) ↔ accuracy = .exact := by
  rcases accuracy with _ | (_ | _ | _) <;> simp [Whole,ExtendedMantissa.ofMantissaAndAccuracy]

theorem mantissa_ofAccuracy (mantissa : ℕ) (accuracy : Accuracy) :
    (ExtendedMantissa.ofMantissaAndAccuracy mantissa accuracy).mantissa = mantissa := by
  rcases accuracy with _ | (_ | _ | _) <;> rfl

theorem shift_succ (extended : ExtendedMantissa) (places : ℕ) :
    extended >>> (places+1) = (extended >>> places).shiftRightOne := rfl

theorem mantissa_shift (extended : ExtendedMantissa) (places : ℕ) :
    (extended >>> places).mantissa = extended.mantissa / 2 ^ places := by
  induction places with
  | zero => exact (Nat.div_one _).symm
  | succ places ih =>
    rw [shift_succ,ExtendedMantissa.shiftRightOne,ih,Nat.div_div_eq_div_mul,pow_succ]

theorem whole_shift (extended : ExtendedMantissa) (places : ℕ) :
    Whole (extended >>> places) ↔ Whole extended ∧ 2 ^ places ∣ extended.mantissa := by
  induction places with
  | zero => simp [show extended >>> 0 = extended from rfl]
  | succ places ih =>
    have halves : Whole (extended >>> places).shiftRightOne ↔
        Whole (extended >>> places) ∧ (extended >>> places).mantissa % 2 = 0 := by
      simp [Whole,ExtendedMantissa.shiftRightOne,and_comm,and_assoc]
    rw [shift_succ,halves,ih,mantissa_shift,and_assoc]
    refine and_congr_right fun _ => ?_
    rw [← Nat.dvd_iff_mod_eq_zero,pow_succ]
    constructor
    · rintro ⟨low,high⟩
      exact (Nat.dvd_div_iff_mul_dvd low).mp high
    · intro both
      have low := (Nat.dvd_mul_right ..).trans both
      exact ⟨low,(Nat.dvd_div_iff_mul_dvd low).mpr both⟩

theorem rounded_of_whole (whole : Whole extended) : extended.roundedMantissa = extended.mantissa := by
  obtain ⟨mantissa,roundBit,stickyBit⟩ := extended
  obtain ⟨rfl,rfl⟩ := whole
  rfl

theorem rounded_bounds (extended : ExtendedMantissa) :
    extended.mantissa ≤ extended.roundedMantissa ∧
      extended.roundedMantissa ≤ extended.mantissa + 1 := by
  obtain ⟨mantissa,_ | _,_ | _⟩ := extended <;>
    simp only [ExtendedMantissa.roundedMantissa,ExtendedMantissa.accuracy,
      Accuracy.roundToNearestEven] <;> omega

theorem targetExponent_eq (total : ℤ) :
    Format.targetExponent .binary64 total = max (total - 53) (-1074) := rfl

theorem shift_normal {mantissa : ℕ} (low : 2 ^ 52 ≤ mantissa) {exponent : ℤ}
    (least : -1074 ≤ exponent) (accuracy : Accuracy) :
    shiftToTargetExponent .binary64 mantissa exponent accuracy =
      (ExtendedMantissa.ofMantissaAndAccuracy mantissa accuracy >>> (mantissa.log2 - 52),
        exponent + (mantissa.log2 - 52 : ℕ)) := by
  have bits : 52 ≤ mantissa.log2 := (Nat.le_log2 (by omega)).mpr low
  have target : Format.targetExponent .binary64 (totalExponent mantissa exponent) =
      exponent + (mantissa.log2 - 52 : ℕ) := by
    rw [targetExponent_eq,totalExponent]
    omega
  have places : (exponent + (mantissa.log2 - 52 : ℕ) - exponent).toNat = mantissa.log2 - 52 := by omega
  simp only [shiftToTargetExponent,shiftToExponent,target,places]

theorem cut_normal {mantissa : ℕ} (low : 2 ^ 52 ≤ mantissa) :
    Normal (mantissa / 2 ^ (mantissa.log2 - 52)) := by
  have some : mantissa ≠ 0 := by omega
  have bits : 52 ≤ mantissa.log2 := (Nat.le_log2 some).mpr low
  have places : 53 + (mantissa.log2 - 52) = mantissa.log2 + 1 := by omega
  constructor
  · rw [Nat.le_div_iff_mul_le (by positivity),← pow_add,Nat.add_sub_cancel' bits]
    exact Nat.log2_self_le some
  · rw [Nat.div_lt_iff_lt_mul (by positivity),← pow_add,places]
    exact Nat.lt_log2_self

end Mantissa

-- By exponent and then by mantissa.
def key (mantissa : ℕ) (exponent : ℤ) : ℤ ×ₗ ℤ := toLex (exponent,(mantissa : ℤ))

theorem key_le_iff {m n : ℕ} {e f : ℤ} : key m e ≤ key n f ↔ e < f ∨ e = f ∧ m ≤ n := by
  simp [key,Prod.Lex.le_iff]

theorem two_pow_pos (exponent : ℤ) : (0 : ℚ) < 2 ^ exponent := zpow_pos (by norm_num) exponent

theorem two_pow_add (exponent : ℤ) (places : ℕ) :
    (2 : ℚ) ^ (exponent + places) = 2 ^ places * 2 ^ exponent := by
  rw [zpow_add₀ (by norm_num),zpow_natCast,mul_comm]

theorem key_le {m n : ℕ} (normal : Normal m) (normal' : Normal n) {e f : ℤ}
    (less : (m : ℚ) * 2 ^ e < (n + 1) * 2 ^ f) : key m e ≤ key n f := by
  have low : (2 : ℚ) ^ 52 ≤ m := by exact_mod_cast normal.low
  have high : (n : ℚ) + 1 ≤ 2 ^ 53 := by exact_mod_cast normal'.high
  rw [key_le_iff]
  rcases lt_trichotomy e f with before | rfl | after
  · exact .inl before
  · refine .inr ⟨rfl,Nat.lt_succ_iff.mp ?_⟩
    exact_mod_cast (mul_lt_mul_iff_of_pos_right (two_pow_pos e)).mp less
  · have wider : (2 : ℚ) ^ (f + (1 : ℕ)) ≤ 2 ^ e := zpow_le_zpow_right₀ (by norm_num) (by omega)
    have power := two_pow_pos f
    rw [two_pow_add] at wider
    nlinarith

-- What is known of a number that is to be rounded: its first digits, and whether there are more.
structure Truncates (number : ℚ) (mantissa : ℕ) (exponent : ℤ) (whole : Prop) : Prop where
  below : mantissa * 2 ^ exponent ≤ number
  above : number < (mantissa + 1) * 2 ^ exponent
  inexact : ¬ whole → mantissa * 2 ^ exponent < number

theorem Truncates.cut {number : ℚ} {mantissa : ℕ} {exponent : ℤ} {whole : Prop}
    (truncates : Truncates number mantissa exponent whole) (places : ℕ) :
    Truncates number (mantissa / 2 ^ places) (exponent + places) (whole ∧ 2 ^ places ∣ mantissa) := by
  have power := two_pow_pos exponent
  have under : ((mantissa / 2 ^ places : ℕ) : ℚ) * 2 ^ places ≤ mantissa := by
    exact_mod_cast Nat.div_mul_le_self mantissa (2 ^ places)
  have above : (mantissa : ℚ) + 1 ≤ ((mantissa / 2 ^ places : ℕ) + 1) * 2 ^ places := by
    rw [mul_comm]
    exact_mod_cast Nat.lt_mul_div_succ mantissa (Nat.two_pow_pos places)
  refine ⟨?_,?_,fun inexact => ?_⟩
  · rw [two_pow_add,← mul_assoc]
    exact (mul_le_mul_of_nonneg_right under power.le).trans truncates.below
  · rw [two_pow_add,← mul_assoc]
    exact truncates.above.trans_le (mul_le_mul_of_nonneg_right above power.le)
  · rw [two_pow_add,← mul_assoc]
    by_cases even : 2 ^ places ∣ mantissa
    · have more := truncates.inexact fun exact => inexact ⟨exact,even⟩
      exact (mul_le_mul_of_nonneg_right under power.le).trans_lt more
    · have dropped : ((mantissa / 2 ^ places : ℕ) : ℚ) * 2 ^ places < mantissa := by
        have apart := mt (Nat.dvd_iff_div_mul_eq mantissa (2 ^ places)).mpr even
        exact_mod_cast lt_of_le_of_ne (Nat.div_mul_le_self ..) apart
      exact (mul_lt_mul_of_pos_right dropped power).trans_le truncates.below

-- The nearest number of the format: it passes none of them that the number itself does not pass.
structure Rounds (number : ℚ) (mantissa : ℕ) (exponent : ℤ) : Prop where
  normal : Normal mantissa
  upper : ∀ {m : ℕ} {e : ℤ}, Normal m → number ≤ m * 2 ^ e → key mantissa exponent ≤ key m e
  lower : ∀ {m : ℕ} {e : ℤ}, Normal m → m * 2 ^ e ≤ number → key m e ≤ key mantissa exponent

theorem Truncates.rounds_down {number : ℚ} {mantissa : ℕ} {exponent : ℤ} {whole : Prop}
    (truncates : Truncates number mantissa exponent whole) (normal : Normal mantissa) :
    Rounds number mantissa exponent where
  normal := normal
  upper other bound := by
    refine key_le normal other (truncates.below.trans_lt (bound.trans_lt ?_))
    exact mul_lt_mul_of_pos_right (lt_add_one _) (two_pow_pos _)
  lower other bound := key_le other normal (bound.trans_lt truncates.above)

-- The number after the last mantissa of an exponent is the first one of the next.
theorem Truncates.rounds_up {number : ℚ} {mantissa : ℕ} {exponent : ℤ} {whole : Prop}
    (truncates : Truncates number mantissa exponent whole) (normal : Normal mantissa)
    (inexact : ¬ whole) {next : ℕ} {raised : ℤ} (normal' : Normal next)
    (follows : next = mantissa + 1 ∧ raised = exponent ∨
      mantissa + 1 = 2 ^ 53 ∧ next = 2 ^ 52 ∧ raised = exponent + 1) : Rounds number next raised where
  normal := normal'
  upper {m e} other bound := by
    have below := (truncates.rounds_down normal).upper other bound
    have apart : ¬ (exponent = e ∧ mantissa = m) := by
      rintro ⟨rfl,rfl⟩
      exact absurd bound (not_le.mpr (truncates.inexact inexact))
    have low := other.low
    have high := other.high
    rw [key_le_iff] at below ⊢
    omega
  lower other bound := by
    refine ((truncates.rounds_down normal).lower other bound).trans (key_le_iff.mpr ?_)
    omega

theorem Truncates.rounds {number : ℚ} {mantissa rounded : ℕ} {exponent : ℤ} {whole : Prop}
    (truncates : Truncates number mantissa exponent whole) (normal : Normal mantissa)
    (normal' : Normal rounded) (notBelow : mantissa ≤ rounded) (notAbove : rounded ≤ mantissa + 1)
    (same : whole → rounded = mantissa) : Rounds number rounded exponent := by
  by_cases up : rounded = mantissa + 1
  · have inexact : ¬ whole := fun exact => by
      have kept := same exact
      omega
    exact truncates.rounds_up normal inexact normal' (.inl ⟨up,rfl⟩)
  · have down : rounded = mantissa := by omega
    exact down ▸ truncates.rounds_down normal

theorem roundWithAccuracy_eq {spec : Format} {sign : Sign} {mantissa rounded m : ℕ}
    {exponent e f : ℤ} {accuracy : Accuracy} {cut last : ExtendedMantissa}
    (first : shiftToTargetExponent spec mantissa exponent accuracy = (cut,e))
    (nearest : cut.roundedMantissa = rounded)
    (second : shiftToTargetExponent spec rounded e .exact = (last,f))
    (final : last.mantissa = m) (some : 0 < m) :
    roundWithAccuracy spec sign mantissa exponent accuracy = .finite sign m f some := by
  subst final nearest
  unfold roundWithAccuracy
  simp only [first,second]
  exact dif_neg some.ne'

-- Rounding may carry into a further bit, which the mantissa then gives up again.
theorem round_normal {number : ℚ} {mantissa : ℕ} {exponent : ℤ} {accuracy : Accuracy}
    (truncates : Truncates number mantissa exponent (accuracy = .exact)) (low : 2 ^ 52 ≤ mantissa)
    (least : -1074 ≤ exponent) (sign : Sign) :
    ∃ m e pos, roundWithAccuracy .binary64 sign mantissa exponent accuracy = .finite sign m e pos ∧
      exponent ≤ e ∧ Rounds number m e := by
  have first := shift_normal low least accuracy
  generalize places : mantissa.log2 - 52 = dropped at first
  generalize shifted : ExtendedMantissa.ofMantissaAndAccuracy mantissa accuracy >>> dropped = cut at first
  have kept : cut.mantissa = mantissa / 2 ^ dropped := by
    rw [← shifted,mantissa_shift,mantissa_ofAccuracy]
  have normal : Normal cut.mantissa := by
    rw [kept,← places]
    exact cut_normal low
  have truncated : Truncates number cut.mantissa (exponent + dropped) (Whole cut) := by
    have whole := whole_shift (.ofMantissaAndAccuracy mantissa accuracy) dropped
    rw [shifted,whole_ofAccuracy,mantissa_ofAccuracy] at whole
    rw [whole,kept]
    exact truncates.cut dropped
  obtain ⟨notBelow,notAbove⟩ := rounded_bounds cut
  have same : Whole cut → cut.roundedMantissa = cut.mantissa := rounded_of_whole
  generalize nearest : cut.roundedMantissa = rounded at notBelow notAbove same
  have raised : -1074 ≤ exponent + dropped := by omega
  have second := shift_normal (normal.low.trans notBelow) raised .exact
  have final := mantissa_shift (.ofMantissaAndAccuracy rounded .exact) (rounded.log2 - 52)
  rw [mantissa_ofAccuracy] at final
  obtain ⟨low',high'⟩ := normal
  by_cases carried : rounded = 2 ^ 53
  · rw [carried,Nat.log2_two_pow] at second final
    refine ⟨2 ^ 52,_,by norm_num,
      roundWithAccuracy_eq first (nearest.trans carried) second final _,?_,?_⟩
    · omega
    · refine truncated.rounds_up ⟨low',high'⟩ (fun whole => ?_) ⟨by norm_num,by norm_num⟩
        (.inr ⟨by omega,rfl,rfl⟩)
      have := same whole
      omega
  · have normal' : Normal rounded := ⟨by omega,by omega⟩
    rw [normal'.log2,Nat.sub_self,pow_zero,Nat.div_one] at final
    rw [normal'.log2,Nat.sub_self,Nat.cast_zero,add_zero] at second
    refine ⟨rounded,_,by omega,roundWithAccuracy_eq first nearest second final _,by omega,?_⟩
    exact truncated.rounds ⟨low',high'⟩ normal' notBelow notAbove same

theorem unpack_pack {sign : Sign} {mantissa : ℕ} {exponent : ℤ} (normal : Normal mantissa)
    (least : -1074 ≤ exponent) (most : exponent ≤ 971) (pos : 0 < mantissa) :
    unpack .binary64 (pack .binary64 (.finite sign mantissa exponent pos)) =
      .finite sign mantissa exponent pos := by
  have bits := normal.log2
  obtain ⟨low,high⟩ := normal
  have bias : Format.exponentBias .binary64 = 1023 := rfl
  generalize held : (exponent + 1023 + 52).toNat = biased
  have packed : pack .binary64 (.finite sign mantissa exponent pos) =
      packComponents .binary64 sign (BitVec.ofNat 11 biased) (BitVec.ofNat 52 mantissa) := by
    have inside : ¬ 2 ^ 11 ≤ biased + 1 := by omega
    have full : 52 + 1 = Format.mantissaBits .binary64 := rfl
    rw [← held] at inside ⊢
    simp only [UnpackedFloat.pack,bias,bits]
    exact (if_neg inside).trans (if_pos full)
  have exponents : (BitVec.ofNat 11 biased).toNat = biased := by
    rw [BitVec.toNat_ofNat,Nat.mod_eq_of_lt (by omega)]
  have notLast : BitVec.ofNat 11 biased ≠ -1#11 := by
    rw [ne_eq,← BitVec.toNat_inj,exponents]
    change biased ≠ 2047
    omega
  have notFirst : BitVec.ofNat 11 biased ≠ 0#11 := by
    rw [ne_eq,← BitVec.toNat_inj,exponents]
    change biased ≠ 0
    omega
  have mantissas : (1#1 ++ BitVec.ofNat 52 mantissa).toNat = mantissa := by
    have rest : (BitVec.ofNat 52 mantissa).toNat < 2 ^ 52 := BitVec.isLt _
    rw [BitVec.toNat_append,← Nat.shiftLeft_add_eq_or_of_lt rest,BitVec.toNat_ofNat,Nat.shiftLeft_eq]
    change 1 * 2 ^ 52 + mantissa % 2 ^ 52 = mantissa
    omega
  rw [packed,UnpackedFloat.unpack]
  simp only [unpackSign_packComponents,Sign.ofBitVec_toBitVec,unpackMantissa_packComponents,
    unpackExponent_packComponents,notLast,notFirst,if_false,finite.injEq,true_and,exponents,bias]
  refine ⟨mantissas,?_⟩
  change (biased : ℤ) - (1023 + 52) = exponent
  omega

theorem truncates_self (mantissa : ℕ) (exponent : ℤ) :
    Truncates (mantissa * 2 ^ exponent) mantissa exponent (Accuracy.exact = .exact) :=
  ⟨le_refl _,mul_lt_mul_of_pos_right (lt_add_one _) (two_pow_pos _),fun inexact => absurd rfl inexact⟩

theorem Rounds.exact {number : ℚ} {m n : ℕ} {e f : ℤ} (rounds : Rounds number m e) (normal : Normal n)
    (value : n * 2 ^ f = number) : m = n ∧ e = f := by
  have upper := key_le_iff.mp (rounds.upper normal value.ge)
  have lower := key_le_iff.mp (rounds.lower normal value.le)
  omega

theorem whole_normal {n : ℕ} (some : 0 < n) (small : n < 2 ^ 53) (zeroes : ℕ) :
    Normal (n * 2 ^ (52 - n.log2)) ∧ ((n * 2 ^ (52 - n.log2) : ℕ) : ℚ) *
      2 ^ ((n.log2 : ℤ) - 52 + zeroes) = (n * 2 ^ zeroes : ℕ) := by
  have bits : n.log2 ≤ 52 := Nat.lt_succ_iff.mp ((Nat.log2_lt some.ne').mpr small)
  have low := Nat.log2_self_le some.ne'
  have high : n < 2 ^ (n.log2 + 1) := Nat.lt_log2_self
  refine ⟨⟨?_,?_⟩,?_⟩
  · calc 2 ^ 52 = 2 ^ n.log2 * 2 ^ (52 - n.log2) := by rw [← pow_add,Nat.add_sub_cancel' bits]
      _ ≤ n * 2 ^ (52 - n.log2) := Nat.mul_le_mul_right _ low
  · calc n * 2 ^ (52 - n.log2) < 2 ^ (n.log2 + 1) * 2 ^ (52 - n.log2) :=
          Nat.mul_lt_mul_of_pos_right high (Nat.two_pow_pos _)
      _ = 2 ^ 53 := by rw [← pow_add]; congr 1; omega
  · have places : (n.log2 : ℤ) - 52 + zeroes + (52 - n.log2 : ℕ) = zeroes := by omega
    push_cast
    rw [mul_assoc,← two_pow_add,places,zpow_natCast]

-- The positive number that a float stands for, apart from the smallest ones.
structure Holds (x : Float) (number : ℚ) (mantissa : ℕ) (exponent : ℤ) : Prop where
  unpacked : ∃ pos, x.toModel.unpack = .finite .positive mantissa exponent pos
  normal : Normal mantissa
  value : mantissa * 2 ^ exponent = number

namespace Holds

theorem of_pack {x : Float} {model : UnpackedFloat} (packed : x.toModel = Float.Model.pack model)
    {mantissa : ℕ} {exponent : ℤ} {pos : 0 < mantissa}
    (finite : model = .finite .positive mantissa exponent pos) (normal : Normal mantissa)
    (least : -1074 ≤ exponent) (most : exponent ≤ 971) :
    Holds x (mantissa * 2 ^ exponent) mantissa exponent := by
  refine ⟨⟨pos,?_⟩,normal,rfl⟩
  rw [packed,finite]
  exact unpack_pack normal least most pos

theorem of_whole {x : Float} {n mantissa zeroes : ℕ} {exponent : ℤ} (some : 0 < n)
    (small : n < 2 ^ 53) (few : zeroes ≤ 64)
    (packed : x.toModel =
      Float.Model.pack (roundWithAccuracy .binary64 .positive mantissa exponent .exact))
    (value : mantissa * 2 ^ exponent = ((n * 2 ^ zeroes : ℕ) : ℚ)) (low : 2 ^ 52 ≤ mantissa)
    (least : -1074 ≤ exponent) : ∃ m e, Holds x (n * 2 ^ zeroes : ℕ) m e := by
  obtain ⟨normal,whole⟩ := whole_normal some small zeroes
  have truncates := truncates_self mantissa exponent
  rw [value] at truncates
  obtain ⟨m,e,pos,finite,_,rounds⟩ := round_normal truncates low least .positive
  obtain ⟨rfl,rfl⟩ := rounds.exact normal whole
  have bits : n.log2 < 53 := (Nat.log2_lt some.ne').mpr small
  exact ⟨_,_,whole ▸ of_pack packed finite normal (by omega) (by omega)⟩

theorem exponent_bounds {x : Float} {n m : ℕ} {e : ℤ} (holds : Holds x n m e) (some : 0 < n)
    (small : n < 2 ^ 64) : -52 ≤ e ∧ e ≤ 11 := by
  have power := two_pow_pos e
  have low : (2 : ℚ) ^ 52 ≤ m := by exact_mod_cast holds.normal.low
  have high : (m : ℚ) < 2 ^ 53 := by exact_mod_cast holds.normal.high
  constructor
  · have least : (1 : ℚ) ≤ m * 2 ^ e := by
      rw [holds.value]
      exact_mod_cast some
    have wide : (2 : ℚ) ^ (0 : ℤ) < 2 ^ (e + (53 : ℕ)) := by
      rw [two_pow_add]
      nlinarith
    have := (zpow_lt_zpow_iff_right₀ (by norm_num)).mp wide
    omega
  · have most : (m : ℚ) * 2 ^ e < 2 ^ 64 := by
      rw [holds.value]
      exact_mod_cast small
    have wide : (2 : ℚ) ^ (e + (52 : ℕ)) < 2 ^ (64 : ℤ) := by
      rw [two_pow_add]
      calc (2 : ℚ) ^ 52 * 2 ^ e ≤ m * 2 ^ e := mul_le_mul_of_nonneg_right low power.le
        _ < 2 ^ (64 : ℤ) := by exact_mod_cast most
    have := (zpow_lt_zpow_iff_right₀ (by norm_num)).mp wide
    omega

end Holds

theorem normalize_nat {n : ℕ} (some : 0 < n) (small : n < 2 ^ 53) :
    UnpackedFloat.normalize .binary64 n 0 .positive = roundWithAccuracy .binary64 .positive
      (n * 2 ^ (52 - n.log2)) ((n.log2 : ℤ) - 52) .exact := by
  have bits : n.log2 < 53 := (Nat.log2_lt some.ne').mpr small
  have positive : compare (n : ℤ) 0 = .gt := compare_gt_iff_gt.mpr (by exact_mod_cast some)
  have target : Format.targetExponent .binary64 (totalExponent n 0) = (n.log2 : ℤ) - 52 := by
    rw [targetExponent_eq,totalExponent]
    omega
  have places : (0 - ((n.log2 : ℤ) - 52)).toNat = 52 - n.log2 := by omega
  have exponent : (0 : ℤ) - (52 - n.log2 : ℕ) = (n.log2 : ℤ) - 52 := by omega
  simp only [UnpackedFloat.normalize,UnpackedFloat.round,positive,Int.toNat_natCast,target,
    decreaseExponent,places,exponent,Nat.shiftLeft_eq]

theorem accuracyOfFraction_exact {part whole : ℕ} :
    accuracyOfFraction part whole = .exact ↔ part = 0 := by
  by_cases none : part = 0 <;> simp [accuracyOfFraction,none]

theorem truncates_fraction (part : ℕ) {whole : ℕ} (some : 0 < whole) (exponent : ℤ) :
    Truncates (part / whole * 2 ^ exponent) (part / whole) exponent
      (accuracyOfFraction (part % whole) whole = .exact) := by
  have power := two_pow_pos exponent
  have positive : (0 : ℚ) < whole := by exact_mod_cast some
  refine ⟨mul_le_mul_of_nonneg_right Nat.cast_div_le power.le,?_,fun inexact => ?_⟩
  · refine mul_lt_mul_of_pos_right ((div_lt_iff₀ positive).mpr ?_) power
    rw [mul_comm]
    exact_mod_cast Nat.lt_mul_div_succ part some
  · refine mul_lt_mul_of_pos_right ((lt_div_iff₀ positive).mpr ?_) power
    rw [accuracyOfFraction_exact,← Nat.dvd_iff_mod_eq_zero,Nat.dvd_iff_div_mul_eq] at inexact
    exact_mod_cast lt_of_le_of_ne (Nat.div_mul_le_self ..) inexact

theorem divCore_truncates {m n : ℕ} (normal : Normal m) (normal' : Normal n) {e f : ℤ}
    (range : -1021 ≤ e - f) :
    ∃ digits accuracy, divCore .binary64 m e n f = (digits,e - f - 53,accuracy) ∧
      Truncates (m * 2 ^ e / (n * 2 ^ f)) digits (e - f - 53) (accuracy = .exact) ∧
      2 ^ 52 ≤ digits := by
  have target : min (e - f) (Format.targetExponent .binary64 (totalExponent m e - totalExponent n f)) =
      e - f - 53 := by
    rw [targetExponent_eq,totalExponent,totalExponent,normal.log2,normal'.log2]
    omega
  have places : (e - f - (e - f - 53)).toNat = 53 := by omega
  obtain ⟨low,high⟩ := normal
  obtain ⟨low',high'⟩ := normal'
  refine ⟨m * 2 ^ 53 / n,accuracyOfFraction (m * 2 ^ 53 % n) n,?_,?_,?_⟩
  · simp only [divCore,target,places,Nat.shiftLeft_eq]
  · have quotient : (m : ℚ) * 2 ^ e / (n * 2 ^ f) = (m * 2 ^ 53 : ℕ) / n * 2 ^ (e - f - 53) := by
      have shift : (2 : ℚ) ^ (53 : ℤ) = 2 ^ 53 := by norm_num
      have power := (two_pow_pos f).ne'
      rw [zpow_sub₀ (by norm_num),zpow_sub₀ (by norm_num),shift]
      push_cast
      field_simp
      norm_num
    rw [quotient]
    exact truncates_fraction _ (by omega) _
  · rw [Nat.le_div_iff_mul_le (by omega)]
    omega

namespace Holds

theorem mul {x y : Float} {a b m n c zeroes : ℕ} {e f : ℤ} (first : Holds x a m e)
    (second : Holds y b n f) (some : 0 < c) (small : c < 2 ^ 53) (few : zeroes ≤ 11)
    (product : a * b = c * 2 ^ zeroes) : ∃ m e, Holds (x * y) (a * b : ℕ) m e := by
  obtain ⟨_,here⟩ := first.unpacked
  obtain ⟨_,there⟩ := second.unpacked
  have positive : 0 < a * b := product ▸ Nat.mul_pos some (Nat.two_pow_pos _)
  have left := Nat.pos_of_mul_pos_right positive
  have right := Nat.pos_of_mul_pos_left positive
  have below : a * b < 2 ^ 64 := by
    calc a * b = c * 2 ^ zeroes := product
      _ < 2 ^ 53 * 2 ^ 11 :=
        Nat.mul_lt_mul_of_lt_of_le small (Nat.pow_le_pow_right (by norm_num) few) (by norm_num)
      _ = 2 ^ 64 := by norm_num
  have bounds := first.exponent_bounds left ((Nat.le_mul_of_pos_right a right).trans_lt below)
  have bounds' := second.exponent_bounds right ((Nat.le_mul_of_pos_left b left).trans_lt below)
  have packed : (x * y).toModel =
      Float.Model.pack (roundWithAccuracy .binary64 .positive (m * n) (e + f) .exact) := by
    change Float.Model.pack (UnpackedFloat.mul .binary64 x.toModel.unpack y.toModel.unpack) = _
    rw [here,there]
    rfl
  rw [product]
  refine of_whole some small (by omega) packed ?_ ?_ (by omega)
  · rw [← product,Nat.cast_mul,Nat.cast_mul,← first.value,← second.value,zpow_add₀ (by norm_num)]
    ring
  · have some' : 0 < n := (Nat.two_pow_pos 52).trans_le second.normal.low
    exact first.normal.low.trans (Nat.le_mul_of_pos_right m some')

theorem one : Holds (Float.ofBits 0x3FF0000000000000) (1 : ℕ) (2 ^ 52) (-52) :=
  ⟨⟨by norm_num,rfl⟩,⟨by norm_num,by norm_num⟩,by norm_num⟩

theorem ofNat {n : ℕ} (some : 0 < n) (small : n < 2 ^ 53) : ∃ m e, Holds (Float.ofNat n) n m e := by
  have same : n.toUInt64.toNat = n := Nat.mod_eq_of_lt (by omega)
  have converted : ∃ m e, Holds n.toUInt64.toFloat n m e := by
    obtain ⟨normal,whole⟩ := whole_normal some small 0
    rw [Nat.cast_zero,add_zero] at whole
    have made := of_whole (x := n.toUInt64.toFloat) some small (by norm_num) ?_ whole normal.low (by omega)
    · simpa using made
    · change Float.Model.pack
        (UnpackedFloat.normalize .binary64 (n.toUInt64.toNat : ℤ) 0 .positive) = _
      rw [same,normalize_nat some small]
  obtain ⟨m,e,holds⟩ := converted
  have product : Float.ofNat n = n.toUInt64.toFloat * Float.ofBits 0x3FF0000000000000 :=
    dif_pos ⟨small,by norm_num⟩
  have made := holds.mul one some small (by norm_num : 0 ≤ 11) (by simp)
  rw [product]
  simpa using made

variable {x y z : Float}

theorem position {number : ℚ} {m : ℕ} {e : ℤ} (holds : Holds x number m e) :
    position x = some (toLex (1,key m e)) := by
  obtain ⟨pos,unpacked⟩ := holds.unpacked
  rw [Binary64.position,unpacked]
  rfl

theorem nonneg {number : ℚ} {m : ℕ} {e : ℤ} (holds : Holds x number m e) :
    Scalar.le (Scalar.ofNat 0) x := by
  have zero : Binary64.position (Scalar.ofNat 0) = some (toLex (0,toLex (0,0))) := rfl
  refine le_iff.mpr ⟨_,_,zero,holds.position,?_⟩
  rw [Prod.Lex.toLex_le_toLex]
  exact .inl zero_lt_one

theorem le {number other : ℚ} {m n : ℕ} {e f : ℤ} (holds : Holds x number m e)
    (holds' : Holds y other n f) (keys : key m e ≤ key n f) : Scalar.le x y := by
  refine le_iff.mpr ⟨_,_,holds.position,holds'.position,?_⟩
  rw [Prod.Lex.toLex_le_toLex]
  exact .inr ⟨rfl,keys⟩

theorem zero_div {number : ℚ} {m : ℕ} {e : ℤ} (zero : x.toModel.unpack = .zero .positive)
    (holds : Holds y number m e) : x / y = Float.ofNat 0 := by
  obtain ⟨_,there⟩ := holds.unpacked
  change Float.ofModel (Float.Model.pack
    (UnpackedFloat.div .binary64 x.toModel.unpack y.toModel.unpack)) = _
  rw [zero,there]
  rfl

theorem div_le {a b c m n k : ℕ} {e f g : ℤ} (first : Holds x a m e) (second : Holds y b n f)
    (bound : Holds z c k g) (some : 0 < a) (small : a < 2 ^ 64) (positive : 0 < b)
    (small' : b < 2 ^ 64) (positive' : 0 < c) (small'' : c < 2 ^ 64) (less : a ≤ c * b) :
    Scalar.le (Scalar.ofNat 0) (x / y) ∧ Scalar.le (x / y) z := by
  obtain ⟨_,here⟩ := first.unpacked
  obtain ⟨_,there⟩ := second.unpacked
  have bounds := first.exponent_bounds some small
  have bounds' := second.exponent_bounds positive small'
  have bounds'' := bound.exponent_bounds positive' small''
  obtain ⟨digits,accuracy,core,truncates,low⟩ :=
    divCore_truncates first.normal second.normal (by omega : -1021 ≤ e - f)
  obtain ⟨_,_,_,finite,least,rounds⟩ := round_normal truncates low (by omega) .positive
  have packed : (x / y).toModel =
      Float.Model.pack (roundWithAccuracy .binary64 .positive digits (e - f - 53) accuracy) := by
    change Float.Model.pack (UnpackedFloat.div .binary64 x.toModel.unpack y.toModel.unpack) = _
    rw [here,there,UnpackedFloat.div,core]
    rfl
  have keys := by
    refine rounds.upper bound.normal (e := g) ?_
    rw [first.value,second.value,bound.value,div_le_iff₀ (by exact_mod_cast positive)]
    exact_mod_cast less
  have most := key_le_iff.mp keys
  have holds := of_pack packed finite rounds.normal (by omega) (by omega)
  exact ⟨holds.nonneg,holds.le bound keys⟩

end Holds
end JoinTrace.Binary64
