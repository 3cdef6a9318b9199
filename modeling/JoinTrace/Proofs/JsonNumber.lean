import Mathlib.Data.List.TakeWhile
import JoinTrace.Json.Plain

-- The numbers of a document, from their text. What follows a number in a document does not change
-- how it reads, so it is enough to read each number alone.
namespace JoinTrace.Json
open Numeral

def Ends (rest : List Char) : Prop := ∀ c ∈ rest.head?, c = ',' ∨ c = ']' ∨ c = '}'

theorem ends_nil : Ends [] := nofun

theorem ends_cons {c : Char} {rest : List Char} (mark : c = ',' ∨ c = ']' ∨ c = '}') :
    Ends (c :: rest) := by
  intro first same
  cases same
  exact mark

theorem Ends.forms {rest : List Char} (ends : Ends rest) :
    rest = [] ∨ ∃ more, rest = ',' :: more ∨ rest = ']' :: more ∨ rest = '}' :: more := by
  cases rest with
  | nil => exact .inl rfl
  | cons c more => rcases ends c rfl with rfl | rfl | rfl <;> simp

section Append
variable {rest : List Char}

theorem takeDigits_append (ends : Ends rest) (cs : List Char) :
    takeDigits (cs ++ rest) = ((takeDigits cs).1,(takeDigits cs).2 ++ rest) := by
  induction cs with
  | nil => rcases ends.forms with rfl | ⟨more,rfl | rfl | rfl⟩ <;> rfl
  | cons c cs ih =>
    simp only [takeDigits,Prod.mk.injEq] at ih
    cases digit : c.isDigit with
    | true => simp [takeDigits,digit,ih]
    | false => simp [takeDigits,digit]

theorem readFraction_append (ends : Ends rest) (cs : List Char) :
    readFraction (cs ++ rest) = (readFraction cs).map fun found => (found.1,found.2 ++ rest) := by
  unfold readFraction
  cases cs with
  | nil => rcases ends.forms with rfl | ⟨more,rfl | rfl | rfl⟩ <;> rfl
  | cons c cs =>
    by_cases point : c = '.'
    · subst point
      simp only [List.cons_append,takeDigits_append ends]
      split <;> rfl
    · simp [point]

def exponentSign : List Char → Bool × List Char
  | '-' :: rest => (true,rest)
  | '+' :: rest => (false,rest)
  | rest => (false,rest)

theorem exponentSign_append (ends : Ends rest) (cs : List Char) :
    exponentSign (cs ++ rest) = ((exponentSign cs).1,(exponentSign cs).2 ++ rest) := by
  cases cs with
  | nil => rcases ends.forms with rfl | ⟨more,rfl | rfl | rfl⟩ <;> rfl
  | cons c cs =>
    by_cases minus : c = '-'
    · subst minus; rfl
    · by_cases plus : c = '+'
      · subst plus; rfl
      · simp [exponentSign,minus,plus]

theorem readExponent_cons (c : Char) (cs : List Char) : readExponent (c :: cs) =
    if c = 'e' ∨ c = 'E' then
      let (digits,rest) := takeDigits (exponentSign cs).2
      let size : Int := value 10 digits
      if digits.isEmpty then none
      else some (some (if (exponentSign cs).1 then -size else size),rest)
    else some (none,c :: cs) := rfl

theorem readExponent_append (ends : Ends rest) (cs : List Char) :
    readExponent (cs ++ rest) = (readExponent cs).map fun found => (found.1,found.2 ++ rest) := by
  cases cs with
  | nil => rcases ends.forms with rfl | ⟨more,rfl | rfl | rfl⟩ <;> rfl
  | cons c cs =>
    rw [List.cons_append,readExponent_cons,readExponent_cons]
    split
    next mark =>
      simp only [exponentSign_append ends,takeDigits_append ends]
      split <;> rfl
    next => rfl

end Append

def readUnsigned (negative : Bool) (cs : List Char) : Option (Json × List Char) := do
  let (whole,cs) := takeDigits cs
  if whole.isEmpty || (whole.length > 1 && whole.head? == some '0') then none
  else
    let (fraction,cs) ← readFraction cs
    let (exponent,cs) ← readExponent cs
    if fraction.isNone && exponent.isNone && !(negative && value 10 whole == 0) then
      let size : Int := value 10 whole
      return (.int (if negative then -size else size),cs)
    else
      let size := (decimal whole (fraction.getD []) (exponent.getD 0)).toFloat
      if size.isFinite then return (.real (signed negative size),cs) else none

def minusSign : List Char → Bool × List Char
  | '-' :: rest => (true,rest)
  | rest => (false,rest)

theorem readNumber_signed (cs : List Char) :
    readNumber cs = readUnsigned (minusSign cs).1 (minusSign cs).2 := rfl

theorem minusSign_append {rest : List Char} (ends : Ends rest) (cs : List Char) :
    minusSign (cs ++ rest) = ((minusSign cs).1,(minusSign cs).2 ++ rest) := by
  cases cs with
  | nil => rcases ends.forms with rfl | ⟨more,rfl | rfl | rfl⟩ <;> rfl
  | cons c cs =>
    by_cases minus : c = '-'
    · subst minus; rfl
    · simp [minusSign,minus]

theorem readUnsigned_append {rest : List Char} (ends : Ends rest) (negative : Bool) (cs : List Char) :
    readUnsigned negative (cs ++ rest) =
      (readUnsigned negative cs).map fun found => (found.1,found.2 ++ rest) := by
  unfold readUnsigned
  simp only [takeDigits_append ends]
  split
  next => rfl
  next =>
    rw [readFraction_append ends]
    cases readFraction (takeDigits cs).2 with
    | none => rfl
    | some fraction =>
      simp only [Option.map_some,Option.bind_eq_bind,Option.bind_some,readExponent_append ends]
      cases readExponent fraction.2 with
      | none => rfl
      | some exponent =>
        simp only [Option.map_some,Option.bind_some]
        split
        · rfl
        · split <;> rfl

theorem readNumber_append {rest : List Char} (ends : Ends rest) (cs : List Char) :
    readNumber (cs ++ rest) = (readNumber cs).map fun found => (found.1,found.2 ++ rest) := by
  rw [readNumber_signed,readNumber_signed,minusSign_append ends,readUnsigned_append ends]

theorem readNumber_opens {cs rest : List Char} {number : Json}
    (found : readNumber cs = some (number,rest)) :
    ∃ c more, cs = c :: more ∧ (c = '-' ∨ c.isDigit = true) := by
  cases cs with
  | nil => cases found
  | cons c more =>
    refine ⟨c,more,rfl,Decidable.byContradiction fun neither => ?_⟩
    obtain ⟨minus,digit⟩ := not_or.mp neither
    have nothing : takeDigits (c :: more) = ([],c :: more) := by simp [takeDigits,digit]
    have plain : minusSign (c :: more) = (false,c :: more) := by simp [minusSign,minus]
    rw [readNumber_signed,plain,readUnsigned,nothing] at found
    cases found

def Digits (cs : List Char) : Prop := ∀ c ∈ cs, c.isDigit = true

theorem takeDigits_digits {digits : List Char} (all : Digits digits) :
    takeDigits digits = (digits,[]) := by
  have taken := List.takeWhile_eq_self_iff.mpr all
  have dropped := List.dropWhile_eq_nil_iff.mpr all
  rw [takeDigits,taken,dropped]

theorem digitValue_digit {c : Char} (digit : c.isDigit = true) :
    (digitValue? 10 c).getD 0 = c.toNat - '0'.toNat := by
  have bounds := Char.isDigit_iff_toNat.mp digit
  have nine : '9'.toNat = 57 := rfl
  have low : c.toNat - 48 < 10 := by omega
  simp [digitValue?,digit,Option.filter,low]

theorem value_digits {digits : List Char} (all : Digits digits) :
    value 10 digits = Nat.ofDigitChars 10 digits 0 := by
  have folded (total : Nat) :
      digits.foldl (fun total c => total*10 + (digitValue? 10 c).getD 0) total =
        Nat.ofDigitChars 10 digits total := by
    induction digits generalizing total with
    | nil => rfl
    | cons c rest ih =>
      have later : Digits rest := fun other member => all other (List.mem_cons_of_mem _ member)
      rw [List.foldl_cons,digitValue_digit (all c List.mem_cons_self),ih later,
        Nat.ofDigitChars_cons,Nat.mul_comm]
  exact folded 0

theorem digits_toDigits (n : Nat) : Digits (Nat.toDigits 10 n) :=
  fun _ member => Nat.isDigit_of_mem_toDigits (by decide) (by decide) member

theorem value_toDigits (n : Nat) : value 10 (Nat.toDigits 10 n) = n := by
  rw [value_digits (digits_toDigits n),Nat.ofDigitChars_toDigits (by decide) (by decide)]

theorem head_toDigits {n : Nat} (positive : 0 < n) : (Nat.toDigits 10 n).head? ≠ some '0' := by
  induction n using Nat.strongRecOn with
  | ind n ih =>
    by_cases small : n < 10
    · have each : ∀ n < 10, 0 < n → n.digitChar ≠ '0' := by decide
      rw [Nat.toDigits_of_lt_base small]
      simpa using each n small positive
    · have quotient : 0 < n/10 := by omega
      have before := ih (n/10) (by omega) quotient
      rw [Nat.toDigits_of_base_le (by decide) (by omega)]
      cases digits : Nat.toDigits 10 (n/10) with
      | nil => exact absurd digits Nat.toDigits_ne_nil
      | cons first rest =>
        rw [digits] at before
        exact before

theorem toDigits_wellFormed (n : Nat) : ((Nat.toDigits 10 n).isEmpty ||
    ((Nat.toDigits 10 n).length > 1 && (Nat.toDigits 10 n).head? == some '0')) = false := by
  cases n with
  | zero => decide
  | succ n =>
    have head := head_toDigits (Nat.succ_pos n)
    simp [head]

theorem readUnsigned_toDigits (negative : Bool) (n : Nat) (signed : negative = true → 0 < n) :
    readUnsigned negative (Nat.toDigits 10 n) =
      some (.int (if negative then -(n : Int) else n),[]) := by
  have whole : (negative && n == 0) = false := by
    cases negative with
    | false => rfl
    | true =>
      have positive := signed rfl
      simp only [Bool.true_and,beq_eq_false_iff_ne]
      omega
  have plain : readFraction [] = some (none,[]) := rfl
  have bare : readExponent [] = some (none,[]) := rfl
  unfold readUnsigned
  simp only [takeDigits_digits (digits_toDigits n),toDigits_wellFormed,value_toDigits,plain]
  simp [bare,whole]

theorem minusSign_toDigits (n : Nat) : minusSign (Nat.toDigits 10 n) = (false,Nat.toDigits 10 n) := by
  cases digits : Nat.toDigits 10 n with
  | nil => rfl
  | cons c rest =>
    have digit : c.isDigit = true := digits_toDigits n c (by simp [digits])
    have plain : c ≠ '-' := by rintro rfl; exact absurd digit (by decide)
    simp [minusSign,plain]

theorem readNumber_int (value : Int) : readNumber (toString value).toList = some (.int value,[]) := by
  cases value with
  | ofNat n =>
    change readNumber (Nat.repr n).toList = _
    rw [Nat.repr_eq_ofList_toDigits,String.toList_ofList,readNumber_signed,minusSign_toDigits]
    exact readUnsigned_toDigits false n nofun
  | negSucc n =>
    change readNumber ("-" ++ Nat.repr (n+1)).toList = _
    rw [String.toList_append,Nat.repr_eq_ofList_toDigits,String.toList_ofList,String.toList_ofList]
    change readUnsigned true (Nat.toDigits 10 (n+1)) = _
    exact readUnsigned_toDigits true (n+1) fun _ => Nat.succ_pos n

def Legible (value : Float) : Prop := readNumber (realText value).toList = some (.real value,[])

end JoinTrace.Json
