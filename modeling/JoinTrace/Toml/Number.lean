import JoinTrace.Text.Decimal
import JoinTrace.Toml

namespace JoinTrace.Toml
open Numeral

def moreDigits (base : Nat) : List Char → List Char → Option (List Char × List Char)
  | '_' :: c :: rest,found => if isDigitOf base c then moreDigits base rest (c :: found) else none
  | ['_'],_ => none
  | c :: rest,found =>
    if isDigitOf base c then moreDigits base rest (c :: found) else some (found.reverse,c :: rest)
  | [],found => some (found.reverse,[])

def digits? (base : Nat) : List Char → Option (List Char × List Char)
  | c :: rest => if isDigitOf base c then moreDigits base rest [c] else none
  | [] => none

-- A number does not go on after a leading zero.
def whole? : List Char → Option (List Char × List Char)
  | '0' :: rest => some (['0'],rest)
  | cs => digits? 10 cs

def sign : List Char → Option Bool × List Char
  | '-' :: rest => (some true,rest)
  | '+' :: rest => (some false,rest)
  | rest => (none,rest)

def int? (negative : Bool) (size : Nat) : Option Item :=
  let number : Int := if negative then -size else size
  if -9223372036854775808 ≤ number ∧ number ≤ 9223372036854775807 then some (.int number) else none

def fraction? : List Char → Option (Option (List Char) × List Char)
  | '.' :: rest => (digits? 10 rest).map fun found => (some found.1,found.2)
  | rest => some (none,rest)

def exponent? : List Char → Option (Option Int × List Char)
  | [] => some (none,[])
  | c :: rest =>
    if c = 'e' ∨ c = 'E' then
      let (negative,rest) := sign rest
      (digits? 10 rest).map fun found =>
        let size : Int := value 10 found.1
        (some (if negative = some true then -size else size),found.2)
    else some (none,c :: rest)

-- Above the range a number is refused; below the negative range it is minus infinity.
def float? (negative : Bool) (number : Decimal) : Option Item :=
  let size := number.toFloat
  if size.isInf && !negative then none else some (.float (signed negative size))

def decimal? (negative : Bool) (cs : List Char) : Option (Item × List Char) := do
  let (whole,cs) ← whole? cs
  let (fraction,cs) ← fraction? cs
  let (exponent,cs) ← exponent? cs
  if fraction.isNone && exponent.isNone then return (← int? negative (value 10 whole),cs)
  else return (← float? negative (decimal whole (fraction.getD []) (exponent.getD 0)),cs)

def based? (base : Nat) (cs : List Char) : Option (Item × List Char) := do
  let (digits,cs) ← digits? base cs
  return (← int? false (value base digits),cs)

def number? (cs : List Char) : Option (Item × List Char) :=
  let (mark,rest) := sign cs
  let negative := mark = some true
  match rest with
  | 'i' :: 'n' :: 'f' :: rest => some (.float (signed negative (1.0/0.0)),rest)
  | 'n' :: 'a' :: 'n' :: rest => some (.float (0.0/0.0),rest)
  | '0' :: 'x' :: digits => if mark.isNone then based? 16 digits else decimal? negative rest
  | '0' :: 'o' :: digits => if mark.isNone then based? 8 digits else decimal? negative rest
  | '0' :: 'b' :: digits => if mark.isNone then based? 2 digits else decimal? negative rest
  | _ => decimal? negative rest

def pair? (low high : Nat) : List Char → Option (Nat × List Char)
  | a :: b :: rest =>
    let number := value 10 [a, b]
    if a.isDigit ∧ b.isDigit ∧ low ≤ number ∧ number ≤ high then some (number,rest) else none
  | _ => none

def expect? (mark : Char) : List Char → Option (List Char)
  | c :: rest => if c = mark then some rest else none
  | [] => none

def isLeap (year : Nat) : Bool := year % 4 == 0 && (year % 100 != 0 || year % 400 == 0)

def monthLength (year month : Nat) : Nat :=
  if month = 2 then (if isLeap year then 29 else 28)
  else if month = 4 ∨ month = 6 ∨ month = 9 ∨ month = 11 then 30
  else 31

def date? : List Char → Option (List Char)
  | a :: b :: c :: d :: '-' :: rest => do
    if [a, b, c, d].all Char.isDigit then
      let (month,rest) ← pair? 1 12 rest
      let rest ← expect? '-' rest
      let (_,rest) ← pair? 1 (monthLength (value 10 [a, b, c, d]) month) rest
      return rest
    else none
  | _ => none

def secondFraction : List Char → List Char
  | '.' :: c :: rest => if c.isDigit then rest.dropWhile Char.isDigit else '.' :: c :: rest
  | rest => rest

def clock? (cs : List Char) : Option (List Char) := do
  let (_,cs) ← pair? 0 23 cs
  let cs ← expect? ':' cs
  let (_,cs) ← pair? 0 59 cs
  let cs ← expect? ':' cs
  let (_,cs) ← pair? 0 60 cs
  return secondFraction cs

def offset? : List Char → Option (List Char)
  | c :: rest =>
    if c = 'Z' ∨ c = 'z' then some rest
    else if c = '+' ∨ c = '-' then do
      let (_,rest) ← pair? 0 23 rest
      let rest ← expect? ':' rest
      let (_,rest) ← pair? 0 59 rest
      return rest
    else none
  | [] => none

def timeEnd? (cs : List Char) : Option (List Char) :=
  match date? cs with
  | some (c :: rest) =>
    if c = 'T' ∨ c = 't' ∨ c = ' ' then
      match clock? rest with
      | some rest => some ((offset? rest).getD rest)
      | none => some (c :: rest)
    else some (c :: rest)
  | some [] => some []
  | none => clock? cs

def timeOrNumber? (cs : List Char) : Option (Item × List Char) :=
  match timeEnd? cs with
  | some rest => some (.time (String.ofList (cs.take (cs.length - rest.length))),rest)
  | none => number? cs

end JoinTrace.Toml
