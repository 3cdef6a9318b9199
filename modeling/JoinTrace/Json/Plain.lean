import JoinTrace.Json
import JoinTrace.Text.Decimal

-- One way to print documents and to read them. Its printer takes the shortest digits that a number
-- is read back from; its reader rounds every number to the nearest.
namespace JoinTrace

namespace Json
open Numeral

def shortEscape? : Char → Option Char
  | '"' => some '"'
  | '\\' => some '\\'
  | '\x08' => some 'b'
  | '\t' => some 't'
  | '\n' => some 'n'
  | '\x0c' => some 'f'
  | '\r' => some 'r'
  | _ => none

def escaped (c : Char) : List Char :=
  match shortEscape? c with
  | some mark => ['\\', mark]
  | none =>
    if c.toNat < 0x20 then
      ['\\', 'u', '0', '0', Nat.digitChar (c.toNat/16), Nat.digitChar (c.toNat%16)]
    else [c]

def quote (value : String) : String :=
  "\"" ++ String.ofList (value.toList.flatMap escaped) ++ "\""

def scaled (number : Decimal) : String :=
  let digits := (toString number.digits).toList
  let point : Int := digits.length + number.exponent
  if 0 ≤ number.exponent ∧ point ≤ 16 then number.text ++ ".0"
  else if -5 < point ∧ point ≤ 16 then number.text
  else
    let fraction := if digits.length = 1 then [] else '.' :: digits.drop 1
    String.ofList (digits.take 1 ++ fraction) ++ "e" ++ toString (point-1)

def realText (value : Float) : String :=
  if value.isFinite then
    let size := if value == 0 then "0.0" else scaled (Binary64.shortest (Binary64.magnitude value))
    if Binary64.isNegative value then "-" ++ size else size
  else "null"

mutual
def render : Json → String
  | .null => "null"
  | .bool value => if value then "true" else "false"
  | .int value => toString value
  | .real value => realText value
  | .text value => quote value
  | .list items => "[" ++ renderItems items ++ "]"
  | .object fields => "\x7b" ++ renderFields fields ++ "\x7d"

def renderItems : List Json → String
  | [] => ""
  | [item] => item.render
  | item :: rest => item.render ++ "," ++ renderItems rest

def renderFields : List (String × Json) → String
  | [] => ""
  | [(name,value)] => quote name ++ ":" ++ value.render
  | (name,value) :: rest => quote name ++ ":" ++ value.render ++ "," ++ renderFields rest
end

def isBlank (c : Char) : Bool := c == ' ' || c == '\t' || c == '\n' || c == '\r'

def skipBlank (cs : List Char) : List Char := cs.dropWhile isBlank

def simpleEscape? : Char → Option Char
  | '"' => some '"'
  | '\\' => some '\\'
  | '/' => some '/'
  | 'b' => some '\x08'
  | 'f' => some '\x0c'
  | 'n' => some '\n'
  | 'r' => some '\r'
  | 't' => some '\t'
  | _ => none

def units : List Char → List Nat → Option (List Nat × List Char)
  | '"' :: rest,found => some (found.reverse,rest)
  | '\\' :: 'u' :: a :: b :: c :: d :: rest,found =>
    if [a, b, c, d].all (isDigitOf 16) then units rest (value 16 [a, b, c, d] :: found) else none
  | '\\' :: c :: rest,found =>
    match simpleEscape? c with
    | some plain => units rest (plain.toNat :: found)
    | none => none
  | c :: rest,found => if c.toNat < 0x20 then none else units rest (c.toNat :: found)
  | [],_ => none

def characters : List Nat → Option (List Char)
  | [] => some []
  | high :: low :: rest =>
    if 0xD800 ≤ high ∧ high < 0xDC00 ∧ 0xDC00 ≤ low ∧ low < 0xE000 then
      (characters rest).map (Char.ofNat (0x10000 + (high - 0xD800)*0x400 + (low - 0xDC00)) :: ·)
    else if 0xD800 ≤ high ∧ high < 0xE000 then none
    else (characters (low :: rest)).map (Char.ofNat high :: ·)
  | [unit] => if 0xD800 ≤ unit ∧ unit < 0xE000 then none else some [Char.ofNat unit]

def readText (cs : List Char) : Option (String × List Char) :=
  match units cs [] with
  | none => none
  | some (found,rest) => (characters found).map fun text => (String.ofList text,rest)

def takeDigits (cs : List Char) : List Char × List Char :=
  (cs.takeWhile Char.isDigit,cs.dropWhile Char.isDigit)

def readFraction : List Char → Option (Option (List Char) × List Char)
  | '.' :: rest =>
    let (digits,rest) := takeDigits rest
    if digits.isEmpty then none else some (some digits,rest)
  | rest => some (none,rest)

def readExponent : List Char → Option (Option Int × List Char)
  | c :: rest =>
    if c = 'e' ∨ c = 'E' then
      let (negative,rest) := match rest with
        | '-' :: rest => (true,rest)
        | '+' :: rest => (false,rest)
        | rest => (false,rest)
      let (digits,rest) := takeDigits rest
      let size : Int := value 10 digits
      if digits.isEmpty then none else some (some (if negative then -size else size),rest)
    else some (none,c :: rest)
  | [] => some (none,[])

-- A number without fraction and exponent is an integer, save for the negative zero.
def readNumber (cs : List Char) : Option (Json × List Char) := do
  let (negative,cs) := match cs with
    | '-' :: rest => (true,rest)
    | rest => (false,rest)
  let (whole,cs) := takeDigits cs
  if whole.isEmpty || (whole.length > 1 && whole.head? == some '0') then none
  else
    let (fraction,cs) ← readFraction cs
    let (exponent,cs) ← readExponent cs
    if fraction.isNone && exponent.isNone && !(negative && value 10 whole == 0) then
      let size : Int := value 10 whole
      return (.int (if negative then -size else size),cs)
    else
      let size := (decimal whole (fraction.getD []) (exponent.getD 0)).toFloat
      if size.isFinite then return (.real (signed negative size),cs) else none

def putField (name : String) (value : Json) : List (String × Json) → List (String × Json)
  | [] => [(name,value)]
  | (found,held) :: rest =>
    if found = name then (found,value) :: rest else (found,held) :: putField name value rest

-- Every call reads at least one character before it calls on, so twice the length is enough fuel.
mutual
def readValue : Nat → List Char → Option (Json × List Char)
  | 0,_ => none
  | fuel+1,cs =>
    match skipBlank cs with
    | 'n' :: 'u' :: 'l' :: 'l' :: rest => some (.null,rest)
    | 't' :: 'r' :: 'u' :: 'e' :: rest => some (.bool true,rest)
    | 'f' :: 'a' :: 'l' :: 's' :: 'e' :: rest => some (.bool false,rest)
    | '"' :: rest => (readText rest).map fun found => (.text found.1,found.2)
    | '[' :: rest =>
      match skipBlank rest with
      | ']' :: rest => some (.list [],rest)
      | rest => (readItems fuel rest []).map fun found => (.list found.1,found.2)
    | '{' :: rest =>
      match skipBlank rest with
      | '}' :: rest => some (.object [],rest)
      | rest => (readFields fuel rest []).map fun found => (.object found.1,found.2)
    | rest => readNumber rest

def readItems : Nat → List Char → List Json → Option (List Json × List Char)
  | 0,_,_ => none
  | fuel+1,cs,found =>
    match readValue fuel cs with
    | none => none
    | some (item,rest) =>
      match skipBlank rest with
      | ',' :: rest => readItems fuel rest (item :: found)
      | ']' :: rest => some ((item :: found).reverse,rest)
      | _ => none

def readFields : Nat → List Char → List (String × Json) → Option (List (String × Json) × List Char)
  | 0,_,_ => none
  | fuel+1,cs,found =>
    match skipBlank cs with
    | '"' :: rest =>
      match readText rest with
      | none => none
      | some (name,rest) =>
        match skipBlank rest with
        | ':' :: rest =>
          match readValue fuel rest with
          | none => none
          | some (item,rest) =>
            match skipBlank rest with
            | ',' :: rest => readFields fuel rest (putField name item found)
            | '}' :: rest => some (putField name item found,rest)
            | _ => none
        | _ => none
    | _ => none
end

def read? (source : String) : Option Json :=
  let cs := source.toList
  match readValue (2*cs.length + 2) cs with
  | some (found,rest) => if (skipBlank rest).isEmpty then some found else none
  | none => none

end Json

def JsonText.plain : JsonText := ⟨Json.render,Json.read?⟩

end JoinTrace
