import JoinTrace.Text.Decimal

namespace JoinTrace.Toml
open Numeral

def isSpace (c : Char) : Bool := c == ' ' || c == '\t'

def skipSpace (cs : List Char) : List Char := cs.dropWhile isSpace

def isPlain (c : Char) : Bool := c == '\t' || (0x20 ≤ c.toNat && c.toNat != 0x7f)

-- A carriage return counts only before a line feed.
def newline? : List Char → Option (List Char)
  | '\n' :: rest => some rest
  | '\r' :: '\n' :: rest => some rest
  | _ => none

def skipNewline (cs : List Char) : List Char := (newline? cs).getD cs

def escape? : Char → Option Char
  | 'b' => some '\x08'
  | 'f' => some '\x0c'
  | 'n' => some '\n'
  | 'r' => some '\r'
  | 't' => some '\t'
  | '"' => some '"'
  | '\\' => some '\\'
  | _ => none

def scalar? (digits : List Char) : Option Char :=
  let number := value 16 digits
  if digits.all (isDigitOf 16) ∧ (number < 0xD800 ∨ (0xE000 ≤ number ∧ number < 0x110000)) then
    some (Char.ofNat number)
  else none

def basic : List Char → List Char → Option (String × List Char)
  | '"' :: rest,found => some (String.ofList found.reverse,rest)
  | '\\' :: 'u' :: a :: b :: c :: d :: rest,found =>
    match scalar? [a, b, c, d] with
    | some plain => basic rest (plain :: found)
    | none => none
  | '\\' :: 'U' :: a :: b :: c :: d :: e :: f :: g :: h :: rest,found =>
    match scalar? [a, b, c, d, e, f, g, h] with
    | some plain => basic rest (plain :: found)
    | none => none
  | '\\' :: c :: rest,found =>
    match escape? c with
    | some plain => basic rest (plain :: found)
    | none => none
  | c :: rest,found => if isPlain c then basic rest (c :: found) else none
  | [],_ => none

-- The rest of a text in triple double quotes. Up to two quotes may stand before the closing ones.
-- A backslash at the end of a line removes it with all blank space and line ends that follow:
-- `trimming` is on while they are passed over.
def multilineBasic : List Char → List Char → Bool → Option (String × List Char)
  | '\n' :: rest,found,trimming => multilineBasic rest (if trimming then found else '\n' :: found) trimming
  | '\r' :: '\n' :: rest,found,trimming =>
    multilineBasic rest (if trimming then found else '\n' :: found) trimming
  | '"' :: '"' :: '"' :: '"' :: '"' :: rest,found,_ =>
    some (String.ofList ('"' :: '"' :: found).reverse,rest)
  | '"' :: '"' :: '"' :: '"' :: rest,found,_ => some (String.ofList ('"' :: found).reverse,rest)
  | '"' :: '"' :: '"' :: rest,found,_ => some (String.ofList found.reverse,rest)
  | '\\' :: 'u' :: a :: b :: c :: d :: rest,found,_ =>
    match scalar? [a, b, c, d] with
    | some plain => multilineBasic rest (plain :: found) false
    | none => none
  | '\\' :: 'U' :: a :: b :: c :: d :: e :: f :: g :: h :: rest,found,_ =>
    match scalar? [a, b, c, d, e, f, g, h] with
    | some plain => multilineBasic rest (plain :: found) false
    | none => none
  | '\\' :: c :: rest,found,_ =>
    match escape? c with
    | some plain => multilineBasic rest (plain :: found) false
    | none =>
      if (newline? (skipSpace (c :: rest))).isSome then multilineBasic (c :: rest) found true else none
  | c :: rest,found,trimming =>
    if trimming && isSpace c then multilineBasic rest found true
    else if isPlain c then multilineBasic rest (c :: found) false
    else none
  | [],_,_ => none

def literal : List Char → List Char → Option (String × List Char)
  | '\'' :: rest,found => some (String.ofList found.reverse,rest)
  | c :: rest,found => if isPlain c then literal rest (c :: found) else none
  | [],_ => none

def multilineLiteral : List Char → List Char → Option (String × List Char)
  | '\n' :: rest,found => multilineLiteral rest ('\n' :: found)
  | '\r' :: '\n' :: rest,found => multilineLiteral rest ('\n' :: found)
  | '\'' :: '\'' :: '\'' :: '\'' :: '\'' :: rest,found =>
    some (String.ofList ('\'' :: '\'' :: found).reverse,rest)
  | '\'' :: '\'' :: '\'' :: '\'' :: rest,found => some (String.ofList ('\'' :: found).reverse,rest)
  | '\'' :: '\'' :: '\'' :: rest,found => some (String.ofList found.reverse,rest)
  | c :: rest,found => if isPlain c then multilineLiteral rest (c :: found) else none
  | [],_ => none

def readText : List Char → Option (String × List Char)
  | '"' :: '"' :: '"' :: rest => multilineBasic (skipNewline rest) [] false
  | '"' :: rest => basic rest []
  | '\'' :: '\'' :: '\'' :: rest => multilineLiteral (skipNewline rest) []
  | '\'' :: rest => literal rest []
  | _ => none

end JoinTrace.Toml
