import JoinTrace.ConfigFile
import JoinTrace.Toml.Number
import JoinTrace.Toml.Text

namespace JoinTrace.Toml

def depthLimit : Nat := 80

def isBareKey (c : Char) : Bool := c.isAlphanum || c == '-' || c == '_'

def simpleKey? : List Char → Option (String × List Char)
  | '"' :: rest => basic rest []
  | '\'' :: rest => literal rest []
  | cs =>
    let bare := cs.takeWhile isBareKey
    if bare.isEmpty then none else some (String.ofList bare,cs.dropWhile isBareKey)

def keyParts? : Nat → List Char → List String → Option (List String × List Char)
  | 0,_,_ => none
  | fuel+1,cs,found =>
    match simpleKey? (skipSpace cs) with
    | none => none
    | some (part,rest) =>
      match skipSpace rest with
      | '.' :: rest => keyParts? fuel rest (part :: found)
      | rest => some (part :: found,rest)

def key? (cs : List Char) : Option ((List String × String) × List Char) :=
  match keyParts? (cs.length+1) cs [] with
  | some (last :: path,rest) =>
    if path.length+1 < depthLimit then some ((path.reverse,last),rest) else none
  | _ => none

def skipComment : List Char → List Char
  | '#' :: rest => rest.dropWhile isPlain
  | cs => cs

def lineEnd? (cs : List Char) : Option (List Char) :=
  match skipComment (skipSpace cs) with
  | [] => some []
  | cs => newline? cs

-- Blank space, line ends and comments, as they may stand between the values of a list. A comment
-- that no line end closes is left to the reader of what should follow.
def skipLines : Nat → List Char → List Char
  | 0,cs => cs
  | fuel+1,cs =>
    let cs := skipSpace cs
    match newline? (skipComment cs) with
    | some rest => skipLines fuel rest
    | none => cs

def skipBetween (cs : List Char) : List Char := skipLines (cs.length+1) cs

-- A value, within `depth` more levels of nesting. Every call reads at least one character before
-- it calls on, so twice the length of the source is enough fuel.
mutual
def value? : Nat → Nat → List Char → Option (Item × List Char)
  | 0,_,_ => none
  | fuel+1,depth,cs =>
    match cs with
    | '"' :: _ => (readText cs).map fun found => (.text found.1,found.2)
    | '\'' :: _ => (readText cs).map fun found => (.text found.1,found.2)
    | '[' :: rest =>
      match depth with
      | 0 => none
      | depth+1 => (items? fuel depth rest []).map fun found => (.list found.1,found.2)
    | '{' :: rest =>
      match depth with
      | 0 => none
      | depth+1 =>
        match skipSpace rest with
        | '}' :: rest => some (.table .inline [],rest)
        | rest => (bindings? fuel depth rest []).map fun found => (.table .inline found.1,found.2)
    | 't' :: 'r' :: 'u' :: 'e' :: rest => some (.bool true,rest)
    | 'f' :: 'a' :: 'l' :: 's' :: 'e' :: rest => some (.bool false,rest)
    | cs => timeOrNumber? cs

def items? : Nat → Nat → List Char → List Item → Option (List Item × List Char)
  | 0,_,_,_ => none
  | fuel+1,depth,cs,found =>
    match skipBetween cs with
    | ']' :: rest => some (found.reverse,rest)
    | cs =>
      match value? fuel depth cs with
      | none => none
      | some (item,rest) =>
        match skipBetween rest with
        | ',' :: rest => items? fuel depth rest (item :: found)
        | ']' :: rest => some ((item :: found).reverse,rest)
        | _ => none

def bindings? : Nat → Nat → List Char → Fields → Option (Fields × List Char)
  | 0,_,_,_ => none
  | fuel+1,depth,cs,found =>
    match key? cs with
    | some ((path,key),'=' :: rest) =>
      match value? fuel depth (skipSpace rest) with
      | none => none
      | some (item,rest) =>
        match bind found ⟨path,key,item⟩ with
        | none => none
        | some found =>
          match skipSpace rest with
          | ',' :: rest => bindings? fuel depth rest found
          | '}' :: rest => some (found,rest)
          | _ => none
    | _ => none
end

def binding? (cs : List Char) : Option (Binding × List Char) := do
  match key? cs with
  | some ((path,key),'=' :: rest) =>
    let (item,rest) ← value? (2*rest.length + 2) (depthLimit-1) (skipSpace rest)
    return (⟨path,key,item⟩,← lineEnd? rest)
  | _ => none

def header? : List Char → Option (Header × List Char)
  | '[' :: '[' :: rest => do
    let ((path,key),rest) ← key? rest
    match rest with
    | ']' :: ']' :: rest => return (.element path key,← lineEnd? rest)
    | _ => none
  | '[' :: rest => do
    let ((path,key),rest) ← key? rest
    match rest with
    | ']' :: rest => return (.table path key,← lineEnd? rest)
    | _ => none
  | _ => none

-- Line by line. The section in progress is the head of `found`, its bindings latest first.
def sections? : Nat → List Char → Header → List Binding → List Section → Option (List Section)
  | 0,_,_,_,_ => none
  | fuel+1,cs,header,bindings,found =>
    let current : List Section := ⟨header,bindings.reverse⟩ :: found
    match skipSpace cs with
    | [] => some current.reverse
    | '[' :: rest =>
      match header? ('[' :: rest) with
      | none => none
      | some (next,rest) => sections? fuel rest next [] current
    | cs =>
      match lineEnd? cs with
      | some rest => sections? fuel rest header bindings found
      | none =>
        match binding? cs with
        | none => none
        | some (binding,rest) => sections? fuel rest header (binding :: bindings) found

def skipByteOrderMark : List Char → List Char
  | '\ufeff' :: rest => rest
  | cs => cs

mutual
def Item.content : Item → TomlValue
  | .text value => .text value
  | .int value => .int value
  | .float value => .float value
  | .bool value => .bool value
  | .time written => .time written
  | .list items => .list (contents items)
  | .table _ fields => .table (fieldContents fields)
  | .tables elements => .list (elementContents elements)

def contents : List Item → List TomlValue
  | [] => []
  | item :: rest => item.content :: contents rest

def fieldContents : Fields → List (String × TomlValue)
  | [] => []
  | (key,item) :: rest => (key,item.content) :: fieldContents rest

def elementContents : List Fields → List TomlValue
  | [] => []
  | fields :: rest => .table (fieldContents fields) :: elementContents rest
end

def read? : TomlReader := fun source =>
  let cs := skipByteOrderMark source.toList
  ((sections? (cs.length+1) cs .root [] []).bind ofSections).map fieldContents

end JoinTrace.Toml
