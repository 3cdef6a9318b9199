namespace JoinTrace.Toml

-- How a table came to be, which decides who may add to it later: a header owns its table, a table
-- implied by a longer header may still get its own, one made by dotted keys is open to further
-- dotted keys, and an inline table is closed.
inductive Origin where
  | header | implied | dotted | inline
  deriving DecidableEq

inductive Item where
  | text (value : String)
  | int (value : Int)
  | float (value : Float)
  | bool (value : Bool)
  | time (written : String)
  | list (items : List Item)
  | table (origin : Origin) (fields : List (String × Item))
  | tables (elements : List (List (String × Item)))

abbrev Fields := List (String × Item)

structure Binding where
  path : List String
  key : String
  item : Item

inductive Header where
  | root
  | table (path : List String) (key : String)
  | element (path : List String) (key : String)

structure Section where
  header : Header
  bindings : List Binding

def put (key : String) (item : Item) : Fields → Fields
  | [] => [(key,item)]
  | (found,held) :: rest =>
    if found = key then (found,item) :: rest else (found,held) :: put key item rest

-- Lets `change` make new fields of the table at `path`. Tables missing on the way are made, of
-- origin `fresh`; of an array of tables the last element is meant. Dotted keys enter only tables
-- without a header of their own, and nothing enters an inline table.
def updateAt (fresh : Origin) (change : Origin → Fields → Option Fields) :
    List String → Origin → Fields → Option Fields
  | [],origin,fields => change origin fields
  | key :: path,_,fields =>
    match fields.lookup key with
    | none => (updateAt fresh change path fresh []).map fun inner => put key (.table fresh inner) fields
    | some (.table origin inner) =>
      if origin = .inline ∨ (fresh = .dotted ∧ origin = .header) then none
      else (updateAt fresh change path origin inner).map fun inner =>
        put key (.table origin inner) fields
    | some (.tables elements) =>
      match elements.getLast? with
      | none => none
      | some last => (updateAt fresh change path .header last).map fun last =>
        put key (.tables (elements.dropLast ++ [last])) fields
    | some _ => none

def addNew (key : String) (item : Item) (fields : Fields) : Option Fields :=
  if (fields.lookup key).isSome then none else some (put key item fields)

def bind (fields : Fields) (binding : Binding) : Option Fields :=
  updateAt .dotted (fun origin inner =>
    if !binding.path.isEmpty && origin != .dotted then none
    else addNew binding.key binding.item inner) binding.path .header fields

def bindAll (bindings : List Binding) (fields : Fields) : Option Fields :=
  bindings.foldlM bind fields

def addSection (document : Fields) (part : Section) : Option Fields :=
  match part.header with
  | .root => bindAll part.bindings document
  | .table path key =>
    updateAt .implied (fun _ parent =>
      match parent.lookup key with
      | none => (bindAll part.bindings []).map fun inner => put key (.table .header inner) parent
      | some (.table .implied held) =>
        (bindAll part.bindings held).map fun inner => put key (.table .header inner) parent
      | some _ => none) path .header document
  | .element path key =>
    updateAt .implied (fun _ parent =>
      match parent.lookup key with
      | none => (bindAll part.bindings []).map fun inner => put key (.tables [inner]) parent
      | some (.tables elements) =>
        (bindAll part.bindings []).map fun inner => put key (.tables (elements ++ [inner])) parent
      | some _ => none) path .header document

def ofSections (sections : List Section) : Option Fields := sections.foldlM addSection []

end JoinTrace.Toml
