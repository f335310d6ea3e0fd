/-!
# TOML tables

The entries of a table, and the rules by which headers and dotted keys extend tables. Nothing can be
given twice: a table takes a second header only if it arose from the header of a part of it, and
dotted keys extend only tables that dotted keys made.
-/

namespace ObjectQuery.Toml

inductive Origin where
  /-- From the header of a table inside it. -/
  | implied
  /-- From its own header. -/
  | header
  /-- From a dotted key. -/
  | dotted
  deriving DecidableEq

/-- What a key stands for. Strings and integers are kept; of other scalars, arrays and inline tables
only their presence matters. -/
inductive Item where
  | string (text : String)
  | integer (value : Int)
  | present
  | table (origin : Origin) (entries : List (String × Item))
  /-- A list of tables, given by the entries of the last one. -/
  | tables (last : List (String × Item))

/-- The entries of a table, with distinct keys. -/
abbrev Entries := List (String × Item)

namespace Entries

def set (key : String) (item : Item) : Entries → Entries
  | [] => [(key, item)]
  | (other, kept) :: rest =>
      if key = other then (key, item) :: rest else (other, kept) :: set key item rest

/-- Changes the table that a path of keys leads to. A missing table arises with the given origin; in
a list of tables the last one is meant. -/
def descend (origin : Origin) (extend : Item → Bool) (change : Item → Option Item) :
    List String → Item → Option Item
  | [], item => change item
  | key :: rest, item =>
      let go (entries : Entries) : Option Entries :=
        let child := (entries.lookup key).getD (.table origin [])
        if extend child then
          (descend origin extend change rest child).map fun child => set key child entries
        else none
      match item with
      | .table kind entries => (go entries).map (.table kind)
      | .tables last => (go last).map .tables
      | _ => none

def addValue (key : String) (value : Item) : Item → Option Item
  | .table kind entries =>
      if (entries.lookup key).isNone then some (.table kind (set key value entries)) else none
  | .tables last =>
      if (last.lookup key).isNone then some (.tables (set key value last)) else none
  | _ => none

/-- Adds a value under a dotted key. All but the last of its parts name tables, of which none may
have a header and the last must come from dotted keys. -/
def addDotted (keys : List String) (value : Item) (item : Item) : Option Item :=
  match keys.reverse with
  | [] => none
  | [key] => addValue key value item
  | key :: before =>
      let open? (child : Item) : Bool :=
        match child with
        | .table .header _ => false
        | _ => true
      let change (parent : Item) : Option Item :=
        match parent with
        | .table .dotted _ => addValue key value parent
        | _ => none
      descend .dotted open? change before.reverse item

def addTable (keys : List String) (root : Item) : Option Item :=
  match keys.reverse with
  | [] => none
  | key :: before =>
      let change (parent : Item) : Option Item :=
        let add (entries : Entries) : Option Entries :=
          match entries.lookup key with
          | none => some (set key (.table .header []) entries)
          | some (.table .implied inner) => some (set key (.table .header inner) entries)
          | some _ => none
        match parent with
        | .table kind entries => (add entries).map (.table kind)
        | .tables last => (add last).map .tables
        | _ => none
      descend .implied (fun _ => true) change before.reverse root

def addToList (keys : List String) (root : Item) : Option Item :=
  match keys.reverse with
  | [] => none
  | key :: before =>
      let change (parent : Item) : Option Item :=
        let add (entries : Entries) : Option Entries :=
          match entries.lookup key with
          | none => some (set key (.tables []) entries)
          | some (.tables _) => some (set key (.tables []) entries)
          | some _ => none
        match parent with
        | .table kind entries => (add entries).map (.table kind)
        | .tables last => (add last).map .tables
        | _ => none
      descend .implied (fun _ => true) change before.reverse root

end Entries

end ObjectQuery.Toml
