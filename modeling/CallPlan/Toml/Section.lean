/-
Tables of a TOML document while it is read.

A table remembers how it came to be, because that decides what may still be added to it: a table with a header of its
own is written once, a table that dotted keys made is extended by dotted keys only, and a table that is merely implied
by a longer header may still get its own header. An array of tables is reached through its last element.
-/
import CallPlan.Toml.Value

namespace CallPlan.Toml

/-- how a table came to be -/
inductive Origin where
  /-- by a header of its own, or as the document itself -/
  | header
  /-- as a parent in a longer header -/
  | implied
  /-- by a dotted key -/
  | dotted
deriving DecidableEq, Repr

inductive Item where
  | value (v : Value)
  | table (origin : Origin) (entries : List (String × Item))
  | tables (elements : List (List (String × Item)))

abbrev Entries := List (String × Item)

namespace Entries

def hasKey (es : Entries) (key : String) : Bool := es.any (·.1 == key)

/-- the entries with the item at `key` replaced -/
def replace (es : Entries) (key : String) (item : Item) : Entries :=
  es.map fun e => if e.1 == key then (key, item) else e

def remove (es : Entries) (key : String) : Entries := es.filter (·.1 != key)

/-- edits the table that a path leads to; tables that are missing on the way are made as `made`. A path leads through
tables and last elements of arrays of tables, and a dotted key leads to no table that has a header. -/
def edit {β : Type} (made : Origin) (change : Origin → Entries → Option (β × Entries)) :
    List String → Origin → Entries → Option (β × Entries)
  | [], origin, es => change origin es
  | key :: keys, _, es =>
    match es.lookup key with
    | none => do
      let (b, inner) ← edit made change keys made []
      return (b, es ++ [(key, .table made inner)])
    | some (.value _) => none
    | some (.table origin inner) =>
      if made = .dotted ∧ origin = .header then none
      else do
        let (b, inner) ← edit made change keys origin inner
        return (b, es.replace key (.table origin inner))
    | some (.tables elements) => do
      let (b, last) ← edit made change keys .header (← elements.getLast?)
      return (b, es.replace key (.tables (elements.dropLast ++ [last])))

/-- adds a value under a dotted key whose last part is `key`; the table it goes to has to be made by dotted keys iff
there are other parts -/
def insertValue (path : List String) (key : String) (v : Value) (es : Entries) : Option Entries :=
  let add : Origin → Entries → Option (Unit × Entries) := fun origin es =>
    if (origin == .dotted) == path.isEmpty || es.hasKey key then none else some ((), es ++ [(key, .value v)])
  (edit .dotted add path .header es).map (·.2)

end Entries

mutual

/-- the value that an item has become -/
def Item.toValue : Item → Value
  | .value v => v
  | .table _ entries => .table (Item.entriesToValues entries)
  | .tables elements => .array (Item.elementsToValues elements)

def Item.entriesToValues : List (String × Item) → List (String × Value)
  | [] => []
  | (key, item) :: es => (key, item.toValue) :: Item.entriesToValues es

def Item.elementsToValues : List (List (String × Item)) → List Value
  | [] => []
  | es :: rest => .table (Item.entriesToValues es) :: Item.elementsToValues rest

end

/-! ## The document -/

/-- a document up to some line -/
structure Draft where
  /-- all tables but the open one -/
  root : Entries
  /-- the table that key lines go to -/
  current : Entries
  /-- the header of the open table; empty for the document itself -/
  header : List String
  /-- whether the header is that of an array of tables -/
  isElement : Bool

namespace Draft

def empty : Draft := ⟨[], [], [], false⟩

def insertValue (d : Draft) (path : List String) (key : String) (v : Value) : Option Draft :=
  return { d with current := ← d.current.insertValue path key v }

/-- the tables with the open one put in its place -/
def close (d : Draft) : Option Entries :=
  match d.header.getLast? with
  | none => some d.current
  | some key =>
    let put : Origin → Entries → Option (Unit × Entries) := fun _ es =>
      match es.lookup key with
      | none => some ((), es ++ [(key, if d.isElement then .tables [d.current] else .table .header d.current)])
      | some (.tables elements) =>
        if d.isElement then some ((), es.replace key (.tables (elements ++ [d.current]))) else none
      | some _ => none
    (d.root.edit .implied put d.header.dropLast .header).map (·.2)

/-- opens a table by its header; it may have been implied before, and then keeps what it holds but not its place -/
def openTable (d : Draft) (header : List String) : Option Draft := do
  let root ← d.close
  let key ← header.getLast?
  let take : Origin → Entries → Option (Entries × Entries) := fun _ es =>
    match es.lookup key with
    | none => some ([], es)
    | some (.table .implied inner) => some (inner, es.remove key)
    | some _ => none
  let (current, root) ← root.edit .implied take header.dropLast .header
  return ⟨root, current, header, false⟩

/-- opens a new element of an array of tables by its header -/
def openElement (d : Draft) (header : List String) : Option Draft := do
  let root ← d.close
  let key ← header.getLast?
  let reserve : Origin → Entries → Option (Unit × Entries) := fun _ es =>
    match es.lookup key with
    | none => some ((), es ++ [(key, .tables [])])
    | some (.tables _) => some ((), es)
    | some _ => none
  let (_, root) ← root.edit .implied reserve header.dropLast .header
  return ⟨root, [], header, true⟩

end Draft

end CallPlan.Toml
