import Conformance.Value.Items
import Conformance.Value.Mapping

/-!
# Entries from values

What a mapping is filled with: the entries of another mapping, the columns of a table under their
labels, or items of two items each, the key and the value.

## Main definitions

* `Value.columnsAt` — the columns of a table under a label
* `Value.toEntries` — the entries that a value stands for
-/

namespace Conformance.Value

/-- The columns of a table under a label. -/
def columnsAt (columns : List Value) (label : Value) : List Value := columns.filter label.same

/-- What a table has under one of its labels: a table of the columns with that label. -/
def columnEntry (columns : List Value) (rows : Nat) (cell : Cell) (label : Value) :
    Run Session (Value × Value) := do
  pure (label, .frame (← Session.fresh) (columnsAt columns label) rows cell)

/-- The two items of an item that stands for an entry. -/
def pairAt (index : Nat) (item : Value) : Run Session (Value × Value) := do
  if item.canIterate then
    let items ← item.iterate
    let size ← Run.lift items.heldSize
    match if size == 2 then items.toList else [] with
    | [key, value] => pure (key, value)
    | _ => Run.raise (.elementLength index size)
  else Run.raise (.elementNotSequence index)

/-- The entries that items stand for, up to the first that stands for none. Before each item is
looked at, `taking` is run. A key that cannot be one is a fault at its place. -/
def pairsFrom (taking : Run Session Unit) : Nat → List Value → Run Session (List (Value × Value))
  | _, [] => pure []
  | index, item :: rest => do
    taking
    let (key, value) ← pairAt index item
    Run.lift key.requireHashable
    let pairs ← pairsFrom taking (index + 1) rest
    pure ((key, value) :: pairs)

/-- The entries that a value stands for. From a stream only the items that were looked at are
taken. No term of a range stands for an entry, so that its first one decides. -/
def toEntries (v : Value) : Run Session (List (Value × Value)) := do
  match v.mapping? with
  | some m => Run.lift m.told
  | none =>
    match v with
    | .frame _ columns rows cell => columns.mapM (columnEntry columns rows cell)
    | v =>
      match v.stream? with
      | some (id, items) =>
        let remaining ← Session.left id items
        pairsFrom (do let _ ← Session.next? id items) 0 remaining
      | none =>
        let items ← v.iterate
        pairsFrom (pure ()) 0 items.front

end Conformance.Value
