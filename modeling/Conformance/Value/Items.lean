import Conformance.Session

/-!
# Items of values

What iterating over a value yields. Reading a stream uses it up; every other value yields the same
items each time. A range yields its terms without writing them all down.

## Main definitions

* `Items` — items one after the other, written down or counted out
* `Value.iterate` — the items of a value
* `Value.collect` — the items as a list
-/

namespace Conformance

/-- Items one after the other. -/
inductive Items where
  | listed (items : List Value)
  /-- The terms of a range. -/
  | counted (start step : Int) (count : Nat)

namespace Items

/-- The number of items. -/
def size : Items → Nat
  | listed items => items.length
  | counted _ _ count => count

/-- The terms of a range, from an index on. -/
def terms (start step : Int) : Nat → List Value
  | 0 => []
  | n + 1 => .int start :: terms (start + step) step n

/-- The items as a list. -/
def toList : Items → List Value
  | listed items => items
  | counted start step count => terms start step count

/-- The number of items, unless there are too many to be counted or to be held. -/
def heldSize (items : Items) : Except Fault Nat :=
  if Value.maxCount < items.size then .error .countTooLarge
  else if Value.maxHeld < items.size then .error .outOfMemory
  else .ok items.size

/-- The items as a list, unless there are too many to be counted or to be held. -/
def toList? (items : Items) : Except Fault (List Value) := do
  let _ ← items.heldSize
  .ok items.toList

/-- At least the first item, if there is one: all items that are written down, but a single term of
a range. -/
def front : Items → List Value
  | listed items => items
  | counted start step count => terms start step (min count 1)

/-- Whether a run answers positively for each of a list of items, up to the first for which it does
not. -/
def eachListed {σ : Type} (holds : Value → Run σ Bool) : List Value → Run σ Bool
  | [] => pure true
  | v :: vs => do if ← holds v then eachListed holds vs else pure false

/-- The same for the terms of a range. -/
def eachCounted {σ : Type} (holds : Value → Run σ Bool) (start step : Int) : Nat → Run σ Bool
  | 0 => pure true
  | n + 1 => do
    if ← holds (.int start) then eachCounted holds (start + step) step n else pure false

/-- Whether a run answers positively for each item, up to the first for which it does not. -/
def each {σ : Type} (holds : Value → Run σ Bool) : Items → Run σ Bool
  | listed items => eachListed holds items
  | counted start step count => eachCounted holds start step count

theorem eachCounted_eq_eachListed {σ : Type} (holds : Value → Run σ Bool) (start step : Int)
    (count : Nat) :
    eachCounted holds start step count = eachListed holds (terms start step count) := by
  induction count generalizing start with
  | zero => rfl
  | succ n ih => simp only [eachCounted, terms, eachListed, ih]

end Items

namespace Value

/-- The items that iterating over a value yields. -/
def iterate : Value → Run Session Items
  | text s => pure (.listed (s.toList.map fun c => text (String.singleton c)))
  | bytes data | bytearray _ data => pure (.listed (data.map fun b => int b.toNat))
  | list _ items | branch _ items | tuple items | set _ items | frozenset items =>
    pure (.listed items)
  | dict _ entries | view entries => pure (.listed (entries.map (·.1)))
  | range start stop step => pure (.counted start step (Range.length start stop step))
  | frame _ columns .. => pure (.listed columns)
  | probe _ .length => pure (.listed [])
  | probe _ .iteration => Run.raise (.refused .iteration)
  | probe _ .lookup => pure (.listed [text "a"])
  | probe _ (.unlisted entries refusals) =>
    if refusals.keys then Run.raise (.refused .lookup) else pure (.listed (entries.map (·.1)))
  | probe _ (.indexed items) => pure (.listed items)
  | pack p => pure (.listed p.keys)
  | v =>
    match v.stream? with
    | some (id, items) => do pure (.listed (← Session.rest id items))
    | none => Run.raise (.notIterable v.typeName)

/-- The items of a value as a list. A value that refuses to be counted refuses this too. -/
def collect (v : Value) : Run Session (List Value) := do
  let items ← v.iterate
  match v with
  | probe _ .length => Run.raise (.refused .length)
  | _ => Run.lift items.toList?

end Value

end Conformance
