import Conformance.Binary64.Rounding
import Conformance.Value.Agreement

/-!
# Making values

Values from what is written for them, where that takes more than putting parts together: numerals,
ranges, and sets, in which items of whole numbers have an order of their own.

## Main definitions

* `Value.ofNumeral` — the number that a text is read as
* `Value.newRange` — a range with a step other than zero
* `Value.newItems` — the items of a set, in its order
-/

namespace Conformance.Value

/-- The number that a text is read as. NaN is a new object. -/
def ofNumeral (id : Nat) (numeral : String) : Except Fault Value :=
  match Binary64.Numeral.ofText? numeral with
  | some (.number x) => .ok (float x)
  | some .nan => .ok (nan id)
  | none => .error (.notNumeral numeral)

/-- A range. Its step cannot be zero. -/
def newRange (start stop step : Int) : Except Fault Value :=
  if step == 0 then .error .stepZero else .ok (range start stop step)

/-- The number of places of a set of `count` items: eight, or four times as many as often as it
takes to leave two fifths of the places empty. -/
def placesFor (count : Nat) : Nat → Nat → Nat
  | 0, places => places
  | fuel + 1, places =>
    if 5 * count < 3 * (places - 1) then places else placesFor count fuel (4 * places)

/-- The items of a set, each of them once. Whole numbers stand in the order of their remainders by
the number of places; any other items stand in the order in which they came. -/
def newItems (items : List Value) : List Value :=
  let items := items.foldl addItem []
  match items.mapM integer? with
  | none => items
  | some numbers =>
    let places := placesFor items.length items.length 8
    ((numbers.zip items).mergeSort fun a b => a.1 % places ≤ b.1 % places).map (·.2)

example : placesFor 4 4 8 = 8 ∧ placesFor 5 5 8 = 32 ∧ placesFor 19 19 8 = 128 := by decide

end Conformance.Value
