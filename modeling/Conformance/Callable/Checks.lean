import Conformance.Calendar
import Conformance.Value.Items

/-!
# Checks

The checks of the library, as conditions on values: the shape of a single value, its kind by name,
its membership in a list of options, the number of its items, and conditions on each of them.

## Main definitions

* `Check.holds`, `Kind.holds`
* `Kind.ofValue` — the kind of a name
* `Value.isOneOf` — membership
* `Session.countIs`, `Session.eachOf`, `Session.sameCount`, `Session.entriesHold` — the checks of
  collections
-/

namespace Conformance

/-- Whether a number is greater than an integer. -/
def Value.exceeds? (bound : Int) (v : Value) : Option Bool :=
  match v.number? with
  | some (.int n) => some (bound < n)
  | some (.float x) => some (x.compareInt bound == .gt)
  | none =>
    match v with
    | .nan _ => some false
    | _ => none

/-- Whether a value is a number; a truth value is none. -/
def Value.isNumeric : Value → Bool
  | .int _ | .float _ | .nan _ => true
  | _ => false

/-- Whether a value has the shape that a check asks for. -/
def Check.holds : Check → Value → Bool
  | boolean, .bool _ => true
  | text, .text _ => true
  | number, v => v.isNumeric
  | integer, .int _ => true
  | positive, v => v.isNumeric && (v.exceeds? 0).getD false
  | mapping, v => v.isMapping
  | sequence, v => v.isSequence
  | dateTime, .text s => Calendar.isMoment s.toList
  | _, _ => false

/-- Whether a value is of a kind. -/
def Kind.holds : Kind → Value → Bool
  | text, .text _ => true
  | integer, .int _ => true
  | number, v => v.isNumeric
  | boolean, .bool _ => true
  | mapping, v => v.isMapping
  | sequence, v => v.isSequence
  | frame, .frame .. => true
  | _, _ => false

/-- All kinds. -/
def Kind.all : List Kind := [.text, .integer, .number, .boolean, .mapping, .sequence, .frame]

/-- The kind that a value names. Only a value that can be a key can be a name. -/
def Kind.ofValue (name : Value) : Except Fault Kind := do
  name.requireHashable
  let named := match name with
    | .text s => Kind.all.find? fun k => k.name == s
    | _ => none
  match named with
  | some k => .ok k
  | none => .error (.unknownKind name)

/-- Whether a value agrees with one of the options, up to the first with which it does. An option
that cannot be compared ends the search without success. -/
def Value.isOneOf (options : List Value) (v : Value) : Bool :=
  match options with
  | [] => false
  | option :: rest =>
    match option.agree v with
    | .ok true => true
    | .ok false => isOneOf rest v
    | .error _ => false

/-- The number in a cell, with the truth values as zero and one. -/
def Cell.number : Cell → Nat
  | zero => 0
  | flag b => b.toNat

/-- Whether a value is greater than ten. A table is compared cell by cell, which makes a new table;
a view passes on what it views. -/
def Value.isPicked (v : Value) : Run Session Value := do
  match v.exceeds? 10 with
  | some b => pure (.bool b)
  | none =>
    match v with
    | .frame _ columns rows cell =>
      return .frame (← Session.fresh) columns rows (.flag (10 < cell.number))
    | .view entries => Run.raise (.unordered (Value.dict 0 entries).typeName)
    | v => Run.raise (.unordered v.typeName)

/-- A count as a value; nothing where there is none. -/
def Value.ofCount : Option Nat → Value
  | some n => .int n
  | none => .null

/-- Whether a count equals a value. A table is compared cell by cell, which makes a new table. -/
def Value.countEquals (count : Option Nat) (n : Value) : Run Session Value := do
  match n with
  | .frame _ columns rows cell =>
    return .frame (← Session.fresh) columns rows (.flag (count == some cell.number))
  | n => return .bool (← Run.lift ((Value.ofCount count).agree n))

namespace Session

/-- Whether a collection has a number of items. -/
def countIs (n collection : Value) : Run Session Value := do
  Value.countEquals (← Run.lift collection.count?) n

/-- Whether all collections have the same number of items. Each is counted, also after one that
cannot be. -/
def sameCount (collections : List Value) : Except Fault Value := do
  let counts ← collections.mapM Value.count?
  match counts with
  | [] => .ok (.bool true)
  | first :: rest => .ok (.bool (first.isSome && rest.all (· == first)))

/-- Replaces an ordinary fault by a refusal. -/
def orRefuse (x : Run Session Bool) : Run Session Bool := Run.recover x fun _ => pure false

/-- Whether the result of a call is true as a condition. -/
def callHolds (call : Value → Run Session Value) (v : Value) : Run Session Bool := do
  Run.lift (← call v).truth

/-- The items of a collection that is not to be read as one thing: a text, bytes or a mapping has
none. -/
def isCollection (v : Value) : Bool :=
  match v with
  | .text _ | .bytes _ => false
  | v => v.isIterable && !v.isMapping

/-- The items of a collection and their number. A collection that knows its number is asked for it;
any other one is read first. -/
def itemsAndCount (collection : Value) : Run Session (Nat × Run Session Items) := do
  match collection.length? with
  | some count => pure (← Run.lift count, collection.iterate)
  | none =>
    let items ← collection.collect
    pure (items.length, pure (.listed items))

/-- Whether a collection has a number of items and a call holds for each. Nothing counts as an empty
collection. Whatever is raised on the way is a refusal. -/
def eachOf (n : Value) (call : Value → Run Session Value) (collection : Value) :
    Run Session Value := do
  match collection with
  | .null => Value.countEquals (some 0) n
  | collection =>
    if isCollection collection then
      let answer ← orRefuse do
        let (count, items) ← itemsAndCount collection
        if ← Run.lift ((Value.ofCount (some count)).agree n) then
          let items ← items
          Run.insideIteration (items.each (callHolds call))
        else pure false
      pure (.bool answer)
    else pure (.bool false)

/-- Whether two calls hold for the key and the value of each entry, up to the first that does
not. -/
def eachEntry (onKey onValue : Value → Run Session Value) :
    List (Value × Value) → Run Session Bool
  | [] => pure true
  | (k, v) :: rest => do
    if ← callHolds onKey k then
      if ← callHolds onValue v then eachEntry onKey onValue rest else pure false
    else pure false

/-- Whether a value is a mapping and two calls hold for the key and the value of each entry.
Whatever is raised on the way is a refusal. -/
def entriesHold (onKey onValue : Value → Run Session Value) (m : Value) : Run Session Value := do
  match m.mapping? with
  | none => pure (.bool false)
  | some m =>
    let answer ← orRefuse do
      let entries ← Run.lift m.items
      Run.insideIteration (eachEntry onKey onValue entries)
    pure (.bool answer)

end Session

end Conformance
