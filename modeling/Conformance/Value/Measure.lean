import Conformance.Value.Agreement

/-!
# Truth, number of items and use as a key

What a value says about itself when it is asked for its truth, for its number of items, or for its
place among keys. Each question can be refused.

## Main definitions

* `Value.truth` — a value as a condition
* `Value.length?` — the number of items, of the values that have one
* `Value.count?` — the same with nothing as an empty collection
* `Value.unhashable?` — the type that keeps a value from being a key
* `Value.isIterable`, `Value.canIterate` — being iterable by class, and being so in fact
-/

namespace Conformance.Value

/-- The greatest number of items that can be counted. -/
def maxCount : Nat := 9223372036854775807

/-- The greatest number of items that are held at once. -/
def maxHeld : Nat := 4294967296

/-- A value as a condition. Zero and what is empty are false, and so is nothing. -/
def truth : Value → Except Fault Bool
  | null => .ok false
  | bool b => .ok b
  | int n => .ok (n != 0)
  | float x => .ok !x.isZero
  | text s => .ok !s.isEmpty
  | bytes data | bytearray _ data => .ok !data.isEmpty
  | list _ items | branch _ items | tuple items | set _ items | frozenset items =>
    .ok !items.isEmpty
  | dict _ entries | view entries => .ok !entries.isEmpty
  | range start stop step => .ok (Range.length start stop step != 0)
  | frame i columns rows cell => .error (.ambiguousTruth (frame i columns rows cell).typeName)
  | probe _ .truth => .error (.refused .truth)
  | probe _ .length => .error (.refused .length)
  | probe _ (.unlisted entries _) => .ok !entries.isEmpty
  | probe _ (.indexed items) => .ok !items.isEmpty
  | pack p => .ok !p.rules.isEmpty
  | _ => .ok true

/-- The number of items of a value, if it has one. -/
def length? : Value → Option (Except Fault Nat)
  | text s => some (.ok s.length)
  | bytes data | bytearray _ data => some (.ok data.length)
  | list _ items | branch _ items | tuple items | set _ items | frozenset items =>
    some (.ok items.length)
  | dict _ entries | view entries => some (.ok entries.length)
  | range start stop step =>
    let n := Range.length start stop step
    some (if n ≤ maxCount then .ok n else .error .countTooLarge)
  | frame _ _ rows _ => some (.ok rows)
  | probe _ .length => some (.error (.refused .length))
  | probe _ .lookup => some (.ok 1)
  | probe _ (.unlisted entries _) => some (.ok entries.length)
  | probe _ (.indexed items) => some (.ok items.length)
  | pack p => some (.ok p.rules.length)
  | _ => none

/-- The number of items of a collection. Nothing counts as an empty one; a value without a number
of items has no count. -/
def count? : Value → Except Fault (Option Nat)
  | null => .ok (some 0)
  | v =>
    match v.length? with
    | some (.ok n) => .ok (some n)
    | some (.error e) => .error e
    | none => .ok none

mutual

/-- The type that keeps a value from being a key: its own, or that of a part. -/
def unhashable? : Value → Option String
  | tuple items => unhashableItem? items
  | list .. => some (typeName (list 0 []))
  | branch .. => some (typeName (branch 0 []))
  | set .. => some (typeName (set 0 []))
  | dict .. => some (typeName (dict 0 []))
  | view _ => some (typeName (view []))
  | bytearray .. => some (typeName (bytearray 0 []))
  | frame .. => some (typeName (frame 0 [] 0 .zero))
  | probe i .equality => some (typeName (probe i .equality))
  | probe i .lookup => some (typeName (probe i .lookup))
  | probe i (.unlisted entries refusals) => some (typeName (probe i (.unlisted entries refusals)))
  | pack p => some (typeName (pack p))
  | _ => none
termination_by structural a => a

/-- The type of the first part that keeps a tuple from being a key. -/
def unhashableItem? : List Value → Option String
  | [] => none
  | v :: vs => v.unhashable? <|> unhashableItem? vs
termination_by structural a => a

end

/-- Fails for a value that cannot be a key. -/
def requireHashable (v : Value) : Except Fault Unit :=
  match v.unhashable? with
  | some type => .error (.unhashable type)
  | none => .ok ()

/-- Whether a value is of a class of iterables. -/
def isIterable : Value → Bool
  | text _ | bytes _ | bytearray .. | list .. | branch .. | tuple _ | set .. | frozenset _
  | dict .. | view _ | range .. | stream .. | rowStream .. | frame .. | pack _
  | probe _ .length | probe _ .iteration | probe _ .lookup | probe _ (.unlisted ..) => true
  | _ => false

/-- Whether a value can be iterated over. What is reached by its place can be, although its class is
none of iterables. -/
def canIterate : Value → Bool
  | probe _ (.indexed _) => true
  | v => v.isIterable

end Conformance.Value
