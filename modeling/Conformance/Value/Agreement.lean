import Conformance.Run
import Conformance.Value.Range

/-!
# Agreement of values

Two values agree if they are the same object or are equal. This is the comparison by which
containers look for an item, by which mappings look for a key, and by which containers are compared
item by item. Numbers agree by their value, whatever their kind; so do truth values, as zero and
one. A probe of equality and a table refuse the comparison, which makes it a fault.

Mappings are compared in the order of the one on the left, up to the first entry that does not
agree, so that a refusal further on is never met. But some values on the left leave the comparison
to the one on the right; then it is that one's order that counts, and for everything inside left and
right change places.

## Main definitions

* `Value.agree` — whether two values agree, or the refusal of one of them
* `Side`, `Value.defersTo` — the sides of a comparison, and who leaves it to the other side
* `Value.same` — agreement as a plain answer, for keys
* `Value.lookup?`, `Value.hasKey`, `Value.insert` — entries by key
-/

namespace Conformance

/-- A number of one of the two kinds that are compared by value. -/
inductive Number where
  | int (n : Int)
  | float (x : Binary64)

/-- Whether two numbers are equal. -/
def Number.equal : Number → Number → Bool
  | int m, int n => m == n
  | int m, float x => x.compareInt m == .eq
  | float x, int n => x.compareInt n == .eq
  | float x, float y => x.compare y == .eq

/-- The side of a comparison on which a value stands. -/
inductive Side where
  | left
  | right
  deriving DecidableEq

namespace Value

/-- The number that a value is. NaN is none, since it is equal to no number. -/
def number? : Value → Option Number
  | bool b => some (.int b.toNat)
  | int n => some (.int n)
  | float x => some (.float x)
  | _ => none

/-- The bytes of a byte sequence of either kind. -/
def bytes? : Value → Option (List UInt8)
  | bytes data | bytearray _ data => some data
  | _ => none

/-- The items of a list of either kind. -/
def list? : Value → Option (List Value)
  | list _ items | branch _ items => some items
  | _ => none

/-- The items of a tuple. -/
def tuple? : Value → Option (List Value)
  | tuple items => some items
  | _ => none

/-- The items of a set of either kind. -/
def set? : Value → Option (List Value)
  | set _ items | frozenset items => some items
  | _ => none

/-- The entries of a mapping that can be read, key by key. Without keys there is nothing to look
up. -/
def entries? : Value → Option (List (Value × Value))
  | dict _ entries | view entries => some entries
  | pack p => some (p.rules.map fun entry => (entry.1, rule entry.2))
  | probe _ (.unlisted entries refusals) =>
    if refusals.keys || refusals.get && !entries.isEmpty then none else some entries
  | _ => none

/-- The number of an object that is equal only to itself. -/
def identity? : Value → Option Nat
  | nan i | stream i _ | rowStream i .. | frame i .. | probe i _ | callable i _ => some i
  | rule r => some r.id
  | settings s => some s.id
  | _ => none

/-- Whether a value on the left of a comparison leaves it to the value on the right. A dictionary
knows no mapping but dictionaries, a view passes on what it views, and a list leaves the comparison
to the more special kind of list. -/
def defersTo : Value → Value → Bool
  | dict .., view _ | dict .., pack _ | view _, view _ | view _, pack _ | list .., branch .. => true
  | _, _ => false

/-- The side on which a value stands once it is clear who compares. -/
def sideAgainst (v : Value) (side : Side) (w : Value) : Side :=
  match side with
  | .left => if v.defersTo w then .right else .left
  | .right => if w.defersTo v then .left else .right

/-- The fault of a table that is taken as the answer of a comparison. -/
def tableAmbiguous : Fault := .ambiguousTruth (frame 0 [] 0 .zero).typeName

/-- The comparison of a value with one of another family: it fails if that refuses to be
compared. -/
def foreign : Value → Except Fault Bool
  | probe _ .equality => .error (.refused .equality)
  | frame .. => .error tableAmbiguous
  | _ => .ok false

/-- The comparison of an object that is equal only to itself. -/
def agreeObject (v : Value) (i : Nat) (w : Value) : Except Fault Bool :=
  if w.identity? == some i && v.typeName == w.typeName then .ok true
  else
    match v with
    | probe _ .equality => .error (.refused .equality)
    | frame .. => .error tableAmbiguous
    | probe _ .lookup | probe _ (.unlisted ..) =>
      if w.isMapping then .error (.refused .lookup) else foreign w
    | _ => foreign w

/-- The comparison of a number. -/
def agreeNumber (m : Number) (w : Value) : Except Fault Bool :=
  match w.number? with
  | some n => .ok (m.equal n)
  | none => foreign w

/-- The comparison of a value without parts, which is equal only to the values for which `equal`
holds. -/
def agreeWhere (equal : Value → Bool) (w : Value) : Except Fault Bool :=
  if equal w then .ok true else foreign w

/-- The comparison with a value that has to be of the same family to be equal. -/
def agreeFamily {α : Type} (family : Option α) (compare : α → Except Fault Bool) (w : Value) :
    Except Fault Bool :=
  match family with
  | some part => compare part
  | none => foreign w

/-- Whether a comparison succeeded and was positive. -/
def holds (answer : Except Fault Bool) : Bool :=
  match answer with
  | .ok b => b
  | .error _ => false

/-- The value under the first key for which `isKey` holds. -/
def find? (isKey : Value → Bool) (entries : List (Value × Value)) : Option Value :=
  (entries.find? fun entry => isKey entry.1).map (·.2)

/-- An entry of a mapping, ready to be compared. -/
structure Comparand where
  /-- Whether a key is that of the entry. -/
  isKey : Value → Bool
  /-- The comparison of the value of the entry, which stands on the given side. -/
  compare : Side → Value → Except Fault Bool

namespace Comparand

/-- Compares each entry with the value under its key, in the order of the entries. -/
def inOwnOrder : List Comparand → List (Value × Value) → Except Fault Bool
  | [], _ => .ok true
  | c :: rest, entries =>
    match find? c.isKey entries with
    | none => .ok false
    | some w => do if ← c.compare .left w then inOwnOrder rest entries else .ok false

/-- Compares each value with the entry of its key, in the order of the values. -/
def inOrderOf (comparands : List Comparand) : List (Value × Value) → Except Fault Bool
  | [] => .ok true
  | (k, w) :: rest =>
    match comparands.find? fun c => c.isKey k with
    | none => .ok false
    | some c => do if ← c.compare .right w then inOrderOf comparands rest else .ok false

/-- Compares as many entries with as many others, in the order of those on the left. -/
def agree (comparands : List Comparand) (side : Side) (entries : List (Value × Value)) :
    Except Fault Bool :=
  if comparands.length == entries.length then
    match side with
    | .left => inOwnOrder comparands entries
    | .right => inOrderOf comparands entries
  else .ok false

end Comparand

/-- The comparison of a mapping with another value. Mappings are listed to be compared. -/
def agreeMapping (comparands : List Comparand) (side : Side) (w : Value) : Except Fault Bool :=
  match w with
  | probe _ .lookup | probe _ (.unlisted ..) => .error (.refused .lookup)
  | w => agreeFamily w.entries? (Comparand.agree comparands side) w

mutual

/-- Whether two values are the same object or are equal, where the first of them stands on the given
side of the comparison. -/
def agreeAt : Value → Side → Value → Except Fault Bool
  | null, _, w => agreeWhere (fun | null => true | _ => false) w
  | bool b, _, w => agreeNumber (.int b.toNat) w
  | int n, _, w => agreeNumber (.int n) w
  | float x, _, w => agreeNumber (.float x) w
  | text s, _, w => agreeWhere (fun | text t => s == t | _ => false) w
  | bytes data, _, w | bytearray _ data, _, w => agreeWhere (fun w => w.bytes? == some data) w
  | list i items, side, w =>
    agreeFamily w.list? (fun items' =>
      if items.length == items'.length then
        agreeItems items ((list i items).sideAgainst side w) items'
      else .ok false) w
  | branch i items, side, w =>
    agreeFamily w.list? (fun items' =>
      if items.length == items'.length then
        agreeItems items ((branch i items).sideAgainst side w) items'
      else .ok false) w
  | tuple items, side, w =>
    agreeFamily w.tuple? (fun items' => do
      let alike ← agreeItems items side items'
      .ok (alike && items.length == items'.length)) w
  | set _ items, _, w | frozenset items, _, w =>
    agreeFamily w.set? (fun items' =>
      .ok (items.length == items'.length && contained items items')) w
  | dict i entries, side, w =>
    agreeMapping (comparands entries) ((dict i entries).sideAgainst side w) w
  | view entries, side, w =>
    agreeMapping (comparands entries) ((view entries).sideAgainst side w) w
  | pack (.mk i rules), side, w =>
    agreeMapping (comparandsOfRules rules) ((pack (.mk i rules)).sideAgainst side w) w
  | range start stop step, _, w =>
    agreeWhere (fun | range a b c => Range.agree start stop step a b c | _ => false) w
  | nan i, _, w => agreeObject (nan i) i w
  | stream i items, _, w => agreeObject (stream i items) i w
  | rowStream i e r, _, w => agreeObject (rowStream i e r) i w
  | frame i columns rows cell, _, w => agreeObject (frame i columns rows cell) i w
  | probe i p, _, w => agreeObject (probe i p) i w
  | callable i f, _, w => agreeObject (callable i f) i w
  | rule r, _, w => agreeObject (rule r) r.id w
  | settings s, _, w => agreeObject (settings s) s.id w
termination_by structural a => a

/-- Compares items in step, up to the first two that do not agree. -/
def agreeItems : List Value → Side → List Value → Except Fault Bool
  | [], _, _ => .ok true
  | v :: vs, side, ws =>
    match ws with
    | [] => .ok true
    | w :: ws => do
      if ← agreeAt v side w then agreeItems vs side ws else .ok false
termination_by structural a => a

/-- Whether each item agrees with some item of the other. -/
def contained : List Value → List Value → Bool
  | [], _ => true
  | v :: vs, ws => ws.any (fun w => holds (agreeAt v .left w)) && contained vs ws
termination_by structural a => a

/-- The entries of a mapping, ready to be compared. -/
def comparands : List (Value × Value) → List Comparand
  | [] => []
  | (k, v) :: rest =>
    ⟨fun key => holds (agreeAt k .left key), fun side w => agreeAt v side w⟩ :: comparands rest
termination_by structural a => a

/-- The rules of a pack, ready to be compared. -/
def comparandsOfRules : List (Value × Rule Value Value) → List Comparand
  | [] => []
  | (k, r) :: rest =>
    ⟨fun key => holds (agreeAt k .left key), fun _ w => agreeObject (rule r) r.id w⟩ ::
      comparandsOfRules rest
termination_by structural a => a

end

/-- Whether two values are the same object or are equal. -/
def agree (v w : Value) : Except Fault Bool := agreeAt v .left w

/-- Of two views the right one compares, so that it is its first entry that counts. -/
example :
    agree (view [(text "a", int 1), (text "b", probe 3 .equality)])
        (view [(text "b", probe 4 .equality), (text "a", int 2)]) =
      .error (.refused .equality) := by
  rfl

/-- Whether two values agree, where none of them refuses to be compared, as keys never do. -/
def same (v w : Value) : Bool := holds (agree v w)

/-- The value under a key. -/
def lookup? (entries : List (Value × Value)) (key : Value) : Option Value :=
  find? key.same entries

/-- Whether entries have a key. -/
def hasKey (entries : List (Value × Value)) (key : Value) : Bool :=
  entries.any fun entry => key.same entry.1

/-- Puts a value under a key. A key that is there already stays as it is and keeps its place. -/
def insert (key value : Value) : List (Value × Value) → List (Value × Value)
  | [] => [(key, value)]
  | (k, v) :: rest =>
    if key.same k then (k, value) :: rest else (k, v) :: insert key value rest

/-- Puts several entries, one after the other. -/
def insertAll (entries added : List (Value × Value)) : List (Value × Value) :=
  added.foldl (fun entries entry => insert entry.1 entry.2 entries) entries

/-- Adds an item to a set that does not have it. -/
def addItem (items : List Value) (item : Value) : List Value :=
  if items.any item.same then items else items ++ [item]

end Value

end Conformance
