import Conformance.Binary64.Basic
import Conformance.Pack.Basic

/-!
# Values

The values that a pack is held against, and the callables that decide about them. A value is
dynamic: every kind can stand anywhere, also inside a container, as a key or as a rule.

Values with an identity carry a number. Two of them are the same object exactly if they have the
same kind and number. Containers made while answering, which nothing else refers to, carry `0`.

## Main definitions

* `Value` — all values; `Callable` — what can be called on a value
* `Probe` — objects of other classes: hostile ones, and mappings that cannot be listed
* `Check`, `Kind`, `Collective`, `Primitive`, `Cell` — the closed families among them
* `Signal`, `Malformed` — what a callable raises by itself, and why a schema is none
-/

namespace Conformance

/-- A check on the shape of a single value. -/
inductive Check where
  | boolean
  | text
  | number
  | integer
  | positive
  | mapping
  | sequence
  | dateTime
  deriving DecidableEq

/-- A kind of value that can be asked for by name. -/
inductive Kind where
  | text
  | integer
  | number
  | boolean
  | mapping
  | sequence
  | frame
  deriving DecidableEq

/-- A check that takes more than the value: it is called with several arguments. -/
inductive Collective where
  | count
  | each
  | sameSize
  | entries
  deriving DecidableEq

/-- A callable of fixed behaviour that is no check of the library. -/
inductive Primitive where
  /-- Always raises. -/
  | boom
  /-- Whether the value is greater than ten. -/
  | picky
  /-- The value itself. -/
  | identity
  /-- The number of items. -/
  | length
  /-- Whether the value can be called. -/
  | callable
  deriving DecidableEq

/-- What a mapping that cannot be listed refuses besides. -/
structure Refusals where
  /-- To be gone through, key by key. -/
  keys : Bool
  /-- To tell the value at a key. -/
  get : Bool
  deriving DecidableEq

/-- What stands in every cell of a table: zero, or the answer to a question about each cell. -/
inductive Cell where
  | zero
  | flag (b : Bool)
  deriving DecidableEq

/-- What a callable raises by itself: the name of the error and its argument. -/
structure Signal where
  name : String
  message : Option String
  deriving DecidableEq

/-- Why a value is no schema. Each cause but the last names the type of the value at fault. -/
inductive Malformed where
  /-- The schema itself is no mapping. -/
  | schema (type : String)
  /-- A rule is neither a check nor a mapping. -/
  | rule (type : String)
  /-- A mapping inside it refuses to be read. -/
  | unreadable
  deriving DecidableEq

/-- The switch that turns validation on and off. -/
structure Settings where
  id : Nat
  enabled : Bool
  deriving DecidableEq

mutual

/-- A value of any kind. -/
inductive Value where
  | null
  | bool (b : Bool)
  | int (n : Int)
  | float (x : Binary64)
  /-- Not a number; an object, since it equals nothing but itself. -/
  | nan (id : Nat)
  | text (s : String)
  | bytes (data : List UInt8)
  | bytearray (id : Nat) (data : List UInt8)
  | list (id : Nat) (items : List Value)
  /-- A list that stands for the entries of a nested pack inside an explanation. -/
  | branch (id : Nat) (items : List Value)
  | tuple (items : List Value)
  | set (id : Nat) (items : List Value)
  | frozenset (items : List Value)
  /-- Entries with pairwise different keys, in order. -/
  | dict (id : Nat) (entries : List (Value × Value))
  /-- A read-only view of such entries. -/
  | view (entries : List (Value × Value))
  | range (start stop step : Int)
  /-- Items that can be taken once, each in turn. -/
  | stream (id : Nat) (items : List Value)
  /-- The rows of an explanation below a root, to be worked out when the first one is taken. -/
  | rowStream (id : Nat) (explanation root : Value)
  /-- A table with labels over its columns, all of whose cells hold the same. -/
  | frame (id : Nat) (columns : List Value) (rows : Nat) (cell : Cell)
  /-- An object of another class. -/
  | probe (id : Nat) (object : Probe)
  | callable (id : Nat) (f : Callable)
  | rule (r : Rule Value Value)
  | pack (p : Pack Value Value)
  | settings (s : Settings)

/-- An object of a class of its own, with what sets it apart. The first few are hostile in the one
operation by which they are named. -/
inductive Probe where
  | equality
  | truth
  | length
  | iteration
  | lookup
  | plain
  /-- A mapping that cannot be listed. To list a mapping is to go through its keys and to look up
  each, so that one that refuses either cannot be listed. -/
  | unlisted (entries : List (Value × Value)) (refusals : Refusals)
  /-- Items that are reached by their place: they can be counted and gone through, but the class is
  none of iterables. -/
  | indexed (items : List Value)
  /-- An object without operations, with the name of its class and a written form of its own. -/
  | written (type form : String)

/-- What can be called on a value. Arguments that have to be callable are values, because nothing
checks them before they are called. -/
inductive Callable where
  | check (c : Check)
  | ofKind (k : Kind)
  | oneOf (options : List Value)
  | optional (p : Value)
  | both (ps : List Value)
  | either (ps : List Value)
  /-- A check of several arguments, none of them given yet. -/
  | collective (c : Collective)
  | hasCount (n : Value)
  | allCount (n p : Value)
  | sameSize (others : List Value)
  | mapStructure (keyCheck valueCheck : Value)
  | primitive (p : Primitive)
  | const (v : Value)
  | raising (s : Signal)
  /-- Notes the tag and the value before it calls `p`. -/
  | spy (tag p : Value)
  /-- Returns its argument; stands for a function whose result is validated. -/
  | returning
  /-- Returns its argument if that conforms to the schema. -/
  | guarded (schema : Except Malformed (Pack Value Value)) (exact : Bool)

end

instance : Inhabited Value := ⟨.null⟩

namespace Value

/-- The name of the type of a value. -/
def typeName : Value → String
  | null => "NoneType"
  | bool _ => "bool"
  | int _ => "int"
  | float _ | nan _ => "float"
  | text _ => "str"
  | bytes _ => "bytes"
  | bytearray .. => "bytearray"
  | list .. => "list"
  | branch .. => "NestedEntries"
  | tuple _ => "tuple"
  | set .. => "set"
  | frozenset _ => "frozenset"
  | dict .. => "dict"
  | view _ => "mappingproxy"
  | range .. => "range"
  | stream .. | rowStream .. => "generator"
  | frame .. => "DataFrame"
  | probe _ .equality => "BadEq"
  | probe _ .truth => "BadBool"
  | probe _ .length => "BadLen"
  | probe _ .iteration => "BadIter"
  | probe _ .lookup => "BadGet"
  | probe _ .plain => "Plain"
  | probe _ (.unlisted ..) => "Unlisted"
  | probe _ (.indexed _) => "Indexed"
  | probe _ (.written type _) => type
  | callable _ (.primitive .length) | callable _ (.primitive .callable) =>
    "builtin_function_or_method"
  | callable .. => "function"
  | rule (.leaf ..) => "Predicate"
  | rule (.nested ..) => "Nested"
  | pack _ => "Pack"
  | settings _ => "Settings"

/-- The integer that a value is, with the truth values as zero and one. -/
def integer? : Value → Option Int
  | bool b => some b.toNat
  | int n => some n
  | _ => none

/-- The items of a list or a tuple. -/
def sequence? : Value → Option (List Value)
  | list _ items | branch _ items | tuple items => some items
  | _ => none

/-- Whether a value is a list or a tuple. -/
def isSequence (v : Value) : Bool := v.sequence?.isSome

/-- Whether a value is a mapping. -/
def isMapping : Value → Bool
  | dict .. | view _ | pack _ | probe _ .lookup | probe _ (.unlisted ..) => true
  | _ => false

/-- Whether a value can be called. -/
def isCallable : Value → Bool
  | callable .. => true
  | _ => false

end Value

end Conformance
