import Conformance.Value.Basic

/-!
# Names of callables

The names by which checks, kinds, probes and callables are known, both to the one who asks for them
and in messages. Some callables have a name of their own and exist once; all others are made anew
each time, and are named after the definition that made them.

## Main definitions

* `Callable.name`, `Callable.qualifiedName`, `Callable.render` — the names of a callable, and how it
  is written in a message
* `Callable.named`, `Value.ofName?` — the callables with a name of their own
-/

namespace Conformance

/-- The name of a check. -/
def Check.name : Check → String
  | boolean => "is_bool"
  | text => "is_string"
  | number => "is_number"
  | integer => "is_integer"
  | positive => "is_positive_number"
  | mapping => "is_mapping"
  | sequence => "is_sequence"
  | dateTime => "is_datetime"

/-- The name by which a kind is asked for. -/
def Kind.name : Kind → String
  | text => "string"
  | integer => "integer"
  | number => "number"
  | boolean => "boolean"
  | mapping => "object"
  | sequence => "list"
  | frame => "dataframe"

/-- The name of a check of several arguments. -/
def Collective.name : Collective → String
  | count => "has_count"
  | each => "all_count"
  | sameSize => "same_size"
  | entries => "map_structure"

/-- The name of a primitive. -/
def Primitive.name : Primitive → String
  | boom => "boom"
  | picky => "picky"
  | identity => "identity"
  | length => "len"
  | callable => "callable"

/-- The name of a probe, which tells the operation that it refuses, or what it stands for. -/
def Probe.name : Probe → String
  | equality => "badeq"
  | truth => "badbool"
  | length => "badlen"
  | iteration => "baditer"
  | lookup => "badget"
  | plain => "plain"
  | unlisted .. => "unlisted"
  | indexed _ => "indexed"
  | written type _ => type

namespace Callable

/-- The name of a callable with the definition that it was made in. -/
def qualifiedName : Callable → String
  | check c => c.name
  | ofKind _ => "is_type.<locals>.check"
  | oneOf _ => "is_one_of.<locals>.check"
  | optional _ => "optional.<locals>.<lambda>"
  | both _ => "both.<locals>.<lambda>"
  | either _ => "either.<locals>.<lambda>"
  | collective c => c.name
  | hasCount _ => "has_count.<locals>.<lambda>"
  | allCount .. => "all_count.<locals>.<lambda>"
  | sameSize _ => "same_size.<locals>.<lambda>"
  | mapStructure .. => "map_structure.<locals>.<lambda>"
  | primitive p => p.name
  | const _ => "const.<locals>.<lambda>"
  | raising _ => "raise.<locals>.<lambda>"
  | spy .. => "spy.<locals>.<lambda>"
  | returning | guarded .. => "fn"

/-- The name of a callable. -/
def name : Callable → String
  | ofKind k => "is_type_" ++ k.name
  | oneOf _ => "check"
  | optional _ | both _ | either _ | hasCount _ | allCount .. | sameSize _ | mapStructure ..
  | const _ | raising _ | spy .. => "<lambda>"
  | f => f.qualifiedName

/-- The written form of a callable. Its address is left out. -/
def render : Callable → String
  | primitive .length => "<built-in function len>"
  | primitive .callable => "<built-in function callable>"
  | f => "<function " ++ f.qualifiedName ++ " at 0x>"

end Callable

/-- The callables that have a name of their own. Each of them exists once. -/
def Callable.named : List Callable :=
  [.boolean, .text, .number, .integer, .positive, .mapping, .sequence, .dateTime].map .check ++
    [.count, .each, .sameSize, .entries].map .collective ++
    [.boom, .picky, .identity, .length, .callable].map .primitive

/-- The callable of a name. Its number is its place among the named callables, from two on. -/
def Value.ofName? (name : String) : Option Value :=
  (Callable.named.zipIdx.find? fun entry => entry.1.name == name).map fun entry =>
    .callable (entry.2 + 2) entry.1

/-- The first number that no named callable and no settings have. -/
def Callable.firstFreeId : Nat := Callable.named.length + 2

end Conformance
