import Conformance.Binary64.Shortest
import Conformance.Text.Quoted
import Conformance.Text.Table
import Conformance.Callable.Naming

/-!
# The written form of values

How a value appears inside a message. Texts and bytes are quoted, numbers are written in full,
containers show their items between brackets, and objects without a literal form are named between
angle brackets.

## Main definitions

* `Value.render` — the written form
* `Value.display` — the same, but a text stands for itself and a view for what it views; paths are
  made of it
-/

namespace Conformance

/-- Truth values are written as capitalised words. -/
def renderBool (b : Bool) : String := if b then "True" else "False"

/-- The written form of a cell, with a blank in front. -/
def Cell.render : Cell → String
  | zero => " 0"
  | flag b => " " ++ renderBool b

/-- The label of a column, called `name`, as it stands over the column. A blank is in front, or the
sign of a number; integers have a place for a sign only among integers. -/
def Value.heading (amongIntegers : Bool) (label : Value) (name : String) : String :=
  let isNegative := match label with
    | int n => amongIntegers && n < 0
    | float x => x.isNegative
    | _ => false
  match label with
  | nan _ => " NaN"
  | _ => (if isNegative then "" else " ") ++ Text.spellControls name

/-- A table as it is written. Labels that are all numbers, or all truth values, are equally wide. -/
def frameTable (columns : List Value) (names : List String) (rows : Nat) (cell : Cell) :
    Text.Table :=
  let integers := columns.all fun | .int _ => true | _ => false
  let floats := columns.all fun | .float _ => true | _ => false
  let flags := columns.all fun | .bool _ => true | _ => false
  ⟨names, List.zipWith (Value.heading integers) columns names, integers || floats || flags, rows,
    cell.render⟩

/-- The written form of settings. -/
def Settings.render (s : Settings) : String :=
  "Settings(validation_enabled=" ++ renderBool s.enabled ++ ")"

/-- Items between brackets. A tuple of one item has a comma behind it. -/
def renderTuple : List String → String
  | [item] => "(" ++ item ++ ",)"
  | items => "(" ++ ", ".intercalate items ++ ")"

/-- Items between braces; an empty set is written as a call, since the braces stand for an empty
mapping. -/
def renderSet : List String → String
  | [] => "set()"
  | items => "\x7b" ++ ", ".intercalate items ++ "\x7d"

/-- A set whose items cannot change. -/
def renderFrozenset : List String → String
  | [] => "frozenset()"
  | items => "frozenset(\x7b" ++ ", ".intercalate items ++ "\x7d)"

/-- A range by its start and its stop, and by its step if that is not one. -/
def renderRange (start stop step : Int) : String :=
  if step == 1 then s!"range({start}, {stop})" else s!"range({start}, {stop}, {step})"

/-- An object of another class by its name, unless it has a written form of its own. -/
def Probe.render : Probe → String
  | written _ form => form
  | p => "<" ++ p.name ++ ">"

/-- Entries between braces. -/
def renderEntries (entries : List String) : String := "\x7b" ++ ", ".intercalate entries ++ "\x7d"

namespace Value

mutual

/-- The written form of a value. -/
def render : Value → String
  | null => "None"
  | bool b => renderBool b
  | int n => toString n
  | float x => x.text
  | nan _ => "nan"
  | text s => Text.quote s
  | bytes data => Text.quoteBytes data
  | bytearray _ data => "bytearray(" ++ Text.quoteMutableBytes data ++ ")"
  | list _ items | branch _ items => "[" ++ ", ".intercalate (renderItems items) ++ "]"
  | tuple items => renderTuple (renderItems items)
  | set _ items => renderSet (renderItems items)
  | frozenset items => renderFrozenset (renderItems items)
  | dict _ entries => renderEntries (renderPairs entries)
  | view entries => "mappingproxy(" ++ renderEntries (renderPairs entries) ++ ")"
  | range start stop step => renderRange start stop step
  | stream .. => "<generator object <genexpr> at 0x>"
  | rowStream .. => "<generator object flatten at 0x>"
  | frame _ columns rows cell => (frameTable columns (renderLabels columns) rows cell).render
  | probe _ p => p.render
  | callable _ f => f.render
  | rule r => renderRule r
  | pack p => renderPack p
  | settings s => s.render
termination_by structural a => a

/-- The written forms of several values. -/
def renderItems : List Value → List String
  | [] => []
  | v :: vs => v.render :: renderItems vs
termination_by structural a => a

/-- The names of the columns of a table. -/
def renderLabels : List Value → List String
  | [] => []
  | text s :: vs => s :: renderLabels vs
  | v :: vs => v.render :: renderLabels vs
termination_by structural a => a

/-- The written forms of entries. -/
def renderPairs : List (Value × Value) → List String
  | [] => []
  | (k, v) :: rest => (k.render ++ ": " ++ v.render) :: renderPairs rest
termination_by structural a => a

/-- The written form of a rule. -/
def renderRule : Rule Value Value → String
  | .leaf _ f => "Predicate(" ++ f.render ++ ")"
  | .nested _ p => "Nested(" ++ renderPack p ++ ")"
termination_by structural a => a

/-- The written form of a pack. -/
def renderPack : Pack Value Value → String
  | .mk _ rules => "Pack(" ++ renderEntries (renderRules rules) ++ ")"
termination_by structural a => a

/-- The written forms of rules with their keys. -/
def renderRules : List (Value × Rule Value Value) → List String
  | [] => []
  | (k, r) :: rest => (k.render ++ ": " ++ renderRule r) :: renderRules rest
termination_by structural a => a

end

/-- A value as a part of a text: a text stands for itself, and a view for what it views. -/
def display : Value → String
  | text s => s
  | view entries => renderEntries (renderPairs entries)
  | v => v.render

end Value

end Conformance
