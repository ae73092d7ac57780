import Conformance.Explanation.Reading
import Conformance.Value.Measure
import Conformance.Value.Printer

/-!
# Rows of an explanation

An explanation laid out flat: one row for each violation, with the keys that lead to it joined by
points. Invalid values come before extra ones, and both in the order in which they were found.

## Main definitions

* `Finding.rows`, `Explanation.rows` — the rows below a path
* `Value.rows` — the rows of any value that is an explanation
-/

namespace Conformance

/-- A path that goes on with a key. At the top the key stands alone. -/
def Row.extendPath (path : String) (key : Value) : String :=
  if path.isEmpty then key.display else path ++ "." ++ key.display

mutual

/-- The rows of a finding below a path. -/
def Finding.rows (violation : Violation) (path : String) : Finding → List Row
  | .value key v => [⟨Row.extendPath path key, violation, v⟩]
  | .nested key findings => Finding.rowsOf violation (Row.extendPath path key) findings
termination_by structural a => a

/-- The rows of several findings below the same path. -/
def Finding.rowsOf (violation : Violation) (path : String) : List Finding → List Row
  | [] => []
  | f :: fs => f.rows violation path ++ Finding.rowsOf violation path fs
termination_by structural a => a

end

/-- The rows of an explanation below a path. -/
def Explanation.rows (path : String) (e : Explanation) : List Row :=
  Finding.rowsOf .invalid path e.invalid ++ Finding.rowsOf .extra path e.extra

/-- Whether an explanation has no findings. -/
def Explanation.isEmpty (e : Explanation) : Bool := e.invalid.isEmpty && e.extra.isEmpty

/-- The rows of an explanation below a root of any kind. A root that is false as a condition is left
out of the paths; it is asked only if there is something to put below it. -/
def Explanation.rowsBelow (root : Value) (e : Explanation) : Except Fault (List Row) := do
  if e.isEmpty then .ok []
  else
    let path := if ← root.truth then root.display else ""
    .ok (e.rows path)

/-- The root of the paths where none is given. -/
def Row.root : String := "root"

/-- The rows of a value that is an explanation, below a root. -/
def Value.rows (root v : Value) : Except Fault (List Row) := do
  let e ← Explanation.ofValue v
  e.rowsBelow root

end Conformance
