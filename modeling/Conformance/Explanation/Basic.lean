import Conformance.Value.Basic

/-!
# Explanations

An explanation lists how a value departs from a pack: the keys whose values are invalid, and the
keys that the pack does not have. Below the key of a nested pack stand that pack's own findings.

## Main definitions

* `Finding`, `Explanation` — the tree of findings
* `Explanation.toValue` — the explanation as a mapping of two lists
* `Violation`, `Row` — one finding with the path to it
-/

namespace Conformance

/-- One key at which a value departs from its pack. -/
inductive Finding where
  /-- The value found at the key. -/
  | value (key observed : Value)
  /-- What was found below the key of a nested pack. -/
  | nested (key : Value) (findings : List Finding)

/-- How a value departs from a pack. -/
structure Explanation where
  /-- Values that their rules do not accept, in the order of the pack. -/
  invalid : List Finding
  /-- Values at keys that the pack does not have, then those of the nested packs. -/
  extra : List Finding

/-- The two ways to depart from a pack. -/
inductive Violation where
  | invalid
  | extra
  deriving DecidableEq

/-- One violation with the path of the keys that lead to it. -/
structure Row where
  path : String
  violation : Violation
  value : Value

namespace Finding

/-- The key of a finding. -/
def key : Finding → Value
  | value k _ => k
  | nested k _ => k

mutual

/-- A finding as a pair of its key and what stands there. -/
def toValue : Finding → Value
  | value k v => .tuple [k, v]
  | nested k findings => .tuple [k, .branch 0 (toValues findings)]
termination_by structural a => a

/-- Findings as pairs. -/
def toValues : List Finding → List Value
  | [] => []
  | f :: fs => f.toValue :: toValues fs
termination_by structural a => a

end

end Finding

/-- The text of the word that names a violation. -/
def Violation.text : Violation → String
  | invalid => "invalid"
  | extra => "extra"

/-- The explanation as a mapping of its two lists. -/
def Explanation.toValue (e : Explanation) : Value :=
  .dict 0 [(.text Violation.invalid.text, .list 0 (Finding.toValues e.invalid)),
    (.text Violation.extra.text, .list 0 (Finding.toValues e.extra))]

/-- A row as a triple. -/
def Row.toValue (r : Row) : Value :=
  .tuple [.text r.path, .text r.violation.text, r.value]

theorem Finding.toValues_eq_map (fs : List Finding) :
    Finding.toValues fs = fs.map Finding.toValue := by
  induction fs with
  | nil => rfl
  | cons f fs ih => simp [Finding.toValues, ih]

end Conformance
