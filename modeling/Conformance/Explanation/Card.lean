import Conformance.Explanation.Rows
import Conformance.Text.Blank

/-!
# Markdown cards

The rows of an explanation as a card with two sections, one for each kind of violation. A section
has a heading and one bullet for each row, or a note that there is none.

## Main definitions

* `Row.bullet`, `Row.card` — the lines of a card, and the card
* `Value.card` — the card of any value that is an explanation
-/

namespace Conformance

/-- A value on a card: truth values and nothing in small letters, all else in its written form. -/
def Row.scalar (r : Row) : String :=
  match r.value with
  | .bool true => "true"
  | .bool false => "false"
  | .null => "null"
  | v => v.render

/-- One line of a card. -/
def Row.bullet (r : Row) : String := "- **" ++ r.path ++ "**: " ++ r.scalar

/-- The title of a section of a card. -/
def Violation.title : Violation → String
  | invalid => "Invalid"
  | extra => "Extra"

/-- The lines of one section of a card: its heading, its bullets and a blank line. -/
def Row.sectionLines (marks : String) (rows : List Row) (violation : Violation) : List String :=
  let bullets := (rows.filter fun r => r.violation == violation).map bullet
  [marks ++ " " ++ violation.title,
    if bullets.isEmpty then "_none_" else "\n".intercalate bullets, ""]

/-- The rows as a Markdown card with a section for each violation, without blanks at its end. -/
def Row.card (marks : String) (rows : List Row) : String :=
  let lines := Row.sectionLines marks rows .invalid ++ Row.sectionLines marks rows .extra
  String.ofList (Text.trimEnd ("\n".intercalate lines).toList)

/-- The heading marks of a level; a level below one has none. A level that is no index, or of which
there are too many marks to be held, is a fault. -/
def Row.marks (level : Value) : Except Fault String :=
  match level.integer? with
  | none => .error (.notRepeatable level.typeName)
  | some n =>
    if n < -Value.maxCount - 1 || Value.maxCount < n then .error (.indexTooLarge level.typeName)
    else if Value.maxHeld < n then .error .outOfMemory
    else .ok (String.ofList (List.replicate n.toNat '#'))

/-- The Markdown card of a value that is an explanation. The level is looked at first. -/
def Value.card (level v : Value) : Except Fault String := do
  let marks ← Row.marks level
  let rows ← Value.rows (.text Row.root) v
  .ok (Row.card marks rows)

end Conformance
