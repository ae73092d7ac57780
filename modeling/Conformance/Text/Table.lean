import Conformance.Text.Blank

/-!
# Tables as text

A table all of whose cells are alike, with a heading over each column and a number before each row.
Columns stand side by side, one blank apart, each as wide as its widest line.

A long table shows its first and its last rows only, and a table too wide for the screen its first
and its last columns; dots stand for what is left out, and the size of the table follows. A table
without cells is written as the lists of its columns and of its rows.

## Main definitions

* `Text.padLeft`, `Text.padRight` — a text made as wide as asked
* `Text.beside` — columns of lines, side by side
* `Text.Table`, `Text.Table.render` — a table, and its written form
-/

namespace Conformance.Text

/-- A text behind as many blanks as it lacks in width. -/
def padLeft (width : Nat) (s : String) : String :=
  String.ofList (List.replicate (width - s.length) ' ') ++ s

/-- A text before as many blanks as it lacks in width. -/
def padRight (width : Nat) (s : String) : String :=
  s ++ String.ofList (List.replicate (width - s.length) ' ')

/-- The width of the widest line. -/
def widest (lines : List String) : Nat := (lines.map String.length).max?.getD 0

/-- Lines made equally wide. -/
def level (lines : List String) : List String := lines.map (padRight (widest lines))

/-- Columns of lines side by side, one blank apart. -/
def beside : List (List String) → List String
  | [] => []
  | [column] => level column
  | column :: rest => List.zipWith (fun l r => l ++ " " ++ r) (level column) (beside rest)

/-- The number of blanks in front of a text. -/
def indentation (s : String) : Nat := (s.toList.takeWhile isBlank).length

/-- Texts without the blanks that all of them have in front. -/
def outdent (lines : List String) : List String :=
  let margin := (lines.map indentation).min?.getD 0
  lines.map fun s => String.ofList (s.toList.drop margin)

/-- A text with the ends of lines and the tabs in it spelled out. -/
def spellControls (s : String) : String :=
  String.ofList (s.toList.flatMap fun c =>
    if c == '\t' then ['\\', 't']
    else if c == '\r' then ['\\', 'r']
    else if c == '\n' then ['\\', 'n']
    else [c])

/-- A table of equal cells. -/
structure Table where
  /-- The names of the columns, as they are listed. -/
  names : List String
  /-- The names of the columns, as they stand over them. -/
  headings : List String
  /-- Whether the headings are made equally wide. -/
  isLevel : Bool
  /-- The number of rows. -/
  rows : Nat
  /-- What stands in each cell. -/
  cell : String

namespace Table

/-- The width of a screen. -/
def screenWidth : Nat := 80

/-- The greatest number of rows that are all shown. -/
def maxRows : Nat := 60

/-- The number of rows that a longer table shows at either end. -/
def endRows : Nat := 5

/-- The greatest number of items that a list shows. -/
def maxListed : Nat := 100

/-- The greatest width of a cell, unless its heading is wider. -/
def maxCellWidth : Nat := 50

/-- The dots for the rows that are left out, in a column of some width. -/
def gap (width : Nat) : String := if 3 < width then "..." else ".."

/-- The line of each row that is shown, with dots for those that are left out. -/
def rowLines (t : Table) (line : Nat → String) (dots : String) : List String :=
  if t.rows ≤ maxRows then (List.range t.rows).map line
  else
    (List.range endRows).map line ++
      dots :: (List.range endRows).map fun i => line (t.rows - endRows + i)

/-- The column of the numbers of the rows. -/
def numbers (t : Table) : List String :=
  let width := (toString (t.rows - 1)).length
  "" :: t.rowLines (fun i => padRight width (toString i)) (padRight width (gap width))

/-- The column under a heading. -/
def column (t : Table) (heading : String) : List String :=
  let width := min maxCellWidth (max heading.length t.cell.length)
  padLeft width heading :: t.rowLines (fun _ => padLeft width t.cell) (padLeft width (gap width))

/-- The column of dots for the columns that are left out. -/
def columnGap (t : Table) : List String := " ..." :: t.rowLines (fun _ => " ...") " ..."

/-- The columns under some of the headings, with one blank in front of these that all have. -/
def columnsUnder (t : Table) (headings : List String) : List (List String) :=
  (outdent (if t.isLevel then level headings else headings)).map fun heading =>
    t.column (" " ++ heading)

/-- The columns of the table, with the numbers of its rows in front. Where `ends` is given, only so
many columns are shown at either end. -/
def columns (t : Table) (ends : Option Nat) : List (List String) :=
  match ends with
  | none => t.numbers :: t.columnsUnder t.headings
  | some k =>
    let shown := t.columnsUnder
      (t.headings.take k ++ t.headings.drop (t.headings.length - k))
    t.numbers :: (shown.take k ++ t.columnGap :: shown.drop k)

/-- The place of the column that is left out next, among `n` columns: half of `n`, and the even
neighbour where that is no whole number. -/
def middle (n : Nat) : Nat := if n % 4 == 3 then n / 2 + 1 else n / 2

/-- How many of `n` columns remain when columns are left out from the middle until nothing is in
excess any more. At least one remains. -/
def remaining (excess : Int) : Nat → List Nat → Nat
  | 0, _ => 0
  | 1, _ => 1
  | n + 2, widths =>
    if excess ≤ 0 then n + 2
    else
      let place := middle (n + 2)
      remaining (excess - (widths.getD place 0 + 1)) (n + 1) (widths.eraseIdx place)

/-- The number of columns that fit the screen, but at least two. The numbers of the rows are no
column of their own. -/
def fitting (columns : List (List String)) : Nat :=
  let widths := columns.map widest
  let width : Nat := widths.foldr (fun w total => w + 1 + total) 0
  max 2 (remaining (width - screenWidth) widths.length widths - 1)

/-- The number of columns that are shown at either end, if not all are shown. More columns than the
screen is wide are cut before it is looked at how wide they are. -/
def ends (t : Table) : Option Nat :=
  let n := t.headings.length
  let fit := fitting (t.columns (if n ≤ screenWidth then none else some (screenWidth / 2)))
  if fit < n then some (fit / 2) else none

/-- A list of a number of items, of which only so many are written as a list shows. -/
def listing (items : List String) (count : Nat) : String :=
  "[" ++ ", ".intercalate (items.take maxListed) ++
    (if maxListed < count then ", ...]" else "]")

/-- The size of the table, which follows a table that is not shown in full. -/
def size (t : Table) : String :=
  s!"\n\n[{t.rows} rows x {t.names.length} columns]"

/-- The written form of a table. -/
def render (t : Table) : String :=
  if t.names.isEmpty || t.rows == 0 then
    "Empty DataFrame\nColumns: " ++ listing t.names t.names.length ++ "\nIndex: " ++
      listing ((List.range (min t.rows maxListed)).map toString) t.rows ++
      (if t.rows ≤ maxRows && t.names.length ≤ screenWidth then "" else t.size)
  else
    let ends := t.ends
    "\n".intercalate (beside (t.columns ends)) ++
      (if t.rows ≤ maxRows && ends.isNone then "" else t.size)

end Table

example : (List.range 8).map Table.middle = [0, 0, 1, 2, 2, 2, 3, 4] := by decide

end Conformance.Text
