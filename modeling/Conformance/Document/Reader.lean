import Conformance.Document.Basic

/-!
# Reading JSON

Reads a text as one JSON value with blanks around it. Beyond the standard, `NaN`, `Infinity` and
`-Infinity` are numbers. A repeated name is allowed.

Every reader takes the rest of the text and returns what is left of it. A reader that stops
reports how much of the text was left where the fault lies, from which its place follows.

## Main definitions

* `Document.read` — the document of a text, or the text's first fault
-/

namespace Conformance.Document

/-- A fault, with the number of characters from it to the end of the text. -/
structure Stop where
  cause : DocumentCause
  left : Nat

/-- The four blank characters of JSON. -/
def isSpace (c : Char) : Bool := c == ' ' || c == '\t' || c == '\n' || c == '\r'

/-- A text without the blanks at its start. -/
def skipSpace (cs : List Char) : List Char := cs.dropWhile isSpace

/-- The value of a hexadecimal digit. -/
def hexDigit? (c : Char) : Option Nat :=
  if '0' ≤ c && c ≤ '9' then some (c.toNat - '0'.toNat)
  else if 'a' ≤ c && c ≤ 'f' then some (c.toNat - 'a'.toNat + 10)
  else if 'A' ≤ c && c ≤ 'F' then some (c.toNat - 'A'.toNat + 10)
  else none

/-- The value of four hexadecimal digits. -/
def hexUnit? (a b c d : Char) : Option Nat := do
  let a ← hexDigit? a
  let b ← hexDigit? b
  let c ← hexDigit? c
  let d ← hexDigit? d
  some (((a * 16 + b) * 16 + c) * 16 + d)

/-- The first half of a surrogate pair. -/
def isHighSurrogate (unit : Nat) : Bool := 0xd800 ≤ unit && unit ≤ 0xdbff

/-- The second half of a surrogate pair. -/
def isLowSurrogate (unit : Nat) : Bool := 0xdc00 ≤ unit && unit ≤ 0xdfff

/-- The character of one unit. Half a pair alone is no character and is replaced. -/
def unitChar (unit : Nat) : Char :=
  if isHighSurrogate unit || isLowSurrogate unit then '\uFFFD' else Char.ofNat unit

/-- The character of a surrogate pair. -/
def pairChar (high low : Nat) : Char :=
  Char.ofNat (0x10000 + (high - 0xd800) * 0x400 + (low - 0xdc00))

/-- The character of a one-letter escape. -/
def escapeChar? : Char → Option Char
  | '"' => some '"'
  | '\\' => some '\\'
  | '/' => some '/'
  | 'b' => some '\x08'
  | 'f' => some '\x0c'
  | 'n' => some '\n'
  | 'r' => some '\r'
  | 't' => some '\t'
  | _ => none

/-- The second half of a surrogate pair, if the text goes on with one: its unit and the text after
it. An escape with wrong digits is a fault, as it stands inside the pair; one that is cut off at
the end of the text is not looked at. -/
def lowHalf? (high : Nat) (cs : List Char) : Except Stop (Option (Nat × List Char)) :=
  match cs with
  | '\\' :: 'u' :: a :: b :: c :: d :: next :: rest =>
    if isHighSurrogate high then
      match hexUnit? a b c d with
      | none => .error ⟨.unicodeEscape, rest.length + 6⟩
      | some low => .ok (if isLowSurrogate low then some (low, next :: rest) else none)
    else .ok none
  | _ => .ok none

/-- Reads the characters of a text up to its closing quote. `opening` is what was left of the
document at the opening quote. -/
def readChars (opening : Nat) : Nat → List Char → Except Stop (List Char × List Char)
  | 0, _ => .error ⟨.unterminated, opening⟩
  | _ + 1, [] => .error ⟨.unterminated, opening⟩
  | fuel + 1, c :: rest =>
    let continueWith (read : Char) (rest : List Char) := do
      let (chars, rest) ← readChars opening fuel rest
      .ok (read :: chars, rest)
    if c == '"' then .ok ([], rest)
    else if c == '\\' then
      match rest with
      | [] => .error ⟨.unterminated, opening⟩
      | 'u' :: a :: b :: c :: d :: next :: rest =>
        match hexUnit? a b c d with
        | none => .error ⟨.unicodeEscape, rest.length + 6⟩
        | some unit => do
          match ← lowHalf? unit (next :: rest) with
          | some (low, rest) => continueWith (pairChar unit low) rest
          | none => continueWith (unitChar unit) (next :: rest)
      | 'u' :: rest => .error ⟨.unicodeEscape, rest.length + 1⟩
      | letter :: rest =>
        match escapeChar? letter with
        | none => .error ⟨.escape, rest.length + 2⟩
        | some read => continueWith read rest
    else if c.toNat ≤ 0x1f then .error ⟨.controlCharacter, rest.length + 1⟩
    else continueWith c rest

/-- Reads a text whose opening quote has been read. -/
def readText (rest : List Char) : Except Stop (String × List Char) := do
  let (chars, rest) ← readChars (rest.length + 1) (rest.length + 1) rest
  .ok (String.ofList chars, rest)

/-- Splits the digits off the start of a text. -/
def spanDigits (cs : List Char) : List Char × List Char :=
  (cs.takeWhile Char.isDigit, cs.dropWhile Char.isDigit)

/-- The fraction of a number at the start of a text: a point with a digit after it. -/
def spanFraction (cs : List Char) : List Char × List Char :=
  match cs with
  | '.' :: d :: rest =>
    if d.isDigit then
      let (digits, rest) := spanDigits rest
      ('.' :: d :: digits, rest)
    else ([], cs)
  | _ => ([], cs)

/-- The exponent of a number at the start of a text, if it has a digit. -/
def spanExponent (cs : List Char) : List Char × List Char :=
  match cs with
  | e :: rest =>
    if e == 'e' || e == 'E' then
      let (sign, rest) := match rest with
        | '-' :: more => (['-'], more)
        | '+' :: more => (['+'], more)
        | more => ([], more)
      match spanDigits rest with
      | ([], _) => ([], cs)
      | (digits, rest) => (e :: sign ++ digits, rest)
    else ([], cs)
  | [] => ([], cs)

/-- Reads a number. No zero stands in front of another digit. -/
def readNumber? (cs : List Char) : Option (Document × List Char) :=
  let (sign, unsigned) := match cs with
    | '-' :: rest => (['-'], rest)
    | rest => ([], rest)
  let whole := match unsigned with
    | '0' :: rest => (['0'], rest)
    | rest => spanDigits rest
  match whole with
  | ([], _) => none
  | (digits, rest) =>
    let (fraction, rest) := spanFraction rest
    let (exponent, rest) := spanExponent rest
    if fraction.isEmpty && exponent.isEmpty then
      let size : Int := (String.ofList digits).toNat?.getD 0
      some (.integer (if sign.isEmpty then size else -size), rest)
    else some (.decimal (String.ofList (sign ++ digits ++ fraction ++ exponent)), rest)

/-- The words that are values by themselves. -/
def words : List (List Char × Document) :=
  [("null".toList, .null), ("true".toList, .bool true), ("false".toList, .bool false),
   ("NaN".toList, .decimal "NaN"), ("Infinity".toList, .decimal "Infinity"),
   ("-Infinity".toList, .decimal "-Infinity")]

/-- Reads a word or a number. -/
def readScalar (cs : List Char) : Except Stop (Document × List Char) :=
  match words.find? fun word => word.1.isPrefixOf cs with
  | some (word, value) => .ok (value, cs.drop word.length)
  | none =>
    match readNumber? cs with
    | some read => .ok read
    | none => .error ⟨.value, cs.length⟩

mutual

/-- Reads a value at the start of a text. `fuel` bounds the depth of the recursion. No two steps
in a row leave the text as it is, so that twice its length is enough. -/
def readValue : Nat → List Char → Except Stop (Document × List Char)
  | 0, cs => .error ⟨.value, cs.length⟩
  | _ + 1, '"' :: rest => do
    let (value, rest) ← readText rest
    .ok (.text value, rest)
  | fuel + 1, '{' :: rest =>
    match skipSpace rest with
    | '}' :: rest => .ok (.object [], rest)
    | rest => do
      let (members, rest) ← readMembers fuel rest
      .ok (.object members, rest)
  | fuel + 1, '[' :: rest =>
    match skipSpace rest with
    | ']' :: rest => .ok (.array [], rest)
    | rest => do
      let (items, rest) ← readItems fuel rest
      .ok (.array items, rest)
  | _ + 1, cs => readScalar cs

/-- Reads the items of an array up to its closing bracket. -/
def readItems : Nat → List Char → Except Stop (List Document × List Char)
  | 0, cs => .error ⟨.value, cs.length⟩
  | fuel + 1, cs => do
    let (item, rest) ← readValue fuel cs
    match skipSpace rest with
    | ']' :: rest => .ok ([item], rest)
    | ',' :: rest =>
      let (items, rest) ← readItems fuel (skipSpace rest)
      .ok (item :: items, rest)
    | rest => .error ⟨.comma, rest.length⟩

/-- Reads the members of an object up to its closing brace. -/
def readMembers : Nat → List Char → Except Stop (List (String × Document) × List Char)
  | 0, cs => .error ⟨.propertyName, cs.length⟩
  | fuel + 1, '"' :: rest => do
    let (name, rest) ← readText rest
    match skipSpace rest with
    | ':' :: rest =>
      let (value, rest) ← readValue fuel (skipSpace rest)
      match skipSpace rest with
      | '}' :: rest => .ok ([(name, value)], rest)
      | ',' :: rest =>
        let (members, rest) ← readMembers fuel (skipSpace rest)
        .ok ((name, value) :: members, rest)
      | rest => .error ⟨.comma, rest.length⟩
    | rest => .error ⟨.colon, rest.length⟩
  | _ + 1, cs => .error ⟨.propertyName, cs.length⟩

end

/-- The fault of a stop, with its place in the whole text. -/
def Stop.fault (stop : Stop) (whole : List Char) : DocumentFault :=
  ⟨stop.cause, whole.take (whole.length - stop.left)⟩

/-- The document of a text, or the text's first fault. -/
def read (whole : List Char) : Except DocumentFault Document :=
  match whole with
  | '\uFEFF' :: _ => .error ⟨.byteOrderMark, []⟩
  | _ =>
    match readValue (2 * whole.length + 2) (skipSpace whole) with
    | .error stop => .error (stop.fault whole)
    | .ok (document, rest) =>
      match skipSpace rest with
      | [] => .ok document
      | rest => .error ((⟨.extraData, rest.length⟩ : Stop).fault whole)

end Conformance.Document
