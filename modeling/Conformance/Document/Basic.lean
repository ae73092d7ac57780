/-!
# JSON documents

The tree that a JSON text stands for, and the faults of a text that stands for none.

## Main definitions

* `Document`, `Document.member?` — the tree, and the value under a name of an object
* `DocumentCause`, `DocumentFault` — what is wrong with a text, and where
-/

namespace Conformance

/-- A JSON value. A number with a fraction or an exponent is kept as its numeral. -/
inductive Document where
  | null
  | bool (value : Bool)
  | integer (value : Int)
  | decimal (numeral : String)
  | text (value : String)
  | array (items : List Document)
  | object (members : List (String × Document))

/-- The value under a name of an object; of several, the last one counts. -/
def Document.member? (name : String) (members : List (String × Document)) : Option Document :=
  (members.reverse.find? fun member => member.1 == name).map (·.2)

/-- What is wrong with a text at some place. -/
inductive DocumentCause where
  | propertyName
  | colon
  | comma
  | value
  | extraData
  | unterminated
  | controlCharacter
  | escape
  | unicodeEscape
  | byteOrderMark
  deriving DecidableEq

/-- The first fault of a text, with the characters before it. -/
structure DocumentFault where
  cause : DocumentCause
  before : List Char

/-- What is wrong, in words. -/
def DocumentCause.text : DocumentCause → String
  | propertyName => "Expecting property name enclosed in double quotes"
  | colon => "Expecting ':' delimiter"
  | comma => "Expecting ',' delimiter"
  | value => "Expecting value"
  | extraData => "Extra data"
  | unterminated => "Unterminated string starting at"
  | controlCharacter => "Invalid control character at"
  | escape => "Invalid \\escape"
  | unicodeEscape => "Invalid \\uXXXX escape"
  | byteOrderMark => "Unexpected UTF-8 BOM (decode using utf-8-sig)"

/-- The number of the line of a fault, from one. -/
def DocumentFault.line (fault : DocumentFault) : Nat := fault.before.count '\n' + 1

/-- The place of a fault in its line, from one. -/
def DocumentFault.column (fault : DocumentFault) : Nat :=
  (fault.before.reverse.takeWhile (· != '\n')).length + 1

/-- The fault with its line, its column and its offset in the text. -/
def DocumentFault.text (fault : DocumentFault) : String :=
  s!"{fault.cause.text}: line {fault.line} column {fault.column} (char {fault.before.length})"

end Conformance
