import Conformance.Document.Reader
import Conformance.Text.Blank
import Conformance.Value.Entries

/-!
# Where settings come from

The switch of validation is given by a flag, by a word of the environment, or by a file with a JSON
object. Without any of them validation is on.

## Main definitions

* `Settings.wordEnables` — what a word says
* `Settings.ofEnvironment` — the switch from a mapping of the environment
* `SettingsFile`, `SettingsFile.switch` — the switch from a file
-/

namespace Conformance

namespace Settings

/-- The name of the switch in the environment. -/
def variableName : String := "PACK_SCHEMA_VALIDATION"

/-- The name of the switch in a file. -/
def memberName : String := "validation_enabled"

/-- The words that turn validation off. -/
def offWords : List String := ["0", "false", "off", "no"]

/-- Whether a word leaves validation on. Blanks around it and capitals do not matter. The words that
turn it off have ASCII letters only, so that no other capital matters. -/
def wordEnables (word : String) : Bool :=
  !offWords.contains (String.ofList ((Text.trim word.toList).map Char.toLower))

/-- The name of the operation by which a word is freed of blanks. -/
def trimmerName : String := "strip"

/-- The type of what a table has under a label, if it has anything there: a single column is no
table. -/
def columnType? (columns : List Value) (label : String) : Option String :=
  match Value.columnsAt columns (.text label) with
  | [] => none
  | [_] => some "Series"
  | columns => some (Value.frame 0 columns 0 .zero).typeName

/-- The switch as a value gives it that stands for the variable. Bytes are no word, and so leave
validation on. A column of a table hides the operation of its name, and cannot be called. -/
def ofVariable : Value → Except Fault Bool
  | .null => .ok true
  | .text word => .ok (wordEnables word)
  | .bytes _ => .ok true
  | .bytearray i data => .error (.unhashable (Value.bytearray i data).typeName)
  | .frame i columns rows cell =>
    match columnType? columns trimmerName with
    | some type => .error (.notCallable type)
    | none => .error (.noAttribute (Value.frame i columns rows cell).typeName trimmerName)
  | v => .error (.noAttribute v.typeName trimmerName)

/-- The switch as an environment gives it. A table is asked for a column. -/
def ofEnvironment (environment : Value) : Except Fault Bool := do
  match environment.mapping? with
  | some m => ofVariable (← m.get (.text variableName))
  | none =>
    match environment with
    | .frame _ columns .. =>
      match columnType? columns variableName with
      | some type => .error (.noAttribute type trimmerName)
      | none => .ok true
    | v => .error (.noAttribute v.typeName "get")

/-- The switch as a flag gives it. -/
def ofFlag : Value → Except Fault Bool
  | .bool b => .ok b
  | v => .error (.switchNotBool v.typeName)

end Settings

/-- The name of the type of a JSON value. -/
def Document.typeName : Document → String
  | null => "NoneType"
  | bool _ => "bool"
  | integer _ => "int"
  | decimal _ => "float"
  | text _ => "str"
  | array _ => "list"
  | object _ => "dict"

/-- A settings file. -/
inductive SettingsFile where
  | missing
  | directory
  | content (data : List UInt8)

namespace SettingsFile

/-- A text with every end of line as a line feed: a carriage return, alone or before a line feed, is
one. -/
def unifyLines : List Char → List Char
  | '\r' :: '\n' :: rest => '\n' :: unifyLines rest
  | '\r' :: rest => '\n' :: unifyLines rest
  | c :: rest => c :: unifyLines rest
  | [] => []

/-- The document of a file. -/
def document : SettingsFile → Except Fault Document
  | missing => .error .fileMissing
  | directory => .error .fileIsDirectory
  | content data =>
    match Text.decode data with
    | .error fault => .error (.undecodable fault)
    | .ok chars =>
      match Document.read (unifyLines chars) with
      | .error fault => .error (.invalidDocument fault)
      | .ok document => .ok document

/-- The switch as a file gives it. -/
def switch (file : SettingsFile) : Except Fault Bool := do
  match ← file.document with
  | .object members =>
    match Document.member? Settings.memberName members with
    | none => .ok true
    | some (.bool b) => .ok b
    | some other => .error (.switchNotBool other.typeName)
  | _ => .error .documentNotObject

end SettingsFile

end Conformance
