import Conformance.Fault.Basic
import Conformance.Value.Printer

/-!
# The wording of faults

Every fault has a kind, by which callers tell faults apart, and a message.

## Main definitions

* `Fault.kind`, `Fault.message`
* `Row.line` — a row as it appears inside a message
-/

namespace Conformance

/-- A row inside a message: its path, its violation and the value. -/
def Row.line (r : Row) : String :=
  r.path ++ ": " ++ r.violation.text ++ " " ++ r.value.render

/-- The wording of a malformed schema. -/
def Malformed.message : Malformed → String
  | schema type => "schema must be a mapping, got " ++ type
  | rule type => "rule must be a predicate or a nested mapping, got " ++ type
  | unreadable => Probe.lookup.name

/-- The name of a flag. -/
def Flag.name : Flag → String
  | exactKeys => "exact_keys"
  | exact => "exact"

/-- A list of names: the last two are joined by a word, and by a comma too from three names on. -/
def nameList : List String → String
  | [] => ""
  | [a] => a
  | [a, b] => a ++ " and " ++ b
  | names => ", ".intercalate names.dropLast ++ ", and " ++ names.getLastD ""

/-- The verb for a number of things. -/
def wasOrWere (n : Nat) : String := if n == 1 then "was" else "were"

/-- An ending for more than one. -/
def plural (n : Nat) : String := if n == 1 then "" else "s"

/-- The place of bytes that are no UTF-8: of a single byte its value is given as well. -/
def undecodableMessage (fault : Text.Utf8Fault) : String :=
  let place := match fault.bytes with
    | [b] => s!"byte 0x{String.ofList (Text.hex 2 b.toNat)} in position {fault.position}"
    | bytes => s!"bytes in position {fault.position}-{fault.position + bytes.length - 1}"
  "'utf-8' codec can't decode " ++ place ++ ": " ++ fault.cause.text

/-- The names of all kinds, in alphabetical order. -/
def kindNames : List String :=
  ["boolean", "dataframe", "integer", "list", "number", "object", "string"]

/-- The message about a kind that does not exist. -/
def unknownKindMessage (found : Value) : String :=
  "unknown type name " ++ found.render ++ "; expected one of [" ++
    ", ".intercalate (kindNames.map Text.quote) ++ "]"

/-- The names of the signals that show the absence of a message. -/
def Signal.showsAbsence : List String := ["SyntaxError", "IndentationError", "TabError"]

/-- The wording of a signal: its message, which is quoted where it stands for a key. -/
def Signal.text (s : Signal) : String :=
  match s.message with
  | none => if Signal.showsAbsence.contains s.name then Value.null.render else ""
  | some message => if s.name == "KeyError" then Text.quote message else message

namespace Fault

/-- The kind of a fault. -/
def kind : Fault → String
  | malformed .unreadable => "RuntimeError"
  | malformed _ | flagNotBool .. | notExplanation _ | explanationExpected _ | entryNotPair _
  | sourceNotMapping .. | sourceEntryNotPair .. => "SchemaError"
  | defaultsNonconforming .. => "ConfigurationError"
  | nonconforming .. => "ValidationError"
  | switchNotBool _ | elementLength .. | ambiguousTruth _ | stepZero | notNumeral _ | wordWithZero
  | invalidDocument _ | documentNotObject => "ValueError"
  | unhashable _ | notIterable _ | notIterator _ | notCallable _ | notSized _ | unordered _
  | notRepeatable _ | missingArguments .. | excessArguments .. | oneArgument ..
  | elementNotSequence _ | uncopyable _ | wordNotText _ => "TypeError"
  | unknownKind _ | absentKey _ => "KeyError"
  | noAttribute .. => "AttributeError"
  | refused _ | iterationStopped => "RuntimeError"
  | countTooLarge | indexTooLarge _ => "OverflowError"
  | outOfMemory => "MemoryError"
  | fileMissing => "FileNotFoundError"
  | fileIsDirectory => "IsADirectoryError"
  | undecodable _ => "UnicodeDecodeError"
  | raised signal => signal.name

/-- The message of a fault. -/
def message : Fault → String
  | malformed cause => cause.message
  | flagNotBool flag type => flag.name ++ " must be a bool, got " ++ type
  | notExplanation found => "not an explanation: " ++ found.render
  | explanationExpected found =>
    "not an explanation (expected exactly 'invalid' and 'extra' sequences): " ++ found.render
  | entryNotPair entry => "explanation entry is not a (key, value) pair: " ++ entry.render
  | sourceNotMapping name type =>
    name.display ++ ": defaults source must be a mapping, got " ++ type
  | sourceEntryNotPair name key found =>
    name.display ++ "." ++ key.display ++ ": expected a (rule, default) pair, got " ++
      found.render
  | defaultsNonconforming name rows =>
    name.display ++ ": defaults do not conform to their own schema (" ++
      "; ".intercalate (rows.map Row.line) ++ ")"
  | nonconforming rows _ =>
    "value does not conform to schema:\n" ++
      "\n".intercalate (rows.map fun row => "  " ++ row.line)
  | switchNotBool type => "validation_enabled must be a bool, got " ++ type
  | unhashable type => "unhashable type: '" ++ type ++ "'"
  | notIterable type => "'" ++ type ++ "' object is not iterable"
  | notIterator type => "'" ++ type ++ "' object is not an iterator"
  | notCallable type => "'" ++ type ++ "' object is not callable"
  | notSized type => "object of type '" ++ type ++ "' has no len()"
  | unordered type => "'>' not supported between instances of '" ++ type ++ "' and 'int'"
  | notRepeatable type => "can't multiply sequence by non-int of type '" ++ type ++ "'"
  | missingArguments name parameters =>
    s!"{name}() missing {parameters.length} required positional " ++
      s!"argument{plural parameters.length}: " ++
      nameList (parameters.map fun parameter => "'" ++ parameter ++ "'")
  | excessArguments name expected given =>
    s!"{name}() takes {expected} positional argument{plural expected} but {given} " ++
      wasOrWere given ++ " given"
  | oneArgument name given => s!"{name}() takes exactly one argument ({given} given)"
  | elementNotSequence index =>
    s!"cannot convert dictionary update sequence element #{index} to a sequence"
  | elementLength index length =>
    s!"dictionary update sequence element #{index} has length {length}; 2 is required"
  | uncopyable type => "cannot pickle '" ++ type ++ "' object"
  | unknownKind found => Text.quote (unknownKindMessage found)
  | absentKey key => key.render
  | noAttribute type name => "'" ++ type ++ "' object has no attribute '" ++ name ++ "'"
  | refused operation => operation.name
  | iterationStopped => "generator raised StopIteration"
  | ambiguousTruth type =>
    "The truth value of a " ++ type ++
      " is ambiguous. Use a.empty, a.item(), a.any() or a.all()."
  | indexTooLarge type => "cannot fit '" ++ type ++ "' into an index-sized integer"
  | countTooLarge => "Python int too large to convert to C ssize_t"
  | outOfMemory => ""
  | stepZero => "range() arg 3 must not be zero"
  | notNumeral text => "could not convert string to float: " ++ Text.quote text
  | wordNotText type => "str expected, not " ++ type
  | wordWithZero => "embedded null byte"
  | fileMissing => "Config not found: <path>"
  | fileIsDirectory => "[Errno 21] Is a directory: '<path>'"
  | undecodable fault => undecodableMessage fault
  | invalidDocument fault => "Invalid JSON in <path>: " ++ fault.text
  | documentNotObject => "Config at '<path>' must be a JSON object."
  | raised signal => signal.text

end Fault

end Conformance
