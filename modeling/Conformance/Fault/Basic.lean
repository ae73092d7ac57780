import Conformance.Document.Basic
import Conformance.Explanation.Basic
import Conformance.Text.Utf8

/-!
# Faults

Everything that can go wrong, by its cause. A fault is ordinary unless it asks the whole program to
stop: an ordinary fault of a check only counts against the value that was checked.

## Main definitions

* `Fault`
* `Fault.isOrdinary`
-/

namespace Conformance

/-- The flags that have to be truth values. -/
inductive Flag where
  | exactKeys
  | exact
  deriving DecidableEq

/-- Why an answer could not be given. A field called `type` is the name of the type of the value at
fault. -/
inductive Fault where
  /-- A schema is none. -/
  | malformed (cause : Malformed)
  /-- A flag is no truth value. -/
  | flagNotBool (flag : Flag) (type : String)
  /-- What should be flattened is no explanation. -/
  | notExplanation (found : Value)
  /-- What should be judged is no explanation. -/
  | explanationExpected (found : Value)
  /-- An entry of an explanation is no pair. -/
  | entryNotPair (entry : Value)
  /-- A source of defaults is no mapping. -/
  | sourceNotMapping (name : Value) (type : String)
  /-- An entry of a source of defaults is no pair of a rule and a default. -/
  | sourceEntryNotPair (name key found : Value)
  /-- Defaults do not conform to the schema that they came with. -/
  | defaultsNonconforming (name : Value) (rows : List Row)
  /-- A value does not conform: the rows that count, and everything that was found. -/
  | nonconforming (rows : List Row) (explanation : Explanation)
  /-- The switch of validation is set to something else than a truth value. -/
  | switchNotBool (type : String)
  | unhashable (type : String)
  | notIterable (type : String)
  | notIterator (type : String)
  | notCallable (type : String)
  | notSized (type : String)
  /-- A value has no order against an integer. -/
  | unordered (type : String)
  /-- A text cannot be repeated that often. -/
  | notRepeatable (type : String)
  /-- A callable is called without some of its arguments. -/
  | missingArguments (name : String) (parameters : List String)
  /-- A callable is called with too many arguments. -/
  | excessArguments (name : String) (expected given : Nat)
  /-- A callable of one argument is called with another number of them. -/
  | oneArgument (name : String) (given : Nat)
  /-- An item that should give an entry has no items itself. -/
  | elementNotSequence (index : Nat)
  /-- An item that should give an entry has not two items. -/
  | elementLength (index length : Nat)
  | uncopyable (type : String)
  /-- There is no kind of values of this name. -/
  | unknownKind (found : Value)
  | absentKey (key : Value)
  | noAttribute (type name : String)
  /-- A probe refuses its operation. -/
  | refused (operation : Probe)
  /-- A check ended the iteration that called it. -/
  | iterationStopped
  /-- A table, or a column of one, is neither true nor false. -/
  | ambiguousTruth (type : String)
  /-- A number of items is too large to be counted. -/
  | countTooLarge
  /-- A number is too large to be an index. -/
  | indexTooLarge (type : String)
  | outOfMemory
  /-- A range counts in steps of zero. -/
  | stepZero
  /-- A text is no numeral. -/
  | notNumeral (text : String)
  /-- A variable of the environment is set to something else than a text. -/
  | wordNotText (type : String)
  /-- A variable of the environment is set to a text with a zero character. -/
  | wordWithZero
  | fileMissing
  | fileIsDirectory
  | undecodable (fault : Text.Utf8Fault)
  | invalidDocument (fault : DocumentFault)
  /-- A settings file holds something else than an object. -/
  | documentNotObject
  /-- A callable raised by itself. -/
  | raised (signal : Signal)

/-- The signals that stop the whole program. -/
def Signal.aborts (s : Signal) : Bool :=
  ["KeyboardInterrupt", "SystemExit", "GeneratorExit", "BaseException"].contains s.name

/-- Whether a signal says that an iteration is over. -/
def Signal.endsIteration (s : Signal) : Bool := s.name == "StopIteration"

/-- Whether a fault of a check only counts against the value that was checked. -/
def Fault.isOrdinary : Fault → Bool
  | raised s => !s.aborts
  | _ => true

end Conformance
