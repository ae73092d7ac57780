import Conformance.Explanation.Rows
import Conformance.Fault.Message

/-!
# Sessions

The state that one answer leaves for the next: how far each stream has been read, what the spies
have noted, what has been logged, the settings in force and the environment.

## Main definitions

* `Session`, `Session.initial`
* `Record` — one entry of the log, with its level and its channel
* `Session.fresh` — a number for a new object
* `Session.next?`, `Session.rest` — one item of a stream, or all that are left
-/

namespace Conformance

/-- One entry of the log. -/
inductive Record where
  /-- A check raised; the name of the fault and the value that was checked. -/
  | checkRaised (check : Value) (fault : String) (observed : Value)
  /-- Validation is off, and a value was passed through. -/
  | passedThrough
  /-- The settings in force were resolved. -/
  | resolved (enabled : Bool)
  /-- Defaults were found to conform to their schema. -/
  | defaultsBuilt (name : Value) (keys : List Value)

/-- An entry of the log with its level and its channel. -/
def Record.text : Record → String
  | checkRaised check fault observed =>
    "DEBUG pack_schema.rules predicate " ++ check.render ++ " raised " ++ fault ++ " on " ++
      observed.render
  | passedThrough => "DEBUG pack_schema.assertions validation disabled; passing value through"
  | resolved enabled =>
    "INFO pack_schema.config pack_schema validation " ++ if enabled then "enabled" else "disabled"
  | defaultsBuilt name keys =>
    "DEBUG pack_schema.defaults built defaults pack " ++ name.display ++ " with keys " ++
      (Value.list 0 keys).render

/-- The state of a session. -/
structure Session where
  /-- Every object has a smaller number. -/
  nextId : Nat
  /-- How many items have been taken from the streams. The first entry of a stream counts. -/
  taken : List (Nat × Nat)
  /-- What the spies have noted, in order: a tag and the value that was checked. -/
  calls : List (Value × Value)
  /-- The log, in order. -/
  records : List Record
  /-- The settings in force. -/
  settings : Settings
  /-- What the environment says about the settings. -/
  environment : Option String

namespace Session

/-- A session in which nothing has happened. Validation is on. -/
def initial : Session where
  nextId := Callable.firstFreeId
  taken := []
  calls := []
  records := []
  settings := ⟨1, true⟩
  environment := none

/-- A number for a new object. -/
def fresh : Run Session Nat := fun s => (.ok s.nextId, { s with nextId := s.nextId + 1 })

/-- Adds an entry to the log. -/
def log (r : Record) : Run Session Unit := modify fun s => { s with records := s.records ++ [r] }

/-- Notes that a spy was called. -/
def note (tag observed : Value) : Run Session Unit :=
  modify fun s => { s with calls := s.calls ++ [(tag, observed)] }

/-- How many items have been taken from a stream. -/
def takenFrom (s : Session) (id : Nat) : Nat := (s.taken.lookup id).getD 0

/-- Records how many items have been taken from a stream. -/
def setTaken (id count : Nat) : Run Session Unit :=
  modify fun s => { s with taken := (id, count) :: s.taken }

/-- The items that are left in a stream of which all items are known, or the fault of working them
out. A stream that has failed has nothing left. -/
def left (id : Nat) (items : Except Fault (List Value)) : Run Session (List Value) := do
  let count := (← get).takenFrom id
  match items with
  | .ok items => pure (items.drop count)
  | .error e =>
    if count == 0 then
      setTaken id 1
      Run.raise e
    else pure []

/-- All that is left in a stream; afterwards nothing is. -/
def rest (id : Nat) (items : Except Fault (List Value)) : Run Session (List Value) := do
  let remaining ← left id items
  setTaken id ((← get).takenFrom id + remaining.length)
  pure remaining

/-- The next item of a stream, if one is left. -/
def next? (id : Nat) (items : Except Fault (List Value)) : Run Session (Option Value) := do
  match ← left id items with
  | [] => pure none
  | item :: _ =>
    setTaken id ((← get).takenFrom id + 1)
    pure (some item)

end Session

/-- A stream by its number, with the items that it has from its start. -/
def Value.stream? : Value → Option (Nat × Except Fault (List Value))
  | .stream id items => some (id, .ok items)
  | .rowStream id explanation root =>
    some (id, (Value.rows root explanation).map fun rows => rows.map Row.toValue)
  | _ => none

end Conformance
