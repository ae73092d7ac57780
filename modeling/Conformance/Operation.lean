import Conformance.Explanation.Card
import Conformance.Overlay.Merging
import Conformance.Validation

/-!
# Operations

Everything that a session can be asked to do. An operation takes values as they are given and ends
with an answer or a fault; both leave a state for the next operation.

## Main definitions

* `Operation`, `Answer`
* `Operation.perform` — the run of an operation
* `Session.after` — the state that a list of operations leaves
-/

namespace Conformance

/-- What a session can be asked to do. -/
inductive Operation where
  /-- Gives a value back. -/
  | echo (v : Value)
  /-- Calls a value. -/
  | call (f : Value) (arguments : List Value)
  /-- The name of a callable. -/
  | nameOf (f : Value)
  /-- What a value used as a check says. -/
  | check (check v : Value)
  /-- What the rule of a value says. -/
  | checkRule (raw v : Value)
  /-- Which of the two kinds of rules a value stands for. -/
  | classify (raw : Value)
  /-- The pack of a schema. -/
  | newPack (schema : Value)
  /-- Whether the pack of a pack is that same pack. -/
  | packIsKept (schema : Value)
  /-- The written form of the pack of a schema. -/
  | packText (schema : Value)
  /-- The number of rules of the pack of a schema. -/
  | packSize (schema : Value)
  /-- The rule under a key. -/
  | ruleAt (schema key : Value)
  /-- Whether there is a rule under a key. -/
  | hasRuleAt (schema key : Value)
  /-- Whether a schema accepts a value. -/
  | accepts (schema v exact : Value)
  /-- How a value departs from a schema. -/
  | examine (schema v : Value)
  /-- Whether a value departs from a schema in a way that counts. -/
  | examinesFree (exact : Bool) (schema v : Value)
  /-- Whether a value has the shape of an explanation. -/
  | isExplanation (e : Value)
  /-- Whether an explanation lists no violation that counts. -/
  | isFree (exact : Bool) (e : Value)
  /-- Every view of how a value departs from a schema. -/
  | views (schema v : Value)
  /-- The rows of an explanation. -/
  | rows (e root : Value)
  /-- The rows of an explanation, to be taken one by one. -/
  | newRows (e root : Value)
  /-- The next item of a stream. -/
  | next (stream : Value)
  /-- The Markdown card of an explanation. -/
  | card (e level : Value)
  /-- The schema and the defaults of a source. -/
  | buildDefaults (source name : Value)
  /-- Defaults overlaid by given values. -/
  | overlay (given defaults : Value)
  /-- The value itself, if it conforms. -/
  | enforce (v schema exact settings : Value)
  /-- A function whose results are enforced to conform. -/
  | guard (schema exact : Value)
  /-- Settings from a flag. -/
  | newSettings (flag : Value)
  /-- The written form of settings from a flag. -/
  | settingsText (flag : Value)
  /-- Settings from a mapping of the environment. -/
  | settingsFrom (environment : Value)
  /-- Settings from a file. -/
  | settingsOf (file : SettingsFile)
  /-- Changes what the environment says. -/
  | setEnvironment (word : Value)
  /-- Replaces the settings in force. -/
  | resolve (flag : Value) (file : Option SettingsFile)
  /-- The settings in force. -/
  | settings

/-- What an operation answers. -/
inductive Answer where
  | value (v : Value)
  | rule (r : Rule Value Value)
  | rows (rows : List Row)
  /-- Acceptance in both modes, the explanation, its judgement in both modes, its rows and its
  card. -/
  | views (accepted acceptedExactly : Bool) (explanation : Value) (free freeExactly : Bool)
      (rows : List Row) (card : String)
  /-- Overlaid defaults, and where each of the containers in it comes from. -/
  | overlaid (entries : List (Value × Value)) (origins : List (Value × Origin))

namespace Session

/-- Every view of how a value departs from a schema. It is examined first. -/
def views (schema v : Value) : Run Session Answer := do
  let e := (← examine schema v).toValue
  let accepted ← accepts schema v (.bool false)
  let acceptedExactly ← accepts schema v (.bool true)
  let free ← Run.lift (e.isFree false)
  let freeExactly ← Run.lift (e.isFree true)
  let rows ← Run.lift (Value.rows (.text Row.root) e)
  let card ← Run.lift (Value.card (.int 2) e)
  pure (.views accepted acceptedExactly e free freeExactly rows card)

/-- The name of a callable. Streams are named after what yields their items. -/
def nameOf : Value → Except Fault Value
  | .callable _ f => .ok (.text f.name)
  | .stream .. => .ok (.text "<genexpr>")
  | .rowStream .. => .ok (.text "flatten")
  | v => .error (.noAttribute v.typeName "__name__")

/-- What the environment can be made to say: a word without a zero character, or nothing. -/
def wordOf : Value → Except Fault (Option String)
  | .null => .ok none
  | .text word => if word.toList.contains '\x00' then .error .wordWithZero else .ok (some word)
  | v => .error (.wordNotText v.typeName)

/-- Changes what the environment says. -/
def setEnvironment (word : Value) : Run Session Unit := do
  let environment ← Run.lift (wordOf word)
  modify fun s => { s with environment }

/-- The next item of a stream; nothing comes after the last one but a note that this is the end. -/
def nextOf (v : Value) : Run Session Value :=
  match v.stream? with
  | some (id, items) => do return (← next? id items).getD (.text "<end>")
  | none => Run.raise (.notIterator v.typeName)

/-- Overlaid defaults with the origins of its containers. -/
def overlaid (given defaults : Value) : Run Session Answer := do
  let entries ← overlay given defaults
  let origins := entries.filterMap fun entry =>
    (Value.origin? given defaults entry.1 entry.2).map fun origin => (entry.1, origin)
  pure (.overlaid entries origins)

end Session

namespace Operation

open Session in
/-- The run of an operation. -/
def perform : Operation → Run Session Answer
  | echo v => pure (.value v)
  | call f arguments => .value <$> f.call arguments
  | nameOf f => .value <$> Run.lift (Session.nameOf f)
  | check f v => do return .value (.bool (← f.verdict v))
  | checkRule raw v => do return .value (.bool (← Session.checkRule raw v))
  | classify raw => .rule <$> newRule raw
  | newPack schema => do return .value (.pack (← Session.newPack schema))
  | packIsKept schema => do return .value (.bool (← Session.packIsKept schema))
  | packText schema => do return .value (.text (Value.pack (← packOf schema)).render)
  | packSize schema => do return .value (.int (← packOf schema).rules.length)
  | ruleAt schema key => do return .value (.rule (← Session.ruleAt schema key))
  | hasRuleAt schema key => do return .value (.bool (← Session.hasRuleAt schema key))
  | accepts schema v exact => do return .value (.bool (← Session.accepts schema v exact))
  | examine schema v => do return .value (← Session.examine schema v).toValue
  | examinesFree exact schema v => do
    return .value (.bool (← Session.examinesFree exact schema v))
  | isExplanation e => do return .value (.bool (← Run.lift e.isExplanation))
  | isFree exact e => do return .value (.bool (← Run.lift (e.isFree exact)))
  | views schema v => Session.views schema v
  | rows e root => .rows <$> Run.lift (Value.rows root e)
  | newRows e root => do return .value (.rowStream (← fresh) e root)
  | next stream => .value <$> nextOf stream
  | card e level => do return .value (.text (← Run.lift (Value.card level e)))
  | buildDefaults source name => do
    let (schema, defaults) ← Session.buildDefaults name source
    return .value (.tuple [schema, defaults])
  | overlay given defaults => overlaid given defaults
  | enforce v schema exact given => .value <$> Session.enforce v schema exact given
  | guard schema exact => .value <$> Session.guard schema exact
  | newSettings flag => do
    return .value (.settings (← Session.newSettings (Settings.ofFlag flag)))
  | settingsText flag => do
    return .value (.text (← Session.newSettings (Settings.ofFlag flag)).render)
  | settingsFrom environment => do
    return .value (.settings (← Session.newSettings (switchFrom environment (← get))))
  | settingsOf file => do return .value (.settings (← Session.newSettings file.switch))
  | setEnvironment word => do
    Session.setEnvironment word
    return .value .null
  | resolve flag file => do return .value (.settings (← Session.resolve flag file))
  | settings => do return .value (.settings (← get).settings)

end Operation

/-- The state that operations leave, performed one after the other. A fault of one of them does not
keep the next from being performed. -/
def Session.after (s : Session) (operations : List Operation) : Session :=
  operations.foldl (fun s operation => (operation.perform s).2) s

end Conformance
