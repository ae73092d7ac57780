import Conformance.Overlay.Source
import Conformance.Pack.Numbering
import Conformance.Settings.Resolution

/-!
# Validation

The operations on values and schemas as they are given: a schema is turned into a pack first, flags
are checked before anything else, and the settings in force decide whether anything is checked.

## Main definitions

* `Session.acceptsBy`, `Session.examineBy` — whether, and how, a value departs from a schema, where
  it is open what a callable says about a value
* `Session.enforceBy` — the value itself, if it conforms, where the same is open
* `Session.accepts`, `Session.examine`, `Session.enforce` — the same, where callables are called
* `Session.guard` — a function whose results are enforced to conform
* `Session.newPack`, `Session.newRule` — packs and rules as objects
-/

namespace Conformance.Session

/-- A flag that has to be a truth value. -/
def requireFlag (flag : Flag) : Value → Except Fault Bool
  | .bool b => .ok b
  | v => .error (.flagNotBool flag v.typeName)

/-- Whether a schema accepts a value, where `check` says what a callable says about a value. -/
def acceptsBy {σ : Type} (check : Value → Value → Run σ Bool) (schema value exact : Value) :
    Run σ Bool := do
  let exact ← Run.lift (requireFlag .exactKeys exact)
  let p ← packOf schema
  p.accepts check exact value

/-- How a value departs from a schema, where `check` says what a callable says about a value. -/
def examineBy {σ : Type} (check : Value → Value → Run σ Bool) (schema value : Value) :
    Run σ Explanation := do
  let p ← packOf schema
  p.examine check value

/-- Whether a schema accepts a value. -/
def accepts (schema value exact : Value) : Run Session Bool :=
  acceptsBy Value.verdict schema value exact

/-- How a value departs from a schema. -/
def examine (schema value : Value) : Run Session Explanation :=
  examineBy Value.verdict schema value

/-- Whether the explanation of a value lists no violation that counts. -/
def examinesFree (exact : Bool) (schema value : Value) : Run Session Bool := do
  let e ← examine schema value
  Run.lift (e.toValue.isFree exact)

/-- The switch that decides about a validation: that of the given settings, or of those in force. A
table can have a column in its place, which is neither true nor false. -/
def switchFor (given : Value) : Run Session Bool := do
  match given with
  | .null => return (← get).settings.enabled
  | .settings s => pure s.enabled
  | .frame i columns rows cell =>
    match Settings.columnType? columns Settings.memberName with
    | some type => Run.raise (.ambiguousTruth type)
    | none =>
      Run.raise (.noAttribute (Value.frame i columns rows cell).typeName Settings.memberName)
  | v => Run.raise (.noAttribute v.typeName Settings.memberName)

/-- The value itself, if it conforms to the schema or if validation is off, where `check` says what
a callable says about a value. -/
def enforceBy (check : Value → Value → Run Session Bool) (value schema exact given : Value) :
    Run Session Value := do
  let exact ← Run.lift (requireFlag .exact exact)
  let enabled ← switchFor given
  passing check (Pack.ofValue schema) exact enabled value

/-- The value itself, if it conforms to the schema or if validation is off. -/
def enforce (value schema exact given : Value) : Run Session Value :=
  enforceBy Value.verdict value schema exact given

/-- A function whose results are enforced to conform. While validation is off the function is left
as it is. -/
def guard (schema exact : Value) : Run Session Value := do
  let exact ← Run.lift (requireFlag .exact exact)
  let f : Callable :=
    if (← get).settings.enabled then .guarded (Pack.ofValue schema) exact else .returning
  return .callable (← fresh) f

/-- Numbers the new objects of a pack or a rule. -/
def numbering {α : Type} (x : StateM Nat α) : Run Session α := fun s =>
  let (a, next) := x.run s.nextId
  (.ok a, { s with nextId := next })

/-- The pack of a schema, as an object. -/
def newPack (schema : Value) : Run Session (Pack Value Value) := do
  let p ← packOf schema
  numbering p.number

/-- The rule of a value, as an object. -/
def newRule (raw : Value) : Run Session (Rule Value Value) := do
  match Rule.ofValue raw with
  | .ok r => numbering r.number
  | .error cause => Run.raise (.malformed cause)

/-- Whether the pack of a pack is that same pack. -/
def packIsKept (schema : Value) : Run Session Bool := do
  let p ← newPack schema
  let q ← newPack (.pack p)
  pure (p.id == q.id)

/-- The rule under a key of the pack of a schema. -/
def ruleAt (schema key : Value) : Run Session (Rule Value Value) := do
  let p ← newPack schema
  Run.lift key.requireHashable
  match p.rules.find? fun entry => key.same entry.1 with
  | some (_, r) => pure r
  | none => Run.raise (.absentKey key)

/-- Whether the pack of a schema has a rule for a key. -/
def hasRuleAt (schema key : Value) : Run Session Bool := do
  let p ← packOf schema
  Run.lift key.requireHashable
  pure (p.has key)

/-- What a rule says about a value. Only a rule that is no pack can be asked. -/
def checkRule (raw value : Value) : Run Session Bool := do
  match ← newRule raw with
  | .leaf _ check => check.verdict value
  | .nested id p => Run.raise (.noAttribute (Value.rule (.nested id p)).typeName "check")

end Conformance.Session
