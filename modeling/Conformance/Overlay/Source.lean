import Conformance.Callable.Calling
import Conformance.Pack.Reading

/-!
# Sources of defaults

A source pairs every rule with a default value. It is split into a schema and the defaults, in the
order of the source, and the defaults have to conform to the schema exactly. So a default that
breaks its own rule is found where it is written down.

## Main definitions

* `Session.splitSource` — the schema and the defaults of a source
* `Session.packOf` — the pack of a schema, as a run
* `Session.buildDefaultsBy` — the two parts of a source, with the defaults held against the schema,
  where it is open what a callable says about a value
* `Session.buildDefaults` — the same, where callables are called
-/

namespace Conformance

/-- The two parts of an entry of a source. -/
def Value.rulePair? (v : Value) : Option (Value × Value) :=
  match v.sequence? with
  | some [raw, default] => some (raw, default)
  | _ => none

namespace Session

/-- The rules and the defaults of the entries of a source, up to the first that is no pair. -/
def splitEntries (name : Value) :
    List (Value × Value) → Except Fault (List (Value × Value) × List (Value × Value))
  | [] => .ok ([], [])
  | (key, v) :: rest =>
    match v.rulePair? with
    | none => .error (.sourceEntryNotPair name key v)
    | some (raw, default) => do
      let (schema, defaults) ← splitEntries name rest
      .ok ((key, raw) :: schema, (key, default) :: defaults)

/-- The schema and the defaults of a source. -/
def splitSource (name source : Value) :
    Except Fault (List (Value × Value) × List (Value × Value)) := do
  match source.mapping? with
  | none => .error (.sourceNotMapping name source.typeName)
  | some m => splitEntries name (← m.items)

/-- The pack of a schema; a malformed one is a fault. -/
def packOf {σ : Type} (schema : Value) : Run σ (Pack Value Value) :=
  match Pack.ofValue schema with
  | .ok p => pure p
  | .error cause => Run.raise (.malformed cause)

/-- The schema and the defaults of a source, if the defaults conform to the schema exactly, where
`check` says what a callable says about a value. -/
def buildDefaultsBy (check : Value → Value → Run Session Bool) (name source : Value) :
    Run Session (Value × Value) := do
  let (schema, defaults) ← Run.lift (splitSource name source)
  let schema := Value.dict 0 schema
  let defaults := Value.dict 0 defaults
  let p ← packOf schema
  if ← p.accepts check true defaults then
    log (.defaultsBuilt name (schema.entries?.getD [] |>.map (·.1)))
    pure (schema, defaults)
  else
    let e ← p.examine check defaults
    let rows ← Run.lift (Value.rows name e.toValue)
    Run.raise (.defaultsNonconforming name rows)

/-- The schema and the defaults of a source, if the defaults conform to the schema exactly. -/
def buildDefaults (name source : Value) : Run Session (Value × Value) :=
  buildDefaultsBy Value.verdict name source

end Session

end Conformance
