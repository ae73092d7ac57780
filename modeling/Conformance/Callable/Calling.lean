import Conformance.Callable.Checks
import Conformance.Guard

/-!
# Calling

What a callable gives for its arguments. A callable can hold further callables, and a guarded one
holds a whole pack of them, which are called in turn.

## Main definitions

* `Value.apply` — the call on a single value, as a rule makes it
* `Pack.checks` — a pack whose checks are called, instead of being described
* `Value.call` — the call on any number of arguments
-/

namespace Conformance

/-- The names of the parameters of a check of several arguments. -/
def Collective.parameters : Collective → List String
  | count => ["n", "coll"]
  | each => ["n", "pred", "coll"]
  | sameSize => []
  | entries => ["key_pred", "val_pred", "m"]

/-- The fault of a call with a wrong number of arguments. -/
def wrongArguments (name : String) (parameters : List String) (given : Nat) : Fault :=
  if given < parameters.length then .missingArguments name (parameters.drop given)
  else .excessArguments name parameters.length given

/-- A primitive on a value. -/
def Primitive.apply : Primitive → Value → Run Session Value
  | boom, _ => Run.raise (.raised ⟨"RuntimeError", some "boom"⟩)
  | picky, v => v.isPicked
  | identity, v => pure v
  | length, v =>
    match v.length? with
    | some count => Run.lift (count.map fun n => .int n)
    | none => Run.raise (.notSized v.typeName)
  | callable, v => pure (.bool v.isCallable)

mutual

/-- The result of calling a value on a value. -/
def Value.apply : Value → Value → Run Session Value
  | .callable _ f, x => f.apply x
  | v, _ => Run.raise (.notCallable v.typeName)
termination_by structural a => a

/-- The result of a callable on a value. -/
def Callable.apply : Callable → Value → Run Session Value
  | .check c, x => pure (.bool (c.holds x))
  | .ofKind k, x => pure (.bool (k.holds x))
  | .oneOf options, x => pure (.bool (x.isOneOf options))
  | .optional p, x =>
    match x with
    | .null => pure (.bool true)
    | x => .bool <$> Session.callHolds p.apply x
  | .both ps, x => .bool <$> Run.insideIteration (Value.allHold ps x)
  | .either ps, x => .bool <$> Run.insideIteration (Value.anyHolds ps x)
  | .collective .sameSize, x => Run.lift (Session.sameCount [x])
  | .collective c, _ => Run.raise (wrongArguments c.name c.parameters 1)
  | .hasCount n, x => Session.countIs n x
  | .allCount n p, x => Session.eachOf n p.apply x
  | .sameSize others, x => Run.lift (Session.sameCount (others ++ [x]))
  | .mapStructure keyCheck valueCheck, x => Session.entriesHold keyCheck.apply valueCheck.apply x
  | .primitive p, x => p.apply x
  | .const v, _ => pure v
  | .raising s, _ => Run.raise (.raised s)
  | .spy tag p, x => do
    Session.note tag x
    p.apply x
  | .returning, x => pure x
  | .guarded (.error cause) exact, x => do
    let enabled := (← get).settings.enabled
    Session.passing (fun check => check) (.error cause) exact enabled x
  | .guarded (.ok p) exact, x => do
    let enabled := (← get).settings.enabled
    Session.passing (fun check => check) (.ok p.checks) exact enabled x
termination_by structural a => a

/-- Whether every call holds for a value, up to the first that does not. -/
def Value.allHold : List Value → Value → Run Session Bool
  | [], _ => pure true
  | p :: ps, x => do
    if ← Session.callHolds p.apply x then Value.allHold ps x else pure false
termination_by structural a => a

/-- Whether some call holds for a value, up to the first that does. -/
def Value.anyHolds : List Value → Value → Run Session Bool
  | [], _ => pure false
  | p :: ps, x => do
    if ← Session.callHolds p.apply x then pure true else Value.anyHolds ps x
termination_by structural a => a

/-- A pack whose checks are called. -/
def Pack.checks : Pack Value Value → Pack Value (Value → Run Session Bool)
  | .mk id rules => .mk id (Pack.checksOf rules)
termination_by structural a => a

/-- A rule whose checks are called. -/
def Rule.checks : Rule Value Value → Rule Value (Value → Run Session Bool)
  | .leaf id f => .leaf id (Session.verdict f f.apply)
  | .nested id p => .nested id p.checks
termination_by structural a => a

/-- Rules whose checks are called. -/
def Pack.checksOf :
    List (Value × Rule Value Value) → List (Value × Rule Value (Value → Run Session Bool))
  | [] => []
  | (key, r) :: rest => (key, r.checks) :: Pack.checksOf rest
termination_by structural a => a

end

/-- What a value used as a check says about another value. -/
def Value.verdict (check observed : Value) : Run Session Bool :=
  Session.verdict check check.apply observed

mutual

theorem Pack.checks_eq_map (p : Pack Value Value) : p.checks = p.map Value.verdict := by
  cases p with
  | mk id rules => rw [Pack.checks, Pack.map, Pack.checksOf_eq_mapRules]

theorem Rule.checks_eq_map (r : Rule Value Value) : r.checks = r.map Value.verdict := by
  cases r with
  | leaf id f => rfl
  | nested id p => rw [Rule.checks, Rule.map, Pack.checks_eq_map]

theorem Pack.checksOf_eq_mapRules (rules : List (Value × Rule Value Value)) :
    Pack.checksOf rules = Pack.mapRules Value.verdict rules := by
  match rules with
  | [] => rfl
  | (key, r) :: rest =>
    rw [Pack.checksOf, Pack.mapRules, Rule.checks_eq_map, Pack.checksOf_eq_mapRules]

end

/-- The result of a check of several arguments on all of them. -/
def Collective.call : Collective → List Value → Run Session Value
  | count, [n, collection] => Session.countIs n collection
  | each, [n, p, collection] => Session.eachOf n p.apply collection
  | sameSize, collections => Run.lift (Session.sameCount collections)
  | entries, [keyCheck, valueCheck, m] => Session.entriesHold keyCheck.apply valueCheck.apply m
  | c, arguments => Run.raise (wrongArguments c.name c.parameters arguments.length)

/-- The result of calling a value on any number of arguments. -/
def Value.call : Value → List Value → Run Session Value
  | f, [x] => f.apply x
  | .callable _ (.collective c), arguments => c.call arguments
  | .callable _ (.primitive .length), arguments =>
    Run.raise (.oneArgument Primitive.length.name arguments.length)
  | .callable _ (.primitive .callable), arguments =>
    Run.raise (.oneArgument Primitive.callable.name arguments.length)
  | .callable _ f, arguments =>
    Run.raise (wrongArguments f.qualifiedName ["x"] arguments.length)
  | v, _ => Run.raise (.notCallable v.typeName)

end Conformance
