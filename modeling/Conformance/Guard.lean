import Conformance.Pack.Examination
import Conformance.Session

/-!
# Guards

A guard lets a value pass if it conforms to a schema, and fails with a full explanation if it does
not. While validation is off it lets everything pass and looks at nothing.

## Main definitions

* `Session.verdict` — what a check says about a value: whatever it raises counts against the value
* `Explanation.isFree` — whether no violation that counts was found
* `Session.passing` — the guard
-/

namespace Conformance

/-- Whether no violation that counts was found: extra keys count in exact mode only. -/
def Explanation.isFree (exact : Bool) (e : Explanation) : Bool :=
  e.invalid.isEmpty && (!exact || e.extra.isEmpty)

/-- The part of an explanation that counts. -/
def Explanation.counting (exact : Bool) (e : Explanation) : Explanation :=
  if exact then e else ⟨e.invalid, []⟩

namespace Session

/-- What a check says about a value. Its result is taken as a condition. If the call or the
condition raises, that is logged and counts as a refusal, unless it stops the whole program. -/
def verdict (check : Value) (call : Value → Run Session Value) (observed : Value) :
    Run Session Bool :=
  Run.recover (do Run.lift (← call observed).truth) fun e => do
    log (.checkRaised check e.kind observed)
    pure false

/-- Fails with what keeps a value from conforming. -/
def reject (exact : Bool) (e : Explanation) : Run Session Value := do
  let rows ← Run.lift (Value.rows (.text Row.root) (e.counting exact).toValue)
  Run.raise (.nonconforming rows e)

/-- Lets a value pass if it conforms to the schema, or if validation is off. -/
def passing {α : Type} (check : α → Value → Run Session Bool)
    (schema : Except Malformed (Pack Value α)) (exact enabled : Bool) (v : Value) :
    Run Session Value := do
  if enabled then
    match schema with
    | .error cause => Run.raise (.malformed cause)
    | .ok p =>
      let e ← p.examine check v
      if e.isFree exact then pure v else reject exact e
  else
    log .passedThrough
    pure v

end Session

end Conformance
