import Conformance.Value.Copying
import Conformance.Value.Entries

/-!
# Overlaid defaults

Given values over a copy of the defaults. The keys of the defaults come first, in their order, and
then the keys that only the given values have.

## Main definitions

* `Session.overlay` — defaults, overlaid by given values
* `Origin`, `Value.origin?` — which of the two a container in the result comes from
-/

namespace Conformance

namespace Session

/-- The defaults, copied, and overlaid by the given values. -/
def overlay (given defaults : Value) : Run Session (List (Value × Value)) := do
  let base ← defaults.toEntries
  let shift := (← get).nextId
  let copied ← Run.lift (Value.copyEntries shift (Value.insertAll [] base))
  modify fun s => { s with nextId := 2 * shift }
  let added ← given.toEntries
  pure (Value.insertAll copied added)

end Session

/-- Where an object in overlaid defaults comes from. -/
inductive Origin where
  | given
  | default
  | fresh
  deriving DecidableEq

namespace Value

/-- The number of a container that can be changed. -/
def container? : Value → Option Nat
  | list i _ | branch i _ | dict i _ | set i _ | bytearray i _ => some i
  | _ => none

/-- Whether a mapping has this very container under a key. -/
def holdsAt (v : Value) (key : Value) (id : Nat) : Bool :=
  match v.entries? with
  | some entries => ((lookup? entries key).bind container?) == some id
  | none => false

/-- Where the value under a key of overlaid defaults comes from, if it is a container. -/
def origin? (given defaults key v : Value) : Option Origin :=
  v.container?.map fun id =>
    if given.holdsAt key id then .given
    else if defaults.holdsAt key id then .default
    else .fresh

end Value

end Conformance
