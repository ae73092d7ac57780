import Conformance.Pack.Basic

/-!
# Numbers for new packs and rules

Packs and rules that were made while reading a schema carry `0`. Before they are handed out each of
them gets a number of its own; what has a number keeps it.

## Main definitions

* `Pack.number`, `Rule.number`
-/

namespace Conformance

variable {κ α : Type}

/-- The next number for an object that has none yet, and the object's own number otherwise. -/
def assignNumber (id : Nat) : StateM Nat Nat := fun next =>
  if id == 0 then (next, next + 1) else (id, next)

mutual

/-- Gives numbers to a rule and to the packs and rules inside it that have none. -/
def Rule.number : Rule κ α → StateM Nat (Rule κ α)
  | .leaf id check => do
    let id ← assignNumber id
    pure (.leaf id check)
  | .nested id p => do
    let id ← assignNumber id
    let p ← p.number
    pure (.nested id p)
termination_by structural a => a

/-- Gives numbers to a pack and to the packs and rules inside it that have none. -/
def Pack.number : Pack κ α → StateM Nat (Pack κ α)
  | .mk id rules => do
    let id ← assignNumber id
    let rules ← Pack.numberRules rules
    pure (.mk id rules)
termination_by structural a => a

/-- Gives numbers to the packs and rules that have none. -/
def Pack.numberRules : List (κ × Rule κ α) → StateM Nat (List (κ × Rule κ α))
  | [] => pure []
  | (key, r) :: rest => do
    let r ← r.number
    let rest ← Pack.numberRules rest
    pure ((key, r) :: rest)
termination_by structural a => a

end

end Conformance
