import Conformance.Fault.Basic

/-!
# Copies

A copy of a value shares no object with it, at any depth. Callables and NaN are copied as
themselves; streams and read-only views have no copy.

All objects have numbers below some bound, and the copy of an object is numbered by adding that
bound to its number. So a copy is a new object, and an object that occurs several times is copied
once.

## Main definitions

* `Value.copy`
-/

namespace Conformance.Value

mutual

/-- The copy of a value, with `shift` added to the numbers of its objects. -/
def copy (shift : Nat) : Value → Except Fault Value
  | null => .ok null
  | bool b => .ok (bool b)
  | int n => .ok (int n)
  | float x => .ok (float x)
  | nan i => .ok (nan i)
  | text s => .ok (text s)
  | bytes data => .ok (bytes data)
  | bytearray i data => .ok (bytearray (i + shift) data)
  | list i items => return list (i + shift) (← copyItems shift items)
  | branch i items => return branch (i + shift) (← copyItems shift items)
  | tuple items => return tuple (← copyItems shift items)
  | set i items => return set (i + shift) (← copyItems shift items)
  | frozenset items => return frozenset (← copyItems shift items)
  | dict i entries => return dict (i + shift) (← copyEntries shift entries)
  | range start stop step => .ok (range start stop step)
  | frame i columns rows cell => .ok (frame (i + shift) columns rows cell)
  | probe i p => return probe (i + shift) (← copyProbe shift p)
  | callable i f => .ok (callable i f)
  | rule r => return rule (← copyRule shift r)
  | pack p => return pack (← copyPack shift p)
  | settings s => .ok (settings ⟨s.id + shift, s.enabled⟩)
  | view _ => .error (.uncopyable (typeName (view [])))
  | stream i items => .error (.uncopyable (typeName (stream i items)))
  | rowStream i e r => .error (.uncopyable (typeName (rowStream i e r)))
termination_by structural a => a

/-- The copy of what an object of another class holds. -/
def copyProbe (shift : Nat) : Probe → Except Fault Probe
  | .unlisted entries refusals => return .unlisted (← copyEntries shift entries) refusals
  | .indexed items => return .indexed (← copyItems shift items)
  | p => .ok p
termination_by structural a => a

/-- The copies of several values. -/
def copyItems (shift : Nat) : List Value → Except Fault (List Value)
  | [] => .ok []
  | v :: vs => return (← copy shift v) :: (← copyItems shift vs)
termination_by structural a => a

/-- The copies of entries. Of each, the value is copied before the key. -/
def copyEntries (shift : Nat) : List (Value × Value) → Except Fault (List (Value × Value))
  | [] => .ok []
  | (k, v) :: rest => do
    let v ← copy shift v
    let k ← copy shift k
    let rest ← copyEntries shift rest
    .ok ((k, v) :: rest)
termination_by structural a => a

/-- The copy of a rule. -/
def copyRule (shift : Nat) : Rule Value Value → Except Fault (Rule Value Value)
  | .leaf i f => return .leaf (i + shift) (← copy shift f)
  | .nested i p => return .nested (i + shift) (← copyPack shift p)
termination_by structural a => a

/-- The copy of a pack. -/
def copyPack (shift : Nat) : Pack Value Value → Except Fault (Pack Value Value)
  | .mk i rules => return .mk (i + shift) (← copyRules shift rules)
termination_by structural a => a

/-- The copies of rules with their keys. -/
def copyRules (shift : Nat) :
    List (Value × Rule Value Value) → Except Fault (List (Value × Rule Value Value))
  | [] => .ok []
  | (k, r) :: rest => do
    let r ← copyRule shift r
    let k ← copy shift k
    let rest ← copyRules shift rest
    .ok ((k, r) :: rest)
termination_by structural a => a

end

end Conformance.Value
