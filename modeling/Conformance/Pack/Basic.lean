/-!
# Packs of rules

A pack gives each of its keys a rule, in an order that is kept. A rule either checks a value by
itself or applies a further pack to it. Keys and checks are parameters, so that the same walk runs
over checks that are still descriptions and over checks that are functions already.

Packs and rules are objects: each carries the number by which it is known to be the same.

## Main definitions

* `Rule`, `Pack`
* `Pack.map`, `Rule.map` — the same pack with every check replaced
* `Pack.rules`, `Pack.keys`
-/

namespace Conformance

mutual

/-- What is asked of the value at one key. -/
inductive Rule (κ α : Type) where
  /-- The check decides about the value. -/
  | leaf (id : Nat) (check : α)
  /-- The value is held against a further pack. -/
  | nested (id : Nat) (pack : Pack κ α)

/-- Rules by key, in order. -/
inductive Pack (κ α : Type) where
  | mk (id : Nat) (rules : List (κ × Rule κ α))

end

variable {κ α β γ : Type}

namespace Rule

/-- The number of a rule. -/
def id : Rule κ α → Nat
  | leaf n _ => n
  | nested n _ => n

/-- Whether a rule holds a pack. -/
def isNested : Rule κ α → Bool
  | leaf .. => false
  | nested .. => true

end Rule

namespace Pack

/-- The number of a pack. -/
def id : Pack κ α → Nat
  | mk n _ => n

/-- The rules of a pack with their keys. -/
def rules : Pack κ α → List (κ × Rule κ α)
  | mk _ rs => rs

/-- The keys of a pack. -/
def keys (p : Pack κ α) : List κ := p.rules.map (·.1)

/-- What holds of a pack as soon as it holds of the packs in its rules holds of every pack. -/
@[elab_as_elim]
theorem induction {motive : Pack κ α → Prop}
    (step : ∀ id rules, (∀ key n q, (key, Rule.nested n q) ∈ rules → motive q) →
      motive (mk id rules)) :
    ∀ p, motive p
  | mk id rules => step id rules fun key n q _member => induction step q
termination_by p => sizeOf p
decreasing_by
  have smaller := List.sizeOf_lt_of_mem _member
  simp only [Prod.mk.sizeOf_spec, Rule.nested.sizeOf_spec, mk.sizeOf_spec] at smaller ⊢
  omega

end Pack

mutual

/-- The same rule with every check replaced. -/
def Rule.map (f : α → β) : Rule κ α → Rule κ β
  | .leaf n a => .leaf n (f a)
  | .nested n p => .nested n (p.map f)
termination_by structural a => a

/-- The same pack with every check replaced. -/
def Pack.map (f : α → β) : Pack κ α → Pack κ β
  | .mk n rs => .mk n (Pack.mapRules f rs)
termination_by structural a => a

/-- The same rules with every check replaced. -/
def Pack.mapRules (f : α → β) : List (κ × Rule κ α) → List (κ × Rule κ β)
  | [] => []
  | (k, r) :: rs => (k, r.map f) :: Pack.mapRules f rs
termination_by structural a => a

end

theorem Pack.keys_mapRules (f : α → β) (rs : List (κ × Rule κ α)) :
    (Pack.mapRules f rs).map (·.1) = rs.map (·.1) := by
  induction rs with
  | nil => rfl
  | cons entry rs ih => simp [Pack.mapRules, ih]

end Conformance
