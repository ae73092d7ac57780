import Conformance.Run
import Conformance.Value.Mapping

/-!
# Acceptance of values by packs

A pack accepts a mapping if each of its rules accepts the value at its key, where an absent key
counts as nothing. In exact mode the mapping must have no key besides those of the pack. What is no
mapping is accepted by an empty pack alone, and in exact mode not even by that.

The walk stops at the first rule that does not accept, so that no later check is called. It is
written over an arbitrary check, which may work on a state and may end in a fault.

## Main definitions

* `Pack.has` — whether a key has a rule
* `Pack.accepts` — the walk

## Main results

* `Pack.acceptRules_cons_eq_true_iff` — rules accept if each of them does
* `Pack.accepts_permissively_of_mapping`, `Pack.accepts_exactly_of_mapping` — the two modes on a
  mapping
* `Pack.accepts_exactly_iff` — what is accepted in exact mode
-/

namespace Conformance

variable {σ α β : Type}

/-- Whether one of the rules stands under a key. -/
def Pack.hasRule (rules : List (Value × Rule Value α)) (key : Value) : Bool :=
  rules.any fun entry => key.same entry.1

/-- Other checks under the same keys leave the keys with a rule as they are. -/
theorem Pack.hasRule_mapRules (f : α → β) (rules : List (Value × Rule Value α))
    (key : Value) : hasRule (mapRules f rules) key = hasRule rules key := by
  induction rules with
  | nil => rfl
  | cons entry rest ih => exact congrArg (key.same entry.1 || ·) ih

/-- Whether a mapping has a key besides those of rules. -/
def Pack.hasExtra (rules : List (Value × Rule Value α)) (m : Mapping) : Except Fault Bool := do
  .ok ((← m.keys).any fun key => !Pack.hasRule rules key)

/-- Whether a pack has a rule for a key. -/
def Pack.has (p : Pack Value α) (key : Value) : Bool := Pack.hasRule p.rules key

mutual

/-- Whether a pack accepts a value. -/
def Pack.accepts (check : α → Value → Run σ Bool) (exact : Bool) :
    Pack Value α → Value → Run σ Bool
  | .mk _ rules, v =>
    match v.mapping? with
    | none => pure (!exact && rules.isEmpty)
    | some m => do
      let extra ← Run.lift (if exact then Pack.hasExtra rules m else .ok false)
      if extra then pure false else Pack.acceptRules check exact rules m
termination_by structural a => a

/-- Whether each rule accepts what a mapping has at its key, up to the first that does not. -/
def Pack.acceptRules (check : α → Value → Run σ Bool) (exact : Bool) :
    List (Value × Rule Value α) → Mapping → Run σ Bool
  | [], _ => pure true
  | (key, r) :: rest, m => do
    let observed ← Run.lift (m.get key)
    if ← r.accepts check exact observed then Pack.acceptRules check exact rest m else pure false
termination_by structural a => a

/-- Whether a rule accepts a value. -/
def Rule.accepts (check : α → Value → Run σ Bool) (exact : Bool) :
    Rule Value α → Value → Run σ Bool
  | .leaf _ c, observed => check c observed
  | .nested _ p, observed => p.accepts check exact observed
termination_by structural a => a

end

/-- Rules accept if no look-up is refused and each rule accepts, from where the one before left the
state. -/
theorem Pack.acceptRules_cons_eq_true_iff {check : α → Value → Run σ Bool} {exact : Bool}
    {key : Value} {r : Rule Value α} {rest : List (Value × Rule Value α)} {m : Mapping} {s t : σ} :
    acceptRules check exact ((key, r) :: rest) m s = (.ok true, t) ↔
      ∃ x u, m.get key = .ok x ∧ r.accepts check exact x s = (.ok true, u) ∧
        acceptRules check exact rest m u = (.ok true, t) := by
  simp only [acceptRules, Run.bind_eq_ok_iff, Run.lift_eq_ok_iff]
  constructor
  · rintro ⟨x, _, ⟨lookup, rfl⟩, b, u, accepted, further⟩
    cases b with
    | true => exact ⟨x, u, lookup, accepted, further⟩
    | false => exact absurd (Run.pure_eq_ok_iff.mp further).1 (by simp)
  · rintro ⟨x, u, lookup, accepted, further⟩
    exact ⟨x, s, ⟨lookup, rfl⟩, true, u, accepted, further⟩

variable {check : α → Value → Run σ Bool} {id : Nat} {rules : List (Value × Rule Value α)}
  {v : Value} {m : Mapping}

/-- Only in exact mode does a mapping have to tell its keys. -/
theorem Pack.accepts_permissively_of_mapping (mapping : v.mapping? = some m) :
    (mk id rules).accepts check false v = acceptRules check false rules m := by
  rw [accepts, mapping]
  rfl

theorem Pack.accepts_exactly_of_mapping (mapping : v.mapping? = some m) :
    (mk id rules).accepts check true v = (do
      if ← Run.lift (hasExtra rules m) then pure false else acceptRules check true rules m) := by
  rw [accepts, mapping]
  rfl

/-- A mapping that can be listed tells its keys. -/
theorem Pack.accepts_of_items {exact : Bool} {entries : List (Value × Value)}
    (mapping : v.mapping? = some m) (listed : m.items = .ok entries) :
    (mk id rules).accepts check exact v =
      if exact && (entries.map (·.1)).any (fun key => !hasRule rules key) then pure false
      else acceptRules check exact rules m := by
  cases exact with
  | false => exact accepts_permissively_of_mapping mapping
  | true =>
    rw [accepts_exactly_of_mapping mapping, hasExtra, Mapping.keys_eq_of_items listed]
    rfl

theorem Pack.hasExtra_eq_ok_iff {extra : Bool} :
    hasExtra rules m = .ok extra ↔
      ∃ keys, m.keys = .ok keys ∧ (keys.any fun key => !hasRule rules key) = extra := by
  rw [hasExtra]
  cases m.keys with
  | error fault => simp [bind, Except.bind]
  | ok keys => simp [bind, Except.bind]

theorem Pack.keys_of_hasExtra {fault : Fault} (h : hasExtra rules m = .error fault) :
    m.keys = .error fault := by
  rw [hasExtra] at h
  cases keys : m.keys with
  | ok listed =>
    rw [keys] at h
    cases h
  | error refused =>
    rw [keys] at h
    exact congrArg Except.error (Except.error.inj h)

/-- What is accepted in exact mode is a mapping each of whose keys has a rule, and each rule
accepts. -/
theorem Pack.accepts_exactly_iff {check : α → Value → Run σ Bool} {id : Nat}
    {rules : List (Value × Rule Value α)} {v : Value} {s t : σ} :
    (mk id rules).accepts check true v s = (.ok true, t) ↔
      ∃ m, v.mapping? = some m ∧ hasExtra rules m = .ok false ∧
        acceptRules check true rules m s = (.ok true, t) := by
  rw [accepts]
  cases v.mapping? with
  | none => simp
  | some m =>
    simp only [if_true, Option.some.injEq, exists_eq_left']
    cases hasExtra rules m with
    | error fault => simp [Run.bind_apply]
    | ok extra => cases extra <;> simp [Run.lift_ok_bind]

end Conformance
