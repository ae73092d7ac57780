import Conformance.Value.Agreement

/-!
# Reading mappings

A mapping is gone through by its keys, asked for the value at a key, or listed by its entries. Some
mappings cannot be listed, and may refuse one of the other questions, or both. A mapping that can be
listed refuses none, since listing it is to go through its keys and to look up each.

## Main definitions

* `Mapping`, `Value.mapping?` — a value as a mapping
* `Mapping.keys`, `Mapping.get`, `Mapping.items` — the three questions
* `Mapping.told` — the entries that are told key by key, as they are where a mapping is filled

## Main results

* `Mapping.get_eq_ok`, `Mapping.keys_eq_ok` — answers come from the entries
* `Value.entries?_eq_some_iff` — the entries of a value are those that it tells key by key
-/

namespace Conformance

/-- A value as a mapping. -/
inductive Mapping where
  | readable (entries : List (Value × Value))
  | unlisted (entries : List (Value × Value)) (refusals : Refusals)

/-- A value as a mapping, if it is one. -/
def Value.mapping? : Value → Option Mapping
  | .probe _ .lookup => some (.unlisted [(.text "a", .null)] ⟨false, true⟩)
  | .probe _ (.unlisted entries refusals) => some (.unlisted entries refusals)
  | .dict _ entries | .view entries => some (.readable entries)
  | .pack p => some (.readable (p.rules.map fun entry => (entry.1, .rule entry.2)))
  | _ => none

namespace Mapping

/-- The entries of a mapping, whatever it tells of them. -/
def entries : Mapping → List (Value × Value)
  | readable entries | unlisted entries _ => entries

/-- The keys of a mapping. -/
def keys : Mapping → Except Fault (List Value)
  | readable entries => .ok (entries.map (·.1))
  | unlisted entries refusals =>
    if refusals.keys then .error (.refused .lookup) else .ok (entries.map (·.1))

/-- The value at a key, and nothing at a key that is absent. -/
def get (m : Mapping) (key : Value) : Except Fault Value :=
  match m with
  | readable entries => .ok ((Value.lookup? entries key).getD .null)
  | unlisted entries refusals =>
    if refusals.get then .error (.refused .lookup)
    else .ok ((Value.lookup? entries key).getD .null)

/-- The entries of a mapping, all at once. -/
def items : Mapping → Except Fault (List (Value × Value))
  | readable entries => .ok entries
  | unlisted .. => .error (.refused .lookup)

/-- The entries of a mapping, key by key. Without keys there is nothing to look up. -/
def told : Mapping → Except Fault (List (Value × Value))
  | readable entries => .ok entries
  | unlisted entries refusals =>
    if refusals.keys || refusals.get && !entries.isEmpty then .error (.refused .lookup)
    else .ok entries

/-- What a mapping tells key by key it lists as well. This is so of each class of mappings that
keeps to what mappings are documented to do. -/
def IsConsistent (m : Mapping) : Prop := ∀ entries, m.told = .ok entries → m.items = .ok entries

variable {m : Mapping}

theorem keys_eq_ok {keys : List Value} (h : m.keys = .ok keys) : keys = m.entries.map (·.1) := by
  cases m with
  | readable entries => cases h; rfl
  | unlisted entries refusals =>
    rw [Mapping.keys] at h
    split at h
    · cases h
    · cases h
      rfl

/-- What is found at a key stands in the entries, or is nothing. -/
theorem get_eq_ok {key x : Value} (h : m.get key = .ok x) :
    x = (Value.lookup? m.entries key).getD .null := by
  cases m with
  | readable entries => cases h; rfl
  | unlisted entries refusals =>
    rw [get] at h
    split at h
    · cases h
    · cases h
      rfl

theorem get_eq_error {key : Value} {fault : Fault} (h : m.get key = .error fault) :
    fault = .refused .lookup := by
  cases m with
  | readable entries => cases h
  | unlisted entries refusals =>
    rw [get] at h
    split at h
    · cases h
      rfl
    · cases h

theorem keys_eq_error {fault : Fault} (h : m.keys = .error fault) : fault = .refused .lookup := by
  cases m with
  | readable entries => cases h
  | unlisted entries refusals =>
    rw [keys] at h
    split at h
    · cases h
      rfl
    · cases h

/-- A mapping that answers one look-up answers all. -/
theorem get_of_get {key x : Value} (h : m.get key = .ok x) (other : Value) :
    m.get other = .ok ((Value.lookup? m.entries other).getD .null) := by
  cases m with
  | readable entries => rfl
  | unlisted entries refusals =>
    rw [get] at h ⊢
    split at h
    · cases h
    next answers => rw [if_neg answers, Mapping.entries]

/-- A mapping that can be listed refuses nothing. -/
theorem items_eq_ok {entries : List (Value × Value)} (h : m.items = .ok entries) :
    m = .readable entries := by
  cases m with
  | readable listed => cases h; rfl
  | unlisted => cases h

/-- A mapping that can be listed has the keys of its entries. -/
theorem keys_eq_of_items {entries : List (Value × Value)} (h : m.items = .ok entries) :
    m.keys = .ok (entries.map (·.1)) := by
  rw [items_eq_ok h, keys]

theorem isConsistent_readable (entries : List (Value × Value)) : (readable entries).IsConsistent :=
  fun _ told => told

theorem get_of_items {entries : List (Value × Value)} (h : m.items = .ok entries) (key : Value) :
    ∃ x, m.get key = .ok x := by
  rw [items_eq_ok h]
  exact ⟨_, rfl⟩

theorem told_eq_ok_iff {entries : List (Value × Value)} :
    m.told = .ok entries ↔ m.entries = entries ∧ m.keys = .ok (entries.map (·.1)) ∧
      (entries = [] ∨ ∀ key, m.get key = .ok ((Value.lookup? entries key).getD .null)) := by
  cases m with
  | readable listed =>
    constructor
    · intro h
      cases h
      exact ⟨rfl, rfl, .inr fun _ => rfl⟩
    · rintro ⟨rfl, -⟩
      rfl
  | unlisted listed refusals =>
    obtain ⟨keys, get⟩ := refusals
    cases listed <;> cases keys <;> cases get <;>
      simp [told, Mapping.entries, Mapping.keys, Mapping.get] <;> rintro rfl <;> simp

/-- What a mapping tells at one of its keys is found there. -/
theorem get_of_told {entries : List (Value × Value)} {key x : Value} (told : m.told = .ok entries)
    (found : Value.lookup? entries key = some x) : m.get key = .ok x := by
  obtain ⟨-, -, rfl | answers⟩ := told_eq_ok_iff.mp told
  · cases found
  · rw [answers, found]
    rfl

end Mapping

/-- Whether a value can be listed, if it is a mapping. -/
def Value.IsListable (v : Value) : Prop :=
  ∀ m, v.mapping? = some m → ∃ entries, m.items = .ok entries

/-- Whether a value lists what it tells key by key, if it is a mapping. -/
def Value.IsConsistent (v : Value) : Prop := ∀ m, v.mapping? = some m → m.IsConsistent

theorem Value.isSome_mapping? (v : Value) : v.mapping?.isSome = v.isMapping := by
  cases v <;> try rfl
  case probe _ p => cases p <;> rfl

theorem Value.isMapping_of_mapping? {v : Value} {m : Mapping} (h : v.mapping? = some m) :
    v.isMapping = true := by
  rw [← isSome_mapping?, h]
  rfl

theorem Value.isMapping_eq_false {v : Value} (h : v.mapping? = none) : v.isMapping = false := by
  rw [← isSome_mapping?, h]
  rfl

theorem Value.mapping?_eq_none {v : Value} (h : v.isMapping = false) : v.mapping? = none := by
  rw [← isSome_mapping?] at h
  simpa using h

/-- The entries of a value are those that it tells as a mapping, key by key. -/
theorem Value.entries?_eq_some_iff {v : Value} {entries : List (Value × Value)} :
    v.entries? = some entries ↔ ∃ m, v.mapping? = some m ∧ m.told = .ok entries := by
  cases v with
  | probe id p =>
    cases p with
    | unlisted listed refusals =>
      simp only [entries?, mapping?, Option.some.injEq, exists_eq_left', Mapping.told]
      split <;> simp
    | lookup => simp [entries?, mapping?, Mapping.told]
    | _ => simp [entries?, mapping?]
  | _ => simp [entries?, mapping?, Mapping.told]

/-- What a value tells key by key is what it has, as a mapping. -/
theorem Value.exists_of_entries? {v : Value} {entries : List (Value × Value)}
    (h : v.entries? = some entries) : ∃ m, v.mapping? = some m ∧ m.entries = entries := by
  obtain ⟨m, mapping, told⟩ := entries?_eq_some_iff.mp h
  exact ⟨m, mapping, (Mapping.told_eq_ok_iff.mp told).1⟩

/-- A mapping that can be listed is one of entries. -/
theorem Value.entries?_eq_of_items {v : Value} {m : Mapping} {entries : List (Value × Value)}
    (mapping : v.mapping? = some m) (listed : m.items = .ok entries) :
    v.entries? = some entries := by
  rw [Mapping.items_eq_ok listed] at mapping
  exact entries?_eq_some_iff.mpr ⟨_, mapping, rfl⟩

theorem Value.entries?_eq_none {v : Value} (h : v.mapping? = none) : v.entries? = none := by
  rw [Option.eq_none_iff_forall_ne_some]
  intro entries found
  obtain ⟨m, mapping, -⟩ := entries?_eq_some_iff.mp found
  rw [h] at mapping
  cases mapping

end Conformance
