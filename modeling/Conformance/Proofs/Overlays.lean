import Conformance.Overlay.Merging
import Conformance.Proofs.Enforcement
import Conformance.Proofs.Library
import Conformance.Proofs.PlainData
import Mathlib.Data.List.Forall2

/-!
# Overlaid defaults that conform

Built defaults conform to their schema exactly, and have its keys in its order. A copy of them is
the same data with other numbers, which the checks of the library do not see. To overlay it with a
value that the schema accepts at its key is to replace an entry by one that is accepted as well. So
an overlay only ever leads from entries that fill the schema to entries that fill it, and these
conform exactly.

## Main definitions

* `Rule.FilledBy`, `Pack.Filled` — entries that stand under the keys of rules and are accepted by
  them
* `Value.AcceptsAt` — what a schema accepts at a key

## Main results

* `Pack.Filled.insertAll` — an overlay with accepted values fills what was filled
* `Pack.Filled.accepts` — a dictionary that fills a pack conforms to it exactly
* `Session.overlay_apply` — an overlay by given values, or why there is none
* `Session.overlay_conforms` — built defaults, overlaid by accepted values, conform
-/

namespace Conformance

variable {rules : List (Value × Rule Value Value)} {entries : List (Value × Value)}

/-- An entry stands under the key of a rule, and the rule accepts its value from every state. -/
structure Rule.FilledBy (rule : Value × Rule Value Value) (entry : Value × Value) : Prop where
  key : entry.1 = rule.1
  accepts : ∀ s, ∃ t, rule.2.accepts Value.verdict true entry.2 s = (.ok true, t)

/-- Each rule has its entry, in the same order, and there are no further entries. -/
def Pack.Filled (rules : List (Value × Rule Value Value)) (entries : List (Value × Value)) : Prop :=
  List.Forall₂ Rule.FilledBy rules entries

namespace Pack.Filled

theorem keys (h : Filled rules entries) : rules.map (·.1) = entries.map (·.1) := by
  rw [← List.forall₂_eq_eq_eq, List.forall₂_map_left_iff, List.forall₂_map_right_iff]
  exact h.imp fun _ _ here => here.key.symm

/-- To put a value that is accepted under a key that has a rule replaces the entry of that rule. -/
theorem insert (h : Filled rules entries) {key value : Value} {rule : Value × Rule Value Value}
    (first : rules.find? (fun rule => key.same rule.1) = some rule)
    (accepted : ∀ s, ∃ t, rule.2.accepts Value.verdict true value s = (.ok true, t)) :
    Filled rules (Value.insert key value entries) := by
  induction h with
  | nil => cases first
  | @cons r entry rules entries here others ih =>
    rw [List.find?_cons] at first
    rw [Value.insert, here.key]
    cases same : key.same r.1 with
    | true =>
      simp only [same, Option.some.injEq] at first
      exact .cons ⟨rfl, first ▸ accepted⟩ others
    | false =>
      simp only [same] at first
      exact .cons ⟨rfl, here.accepts⟩ (ih first)

theorem insertAll (h : Filled rules entries) {added : List (Value × Value)}
    (accepted : ∀ entry ∈ added, ∃ rule,
      rules.find? (fun rule => entry.1.same rule.1) = some rule ∧
      ∀ s, ∃ t, rule.2.accepts Value.verdict true entry.2 s = (.ok true, t)) :
    Filled rules (Value.insertAll entries added) := by
  induction added generalizing entries with
  | nil => exact h
  | cons entry rest ih =>
    obtain ⟨⟨rule, first, here⟩, others⟩ := List.forall_mem_cons.mp accepted
    exact ih (h.insert first here) others

/-- Entries among which each rule finds its own are accepted. -/
theorem acceptRules (h : Filled rules entries) {all : List (Value × Value)}
    (found : ∀ entry ∈ entries, Value.lookup? all entry.1 = some entry.2) (s : Session) :
    ∃ t, Pack.acceptRules Value.verdict true rules (.readable all) s = (.ok true, t) := by
  induction h generalizing s with
  | nil => exact ⟨s, rfl⟩
  | @cons rule entry rules entries here others ih =>
    obtain ⟨lookup, further⟩ := List.forall_mem_cons.mp found
    obtain ⟨u, accepted⟩ := here.accepts s
    obtain ⟨t, ran⟩ := ih further u
    have read : (Mapping.readable all).get rule.1 = .ok entry.2 := by
      rw [Mapping.get, ← here.key, lookup]
      rfl
    exact ⟨t, acceptRules_cons_eq_true_iff.mpr ⟨entry.2, u, read, accepted, ran⟩⟩

/-- A dictionary that fills a pack conforms to it exactly. -/
theorem accepts (h : Filled rules entries) (keyed : Value.Keyed (rules.map (·.1)))
    (pack id : Nat) (s : Session) :
    ∃ t, (Pack.mk pack rules).accepts Value.verdict true (.dict id entries) s = (.ok true, t) := by
  have noExtra : (entries.map (·.1)).any (fun key => !hasRule rules key) = false := by
    rw [← h.keys, List.any_eq_false]
    intro key member
    obtain ⟨rule, listed, rfl⟩ := List.mem_map.mp member
    have here : hasRule rules rule.1 = true :=
      List.any_eq_true.mpr ⟨rule, listed, keyed.self rule.1 member⟩
    simp [here]
  rw [h.keys] at keyed
  obtain ⟨t, accepted⟩ := h.acceptRules (fun entry member => Value.lookup?_of_mem keyed member) s
  have keysTold : hasExtra rules (.readable entries) = .ok false := congrArg Except.ok noExtra
  exact ⟨t, accepts_exactly_iff.mpr ⟨.readable entries, rfl, keysTold, accepted⟩⟩

end Pack.Filled

/-- Entries that rules accept fill them, also with other numbers, if the rules look at nothing
else. -/
theorem Pack.filled_of_acceptRules {all : List (Value × Value)} {s t : Session} (n : Nat)
    (library : ∀ f ∈ leavesOf rules, f.isLibrary = true)
    (free : ∀ entry ∈ entries, entry.2.holdsStream = false)
    (keys : rules.map (·.1) = entries.map (·.1))
    (found : ∀ entry ∈ entries, Value.lookup? all entry.1 = some entry.2)
    (accepted : acceptRules Value.verdict true rules (.readable all) s = (.ok true, t)) :
    Filled rules (Value.renumberEntries n entries) := by
  induction rules generalizing entries s with
  | nil =>
    obtain rfl := List.map_eq_nil_iff.mp keys.symm
    exact .nil
  | cons rule rules ih =>
    obtain ⟨entry, entries, rfl, key, others⟩ := List.map_eq_cons_iff.mp keys.symm
    obtain ⟨lookup, further⟩ := List.forall_mem_cons.mp found
    obtain ⟨freeHere, freeRest⟩ := List.forall_mem_cons.mp free
    obtain ⟨x, u, read, here, rest⟩ := acceptRules_cons_eq_true_iff.mp accepted
    -- What the rule is asked about is the value of its entry.
    have asked : Value.lookup? all rule.1 = some entry.2 := by
      rwa [show entry.1 = rule.1 from key] at lookup
    rw [Mapping.get, asked] at read
    cases read
    have always := Rule.accepts_renumber
      (fun f leaf => library f (List.mem_append_left _ leaf)) freeHere here n
    exact .cons ⟨key, always⟩
      (ih (fun f leaf => library f (List.mem_append_right _ leaf)) freeRest others.symm further
        rest)

/-- A copy of plain data that conforms to rules exactly, under their keys, fills them. -/
theorem Pack.filled_of_accepts {id pack : Nat} {values : List (Value × Value)} {s t : Session}
    (n : Nat) (library : ∀ f ∈ Pack.leavesOf rules, f.isLibrary = true)
    (plain : (Value.dict id values).IsPlain) (keys : rules.map (·.1) = values.map (·.1))
    (accepted : (Pack.mk pack rules).accepts Value.verdict true (.dict id values) s =
      (.ok true, t)) :
    Pack.Filled rules (Value.renumberEntries n values) := by
  obtain ⟨m, mapping, -, held⟩ := Pack.accepts_exactly_iff.mp accepted
  cases mapping
  have free := fun entry member =>
    Value.holdsStream_of_isPlain _ (plain.entry rfl entry member).2
  exact Pack.filled_of_acceptRules n library free keys
    (fun entry member => Value.lookup?_of_mem plain.keyed member) held

/-! ### Schemas -/

/-- What a schema has at a key accepts a value: what is called says that it holds, or what is a
schema itself accepts it in exact mode. -/
def Value.AcceptsAt (schema key v : Value) : Prop :=
  ∃ raws raw r s t, schema.entries? = some raws ∧ lookup? raws key = some raw ∧
    Rule.ofValue raw = .ok r ∧ r.accepts verdict true v s = (.ok true, t)

theorem Pack.ofValue_of_ofEntries {id : Nat} {raws : List (Value × Value)}
    (h : Rule.ofEntries raws = .ok rules) : Pack.ofValue (.dict id raws) = .ok (.mk 0 rules) := by
  rw [Pack.ofValue, h]
  rfl

/-- The rules of a schema are those of its values, under the same keys. -/
theorem Rule.forall₂_of_ofEntries {raws : List (Value × Value)}
    (h : Rule.ofEntries raws = .ok rules) :
    List.Forall₂ (fun raw rule => rule.1 = raw.1 ∧ Rule.ofValue raw.2 = .ok rule.2) raws rules := by
  induction raws generalizing rules with
  | nil =>
    cases h
    exact .nil
  | cons raw raws ih =>
    obtain ⟨key, v⟩ := raw
    rw [Rule.ofEntries] at h
    cases first : Rule.ofValue v with
    | error cause => rw [first] at h; cases h
    | ok r =>
      cases others : Rule.ofEntries raws with
      | error cause => rw [first, others] at h; cases h
      | ok rest =>
        rw [first, others] at h
        cases h
        exact .cons ⟨rfl, first⟩ (ih others)

theorem Rule.keys_ofEntries {raws : List (Value × Value)} (h : Rule.ofEntries raws = .ok rules) :
    rules.map (·.1) = raws.map (·.1) := by
  rw [eq_comm, ← List.forall₂_eq_eq_eq, List.forall₂_map_left_iff, List.forall₂_map_right_iff]
  exact (Rule.forall₂_of_ofEntries h).imp fun _ _ here => here.1.symm

/-- What a schema has at a key is read as the first rule under that key. -/
theorem Rule.find?_ofEntries {raws : List (Value × Value)} {key raw : Value}
    {r : Rule Value Value} (h : Rule.ofEntries raws = .ok rules)
    (lookup : Value.lookup? raws key = some raw) (read : Rule.ofValue raw = .ok r) :
    ∃ rule, rules.find? (fun rule => key.same rule.1) = some rule ∧ rule.2 = r := by
  have alike := Rule.forall₂_of_ofEntries h
  clear h
  induction alike with
  | nil => cases lookup
  | @cons entry rule raws rules here others ih =>
    rw [Value.lookup?, Value.find?, List.find?_cons] at lookup
    rw [List.find?_cons, here.1]
    cases same : key.same entry.1 with
    | true =>
      simp only [same, Option.map_some, Option.some.injEq] at lookup
      rw [lookup] at here
      cases here.2.symm.trans read
      exact ⟨rule, rfl, rfl⟩
    | false =>
      simp only [same] at lookup
      exact ih lookup

/-- What a schema accepts at a key is accepted from every state by the first rule under that key. -/
theorem Value.AcceptsAt.exists_rule {id : Nat} {raws : List (Value × Value)} {key v : Value}
    (h : (Value.dict id raws).AcceptsAt key v) (written : Rule.ofEntries raws = .ok rules)
    (library : ∀ f ∈ Pack.leavesOf rules, f.isLibrary = true) (free : v.holdsStream = false) :
    ∃ rule, rules.find? (fun rule => key.same rule.1) = some rule ∧
      ∀ s, ∃ t, rule.2.accepts verdict true v s = (.ok true, t) := by
  obtain ⟨_, raw, r, s', t', found, lookup, read, holds⟩ := h
  cases found
  obtain ⟨rule, first, rfl⟩ := Rule.find?_ofEntries written lookup read
  have leaves := fun f leaf => library f (Pack.mem_leavesOf (List.mem_of_find?_eq_some first) leaf)
  refine ⟨rule, first, fun s => ?_⟩
  have always := Rule.accepts_renumber leaves free holds 0 s
  rwa [renumber_zero] at always

namespace Session

/-! ### Built defaults -/

/-- The entries of a source are split in their order, and keep their keys. -/
theorem keys_of_splitEntries {name : Value} {listed raws values : List (Value × Value)}
    (h : splitEntries name listed = .ok (raws, values)) :
    raws.map (·.1) = listed.map (·.1) ∧ values.map (·.1) = listed.map (·.1) := by
  induction listed generalizing raws values with
  | nil =>
    cases h
    exact ⟨rfl, rfl⟩
  | cons entry rest ih =>
    obtain ⟨key, v⟩ := entry
    rw [splitEntries] at h
    cases pair : v.rulePair? with
    | none => simp only [pair] at h; cases h
    | some both =>
      cases others : splitEntries name rest with
      | error fault => simp only [pair, others] at h; cases h
      | ok split =>
        simp only [pair, others] at h
        cases h
        obtain ⟨first, second⟩ := ih others
        exact ⟨congrArg (key :: ·) first, congrArg (key :: ·) second⟩

theorem keys_of_splitSource {name source : Value} {raws values : List (Value × Value)}
    (h : splitSource name source = .ok (raws, values)) : ∃ listed, source.entries? = some listed ∧
      raws.map (·.1) = listed.map (·.1) ∧ values.map (·.1) = listed.map (·.1) := by
  rw [splitSource] at h
  cases mapping : source.mapping? with
  | none =>
    simp only [mapping] at h
    cases h
  | some m =>
    simp only [mapping] at h
    cases items : m.items with
    | error fault =>
      simp only [items] at h
      cases h
    | ok listed =>
      simp only [items] at h
      exact ⟨listed, Value.entries?_eq_of_items mapping items, keys_of_splitEntries h⟩

/-- What is built is a schema and defaults with the keys of the source, and the schema accepts the
defaults exactly. -/
theorem split_of_buildDefaultsBy {check : Value → Value → Run Session Bool}
    {name source schema defaults : Value} {s t : Session}
    (h : buildDefaultsBy check name source s = (.ok (schema, defaults), t)) :
    ∃ raws values rules u, splitSource name source = .ok (raws, values) ∧ schema = .dict 0 raws ∧
      defaults = .dict 0 values ∧ Rule.ofEntries raws = .ok rules ∧
      (Pack.mk 0 rules).accepts check true defaults s = (.ok true, u) := by
  rw [buildDefaultsBy] at h
  obtain ⟨⟨raws, values⟩, s', ran, reading⟩ := Run.bind_eq_ok_iff.mp h
  obtain ⟨split, rfl⟩ := Run.lift_eq_ok_iff.mp ran
  cases written : Rule.ofEntries raws with
  | error cause =>
    simp only [packOf, Pack.ofValue, written] at reading
    cases reading
  | ok rules =>
    simp only [packOf, Pack.ofValue_of_ofEntries written, pure_bind] at reading
    obtain ⟨b, u, accepted, answer⟩ := Run.bind_eq_ok_iff.mp reading
    cases b with
    | true =>
      cases answer
      exact ⟨raws, values, rules, u, split, rfl, rfl, written, accepted⟩
    | false =>
      -- Whatever the examination comes to, there is no answer.
      simp only [Bool.false_eq_true, if_false] at answer
      obtain ⟨e, _, -, further⟩ := Run.bind_eq_ok_iff.mp answer
      obtain ⟨rows, _, -, raised⟩ := Run.bind_eq_ok_iff.mp further
      cases raised

/-- What is built is a schema and defaults with the same keys, which the schema accepts exactly. -/
theorem exists_of_buildDefaultsBy {check : Value → Value → Run Session Bool}
    {name source schema defaults : Value} {s t : Session}
    (h : buildDefaultsBy check name source s = (.ok (schema, defaults), t)) :
    ∃ raws values rules u, schema = .dict 0 raws ∧ defaults = .dict 0 values ∧
      raws.map (·.1) = values.map (·.1) ∧ Rule.ofEntries raws = .ok rules ∧
      (Pack.mk 0 rules).accepts check true defaults s = (.ok true, u) := by
  obtain ⟨raws, values, rules, u, split, isSchema, areDefaults, written, accepted⟩ :=
    split_of_buildDefaultsBy h
  obtain ⟨listed, -, first, second⟩ := keys_of_splitSource split
  exact ⟨raws, values, rules, u, isSchema, areDefaults, first.trans second.symm, written, accepted⟩

/-- A mapping stands for the entries that it tells. -/
theorem toEntries_of_entries? {v : Value} (told : v.entries? = some entries) (s : Session) :
    v.toEntries s = (.ok entries, s) := by
  obtain ⟨m, mapping, told⟩ := Value.entries?_eq_some_iff.mp told
  unfold Value.toEntries
  simp only [mapping, told]
  rfl

/-- Overlaid defaults are copies of their entries and then the given ones, unless something in them
has no copy. -/
theorem overlay_apply {given defaults : Value} {base : List (Value × Value)}
    (lower : defaults.entries? = some base)
    (distinct : base.Pairwise fun earlier later => later.1.same earlier.1 = false)
    (upper : given.entries? = some entries) (s : Session) :
    overlay given defaults s = match Value.copyEntries s.nextId base with
      | .ok copied => (.ok (Value.insertAll copied entries), { s with nextId := 2 * s.nextId })
      | .error fault => (.error fault, s) := by
  have own : Value.insertAll [] base = base := Value.insertAll_eq_append distinct
  rw [overlay, Run.bind_apply_ok (toEntries_of_entries? lower s), Run.get_bind_apply, own]
  cases Value.copyEntries s.nextId base with
  | error fault => rfl
  | ok copied =>
    rw [Run.lift_ok_bind]
    exact Run.bind_apply_ok (toEntries_of_entries? upper _) _

/-- Overlaid defaults of ordinary data. -/
theorem overlay_of_isOrdinary {given defaults : Value} {base : List (Value × Value)}
    (lower : defaults.entries? = some base)
    (distinct : base.Pairwise fun earlier later => later.1.same earlier.1 = false)
    (ordinary : ∀ entry ∈ base, entry.1.IsOrdinary ∧ entry.2.IsOrdinary)
    (hashable : ∀ entry ∈ base, entry.1.unhashable? = none)
    (upper : given.entries? = some entries) (s : Session) :
    overlay given defaults s =
      (.ok (Value.insertAll (Value.renumberEntries s.nextId base) entries),
        { s with nextId := 2 * s.nextId }) := by
  rw [overlay_apply lower distinct upper,
    Value.copyEntries_of_isOrdinary s.nextId base ordinary hashable]

/-! ### Overlays that conform -/

/-- What is accepted in exact mode is let through, whether validation is on or off, as long as the
mappings on the way list what they tell. -/
theorem enforceBy_of_accepts {check : Value → Value → Run Session Bool} {schema v given : Value}
    {p : Pack Value Value} {enabled : Bool} {s t : Session} (read : Pack.ofValue schema = .ok p)
    (switch : switchFor given s = (.ok enabled, s)) (consistent : p.MeetsConsistent v)
    (accepted : p.accepts check true v s = (.ok true, t)) :
    ∃ u, enforceBy check v schema (.bool true) given s = (.ok v, u) := by
  rw [enforceBy_of_switchFor switch]
  cases enabled with
  | false => exact ⟨_, rfl⟩
  | true =>
    have examined := Pack.examine_of_accepts_exactly p v s t consistent accepted
    exact ⟨t, by
      rw [read, passing_of_examine true examined, if_pos (Explanation.isFree_empty true)]⟩

/-- Below overlaid entries stand the given values and copied defaults. So the mappings there list
what they tell, if those in the given values do. -/
theorem meetsConsistent_insertAll (p : Pack Value Value) {base added : List (Value × Value)}
    (n id : Nat) (ordinary : ∀ entry ∈ base, entry.2.IsOrdinary)
    (consistent : ∀ entry ∈ added, ∀ w, entry.2.HasPart w → w.IsConsistent) :
    p.MeetsConsistent (.dict id (Value.insertAll (Value.renumberEntries n base) added)) := by
  have copied : ∀ entry ∈ Value.renumberEntries n base, ∀ w, entry.2.HasPart w →
      w.IsConsistent := by
    rw [Value.renumberEntries_eq_map]
    exact List.forall_mem_map.mpr fun entry member w part =>
      (Value.isOrdinary_renumber n (ordinary entry member) w part).isConsistent
  have inside := Value.forall_insertAll (P := fun _ => True)
    (Q := fun v => ∀ w, v.HasPart w → w.IsConsistent)
    (fun entry member => ⟨trivial, copied entry member⟩)
    (fun entry member => ⟨trivial, consistent entry member⟩)
  let entries := Value.insertAll (Value.renumberEntries n base) added
  have inherited : Value.Inherited fun v =>
      v = .dict id entries ∨ ∀ w, v.HasPart w → w.IsConsistent :=
    .of_entries nofun fun entry member => (inside entry member).2
  intro path q w m reached mapping
  rcases inherited.of_reaches (.inl rfl) reached with rfl | all
  · cases mapping
    exact Mapping.isConsistent_readable _
  · exact all w (.refl w) m mapping

end Session

end Conformance
