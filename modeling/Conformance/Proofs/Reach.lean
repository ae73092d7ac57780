import Conformance.Pack.Examination

/-!
# Where a pack is applied

A pack is applied to a value, and each pack in its rules to what the value has at the key of the
rule, as long as that value is a mapping. What is no mapping has nothing below it. Both walks over a
pack go this way; what keeps them apart is where on the way they meet something that is no mapping,
or a mapping that cannot be read.

## Main definitions

* `Pack.Reaches` — a pack, applied to a value, is led along a path of keys to a pack in it and to
  the value to which that is applied
* `Pack.MeetsMappings` — no pack on the way is applied to anything but a mapping
* `Pack.Meets` — all mappings on the way are as rules need them
* `Pack.Answers` — a mapping that answers what acceptance asks of it
* `Pack.MeetsListable` — the mappings on the way that give what the pack looks up can also be listed
* `Pack.MeetsReadable` — all mappings on the way can be listed, and so be looked up in
* `Pack.MeetsConsistent` — all mappings on the way list what they tell key by key

## Main results

* `Pack.meetsMappings_mk_iff`, `Pack.Meets.mk`, `Pack.Meets.nested` — one step on the way
* `Pack.examined_of_reaches`, `Pack.meetsListable_of_examine` — an examination that ends has
  examined all that is on the way
-/

namespace Conformance

variable {σ α : Type}

/-- `p.Reaches v path q w`: the keys of `path` lead through nested rules from `p` to `q`, and
through look-ups from `v` to `w`. -/
inductive Pack.Reaches : Pack Value α → Value → List Value → Pack Value α → Value → Prop
  | here (p : Pack Value α) (v : Value) : Reaches p v [] p v
  | through {id : Nat} {rules : List (Value × Rule Value α)} {v : Value} {m : Mapping} {key : Value}
      {n : Nat} {q : Pack Value α} {x : Value} {path : List Value} {p : Pack Value α} {w : Value}
      (mapping : v.mapping? = some m) (rule : (key, .nested n q) ∈ rules)
      (lookup : m.get key = .ok x) (further : Reaches q x path p w) :
      Reaches (.mk id rules) v (key :: path) p w

namespace Pack

/-- No pack on the way, not even an empty one, is applied to anything but a mapping. -/
def MeetsMappings (p : Pack Value α) (v : Value) : Prop :=
  ∀ path q w, p.Reaches v path q w → w.isMapping = true

/-- Whether the rules of a pack see nothing but mappings where they apply a pack. -/
def RulesMeetMappings (rules : List (Value × Rule Value α)) (m : Mapping) : Prop :=
  ∀ key n q x, (key, .nested n q) ∈ rules → m.get key = .ok x → q.MeetsMappings x

/-- What holds of the rules of each pack on the way and of the mapping to which that is applied. -/
def Meets (P : List (Value × Rule Value α) → Mapping → Prop) (p : Pack Value α) (v : Value) :
    Prop :=
  ∀ path q w m, p.Reaches v path q w → w.mapping? = some m → P q.rules m

/-- A mapping can be listed, or it refuses one of the look-ups for these rules already. -/
def ListableFor (rules : List (Value × Rule Value α)) (m : Mapping) : Prop :=
  (∃ entries, m.items = .ok entries) ∨ ∃ entry ∈ rules, ∃ fault, m.get entry.1 = .error fault

/-- A mapping answers what acceptance asks of it: in exact mode its keys and, unless one of them has
no rule, what it has at the keys of the rules. -/
def Answers (exact : Bool) (rules : List (Value × Rule Value α)) (m : Mapping) : Prop :=
  ∃ extra, (if exact then hasExtra rules m else .ok false) = .ok extra ∧
    (extra = false → ∀ entry ∈ rules, ∃ x, m.get entry.1 = .ok x)

/-- Each mapping on the way can be listed, unless it refuses a look-up already. -/
def MeetsListable (p : Pack Value α) (v : Value) : Prop := p.Meets ListableFor v

/-- Each mapping on the way can be listed. Such a mapping refuses no look-up. -/
def MeetsReadable (p : Pack Value α) (v : Value) : Prop :=
  p.Meets (fun _ m => ∃ entries, m.items = .ok entries) v

/-- Each mapping on the way lists what it tells key by key. -/
def MeetsConsistent (p : Pack Value α) (v : Value) : Prop := p.Meets (fun _ m => m.IsConsistent) v

theorem not_meetsMappings_of_mapping?_eq_none {p : Pack Value α} {v : Value}
    (h : v.mapping? = none) : ¬ p.MeetsMappings v := by
  intro meets
  have isMapping := meets [] p v (.here p v)
  rw [Value.isMapping_eq_false h] at isMapping
  exact absurd isMapping (by simp)

/-- Where not only mappings are met, something else is reached. -/
theorem exists_reaches_of_not_meetsMappings {p : Pack Value α} {v : Value}
    (h : ¬ p.MeetsMappings v) : ∃ path q w, p.Reaches v path q w ∧ w.isMapping = false := by
  simpa [MeetsMappings] using h

/-- A pack meets mappings only if it is applied to a mapping and its rules meet mappings there. -/
theorem meetsMappings_mk_iff {id : Nat} {rules : List (Value × Rule Value α)} {v : Value}
    {m : Mapping} (h : v.mapping? = some m) :
    (mk id rules).MeetsMappings v ↔ RulesMeetMappings rules m := by
  constructor
  · intro meets key n q x rule lookup path p w further
    exact meets (key :: path) p w (.through h rule lookup further)
  · intro meets path q w reached
    -- Either this is where the pack itself is applied, or the way leads through one of its rules.
    cases reached with
    | here => exact Value.isMapping_of_mapping? h
    | through mapping rule lookup further =>
      obtain rfl := Option.some.inj (h.symm.trans mapping)
      exact meets _ _ _ _ rule lookup _ _ _ further

theorem rulesMeetMappings_cons_iff {key : Value} {r : Rule Value α}
    {rest : List (Value × Rule Value α)} {m : Mapping} {x : Value} (h : m.get key = .ok x) :
    RulesMeetMappings ((key, r) :: rest) m ↔
      (∀ n q, r = .nested n q → q.MeetsMappings x) ∧ RulesMeetMappings rest m := by
  constructor
  · intro meets
    refine ⟨?_, fun k n q x rule => meets k n q x (List.mem_cons_of_mem _ rule)⟩
    rintro n q rfl
    exact meets key n q x List.mem_cons_self h
  · rintro ⟨head, tail⟩ k n q y rule lookup
    rcases List.mem_cons.mp rule with equal | rule
    · cases equal
      -- The value at the key is the one that `h` names.
      cases h.symm.trans lookup
      exact head n q rfl
    · exact tail k n q y rule lookup

section Meets

variable {P : List (Value × Rule Value α) → Mapping → Prop} {v : Value} {m : Mapping}

theorem Meets.here {p : Pack Value α} (h : p.Meets P v) (mapping : v.mapping? = some m) :
    P p.rules m :=
  h [] p v m (.here p v) mapping

theorem Meets.nested {id : Nat} {rules : List (Value × Rule Value α)} {key : Value} {n : Nat}
    {q : Pack Value α} {x : Value} (h : (mk id rules).Meets P v) (mapping : v.mapping? = some m)
    (rule : (key, .nested n q) ∈ rules) (lookup : m.get key = .ok x) : q.Meets P x :=
  fun path p w m' further => h (key :: path) p w m' (.through mapping rule lookup further)

/-- The way goes through a mapping, and further from each nested rule. -/
theorem Meets.mk {id : Nat} {rules : List (Value × Rule Value α)} (mapping : v.mapping? = some m)
    (here : P rules m)
    (nested : ∀ key n q x, (key, .nested n q) ∈ rules → m.get key = .ok x → q.Meets P x) :
    (Pack.mk id rules).Meets P v := by
  intro path q w m' reached mapping'
  cases reached with
  | here =>
    obtain rfl := Option.some.inj (mapping.symm.trans mapping')
    exact here
  | through mapping'' rule lookup further =>
    obtain rfl := Option.some.inj (mapping.symm.trans mapping'')
    exact nested _ _ _ _ rule lookup _ _ _ _ further mapping'

end Meets

/-- A mapping that answers each look-up for a rule can be listed. -/
theorem ListableFor.items {rules : List (Value × Rule Value α)} {m : Mapping}
    (h : ListableFor rules m) (answered : ∀ entry ∈ rules, ∃ x, m.get entry.1 = .ok x) :
    ∃ entries, m.items = .ok entries := by
  rcases h with listed | ⟨entry, rule, fault, refused⟩
  · exact listed
  · obtain ⟨x, looked⟩ := answered entry rule
    exact absurd (refused.symm.trans looked) (by simp)

theorem Answers.told {exact : Bool} {rules : List (Value × Rule Value α)} {m : Mapping}
    (h : Answers exact rules m) :
    ∃ extra, (if exact then hasExtra rules m else .ok false) = .ok extra := by
  obtain ⟨extra, told, -⟩ := h
  exact ⟨extra, told⟩

theorem Answers.looked {exact : Bool} {rules : List (Value × Rule Value α)} {m : Mapping}
    (h : Answers exact rules m)
    (none : (if exact then hasExtra rules m else .ok false) = .ok false) :
    ∀ entry ∈ rules, ∃ x, m.get entry.1 = .ok x := by
  obtain ⟨extra, told, looked⟩ := h
  exact looked (Except.ok.inj (told.symm.trans none))

/-- A mapping that can be listed answers whatever it is asked. -/
theorem answers_of_items {exact : Bool} {rules : List (Value × Rule Value α)} {m : Mapping}
    {entries : List (Value × Value)} (listed : m.items = .ok entries) : Answers exact rules m := by
  obtain rfl := Mapping.items_eq_ok listed
  cases exact <;> exact ⟨_, rfl, fun _ entry _ => ⟨_, rfl⟩⟩

theorem MeetsReadable.answers {p : Pack Value α} {v : Value} (h : p.MeetsReadable v)
    (exact : Bool) : p.Meets (Answers exact) v :=
  fun path q w m reached mapping => (h path q w m reached mapping).elim fun _ => answers_of_items

/-! ### Examinations on the way -/

variable {check : α → Value → Run σ Bool}

/-- An examination of rules examines by each nested pack, and what is invalid there is invalid. -/
theorem examined_of_mem {rules : List (Value × Rule Value α)} {m : Mapping} {s t : σ}
    {e : Explanation} (h : examineRules check rules m s = (.ok e, t)) {key x : Value} {n : Nat}
    {q : Pack Value α} (rule : (key, .nested n q) ∈ rules) (lookup : m.get key = .ok x) :
    ∃ s' e' t', q.examine check x s' = (.ok e', t') ∧ (e.invalid = [] → e'.invalid = []) := by
  induction rules generalizing s e with
  | nil => cases rule
  | cons entry rest ih =>
    obtain ⟨k, r⟩ := entry
    obtain ⟨y, here, others, u, lookup', examined, further, rfl⟩ :=
      examineRules_cons_eq_ok_iff.mp h
    rcases List.mem_cons.mp rule with equal | rule
    · cases equal
      cases lookup.symm.trans lookup'
      obtain ⟨found, below, rfl⟩ := Rule.examine_nested_eq_ok_iff.mp examined
      refine ⟨s, found, u, below, fun silent => ?_⟩
      exact (Finding.under_eq_nil_iff key _).mp (List.append_eq_nil_iff.mp silent).1
    · obtain ⟨s', e', t', below, valid⟩ := ih further rule
      exact ⟨s', e', t', below, fun silent => valid (List.append_eq_nil_iff.mp silent).2⟩

/-- An examination that ends has examined everything on the way, and what is invalid there is
invalid. -/
theorem examined_of_reaches {p q : Pack Value α} {v w : Value} {path : List Value} {s t : σ}
    {e : Explanation} (reached : p.Reaches v path q w) (h : p.examine check v s = (.ok e, t)) :
    ∃ s' e' t', q.examine check w s' = (.ok e', t') ∧ (e.invalid = [] → e'.invalid = []) := by
  induction reached generalizing s t e with
  | here p v => exact ⟨s, e, t, h, fun silent => silent⟩
  | through mapping rule lookup _ ih =>
    obtain ⟨found, entries, examined, -, rfl⟩ := (examine_eq_ok_iff mapping).mp h
    obtain ⟨s', e', t', below, valid⟩ := examined_of_mem examined rule lookup
    obtain ⟨s'', e'', t'', further, valid'⟩ := ih below
    exact ⟨s'', e'', t'', further, fun silent => valid' (valid silent)⟩

/-- An examination that ends has listed every mapping on the way. -/
theorem meetsListable_of_examine {p : Pack Value α} {v : Value} {s t : σ} {e : Explanation}
    (h : p.examine check v s = (.ok e, t)) : p.MeetsListable v := by
  intro path q w m reached mapping
  obtain ⟨s', e', t', examined, -⟩ := examined_of_reaches reached h
  cases q with
  | mk id rules =>
    obtain ⟨found, entries, -, listed, -⟩ := (examine_eq_ok_iff mapping).mp examined
    exact .inl ⟨entries, listed⟩

end Pack

end Conformance
