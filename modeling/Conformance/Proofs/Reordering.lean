import Conformance.Proofs.DecidedWalks
import Conformance.Proofs.ExactKeys
import Conformance.Proofs.Layout
import Conformance.Proofs.PartialReading
import Conformance.Proofs.Reuse
import Mathlib.Data.List.Perm.Basic

/-!
# Schemas in another order

The order in which a schema has its entries is seen in the order of an explanation and nowhere else,
if its checks have their mind made up. The same goes for the schemas in it: the entries of each may
be put in another order, whatever is done to the others.

What is invalid follows the order of the schema. What is extra follows that of the value, as far as
its own keys go, which come first; only the findings of nested schemas, which come after them,
follow the schema.

## Main definitions

* `Value.Reordered`, `Rule.Reordered` — the same schema, or rule, up to the order of its entries at
  every depth
* `Explanation.Reordered` — an explanation up to the order of its findings at every depth, where
  extra keys of a mapping keep their places

## Main results

* `Pack.exists_ofValue_of_reordered` — reordered schemas stand for reordered packs
* `Rule.Reordered.conforms`, `Pack.Reordered.departures` — what reordered packs say about a value
* `Session.walks_of_reordered` — the same of schemas
-/

namespace Conformance

variable {κ σ α : Type}

/-! ### Lists of entries -/

/-- Entries under the same keys, with values at them that are related. -/
theorem forall₂_entries_iff {β γ : Type} {R : β → γ → Prop} {l : List (κ × β)} {l' : List (κ × γ)} :
    List.Forall₂ (fun entry entry' => entry.1 = entry'.1 ∧ R entry.2 entry'.2) l l' ↔
      l.map (·.1) = l'.map (·.1) ∧ ∀ pair ∈ l.zip l', R pair.1.2 pair.2.2 := by
  induction l generalizing l' with
  | nil => cases l' <;> simp
  | cons entry rest ih =>
    cases l' with
    | nil => simp
    | cons entry' rest' =>
      simp only [List.forall₂_cons, ih, List.map_cons, List.cons.injEq, List.zip_cons_cons,
        List.forall_mem_cons]
      tauto

/-- Each entry stands opposite one under the same key. -/
theorem exists_mem_zip {β γ : Type} {l : List (κ × β)} {l' : List (κ × γ)}
    (keys : l.map (·.1) = l'.map (·.1)) {key : κ} {y : γ} (member : (key, y) ∈ l') :
    ∃ x, ((key, x), (key, y)) ∈ l.zip l' := by
  induction l generalizing l' with
  | nil =>
    obtain rfl := List.map_eq_nil_iff.mp keys.symm
    cases member
  | cons entry rest ih =>
    obtain ⟨entry', rest', rfl, here, others⟩ := List.map_eq_cons_iff.mp keys.symm
    rcases List.mem_cons.mp member with equal | further
    · subst equal
      obtain rfl : key = entry.1 := here
      exact ⟨entry.2, List.mem_cons_self⟩
    · obtain ⟨x, opposite⟩ := ih others.symm further
      exact ⟨x, List.mem_cons_of_mem _ opposite⟩

/-- The same schema up to the order of its entries and, at each of its keys, of those of the schema
there. A mapping of another kind, or a pack in place of a mapping, makes no difference. -/
inductive Value.Reordered : Value → Value → Prop
  | same (v : Value) : Reordered v v
  | entries {v w : Value} {entries moved entries' : List (Value × Value)}
      (found : v.mapping? = some (.readable entries))
      (found' : w.mapping? = some (.readable entries'))
      (perm : entries.Perm moved) (keys : moved.map (·.1) = entries'.map (·.1))
      (values : ∀ pair ∈ moved.zip entries', Reordered pair.1.2 pair.2.2) : Reordered v w
  | ruled {n n' : Nat} {p q : Pack Value Value} (inside : Reordered (.pack p) (.pack q)) :
      Reordered (.rule (.nested n p)) (.rule (.nested n' q))

/-- The same rule up to the order of rules at every depth and up to numbers. -/
inductive Rule.Reordered : Rule κ α → Rule κ α → Prop
  | leaf {n n' : Nat} (c : α) : Reordered (.leaf n c) (.leaf n' c)
  | nested {n n' id id' : Nat} {rules moved rules' : List (κ × Rule κ α)} (perm : rules.Perm moved)
      (keys : moved.map (·.1) = rules'.map (·.1))
      (below : ∀ pair ∈ moved.zip rules', Reordered pair.1.2 pair.2.2) :
      Reordered (.nested n (.mk id rules)) (.nested n' (.mk id' rules'))

/-- The same pack up to the order of rules at every depth and up to numbers. -/
def Pack.Reordered (p q : Pack κ α) : Prop := (Rule.nested 0 p).Reordered (.nested 0 q)

namespace Rule.Reordered

theorem renamed {n n' : Nat} {p q : Pack κ α} (h : p.Reordered q) :
    Reordered (.nested n p) (.nested n' q) := by
  cases h with
  | nested perm keys below => exact .nested perm keys below

theorem refl (r : Rule κ α) : r.Reordered r := by
  -- For packs, by induction on them; a rule holds a check or a pack.
  have packs (p : Pack κ α) : p.Reordered p := by
    induction p using Pack.induction with
    | step id rules ih =>
      refine .nested (.refl rules) rfl (forall₂_entries_iff.mp (List.forall₂_same.mpr ?_)).2
      rintro ⟨key, r⟩ rule
      cases r with
      | leaf n c => exact ⟨rfl, .leaf c⟩
      | nested n q => exact ⟨rfl, renamed (ih key n q rule)⟩
  cases r with
  | leaf n c => exact .leaf c
  | nested n p => exact renamed (packs p)

end Rule.Reordered

/-! ### Reading -/

namespace Rule

/-- Entries are read one by one. -/
theorem ofEntries_eq_ok_iff {entries : List (Value × Value)}
    {rules : List (Value × Rule Value Value)} :
    ofEntries entries = .ok rules ↔
      List.Forall₂ (fun entry rule => rule.1 = entry.1 ∧ ofValue entry.2 = .ok rule.2) entries
        rules := by
  refine ⟨forall₂_of_ofEntries, fun h => ?_⟩
  induction h with
  | nil => rfl
  | @cons entry rule _ _ here _ ih =>
    obtain ⟨key, v⟩ := entry
    obtain ⟨key', r⟩ := rule
    obtain ⟨rfl, read⟩ := here
    rw [ofEntries, read, ih]
    rfl

/-- A mapping that can be listed is read by its entries, whichever kind of mapping it is. -/
theorem exists_ofValue_eq {v : Value} {entries : List (Value × Value)}
    (found : v.mapping? = some (.readable entries)) :
    ∃ id, Pack.ofValue v = (ofEntries entries).map (.mk id) ∧
      ofValue v = (Pack.ofValue v).map (.nested 0) := by
  cases v with
  | dict n listed | view listed =>
    cases found
    refine ⟨0, ?_⟩
    rw [ofValue, Pack.ofValue]
    cases ofEntries entries <;> exact ⟨rfl, rfl⟩
  | pack p =>
    cases p with
    | mk id rules =>
      cases found
      rw [ofEntries_rules]
      exact ⟨id, rfl, rfl⟩
  | probe n object => cases object <;> cases found
  | _ => cases found

/-- `ReadReordered v w`: if `v` stands for a rule, `w` stands for a reordered one. -/
def ReadReordered (v w : Value) : Prop :=
  ∀ r, ofValue v = .ok r → ∃ r', ofValue w = .ok r' ∧ r.Reordered r'

/-- Entries of which one after the other is read as a reordered rule. -/
theorem exists_ofEntries_of_readReordered {moved entries' : List (Value × Value)}
    {rules : List (Value × Rule Value Value)}
    (read : List.Forall₂ (fun entry rule => rule.1 = entry.1 ∧ ofValue entry.2 = .ok rule.2) moved
      rules)
    (values : List.Forall₂ (fun entry entry' => entry.1 = entry'.1 ∧
      ReadReordered entry.2 entry'.2) moved entries') :
    ∃ rules', ofEntries entries' = .ok rules' ∧
      List.Forall₂ (fun rule rule' => rule.1 = rule'.1 ∧ rule.2.Reordered rule'.2) rules
        rules' := by
  induction read generalizing entries' with
  | nil =>
    cases values
    exact ⟨[], rfl, .nil⟩
  | cons here _ ih =>
    obtain ⟨entry', rest', ⟨key, value⟩, others, rfl⟩ := List.forall₂_cons_left_iff.mp values
    obtain ⟨rules', readRest, further⟩ := ih others
    obtain ⟨r', readHere, reordered⟩ := value _ here.2
    refine ⟨(entry'.1, r') :: rules', ?_, .cons ⟨here.1.trans key, reordered⟩ further⟩
    exact ofEntries_eq_ok_iff.mpr (.cons ⟨rfl, readHere⟩ (ofEntries_eq_ok_iff.mp readRest))

/-- What is reordered stands for a reordered rule. -/
theorem readReordered_of_reordered {v w : Value} (h : v.Reordered w) : ReadReordered v w := by
  intro r read
  induction h generalizing r with
  | same v => exact ⟨r, read, .refl r⟩
  | @entries v w entries moved entries' found found' perm keys values ih =>
    obtain ⟨id, pack, rule⟩ := exists_ofValue_eq found
    obtain ⟨id', pack', rule'⟩ := exists_ofValue_eq found'
    rw [rule, pack] at read
    cases readAll : ofEntries entries with
    | error cause => rw [readAll] at read; cases read
    | ok rules =>
      rw [readAll] at read
      cases read
      -- The rules are put in the order of the entries first, and reordered below that then.
      obtain ⟨between, readMoved, permRules⟩ :=
        List.perm_comp_forall₂ perm.symm (ofEntries_eq_ok_iff.mp readAll)
      obtain ⟨rules', read', related⟩ :=
        exists_ofEntries_of_readReordered readMoved (forall₂_entries_iff.mpr ⟨keys, ih⟩)
      obtain ⟨keys', below⟩ := forall₂_entries_iff.mp related
      refine ⟨.nested 0 (.mk id' rules'), ?_, .nested permRules.symm keys' below⟩
      rw [rule', pack', read']
      rfl
  | @ruled n n' p q inside ih =>
    cases read
    obtain ⟨r', read', reordered⟩ := ih _ rfl
    cases read'
    exact ⟨.nested n' q, rfl, Reordered.renamed reordered⟩

end Rule

/-- A reordered schema stands for a reordered pack. -/
theorem Pack.exists_ofValue_of_reordered {v w : Value} (h : v.Reordered w) {p : Pack Value Value}
    (read : ofValue v = .ok p) : ∃ q, ofValue w = .ok q ∧ p.Reordered q := by
  cases h with
  | same v => exact ⟨p, read, .refl _⟩
  | ruled inside => cases read
  | @entries _ _ _ _ _ found found' perm keys values =>
    obtain ⟨id, pack, rule⟩ := Rule.exists_ofValue_eq found
    obtain ⟨id', pack', rule'⟩ := Rule.exists_ofValue_eq found'
    rw [read] at rule
    obtain ⟨r', read', reordered⟩ :=
      Rule.readReordered_of_reordered (.entries found found' perm keys values) _ rule
    rw [rule'] at read'
    cases readPack : ofValue w with
    | error cause => rw [readPack] at read'; cases read'
    | ok q =>
      rw [readPack] at read'
      cases read'
      exact ⟨q, rfl, reordered⟩

/-! ### Acceptance -/

/-- Whether a key has a rule is up to the keys of the rules. -/
theorem Pack.hasRule_eq (rules : List (Value × Rule Value α)) (key : Value) :
    hasRule rules key = (rules.map (·.1)).any fun k => key.same k := by
  simp [hasRule, Function.comp_def]

section

variable {rules moved rules' : List (Value × Rule Value α)}

theorem Pack.hasRule_of_reordered (perm : rules.Perm moved)
    (keys : moved.map (·.1) = rules'.map (·.1)) (key : Value) :
    hasRule rules' key = hasRule rules key := by
  rw [hasRule_eq, hasRule_eq, ← keys]
  exact (perm.map _).symm.any_eq

variable (holds : α → Value → Bool)

/-- Rules under the same keys, to which the same values conform. -/
theorem Pack.allConform_congr {exact : Bool} {entries : List (Value × Value)}
    (alike : List.Forall₂ (fun rule rule' => rule.1 = rule'.1 ∧
      ∀ x, rule'.2.conforms holds exact x = rule.2.conforms holds exact x) moved rules') :
    allConform holds exact rules' entries = allConform holds exact moved entries := by
  rw [allConform_eq_all, allConform_eq_all]
  induction alike with
  | nil => rfl
  | cons here _ ih => rw [List.all_cons, List.all_cons, ih, here.1, here.2]

/-- The same values conform to reordered rules. -/
theorem Rule.Reordered.conforms (exact : Bool) {r r' : Rule Value α} (h : r.Reordered r')
    (x : Value) : r'.conforms holds exact x = r.conforms holds exact x := by
  induction h generalizing x with
  | leaf c => rfl
  | @nested _ _ _ _ rules moved rules' perm keys below ih =>
    have alike := (forall₂_entries_iff (R := fun r r' : Rule Value α =>
      ∀ x, r'.conforms holds exact x = r.conforms holds exact x)).mpr ⟨keys, ih⟩
    rw [Rule.conforms, Rule.conforms, Pack.conforms, Pack.conforms]
    cases x.entries? with
    | none =>
      have empty : rules'.isEmpty = rules.isEmpty := by
        rw [Bool.eq_iff_iff, List.isEmpty_iff_length_eq_zero, List.isEmpty_iff_length_eq_zero,
          perm.length_eq, alike.length_eq]
      rw [empty]
    | some entries =>
      have all : Pack.allConform holds exact moved entries =
          Pack.allConform holds exact rules entries := by
        rw [Pack.allConform_eq_all, Pack.allConform_eq_all, perm.all_eq]
      simp only [Pack.allConform_congr holds alike, all, Pack.hasRule_of_reordered perm keys]

end

/-! ### Examination -/

namespace Finding

/-- A finding, and the same finding where findings below it are moved and related in turn. -/
inductive ReorderedBelow (moved : List Finding → List Finding → Prop) : Finding → Finding → Prop
  | value (key observed : Value) : ReorderedBelow moved (.value key observed) (.value key observed)
  | nested (key : Value) {findings between findings' : List Finding} (move : moved findings between)
      (length : between.length = findings'.length)
      (below : ∀ pair ∈ between.zip findings', ReorderedBelow moved pair.1 pair.2) :
      ReorderedBelow moved (.nested key findings) (.nested key findings')

/-- The same findings, moved at every depth. -/
def Reordered (moved : List Finding → List Finding → Prop) (findings findings' : List Finding) :
    Prop :=
  ∃ between, moved findings between ∧ List.Forall₂ (ReorderedBelow moved) between findings'

/-- Single values keep their places, and only the findings below keys, which come after them, are
moved. -/
def NestedMoved (findings findings' : List Finding) : Prop :=
  ∃ own below below', findings = own ++ below ∧ findings' = own ++ below' ∧
    (∀ f ∈ own, f.isNested = false) ∧ (∀ f ∈ below, f.isNested = true) ∧ below.Perm below'

theorem NestedMoved.perm {findings findings' : List Finding} (h : NestedMoved findings findings') :
    findings.Perm findings' := by
  obtain ⟨own, below, below', rfl, rfl, -, -, perm⟩ := h
  exact perm.append_left own

variable {moved : List Finding → List Finding → Prop}

/-- Single values that keep their places. -/
theorem forall₂_reorderedBelow_self {findings : List Finding}
    (single : ∀ f ∈ findings, f.isNested = false) :
    List.Forall₂ (ReorderedBelow moved) findings findings := by
  refine List.forall₂_same.mpr fun f member => ?_
  cases f with
  | value key observed => exact .value key observed
  | nested key findings => cases single _ member

/-- Below a key, where nothing is left out or added. -/
theorem Reordered.under (perm : ∀ fs gs, moved fs gs → fs.Perm gs)
    {findings findings' : List Finding} (h : Reordered moved findings findings') (key : Value) :
    List.Forall₂ (ReorderedBelow moved) (Finding.under key findings)
      (Finding.under key findings') := by
  obtain ⟨between, move, related⟩ := h
  cases findings with
  | nil =>
    obtain rfl := (perm _ _ move).nil_eq
    cases related
    exact .nil
  | cons f findings =>
    cases findings' with
    | nil =>
      cases related
      exact absurd (perm _ _ move) (by simp)
    | cons f' findings' =>
      obtain ⟨length, below⟩ := List.forall₂_iff_zip.mp related
      exact .cons (.nested key move length fun pair member => below member) .nil

end Finding

/-- The same explanation up to the order of findings at every depth. What is invalid may be moved
within its list. Of what is extra, the own keys of a mapping come first and keep their places, and
only the findings of nested packs after them may be moved. -/
structure Explanation.Reordered (d e : Explanation) : Prop where
  invalid : Finding.Reordered List.Perm d.invalid e.invalid
  extra : Finding.Reordered Finding.NestedMoved d.extra e.extra

/-- The same explanation, where only what is below its findings may be moved. -/
structure Explanation.ReorderedBelow (d e : Explanation) : Prop where
  invalid : List.Forall₂ (Finding.ReorderedBelow List.Perm) d.invalid e.invalid
  extra : List.Forall₂ (Finding.ReorderedBelow Finding.NestedMoved) d.extra e.extra

theorem Explanation.Reordered.under {d e : Explanation} (h : d.Reordered e) (key : Value) :
    (d.under key).ReorderedBelow (e.under key) where
  invalid := h.invalid.under (fun _ _ perm => perm) key
  extra := h.extra.under (fun _ _ moved => moved.perm) key

section

variable (holds : α → Value → Bool)

/-- What is extra in the value at a key is found below that key. -/
theorem Rule.isNested_of_mem_departures_extra {key : Value} {r : Rule Value α} {x : Value}
    {f : Finding} (member : f ∈ (r.departures holds key x).extra) : f.isNested = true := by
  cases r with
  | leaf n c =>
    rw [departures] at member
    split at member <;> cases member
  | nested n p =>
    change f ∈ Finding.under key (p.departures holds x).extra at member
    rw [Finding.under] at member
    split at member
    · cases member
    · cases List.mem_singleton.mp member
      rfl

/-- The own keys of a mapping are found one by one. -/
theorem Pack.isNested_of_mem_extras {rules : List (Value × Rule Value α)}
    {entries : List (Value × Value)} {f : Finding} (member : f ∈ extras rules entries) :
    f.isNested = false := by
  obtain ⟨entry, -, rfl⟩ := List.mem_map.mp member
  rfl

/-- Rules that are put in another order, and to which values depart alike up to order. -/
theorem Pack.departures_reordered {id id' : Nat} {rules moved rules' : List (Value × Rule Value α)}
    (perm : rules.Perm moved) (alike : List.Forall₂ (fun rule rule' => rule.1 = rule'.1 ∧
      ∀ key x, (rule.2.departures holds key x).ReorderedBelow (rule'.2.departures holds key x))
        moved rules') (v : Value) :
    ((mk id rules).departures holds v).Reordered ((mk id' rules').departures holds v) := by
  have keys : moved.map (·.1) = rules'.map (·.1) := by
    rw [← List.forall₂_eq_eq_eq, List.forall₂_map_left_iff, List.forall₂_map_right_iff]
    exact alike.imp fun _ _ related => related.1
  rw [departures, departures]
  cases v.entries? with
  | none =>
    refine ⟨⟨moved.map fun entry => .value entry.1 .null, perm.map _, ?_⟩, ⟨[], ?_, .nil⟩⟩
    · have findings := congrArg (List.map fun key => Finding.value key .null) keys
      simp only [List.map_map, Function.comp_def] at findings
      rw [← findings]
      refine Finding.forall₂_reorderedBelow_self fun f member => ?_
      obtain ⟨rule, -, rfl⟩ := List.mem_map.mp member
      rfl
    · exact ⟨[], [], [], rfl, rfl, by simp, by simp, .refl _⟩
  | some entries =>
    have extras : Pack.extras rules' entries = Pack.extras rules entries := by
      simp only [Pack.extras, hasRule_of_reordered perm keys]
    dsimp only
    rw [departuresOf_eq, departuresOf_eq, extras]
    -- The findings of the rules in their new order stand between.
    refine ⟨⟨_, perm.flatMap_right _, ?_⟩,
      ⟨_, ⟨_, _, _, rfl, rfl, ?_, ?_, perm.flatMap_right _⟩, ?_⟩⟩
    · refine List.rel_flatMap alike fun rule rule' related => ?_
      rw [← related.1]
      exact (related.2 _ _).invalid
    · exact fun f => isNested_of_mem_extras
    · intro f member
      obtain ⟨rule, -, member⟩ := List.mem_flatMap.mp member
      exact Rule.isNested_of_mem_departures_extra holds member
    · refine List.rel_append
        (Finding.forall₂_reorderedBelow_self fun f => isNested_of_mem_extras) ?_
      refine List.rel_flatMap alike fun rule rule' related => ?_
      rw [← related.1]
      exact (related.2 _ _).extra

/-- Values depart from reordered rules alike, up to the order below. -/
theorem Rule.Reordered.departures {r r' : Rule Value α} (h : r.Reordered r') (key x : Value) :
    (r.departures holds key x).ReorderedBelow (r'.departures holds key x) := by
  induction h generalizing key x with
  | leaf c =>
    rw [Rule.departures, Rule.departures]
    cases holds c x with
    | true => exact ⟨.nil, .nil⟩
    | false => exact ⟨.cons (.value key x) .nil, .nil⟩
  | nested perm keys below ih =>
    have alike := (forall₂_entries_iff (R := fun r r' : Rule Value α => ∀ key x,
      (r.departures holds key x).ReorderedBelow (r'.departures holds key x))).mpr ⟨keys, ih⟩
    exact (Pack.departures_reordered holds perm alike x).under key

end

/-! ### What is on the way -/

namespace Rule.Reordered

/-- A rule of a reordered pack stands opposite a rule of the pack, under the same key. -/
theorem exists_rule {rules moved rules' : List (κ × Rule κ α)} (perm : rules.Perm moved)
    (keys : moved.map (·.1) = rules'.map (·.1)) {key : κ} {r' : Rule κ α}
    (rule' : (key, r') ∈ rules') :
    ∃ r, (key, r) ∈ rules ∧ ((key, r), (key, r')) ∈ moved.zip rules' := by
  obtain ⟨r, opposite⟩ := exists_mem_zip keys rule'
  exact ⟨r, perm.mem_iff.mpr (List.of_mem_zip opposite).1, opposite⟩

variable {r r' : Rule Value α}

/-- An examination by a reordered rule comes by no other checks. -/
theorem mem_visits (h : r.Reordered r') {x : Value} {path : List Value} {c : α} {y : Value}
    (member : .check path c y ∈ r'.visits x) : .check path c y ∈ r.visits x := by
  induction h generalizing x path with
  | leaf d => exact member
  | nested perm keys below ih =>
    rcases Pack.mem_visits_mk_iff.mp member with equal | ⟨m, mapping, member⟩
    · cases equal
    · obtain ⟨key, r', x', rule', lookup, further, member, equal⟩ := Pack.mem_visitsOf_iff.mp member
      obtain ⟨r, rule, opposite⟩ := exists_rule perm keys rule'
      cases further with
      | pack => cases equal
      | check path' c' y' =>
        cases equal
        refine Pack.mem_visits_mk_iff.mpr (.inr ⟨m, mapping, Pack.mem_visitsOf_iff.mpr ?_⟩)
        exact ⟨key, r, x', rule, lookup, _, ih _ opposite member, rfl⟩

/-- A reordered pack meets mappings that can be listed where the pack does. -/
theorem meetsReadable (h : r.Reordered r') {n n' : Nat} {p q : Pack Value α} {v : Value}
    (pack : r = .nested n p) (pack' : r' = .nested n' q) (readable : p.MeetsReadable v) :
    q.MeetsReadable v := by
  induction h generalizing n n' p q v with
  | leaf c => cases pack
  | nested perm keys below ih =>
    cases pack
    cases pack'
    intro path q w m reached mapping
    cases reached with
    | here => exact readable.here mapping
    | through mapping' rule' lookup further =>
      obtain ⟨r, rule, opposite⟩ := exists_rule perm keys rule'
      cases r with
      | leaf n c => cases below _ opposite
      | nested n p' =>
        have meets := ih _ opposite rfl rfl (readable.nested mapping' rule lookup)
        exact meets _ _ _ _ further mapping

end Rule.Reordered

namespace Pack.Reordered

variable {p q : Pack Value α} {check : α → Value → Run σ Bool} {holds : α → Value → Bool}
  {v : Value}

/-- A value departs from reordered packs alike up to order. -/
theorem departures (h : p.Reordered q) (v : Value) :
    (p.departures holds v).Reordered (q.departures holds v) := by
  cases h with
  | nested perm keys below =>
    have alike := (forall₂_entries_iff (R := fun r r' : Rule Value α => ∀ key x,
      (r.departures holds key x).ReorderedBelow (r'.departures holds key x))).mpr
        ⟨keys, fun pair member key x => (below pair member).departures holds key x⟩
    exact Pack.departures_reordered holds perm alike v

theorem decidedOn (h : p.Reordered q) (decided : p.DecidedOn check holds v) :
    q.DecidedOn check holds v :=
  fun path c x member => decided path c x (h.mem_visits member)

/-- What a pack says about a value and what a reordered pack says, from every state. -/
theorem walks (h : p.Reordered q) (decided : p.DecidedOn check holds v)
    (readable : p.MeetsReadable v) :
    (∀ exact, ∃ b, ∀ s, (∃ t, p.accepts check exact v s = (.ok b, t)) ∧
      ∃ t, q.accepts check exact v s = (.ok b, t)) ∧
      ∃ e e' : Explanation, e.Reordered e' ∧ ∀ s, (∃ t, p.examine check v s = (.ok e, t)) ∧
        ∃ t, q.examine check v s = (.ok e', t) := by
  have readable' : q.MeetsReadable v := Rule.Reordered.meetsReadable h rfl rfl readable
  refine ⟨fun exact => ⟨p.conforms holds exact v, fun s => ?_⟩,
    p.departures holds v, q.departures holds v, h.departures v, fun s => ?_⟩
  · have same : q.conforms holds exact v = p.conforms holds exact v :=
      Rule.Reordered.conforms holds exact h v
    exact ⟨p.accepts_of_decidedOn exact v decided readable s,
      same ▸ q.accepts_of_decidedOn exact v (h.decidedOn decided) readable' s⟩
  · exact ⟨p.examine_of_decidedOn v decided readable s,
      q.examine_of_decidedOn v (h.decidedOn decided) readable' s⟩

end Pack.Reordered

/-- Checks that have their mind made up about every value have it made up about those on the way. -/
theorem Pack.decidedOn_of_decidedBy {p : Pack Value Value} {check : Value → Value → Run σ Bool}
    {holds : Value → Value → Bool} (decided : DecidedBy check holds p.leaves) (v : Value) :
    p.DecidedOn check holds v := by
  intro path c x member
  obtain ⟨above, key, ⟨id, rules⟩, w, m, n, -, reached, -, rule, -⟩ :=
    mem_visits_check_iff.mp member
  exact decided c (reached.mem_leaves (mem_leavesOf rule List.mem_cons_self)) x

namespace Session

/-- If the checks that a schema comes by in a value have their mind made up, and all mappings on the
way can be listed, the entries of the schema and of all schemas in it may be put in any order. The
other schema can be read as well, accepts the value just if the schema does, in both modes, and
explains it up to order: at every depth the invalid findings are moved, and so are the extra
findings of nested schemas, while extra keys stay in front in their order. Whatever is asked ends,
from every state. -/
theorem walks_of_reordered (check : Value → Value → Run σ Bool) (holds : Value → Value → Bool)
    (schema schema' v : Value) (p : Pack Value Value) (reordered : schema.Reordered schema')
    (read : Pack.ofValue schema = .ok p) (decided : p.DecidedOn check holds v)
    (readable : p.MeetsReadable v) :
    (∃ q, Pack.ofValue schema' = .ok q) ∧
      (∀ exact, ∃ b, ∀ s, (∃ t, acceptsBy check schema v (.bool exact) s = (.ok b, t)) ∧
        ∃ t, acceptsBy check schema' v (.bool exact) s = (.ok b, t)) ∧
      ∃ e e' : Explanation, e.Reordered e' ∧
        ∀ s, (∃ t, examineBy check schema v s = (.ok e, t)) ∧
          ∃ t, examineBy check schema' v s = (.ok e', t) := by
  obtain ⟨q, read', packs⟩ := Pack.exists_ofValue_of_reordered reordered read
  simp only [acceptsBy_eq read, acceptsBy_eq read', examineBy_eq read, examineBy_eq read']
  exact ⟨⟨q, read'⟩, packs.walks decided readable⟩

/-- Of a dictionary with a dictionary and a view in it, the entries and those of the inner
dictionary are turned around. The value has invalid and extra keys at both levels. -/
theorem walks_of_reordered_nested :
    let number : Value := .callable 2 (.check .number)
    let text : Value := .callable 3 (.check .text)
    let inner : List (Value × Value) := [(.text "c", text), (.text "d", number)]
    let last : Value := .view [(.text "f", text)]
    let schema : Value :=
      .dict 4 [(.text "a", number), (.text "b", .dict 5 inner), (.text "e", last)]
    let schema' : Value :=
      .dict 6 [(.text "e", last), (.text "b", .dict 7 inner.reverse), (.text "a", number)]
    let p : Pack Value Value := .mk 0 [(.text "a", .leaf 0 number),
      (.text "b", .nested 0 (.mk 0 [(.text "c", .leaf 0 text), (.text "d", .leaf 0 number)])),
      (.text "e", .nested 0 (.mk 0 [(.text "f", .leaf 0 text)]))]
    let holds : Value → Value → Bool := fun c x =>
      match c with
      | .callable _ (.check k) => k.holds x
      | _ => false
    let v : Value := .dict 8 [(.text "b", .dict 9 [(.text "y", .int 2), (.text "c", .int 3)]),
      (.text "x", .int 1), (.text "e", .dict 10 [(.text "z", .int 4)])]
    schema.Reordered schema' ∧ Pack.ofValue schema = .ok p ∧
      p.DecidedOn Value.verdict holds v ∧ p.MeetsReadable v ∧
      (∃ t, acceptsBy Value.verdict schema' v (.bool false) .initial = (.ok false, t)) ∧
      ∃ e e' : Explanation, e.Reordered e' ∧
        e = ⟨[.value (.text "a") .null,
            .nested (.text "b") [.value (.text "c") (.int 3), .value (.text "d") .null],
            .nested (.text "e") [.value (.text "f") .null]],
          [.value (.text "x") (.int 1), .nested (.text "b") [.value (.text "y") (.int 2)],
            .nested (.text "e") [.value (.text "z") (.int 4)]]⟩ ∧
        e' = ⟨[.nested (.text "e") [.value (.text "f") .null],
            .nested (.text "b") [.value (.text "d") .null, .value (.text "c") (.int 3)],
            .value (.text "a") .null],
          [.value (.text "x") (.int 1), .nested (.text "e") [.value (.text "z") (.int 4)],
            .nested (.text "b") [.value (.text "y") (.int 2)]]⟩ := by
  intro number text inner last schema schema' p holds v
  have reordered : schema.Reordered schema' := by
    have below : (Value.dict 5 inner).Reordered (.dict 7 inner.reverse) := by
      refine .entries rfl rfl inner.reverse_perm.symm rfl ?_
      simpa [inner] using ⟨.same number, .same text⟩
    refine .entries rfl rfl (List.reverse_perm _).symm rfl ?_
    simpa using ⟨.same last, below, .same number⟩
  have read : Pack.ofValue schema = .ok p := rfl
  have decided : p.DecidedOn Value.verdict holds v := by
    refine Pack.decidedOn_of_decidedBy (fun c leaf x s => ⟨s, ?_⟩) v
    simp only [p, Pack.leaves, Pack.leavesOf, Rule.leaves, List.cons_append, List.nil_append,
      List.mem_cons, List.not_mem_nil, or_false] at leaf
    rcases leaf with rfl | rfl | rfl | rfl <;> rfl
  have readable : p.MeetsReadable v := by
    refine .mk rfl ⟨_, rfl⟩ fun key n q x rule lookup => ?_
    simp only [List.mem_cons, List.not_mem_nil, or_false, Prod.mk.injEq, reduceCtorEq, and_false,
      false_or, Rule.nested.injEq] at rule
    rcases rule with ⟨rfl, rfl, rfl⟩ | ⟨rfl, rfl, rfl⟩ <;> cases lookup <;>
      exact .mk rfl ⟨_, rfl⟩ (by simp)
  obtain ⟨-, accepted, e, e', related, examined⟩ :=
    walks_of_reordered Value.verdict holds schema schema' v p reordered read decided readable
  obtain ⟨b, answers⟩ := accepted false
  obtain ⟨⟨t, here⟩, accepted'⟩ := answers .initial
  obtain ⟨⟨u, explained⟩, u', explained'⟩ := examined .initial
  cases here
  cases explained
  cases explained'
  exact ⟨reordered, read, decided, readable, accepted', _, _, related, rfl, rfl⟩

end Session

end Conformance
