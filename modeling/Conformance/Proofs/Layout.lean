import Conformance.Explanation.Card
import Conformance.Proofs.Enforcement

/-!
# The layout of explanations

Whoever reads an explanation relies on how it is put together. The judgements look at its two lists
only and not below them, the shape checker looks at the pairs, and the rows are laid out by the
types alone. They agree because no examination lists a key without findings below it.

An explanation follows the pack that it comes from. What is invalid is listed by keys of the pack in
their order. What is extra is listed by keys without a rule, then by keys of nested packs in their
order. No key is listed twice, and findings below a key are those of the pack in the rule there.

## Main definitions

* `Value.Apart` — two keys that a mapping can have together
* `Pack.MeetsKeys` — what holds of the keys of all packs and mappings on the way
* `Pack.MeetsDistinct` — none of them has a key twice
* `Finding.StandsIn`, `Pack.Lists` — findings that are laid out after a pack
* `Value.IsEntry` — the shape of an entry of an explanation

## Main results

* `Pack.lists_of_examine` — the findings of an examination are laid out after its pack
* `Pack.isFree_iff_rows` — the judgements against the rows
* `Session.explanation_of_examineBy` — what can be relied on by whoever reads an explanation
-/

namespace Conformance

variable {σ α : Type}

/-! ### Keys -/

/-- Whether the second key is passed over in a look-up for the first. Keys of one mapping are. -/
def Value.Apart (v w : Value) : Prop := v.same w = false

instance : DecidableRel Value.Apart := fun v w => inferInstanceAs (Decidable (v.same w = false))

/-- The keys that are met where a visit applies a pack: those of the pack, and those of the value if
it is a mapping. -/
def Visit.keys : Visit α → List (List Value)
  | .pack _ p v => p.keys :: (v.entries?.map fun entries => entries.map (·.1)).toList
  | .check .. => []

namespace Pack

/-- The keys of those rules that hold a pack, in order. -/
def nestedKeysOf (rules : List (Value × Rule Value α)) : List Value :=
  (rules.filter fun entry => entry.2.isNested).map (·.1)

/-- The keys of the nested packs of a pack, in order. -/
def nestedKeys (p : Pack Value α) : List Value := nestedKeysOf p.rules

theorem nestedKeys_sublist (p : Pack Value α) : p.nestedKeys.Sublist p.keys :=
  List.filter_sublist.map _

theorem apart_of_hasRule_eq_false {rules : List (Value × Rule Value α)} {key k : Value}
    (h : hasRule rules key = false) (member : k ∈ rules.map (·.1)) : key.Apart k := by
  obtain ⟨entry, rule, rfl⟩ := List.mem_map.mp member
  exact eq_false_of_ne_true (List.any_eq_false.mp h entry rule)

/-- On the way the keys of each pack have a property, and those of each mapping to which one is
applied. -/
def MeetsKeys (P : List Value → Prop) (p : Pack Value α) (v : Value) : Prop :=
  ∀ path q w, p.Reaches v path q w →
    P q.keys ∧ ∀ entries, w.entries? = some entries → P (entries.map (·.1))

theorem meetsKeys_iff {P : List Value → Prop} {p : Pack Value α} {v : Value} :
    p.MeetsKeys P v ↔ ∀ visit ∈ p.visits v, ∀ keys ∈ visit.keys, P keys := by
  constructor
  · intro h visit member keys met
    cases visit with
    | check => cases met
    | pack path q w =>
      obtain ⟨own, others⟩ := h path q w (mem_visits_pack_iff.mp member)
      rcases List.mem_cons.mp met with rfl | met
      · exact own
      · obtain ⟨entries, found, rfl⟩ := Option.map_eq_some_iff.mp (Option.mem_toList.mp met)
        exact others entries found
  · intro h path q w reached
    have met := h _ (mem_visits_pack_iff.mpr reached)
    refine ⟨met _ List.mem_cons_self, fun entries found => met _ (List.mem_cons_of_mem _ ?_)⟩
    exact Option.mem_toList.mpr (Option.map_eq_some_iff.mpr ⟨entries, found, rfl⟩)

instance (P : List Value → Prop) [DecidablePred P] (p : Pack Value α) (v : Value) :
    Decidable (p.MeetsKeys P v) :=
  decidable_of_iff _ meetsKeys_iff.symm

namespace MeetsKeys

variable {P : List Value → Prop}

theorem mono {Q : List Value → Prop} {p : Pack Value α} {v : Value} (h : p.MeetsKeys P v)
    (implied : ∀ keys, P keys → Q keys) : p.MeetsKeys Q v := by
  intro path q w reached
  obtain ⟨own, others⟩ := h path q w reached
  exact ⟨implied _ own, fun entries found => implied _ (others entries found)⟩

theorem keys {p : Pack Value α} {v : Value} (h : p.MeetsKeys P v) : P p.keys :=
  (h [] p v (.here p v)).1

theorem entries {p : Pack Value α} {v : Value} (h : p.MeetsKeys P v)
    {entries : List (Value × Value)} (found : v.entries? = some entries) :
    P (entries.map (·.1)) :=
  (h [] p v (.here p v)).2 entries found

theorem nested {id : Nat} {rules : List (Value × Rule Value α)} {v : Value} {m : Mapping}
    {key : Value} {n : Nat} {q : Pack Value α} {x : Value} (h : (mk id rules).MeetsKeys P v)
    (mapping : v.mapping? = some m) (rule : (key, .nested n q) ∈ rules)
    (lookup : m.get key = .ok x) : q.MeetsKeys P x :=
  fun path p w further => h (key :: path) p w (.through mapping rule lookup further)

end MeetsKeys

/-- On the way no pack has a key twice, and no mapping to which one is applied. -/
def MeetsDistinct (p : Pack Value α) (v : Value) : Prop :=
  p.MeetsKeys (fun keys => keys.Pairwise Value.Apart) v

instance (p : Pack Value α) (v : Value) : Decidable (p.MeetsDistinct v) :=
  inferInstanceAs (Decidable (p.MeetsKeys (fun keys => keys.Pairwise Value.Apart) v))

end Pack

/-! ### Findings that are laid out after a pack -/

/-- Whether a finding is one of findings below a key. -/
def Finding.isNested : Finding → Bool
  | value .. => false
  | nested .. => true

/-- The findings of one violation. -/
def Explanation.findings (e : Explanation) : Violation → List Finding
  | .invalid => e.invalid
  | .extra => e.extra

theorem Explanation.findings_append (d e : Explanation) (violation : Violation) :
    (d.append e).findings violation = d.findings violation ++ e.findings violation := by
  cases violation <;> rfl

theorem Explanation.findings_under (key : Value) (e : Explanation) (violation : Violation) :
    (e.under key).findings violation = Finding.under key (e.findings violation) := by
  cases violation <;> rfl

/-- Whether findings have keys in the order in which a pack comes by a violation: invalid values at
keys of the pack, extra ones first at keys without a rule and then below keys of nested packs. -/
def Pack.Arranges (p : Pack Value α) : Violation → List Finding → Prop
  | .invalid, findings => (findings.map Finding.key).Sublist p.keys
  | .extra, findings => ∃ own below, findings = own ++ below ∧
      (∀ f ∈ own, f.isNested = false ∧ p.has f.key = false) ∧
      (∀ f ∈ below, f.isNested = true) ∧ (below.map Finding.key).Sublist p.nestedKeys

/-- Whether a finding is laid out after a pack: below the key of a nested pack there is something,
and that is laid out after the nested pack. -/
inductive Finding.StandsIn (violation : Violation) : Pack Value α → Finding → Prop
  | value (p : Pack Value α) (key observed : Value) : StandsIn violation p (.value key observed)
  | nested {p q : Pack Value α} {key : Value} {n : Nat} {findings : List Finding}
      (rule : (key, .nested n q) ∈ p.rules) (found : findings ≠ [])
      (arranged : q.Arranges violation findings)
      (apart : (findings.map Finding.key).Pairwise Value.Apart)
      (below : ∀ f ∈ findings, StandsIn violation q f) : StandsIn violation p (.nested key findings)

/-- Whether the findings of a violation are laid out after a pack, at every depth. -/
structure Pack.Lists (violation : Violation) (p : Pack Value α) (findings : List Finding) :
    Prop where
  arranged : p.Arranges violation findings
  apart : (findings.map Finding.key).Pairwise Value.Apart
  stands : ∀ f ∈ findings, f.StandsIn violation p

/-- Findings below a key are laid out if they are those of the pack in the rule there. -/
theorem Finding.standsIn_nested_iff {violation : Violation} {p : Pack Value α} {key : Value}
    {findings : List Finding} :
    (nested key findings).StandsIn violation p ↔
      findings ≠ [] ∧ ∃ n q, (key, .nested n q) ∈ p.rules ∧ q.Lists violation findings := by
  constructor
  · intro h
    cases h with
    | nested rule found arranged apart below => exact ⟨found, _, _, rule, arranged, apart, below⟩
  · rintro ⟨found, n, q, rule, arranged, apart, below⟩
    exact .nested rule found arranged apart below

/-- What some rules of a pack contribute to the two lists of an explanation. -/
structure Pack.Contributes (p : Pack Value α) (rules : List (Value × Rule Value α))
    (e : Explanation) : Prop where
  invalid : (e.invalid.map Finding.key).Sublist (rules.map (·.1))
  extra : (e.extra.map Finding.key).Sublist (nestedKeysOf rules)
  nested : ∀ f ∈ e.extra, f.isNested = true
  stands : ∀ violation, ∀ f ∈ e.findings violation, f.StandsIn violation p

namespace Pack.Contributes

variable {p : Pack Value α}

theorem nothing {rules : List (Value × Rule Value α)} : p.Contributes rules .empty where
  invalid := List.nil_sublist _
  extra := List.nil_sublist _
  nested := nofun
  stands violation := by cases violation <;> exact nofun

theorem refused (key observed : Value) (n : Nat) (c : α) :
    p.Contributes [(key, .leaf n c)] ⟨[.value key observed], []⟩ where
  invalid := List.Sublist.refl _
  extra := List.nil_sublist _
  nested := nofun
  stands violation f member := by
    cases violation with
    | invalid =>
      obtain rfl := List.mem_singleton.mp member
      exact .value p key observed
    | extra => cases member

/-- A rule that holds a pack contributes what is found below it, under its key. -/
theorem under {key : Value} {n : Nat} {q : Pack Value α} {e : Explanation}
    (rule : (key, .nested n q) ∈ p.rules)
    (lists : ∀ violation, q.Lists violation (e.findings violation)) :
    p.Contributes [(key, .nested n q)] (e.under key) := by
  have sublist : ∀ findings, ((Finding.under key findings).map Finding.key).Sublist [key] := by
    intro findings
    cases findings with
    | nil => exact List.nil_sublist _
    | cons f fs => exact List.Sublist.refl _
  have only : ∀ findings, ∀ f ∈ Finding.under key findings,
      findings ≠ [] ∧ f = .nested key findings := by
    intro findings f member
    cases findings with
    | nil => cases member
    | cons g gs => exact ⟨nofun, List.mem_singleton.mp member⟩
  refine ⟨sublist _, sublist _, fun f member => ?_, fun violation f member => ?_⟩
  · obtain ⟨-, rfl⟩ := only _ f member
    rfl
  · rw [Explanation.findings_under] at member
    obtain ⟨found, rfl⟩ := only _ f member
    exact Finding.standsIn_nested_iff.mpr ⟨found, n, q, rule, lists violation⟩

theorem append {rules further : List (Value × Rule Value α)} {d e : Explanation}
    (hd : p.Contributes rules d) (he : p.Contributes further e) :
    p.Contributes (rules ++ further) (d.append e) where
  invalid := by
    rw [List.map_append, Explanation.append, List.map_append]
    exact hd.invalid.append he.invalid
  extra := by
    rw [nestedKeysOf, List.filter_append, List.map_append, Explanation.append, List.map_append]
    exact hd.extra.append he.extra
  nested := List.forall_mem_append.mpr ⟨hd.nested, he.nested⟩
  stands violation := by
    rw [Explanation.findings_append]
    exact List.forall_mem_append.mpr ⟨hd.stands violation, he.stands violation⟩

end Pack.Contributes

namespace Pack

variable {check : α → Value → Run σ Bool}

/-- The rules of a mapping contribute to the lists, if the packs in them list what they find. -/
theorem contributes_of_examineRules {p : Pack Value α} {rules : List (Value × Rule Value α)}
    {m : Mapping} {s t : σ} {e : Explanation} (within : ∀ entry ∈ rules, entry ∈ p.rules)
    (nested : ∀ key n q x, (key, .nested n q) ∈ rules → m.get key = .ok x → ∀ s t e,
      q.examine check x s = (.ok e, t) → ∀ violation, q.Lists violation (e.findings violation))
    (h : examineRules check rules m s = (.ok e, t)) : p.Contributes rules e := by
  induction rules generalizing s e with
  | nil =>
    obtain ⟨rfl, -⟩ := Run.pure_eq_ok_iff.mp h
    exact .nothing
  | cons entry rest ih =>
    obtain ⟨key, r⟩ := entry
    obtain ⟨x, here, others, u, lookup, examined, further, rfl⟩ := examineRules_cons_eq_ok_iff.mp h
    have second : p.Contributes rest others :=
      ih (fun entry rule => within entry (List.mem_cons_of_mem _ rule))
        (fun k n q y rule => nested k n q y (List.mem_cons_of_mem _ rule)) further
    have first : p.Contributes [(key, r)] here := by
      cases r with
      | leaf n c =>
        obtain ⟨b, -, rfl⟩ := Rule.examine_leaf_eq_ok_iff.mp examined
        cases b with
        | true => exact .nothing
        | false => exact .refused key x n c
      | nested n q =>
        obtain ⟨found, below, rfl⟩ := Rule.examine_nested_eq_ok_iff.mp examined
        exact .under (within _ List.mem_cons_self)
          (nested key n q x List.mem_cons_self lookup s u found below)
    exact first.append second

/-- What is no mapping lacks all keys, in the order of the pack. -/
theorem lists_of_unmapped {p : Pack Value α} (distinct : p.keys.Pairwise Value.Apart) :
    p.Lists .invalid (p.rules.map fun entry => .value entry.1 .null) := by
  have keys : (p.rules.map fun entry => Finding.value entry.1 .null).map Finding.key = p.keys := by
    rw [List.map_map]
    rfl
  refine ⟨?_, by rwa [keys], fun f member => ?_⟩
  · exact keys.symm.subst (motive := fun listed => listed.Sublist p.keys) (List.Sublist.refl _)
  · obtain ⟨entry, -, rfl⟩ := List.mem_map.mp member
    exact .value p entry.1 .null

theorem lists_nil (violation : Violation) (p : Pack Value α) : p.Lists violation [] := by
  refine ⟨?_, .nil, nofun⟩
  cases violation with
  | invalid => exact List.nil_sublist _
  | extra => exact ⟨[], [], rfl, nofun, nofun, List.nil_sublist _⟩

theorem Contributes.lists_invalid {p : Pack Value α} {e : Explanation}
    (h : p.Contributes p.rules e) (distinct : p.keys.Pairwise Value.Apart) :
    p.Lists .invalid e.invalid :=
  ⟨h.invalid, distinct.sublist h.invalid, h.stands .invalid⟩

/-- The entries without a rule come before what the rules contribute. -/
theorem Contributes.lists_extra {p : Pack Value α} {e : Explanation} (h : p.Contributes p.rules e)
    (distinct : p.keys.Pairwise Value.Apart) {entries : List (Value × Value)}
    (distinctEntries : (entries.map (·.1)).Pairwise Value.Apart) :
    p.Lists .extra (extras p.rules entries ++ e.extra) := by
  have own : ∀ f ∈ extras p.rules entries,
      ∃ key observed, f = .value key observed ∧ hasRule p.rules key = false := by
    intro f member
    obtain ⟨entry, new, rfl⟩ := List.mem_map.mp member
    exact ⟨entry.1, entry.2, rfl, by simpa using (List.mem_filter.mp new).2⟩
  have keys : ((extras p.rules entries).map Finding.key).Sublist (entries.map (·.1)) := by
    rw [extras, List.map_map]
    exact List.filter_sublist.map Prod.fst
  refine ⟨⟨_, _, rfl, fun f member => ?_, h.nested, h.extra⟩, ?_, ?_⟩
  · obtain ⟨key, observed, rfl, new⟩ := own f member
    exact ⟨rfl, new⟩
  · rw [List.map_append]
    have below := h.extra.trans p.nestedKeys_sublist
    refine List.pairwise_append.mpr ⟨distinctEntries.sublist keys, distinct.sublist below, ?_⟩
    -- A key without a rule is told from the key of any rule.
    intro k first k' second
    obtain ⟨f, member, rfl⟩ := List.mem_map.mp first
    obtain ⟨key, observed, rfl, new⟩ := own f member
    exact apart_of_hasRule_eq_false new (below.subset second)
  · refine List.forall_mem_append.mpr ⟨fun f member => ?_, h.stands .extra⟩
    obtain ⟨key, observed, rfl, -⟩ := own f member
    exact .value p key observed

/-- The findings of an examination are laid out after its pack. -/
theorem lists_of_examine (p : Pack Value α) (v : Value) (distinct : p.MeetsDistinct v) (s t : σ)
    (e : Explanation) (h : p.examine check v s = (.ok e, t)) (violation : Violation) :
    p.Lists violation (e.findings violation) := by
  induction p using Pack.induction generalizing v s t e violation with
  | step id rules ih =>
    have keys : (mk id rules).keys.Pairwise Value.Apart := MeetsKeys.keys distinct
    cases mapping : v.mapping? with
    | none =>
      rw [examine_of_mapping?_eq_none mapping] at h
      obtain ⟨rfl, -⟩ := Run.pure_eq_ok_iff.mp h
      cases violation with
      | invalid => exact lists_of_unmapped keys
      | extra => exact lists_nil .extra _
    | some m =>
      obtain ⟨found, entries, examined, items, rfl⟩ := (examine_eq_ok_iff mapping).mp h
      have contributes : (mk id rules).Contributes rules found :=
        contributes_of_examineRules (fun _ rule => rule)
          (fun key n q x rule lookup s t e below violation =>
            ih key n q rule x (MeetsKeys.nested distinct mapping rule lookup) s t e below violation)
          examined
      have listed := MeetsKeys.entries distinct (Value.entries?_eq_of_items mapping items)
      cases violation with
      | invalid => exact contributes.lists_invalid keys
      | extra => exact contributes.lists_extra keys listed

end Pack

/-! ### The shape of entries -/

/-- Whether a value is an entry of an explanation: a pair of a key and a value, or of a key and a
list of entries that is not empty. -/
inductive Value.IsEntry : Value → Prop
  | value {key v : Value} (plain : v.isBranch = false) : IsEntry (.tuple [key, v])
  | nested {key : Value} {id : Nat} {entries : List Value} (found : entries ≠ [])
      (below : ∀ entry ∈ entries, IsEntry entry) : IsEntry (.tuple [key, .branch id entries])

theorem Finding.reportedIn_eq_flatMap (fs : List Finding) :
    reportedIn fs = fs.flatMap reported := by
  induction fs with
  | nil => rfl
  | cons f fs ih => rw [reportedIn, ih, List.flatMap_cons]

/-- A finding that is laid out after a pack is handed on as an entry. -/
theorem Finding.StandsIn.isEntry {violation : Violation} {p : Pack Value α} {f : Finding}
    (h : f.StandsIn violation p) (plain : ∀ v ∈ f.reported, v.isBranch = false) :
    f.toValue.IsEntry := by
  induction h with
  | value p key observed => exact .value (plain observed (List.mem_singleton.mpr rfl))
  | @nested p q key n findings rule found arranged apart below ih =>
    rw [toValue, toValues_eq_map]
    refine .nested (by simpa using found) fun entry member => ?_
    obtain ⟨f, inside, rfl⟩ := List.mem_map.mp member
    refine ih f inside fun v reported => plain v ?_
    rw [Finding.reported, reportedIn_eq_flatMap]
    exact List.mem_flatMap.mpr ⟨f, inside, reported⟩

theorem Explanation.listOf_toValue (e : Explanation) (violation : Violation) :
    listOf (e.toValue.entries?.getD []) violation = (e.findings violation).map Finding.toValue := by
  rw [← Finding.toValues_eq_map]
  cases violation <;> rfl

/-- What is laid out after a pack is handed on as entries. -/
theorem Explanation.isEntry_of_lists {p : Pack Value α} {e : Explanation} {violation : Violation}
    (h : p.Lists violation (e.findings violation))
    (plain : ∀ v ∈ e.reported, v.isBranch = false) :
    ∀ entry ∈ listOf (e.toValue.entries?.getD []) violation, entry.IsEntry := by
  intro entry member
  rw [listOf_toValue] at member
  obtain ⟨f, listed, rfl⟩ := List.mem_map.mp member
  refine (h.stands f listed).isEntry fun v reported => plain v ?_
  have inside : v ∈ Finding.reportedIn (e.findings violation) := by
    rw [Finding.reportedIn_eq_flatMap]
    exact List.mem_flatMap.mpr ⟨f, listed, reported⟩
  cases violation with
  | invalid => exact List.mem_append_left _ inside
  | extra => exact List.mem_append_right _ inside

/-! ### Judgements and rows -/

theorem Value.isFree_toValue (exact : Bool) (e : Explanation) :
    e.toValue.isFree exact = .ok (e.isFree exact) := by
  obtain ⟨invalid, extra⟩ := e
  cases exact <;> cases invalid <;> cases extra <;> rfl

/-- The judgement of an explanation looks at no more than its lists, and still tells whether there
is a row that counts. -/
theorem Pack.isFree_iff_rows {check : α → Value → Run σ Bool} {p : Pack Value α} {v : Value}
    {s t : σ} {e : Explanation} (h : p.examine check v s = (.ok e, t)) (exact : Bool)
    (root : String) :
    e.isFree exact = true ↔
      (e.rows root).filter (fun r => exact || r.violation == .invalid) = [] := by
  rw [← e.rows_counting exact root]
  have values := (e.counting exact).rows_map_value root
  constructor
  · intro free
    obtain ⟨noInvalid, noExtra⟩ := Explanation.isFree_iff.mp free
    cases exact with
    | true => simp [Explanation.counting, Explanation.rows, noInvalid, noExtra, Finding.rowsOf]
    | false => simp [Explanation.counting, Explanation.rows, noInvalid, Finding.rowsOf]
  · intro none
    rw [none] at values
    cases free : e.isFree exact with
    | true => rfl
    | false => exact absurd values.symm (reported_ne_nil_of_examine h free)

/-- A value that refuses to be a condition does so with a fault of its own. -/
theorem Value.kind_of_truth_eq_error {v : Value} {fault : Fault} (h : v.truth = .error fault) :
    fault.kind = "ValueError" ∨ fault.kind = "RuntimeError" := by
  unfold truth at h
  split at h <;> cases h
  · exact .inl rfl
  · exact .inr rfl
  · exact .inr rfl

/-- The rows of an explanation fail only if the root refuses to be a condition. -/
theorem Value.truth_eq_error_of_rows {e : Explanation} {root : Value} {fault : Fault}
    (plain : ∀ v ∈ e.reported, v.isBranch = false)
    (h : Value.rows root e.toValue = .error fault) : root.truth = .error fault := by
  rw [Value.rows, e.ofValue_toValue plain] at h
  change e.rowsBelow root = .error fault at h
  rw [Explanation.rowsBelow] at h
  cases asked : root.truth with
  | error other =>
    rw [asked] at h
    split at h <;> cases h
    rfl
  | ok b =>
    rw [asked] at h
    split at h <;> cases h

/-- The card of an explanation fails only if its level does. -/
theorem Value.card_toValue {e : Explanation} (level : Value)
    (plain : ∀ v ∈ e.reported, v.isBranch = false) :
    Value.card level e.toValue =
      (Row.marks level).map fun marks => Row.card marks (e.rows Row.root) := by
  rw [card, Value.rows_toValue e Row.root plain]
  cases Row.marks level <;> rfl

theorem Row.kind_of_marks_eq_error {level : Value} {fault : Fault}
    (h : Row.marks level = .error fault) : fault.kind ≠ "SchemaError" := by
  unfold marks at h
  split at h
  · cases h
    simp [Fault.kind]
  · split at h
    · cases h
      simp [Fault.kind]
    · split at h <;> cases h
      decide

namespace Session

/-- What can be relied on by whoever reads the explanation of an examination. It has the shape of
one at every depth and is laid out after the pack. Laying it out flat or on a card never fails for
its shape, and it is judged free exactly if no row counts. No value that is reported may be a list
that stands for findings. -/
theorem explanation_of_examineBy (check : Value → Value → Run Session Bool) (schema v : Value)
    (s t : Session) (p : Pack Value Value) (e : Explanation) (read : Pack.ofValue schema = .ok p)
    (distinct : p.MeetsDistinct v) (h : examineBy check schema v s = (.ok e, t))
    (plain : ∀ w ∈ e.reported, w.isBranch = false) :
    e.toValue.isExplanation = .ok true ∧
      (∀ violation, p.Lists violation (e.findings violation) ∧
        ∀ entry ∈ Explanation.listOf (e.toValue.entries?.getD []) violation, entry.IsEntry) ∧
      (∀ root fault, Value.rows root e.toValue = .error fault → fault.kind ≠ "SchemaError") ∧
      (∀ level fault, Value.card level e.toValue = .error fault → fault.kind ≠ "SchemaError") ∧
      ∀ root, ∃ rows free freeExactly, Value.rows (.text root) e.toValue = .ok rows ∧
        e.toValue.isFree false = .ok free ∧
        (free = true ↔ ∀ r ∈ rows, r.violation ≠ .invalid) ∧
        e.toValue.isFree true = .ok freeExactly ∧ (freeExactly = true ↔ rows = []) := by
  obtain ⟨p', read', examined⟩ := exists_pack_of_examineBy h
  obtain rfl := Except.ok.inj (read.symm.trans read')
  have lists := Pack.lists_of_examine p v distinct s t e examined
  refine ⟨e.isExplanation_toValue, fun violation => ⟨lists violation,
    Explanation.isEntry_of_lists (lists violation) plain⟩, fun root fault failed => ?_,
    fun level fault failed => ?_, fun root => ⟨e.rows root, e.isFree false, e.isFree true,
    Value.rows_toValue e root plain, Value.isFree_toValue false e, ?_,
    Value.isFree_toValue true e, ?_⟩⟩
  · have kinds := Value.kind_of_truth_eq_error (Value.truth_eq_error_of_rows plain failed)
    rcases kinds with kind | kind <;> simp [kind]
  · rw [Value.card_toValue level plain] at failed
    cases marks : Row.marks level with
    | error other =>
      rw [marks] at failed
      cases failed
      exact Row.kind_of_marks_eq_error marks
    | ok marked =>
      rw [marks] at failed
      cases failed
  · rw [Pack.isFree_iff_rows examined false root, List.filter_eq_nil_iff]
    simp
  · rw [Pack.isFree_iff_rows examined true root, List.filter_eq_nil_iff]
    simp [List.eq_nil_iff_forall_not_mem]

/-- Violations at three depths, with an extra key at the top and one below a nested pack. Each list
of findings is laid out after its pack, and neither judgement is free. -/
theorem explanation_of_examineBy_nested :
    let inner : Pack Value Value := .mk 0 [(.text "e", .leaf 0 (.callable 7 (.check .number)))]
    let below : Pack Value Value := .mk 0 [
      (.text "c", .leaf 0 (.callable 5 (.check .text))), (.text "d", .nested 0 inner)]
    let p : Pack Value Value := .mk 0 [
      (.text "a", .leaf 0 (.callable 3 (.check .number))), (.text "b", .nested 0 below)]
    let schema : Value := .dict 2 [
      (.text "a", .callable 3 (.check .number)),
      (.text "b", .dict 4 [
        (.text "c", .callable 5 (.check .text)),
        (.text "d", .dict 6 [(.text "e", .callable 7 (.check .number))])])]
    let v : Value := .dict 8 [
      (.text "a", .text "one"), (.text "z", .int 1),
      (.text "b", .dict 9 [(.text "c", .int 5), (.text "d", .int 7), (.text "y", .int 2)])]
    ∃ e t, Pack.ofValue schema = .ok p ∧ p.MeetsDistinct v ∧
      examineBy Value.verdict schema v .initial = (.ok e, t) ∧
      (∀ w ∈ e.reported, w.isBranch = false) ∧
      e.invalid = [.value (.text "a") (.text "one"), .nested (.text "b")
        [.value (.text "c") (.int 5), .nested (.text "d") [.value (.text "e") .null]]] ∧
      e.extra = [.value (.text "z") (.int 1), .nested (.text "b") [.value (.text "y") (.int 2)]] ∧
      p.Lists .invalid e.invalid ∧ p.Lists .extra e.extra ∧ e.toValue.isFree false = .ok false := by
  intro inner below p schema v
  let e : Explanation := ⟨
    [.value (.text "a") (.text "one"), .nested (.text "b")
      [.value (.text "c") (.int 5), .nested (.text "d") [.value (.text "e") .null]]],
    [.value (.text "z") (.int 1), .nested (.text "b") [.value (.text "y") (.int 2)]]⟩
  have read : Pack.ofValue schema = .ok p := rfl
  have distinct : p.MeetsDistinct v := by decide
  have examined : examineBy Value.verdict schema v .initial = (.ok e, .initial) := rfl
  have plain : ∀ w ∈ e.reported, w.isBranch = false := by
    simp [e, Explanation.reported, Finding.reportedIn, Finding.reported, Value.isBranch]
  obtain ⟨-, lists, -⟩ := explanation_of_examineBy Value.verdict schema v .initial _ p e read
    distinct examined plain
  exact ⟨e, _, read, distinct, examined, plain, rfl, rfl, (lists .invalid).1, (lists .extra).1, rfl⟩

end Session

end Conformance
