import Conformance.Proofs.Visits

/-!
# Walks over checks that have their mind made up

A check has its mind made up about a value if it answers, and always with the same. A walk that
comes by no other check can be told without walking: whether the value conforms, and how it departs,
are functions of the pack and the value. In these each rule counts for itself, so that the order in
which rules are asked, and where a walk stops, is gone.

## Main definitions

* `Pack.DecidedOn` — the checks that an examination comes by have their mind made up
* `Pack.conforms`, `Pack.departures` — what the walks say then

## Main results

* `Pack.accepts_of_decidedOn`, `Pack.examine_of_decidedOn` — the walks say just that, from every
  state
* `Pack.allConform_eq_all`, `Pack.departuresOf_eq` — rule by rule
-/

namespace Conformance

variable {σ α : Type}

/-- What entries have at a key, where nothing stands for an absent key. -/
def Value.at (entries : List (Value × Value)) (key : Value) : Value :=
  (lookup? entries key).getD .null

theorem Mapping.get_readable (entries : List (Value × Value)) (key : Value) :
    (Mapping.readable entries).get key = .ok (Value.at entries key) := rfl

variable (holds : α → Value → Bool)

mutual

/-- Whether a value conforms to a pack, if `holds` tells the checks. -/
def Pack.conforms (exact : Bool) : Pack Value α → Value → Bool
  | .mk _ rules, v =>
    match v.entries? with
    | none => !exact && rules.isEmpty
    | some entries =>
      !(exact && (entries.map (·.1)).any fun key => !Pack.hasRule rules key) &&
        Pack.allConform exact rules entries
termination_by structural a => a

/-- Whether entries conform to all rules. -/
def Pack.allConform (exact : Bool) : List (Value × Rule Value α) → List (Value × Value) → Bool
  | [], _ => true
  | (key, r) :: rest, entries =>
    r.conforms exact (Value.at entries key) && Pack.allConform exact rest entries
termination_by structural a => a

/-- Whether a value conforms to a rule. -/
def Rule.conforms (exact : Bool) : Rule Value α → Value → Bool
  | .leaf _ c, x => holds c x
  | .nested _ p, x => p.conforms exact x
termination_by structural a => a

end

mutual

/-- How a value departs from a pack, if `holds` tells the checks. -/
def Pack.departures : Pack Value α → Value → Explanation
  | .mk _ rules, v =>
    match v.entries? with
    | none => ⟨rules.map fun entry => .value entry.1 .null, []⟩
    | some entries =>
      let found := Pack.departuresOf rules entries
      ⟨found.invalid, Pack.extras rules entries ++ found.extra⟩
termination_by structural a => a

/-- How entries depart from rules. -/
def Pack.departuresOf : List (Value × Rule Value α) → List (Value × Value) → Explanation
  | [], _ => .empty
  | (key, r) :: rest, entries =>
    (r.departures key (Value.at entries key)).append (Pack.departuresOf rest entries)
termination_by structural a => a

/-- How the value at a key departs from its rule. -/
def Rule.departures (key : Value) : Rule Value α → Value → Explanation
  | .leaf _ c, x => if holds c x then .empty else ⟨[.value key x], []⟩
  | .nested _ p, x => (p.departures x).under key
termination_by structural a => a

end

namespace Pack

theorem allConform_eq_all (exact : Bool) (rules : List (Value × Rule Value α))
    (entries : List (Value × Value)) :
    allConform holds exact rules entries =
      rules.all fun entry => entry.2.conforms holds exact (Value.at entries entry.1) := by
  induction rules with
  | nil => rfl
  | cons entry rest ih => rw [allConform, ih, List.all_cons]

theorem departuresOf_eq (rules : List (Value × Rule Value α)) (entries : List (Value × Value)) :
    departuresOf holds rules entries =
      ⟨rules.flatMap fun entry =>
          (entry.2.departures holds entry.1 (Value.at entries entry.1)).invalid,
        rules.flatMap fun entry =>
          (entry.2.departures holds entry.1 (Value.at entries entry.1)).extra⟩ := by
  induction rules with
  | nil => rfl
  | cons entry rest ih => rw [departuresOf, ih]; rfl

end Pack

/-! ### The walks -/

variable {holds} {check : α → Value → Run σ Bool}

/-- Each check that an examination of the value by the pack comes by answers about the value there,
and its answer is up to that value alone. -/
def Pack.DecidedOn (check : α → Value → Run σ Bool) (holds : α → Value → Bool)
    (p : Pack Value α) (v : Value) : Prop :=
  ∀ path c x, .check path c x ∈ p.visits v → ∀ s, ∃ t, check c x s = (.ok (holds c x), t)

/-- The same of rules that are applied to entries. -/
def Pack.DecidedFor (check : α → Value → Run σ Bool) (holds : α → Value → Bool)
    (rules : List (Value × Rule Value α)) (entries : List (Value × Value)) : Prop :=
  ∀ entry ∈ rules, ∀ path c x, .check path c x ∈ entry.2.visits (Value.at entries entry.1) →
    ∀ s, ∃ t, check c x s = (.ok (holds c x), t)

namespace Pack

/-- What is decided about a mapping is decided for its entries. -/
theorem DecidedOn.decidedFor {id : Nat} {rules : List (Value × Rule Value α)} {v : Value}
    {entries : List (Value × Value)} (h : (mk id rules).DecidedOn check holds v)
    (mapping : v.mapping? = some (.readable entries)) : DecidedFor check holds rules entries := by
  intro entry rule path c x member
  refine h (entry.1 :: path) c x (mem_visits_mk_iff.mpr (.inr ⟨_, mapping, ?_⟩))
  exact mem_visitsOf_iff.mpr ⟨entry.1, entry.2, _, rule, rfl, _, member, rfl⟩

/-- Where all mappings on the way can be listed, a value is no mapping, or it is one of entries. -/
theorem MeetsReadable.cases {p : Pack Value α} {v : Value} (h : p.MeetsReadable v) :
    v.mapping? = none ∧ v.entries? = none ∨
      ∃ entries, v.mapping? = some (.readable entries) ∧ v.entries? = some entries := by
  cases mapping : v.mapping? with
  | none => exact .inl ⟨rfl, Value.entries?_eq_none mapping⟩
  | some m =>
    obtain ⟨entries, listed⟩ := h.here mapping
    have found := Value.entries?_eq_of_items mapping listed
    exact .inr ⟨entries, congrArg some (Mapping.items_eq_ok listed), found⟩

/-- Rules accept what conforms to them, if the packs in them do. -/
theorem acceptRules_of_decidedFor (exact : Bool) {rules : List (Value × Rule Value α)}
    {entries : List (Value × Value)} (decided : DecidedFor check holds rules entries)
    (nested : ∀ key n q, (key, .nested n q) ∈ rules → ∀ s,
      ∃ t, q.accepts check exact (Value.at entries key) s =
        (.ok (q.conforms holds exact (Value.at entries key)), t)) (s : σ) :
    ∃ t, acceptRules check exact rules (.readable entries) s =
      (.ok (allConform holds exact rules entries), t) := by
  induction rules generalizing s with
  | nil => exact ⟨s, rfl⟩
  | cons entry rest ih =>
    obtain ⟨key, r⟩ := entry
    have here : ∃ t, r.accepts check exact (Value.at entries key) s =
        (.ok (r.conforms holds exact (Value.at entries key)), t) := by
      cases r with
      | leaf n c => exact decided _ List.mem_cons_self [] c _ List.mem_cons_self s
      | nested n q => exact nested key n q List.mem_cons_self s
    obtain ⟨t, accepted⟩ := here
    obtain ⟨u, others⟩ := ih (fun entry rule => decided entry (List.mem_cons_of_mem _ rule))
      (fun k n q rule => nested k n q (List.mem_cons_of_mem _ rule)) t
    rw [acceptRules, allConform, Mapping.get_readable, Run.lift_ok_bind,
      Run.bind_apply_ok accepted]
    -- The rules behind a refusal are not asked, and do not count any more.
    cases r.conforms holds exact (Value.at entries key) with
    | true => exact ⟨u, others⟩
    | false => exact ⟨t, rfl⟩

/-- A value is accepted if it conforms, from every state. -/
theorem accepts_of_decidedOn (exact : Bool) (p : Pack Value α) (v : Value)
    (decided : p.DecidedOn check holds v) (readable : p.MeetsReadable v) (s : σ) :
    ∃ t, p.accepts check exact v s = (.ok (p.conforms holds exact v), t) := by
  induction p using Pack.induction generalizing v s with
  | step id rules ih =>
    rw [conforms]
    rcases readable.cases with ⟨mapping, found⟩ | ⟨entries, mapping, found⟩
    · rw [accepts, mapping, found]
      exact ⟨s, rfl⟩
    · rw [accepts_of_items mapping rfl, found]
      dsimp only
      obtain ⟨t, ran⟩ := acceptRules_of_decidedFor exact (decided.decidedFor mapping)
        (fun key n q rule s => ih key n q rule (Value.at entries key)
          (fun path c x member => decided.decidedFor mapping _ rule path c x member)
          (readable.nested mapping rule rfl) s) s
      generalize (exact && (entries.map (·.1)).any fun key => !hasRule rules key) = extra
      cases extra with
      | true => exact ⟨s, rfl⟩
      | false => exact ⟨t, ran⟩

/-- Rules find how entries depart from them, if the packs in them do. -/
theorem examineRules_of_decidedFor {rules : List (Value × Rule Value α)}
    {entries : List (Value × Value)} (decided : DecidedFor check holds rules entries)
    (nested : ∀ key n q, (key, .nested n q) ∈ rules → ∀ s,
      ∃ t, q.examine check (Value.at entries key) s =
        (.ok (q.departures holds (Value.at entries key)), t)) (s : σ) :
    ∃ t, examineRules check rules (.readable entries) s =
      (.ok (departuresOf holds rules entries), t) := by
  induction rules generalizing s with
  | nil => exact ⟨s, rfl⟩
  | cons entry rest ih =>
    obtain ⟨key, r⟩ := entry
    have here : ∃ t, r.examine check key (Value.at entries key) s =
        (.ok (r.departures holds key (Value.at entries key)), t) := by
      cases r with
      | leaf n c =>
        obtain ⟨t, asked⟩ := decided _ List.mem_cons_self [] c _ List.mem_cons_self s
        exact ⟨t, Rule.examine_leaf_eq_ok_iff.mpr ⟨_, asked, rfl⟩⟩
      | nested n q =>
        obtain ⟨t, examined⟩ := nested key n q List.mem_cons_self s
        exact ⟨t, Rule.examine_nested_eq_ok_iff.mpr ⟨_, examined, rfl⟩⟩
    obtain ⟨t, examined⟩ := here
    obtain ⟨u, others⟩ := ih (fun entry rule => decided entry (List.mem_cons_of_mem _ rule))
      (fun k n q rule => nested k n q (List.mem_cons_of_mem _ rule)) t
    exact ⟨u, examineRules_cons_eq_ok_iff.mpr ⟨_, _, _, t, rfl, examined, others, rfl⟩⟩

/-- An examination finds how a value departs, from every state. -/
theorem examine_of_decidedOn (p : Pack Value α) (v : Value) (decided : p.DecidedOn check holds v)
    (readable : p.MeetsReadable v) (s : σ) :
    ∃ t, p.examine check v s = (.ok (p.departures holds v), t) := by
  induction p using Pack.induction generalizing v s with
  | step id rules ih =>
    rw [departures]
    rcases readable.cases with ⟨mapping, found⟩ | ⟨entries, mapping, found⟩
    · rw [examine_of_mapping?_eq_none mapping, found]
      exact ⟨s, rfl⟩
    · obtain ⟨t, ran⟩ := examineRules_of_decidedFor (decided.decidedFor mapping)
        (fun key n q rule s => ih key n q rule (Value.at entries key)
          (fun path c x member => decided.decidedFor mapping _ rule path c x member)
          (readable.nested mapping rule rfl) s) s
      rw [found]
      exact ⟨t, (examine_eq_ok_iff mapping).mpr ⟨_, entries, ran, rfl, rfl⟩⟩

end Pack

end Conformance
