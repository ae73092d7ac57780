import Conformance.Pack.Acceptance

/-!
# Examination of values by packs

The walk over a pack that does not stop: it calls every check once where its pack meets a mapping,
and collects all that is invalid and all that is extra. Where a pack meets something else, each of
its keys is reported as absent, and nothing below.

The findings of a nested pack stand below its key; a key with no findings below it is left out. The
extra keys of a mapping come before those of its nested packs.

## Main definitions

* `Explanation.append` — findings of one part followed by those of another
* `Pack.examine` — the walk
* `Explanation.Composes` — properties that stay true where explanations are put together

## Main results

* `Pack.examine_eq_ok_iff`, `Pack.examineRules_cons_eq_ok_iff`, `Rule.examine_leaf_eq_ok_iff`,
  `Rule.examine_nested_eq_ok_iff` — the steps of a walk that ends with an explanation
* `Pack.examine_map` — examination by other checks that say the same
* `Pack.examine_of_composes` — what stays true where explanations are put together holds of those of
  an examination
-/

namespace Conformance

variable {σ α β : Type}

/-- No findings. -/
def Explanation.empty : Explanation := ⟨[], []⟩

/-- The findings of one part of a pack followed by those of another. -/
def Explanation.append (d e : Explanation) : Explanation :=
  ⟨d.invalid ++ e.invalid, d.extra ++ e.extra⟩

/-- Findings below a key; a key without findings is left out. -/
def Finding.under (key : Value) (findings : List Finding) : List Finding :=
  if findings.isEmpty then [] else [.nested key findings]

theorem Finding.under_eq_nil_iff (key : Value) (findings : List Finding) :
    under key findings = [] ↔ findings = [] := by
  cases findings <;> simp [under]

/-- The findings of a nested pack, below its key. -/
def Explanation.under (key : Value) (e : Explanation) : Explanation :=
  ⟨Finding.under key e.invalid, Finding.under key e.extra⟩

/-- The entries of a mapping whose keys have no rule. -/
def Pack.extras (rules : List (Value × Rule Value α)) (entries : List (Value × Value)) :
    List Finding :=
  (entries.filter fun entry => !Pack.hasRule rules entry.1).map fun entry =>
    .value entry.1 entry.2

mutual

/-- How a value departs from a pack. -/
def Pack.examine (check : α → Value → Run σ Bool) :
    Pack Value α → Value → Run σ Explanation
  | .mk _ rules, v =>
    match v.mapping? with
    | none => pure ⟨rules.map fun entry => .value entry.1 .null, []⟩
    | some m => do
      let found ← Pack.examineRules check rules m
      let entries ← Run.lift m.items
      pure ⟨found.invalid, Pack.extras rules entries ++ found.extra⟩
termination_by structural a => a

/-- How the values of a mapping depart from the rules at their keys. -/
def Pack.examineRules (check : α → Value → Run σ Bool) :
    List (Value × Rule Value α) → Mapping → Run σ Explanation
  | [], _ => pure .empty
  | (key, r) :: rest, m => do
    let observed ← Run.lift (m.get key)
    let here ← r.examine check key observed
    let others ← Pack.examineRules check rest m
    pure (here.append others)
termination_by structural a => a

/-- How the value at a key departs from its rule. -/
def Rule.examine (check : α → Value → Run σ Bool) (key : Value) :
    Rule Value α → Value → Run σ Explanation
  | .leaf _ c, observed => do
    if ← check c observed then pure .empty else pure ⟨[.value key observed], []⟩
  | .nested _ p, observed => do
    let found ← p.examine check observed
    pure (found.under key)
termination_by structural a => a

end

theorem Pack.extras_mapRules (f : α → β) (rules : List (Value × Rule Value α))
    (entries : List (Value × Value)) :
    extras (mapRules f rules) entries = extras rules entries := by
  simp only [extras, hasRule_mapRules]

mutual

/-- Examination asks nothing of a check but what it says about values. -/
theorem Pack.examine_map (f : α → β) (check : β → Value → Run σ Bool) (p : Pack Value α)
    (v : Value) : (p.map f).examine check v = p.examine (fun c => check (f c)) v := by
  cases p with
  | mk id rules =>
    rw [Pack.map, Pack.examine, Pack.examine]
    cases v.mapping? with
    | none =>
      have keys :=
        congrArg (List.map fun key => Finding.value key .null) (Pack.keys_mapRules f rules)
      simp only [List.map_map, Function.comp_def] at keys
      simp only [keys]
    | some m => simp only [Pack.examineRules_mapRules, Pack.extras_mapRules]

theorem Pack.examineRules_mapRules (f : α → β) (check : β → Value → Run σ Bool)
    (rules : List (Value × Rule Value α)) (m : Mapping) :
    Pack.examineRules check (Pack.mapRules f rules) m =
      Pack.examineRules (fun c => check (f c)) rules m := by
  match rules with
  | [] => rfl
  | (key, r) :: rest =>
    simp only [Pack.mapRules, Pack.examineRules, Rule.examine_map, Pack.examineRules_mapRules]

theorem Rule.examine_map (f : α → β) (check : β → Value → Run σ Bool) (key : Value)
    (r : Rule Value α) (x : Value) :
    (r.map f).examine check key x = r.examine (fun c => check (f c)) key x := by
  cases r with
  | leaf n c => rfl
  | nested n p => simp only [Rule.map, Rule.examine, Pack.examine_map]

end

variable {check : α → Value → Run σ Bool} {s t : σ} {e : Explanation}

namespace Rule

theorem examine_leaf_eq_ok_iff {n : Nat} {c : α} {key x : Value} :
    (leaf n c).examine check key x s = (.ok e, t) ↔
      ∃ b, check c x s = (.ok b, t) ∧ e = if b then .empty else ⟨[.value key x], []⟩ := by
  rw [examine, Run.bind_eq_ok_iff]
  constructor
  · rintro ⟨b, u, asked, ended⟩
    cases b with
    | true =>
      obtain ⟨rfl, rfl⟩ := Run.pure_eq_ok_iff.mp ended
      exact ⟨true, asked, rfl⟩
    | false =>
      obtain ⟨rfl, rfl⟩ := Run.pure_eq_ok_iff.mp ended
      exact ⟨false, asked, rfl⟩
  · rintro ⟨b, asked, rfl⟩
    exact ⟨b, t, asked, by cases b <;> rfl⟩

theorem examine_nested_eq_ok_iff {n : Nat} {p : Pack Value α} {key x : Value} :
    (nested n p).examine check key x s = (.ok e, t) ↔
      ∃ found, p.examine check x s = (.ok found, t) ∧ e = found.under key := by
  rw [examine, Run.bind_eq_ok_iff]
  constructor
  · rintro ⟨found, u, examined, ended⟩
    obtain ⟨rfl, rfl⟩ := Run.pure_eq_ok_iff.mp ended
    exact ⟨found, examined, rfl⟩
  · rintro ⟨found, examined, rfl⟩
    exact ⟨found, t, examined, rfl⟩

end Rule

namespace Pack

/-- Rules are examined to the end if no look-up is refused and each rule is examined to the end,
from where the one before left the state. -/
theorem examineRules_cons_eq_ok_iff {key : Value} {r : Rule Value α}
    {rest : List (Value × Rule Value α)} {m : Mapping} :
    examineRules check ((key, r) :: rest) m s = (.ok e, t) ↔
      ∃ x here others u, m.get key = .ok x ∧ r.examine check key x s = (.ok here, u) ∧
        examineRules check rest m u = (.ok others, t) ∧ e = here.append others := by
  simp only [examineRules, Run.bind_eq_ok_iff, Run.lift_eq_ok_iff, Run.pure_eq_ok_iff]
  constructor
  · rintro ⟨x, _, ⟨lookup, rfl⟩, here, u, examined, others, _, examinedRest, rfl, rfl⟩
    exact ⟨x, here, others, u, lookup, examined, examinedRest, rfl⟩
  · rintro ⟨x, here, others, u, lookup, examined, examinedRest, rfl⟩
    exact ⟨x, s, ⟨lookup, rfl⟩, here, u, examined, others, t, examinedRest, rfl, rfl⟩

/-- A mapping is examined to the end if its rules are and if it can be listed. -/
theorem examine_eq_ok_iff {id : Nat} {rules : List (Value × Rule Value α)} {v : Value} {m : Mapping}
    (mapping : v.mapping? = some m) :
    (mk id rules).examine check v s = (.ok e, t) ↔
      ∃ found entries, examineRules check rules m s = (.ok found, t) ∧ m.items = .ok entries ∧
        e = ⟨found.invalid, extras rules entries ++ found.extra⟩ := by
  simp only [examine, mapping, Run.bind_eq_ok_iff, Run.lift_eq_ok_iff, Run.pure_eq_ok_iff]
  constructor
  · rintro ⟨found, u, examined, entries, _, ⟨listed, rfl⟩, rfl, rfl⟩
    exact ⟨found, entries, examined, listed, rfl⟩
  · rintro ⟨found, entries, examined, listed, rfl⟩
    exact ⟨found, t, examined, entries, t, ⟨listed, rfl⟩, rfl, rfl⟩

/-- What is no mapping lacks every key, and nothing is called. -/
theorem examine_of_mapping?_eq_none {id : Nat} {rules : List (Value × Rule Value α)} {v : Value}
    (mapping : v.mapping? = none) :
    (mk id rules).examine check v = pure ⟨rules.map fun entry => .value entry.1 .null, []⟩ := by
  rw [examine, mapping]

end Pack

/-! ### What explanations of examinations are put together from -/

/-- A property of explanations that holds of the findings of single values and stays true where
explanations are put together. -/
structure Explanation.Composes (P : Explanation → Prop) : Prop where
  empty : P .empty
  invalid : ∀ key x, P ⟨[.value key x], []⟩
  extra : ∀ key x, P ⟨[], [.value key x]⟩
  append : ∀ d e, P d → P e → P (d.append e)
  under : ∀ key e, P e → P (e.under key)

namespace Explanation.Composes

variable {P : Explanation → Prop}

theorem invalidValues (h : Composes P) (key observed : β → Value) (items : List β) :
    P ⟨items.map fun item => .value (key item) (observed item), []⟩ := by
  induction items with
  | nil => exact h.empty
  | cons item items ih => exact h.append _ _ (h.invalid (key item) (observed item)) ih

theorem extraValues (h : Composes P) (key observed : β → Value) (items : List β) :
    P ⟨[], items.map fun item => .value (key item) (observed item)⟩ := by
  induction items with
  | nil => exact h.empty
  | cons item items ih => exact h.append _ _ (h.extra (key item) (observed item)) ih

end Explanation.Composes

/-- A rule, if the property holds of what is found below the pack in it. -/
theorem Rule.examine_of_composes {P : Explanation → Prop} (h : Explanation.Composes P)
    {r : Rule Value α} {key x : Value}
    (nested : ∀ n q, r = .nested n q → ∀ s t e, q.examine check x s = (.ok e, t) → P e)
    (examined : r.examine check key x s = (.ok e, t)) : P e := by
  cases r with
  | leaf n c =>
    obtain ⟨b, -, rfl⟩ := examine_leaf_eq_ok_iff.mp examined
    cases b with
    | true => exact h.empty
    | false => exact h.invalid key x
  | nested n q =>
    obtain ⟨found, below, rfl⟩ := examine_nested_eq_ok_iff.mp examined
    exact h.under key found (nested n q rfl s t found below)

namespace Pack

/-- Rules, if the property holds of what is found below the packs in them. -/
theorem examineRules_of_composes {P : Explanation → Prop} (h : Explanation.Composes P)
    {rules : List (Value × Rule Value α)} {m : Mapping}
    (nested : ∀ key n q, (key, .nested n q) ∈ rules → ∀ x s t e,
      q.examine check x s = (.ok e, t) → P e)
    (examined : examineRules check rules m s = (.ok e, t)) : P e := by
  induction rules generalizing s e with
  | nil =>
    obtain ⟨rfl, -⟩ := Run.pure_eq_ok_iff.mp examined
    exact h.empty
  | cons entry rest ih =>
    obtain ⟨key, r⟩ := entry
    obtain ⟨x, here, others, u, -, first, further, rfl⟩ := examineRules_cons_eq_ok_iff.mp examined
    have holds := Rule.examine_of_composes h
      (fun n q equal => nested key n q (equal ▸ List.mem_cons_self) x) first
    have holdsFurther := ih (fun k n q rule => nested k n q (List.mem_cons_of_mem _ rule)) further
    exact h.append here others holds holdsFurther

/-- A property that stays true where explanations are put together holds of every explanation of
an examination. -/
theorem examine_of_composes {P : Explanation → Prop} (h : Explanation.Composes P)
    (p : Pack Value α) (v : Value) (s t : σ) (e : Explanation)
    (examined : p.examine check v s = (.ok e, t)) : P e := by
  induction p using Pack.induction generalizing v s t e with
  | step id rules ih =>
    cases mapping : v.mapping? with
    | none =>
      rw [examine_of_mapping?_eq_none mapping] at examined
      obtain ⟨rfl, -⟩ := Run.pure_eq_ok_iff.mp examined
      exact h.invalidValues Prod.fst (fun _ => .null) rules
    | some m =>
      obtain ⟨found, entries, below, -, rfl⟩ := (examine_eq_ok_iff mapping).mp examined
      have holds := examineRules_of_composes h
        (fun key n q rule x s t e => ih key n q rule x s t e) below
      exact h.append ⟨[], extras rules entries⟩ found (h.extraValues Prod.fst Prod.snd _) holds

end Pack

end Conformance
