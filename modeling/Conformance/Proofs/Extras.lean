import Conformance.Proofs.Verdicts

/-!
# What a pack does not look at

A pack looks at a mapping through the keys of its rules alone. Two mappings are alike to it if under
these keys they have the same: the very same value where a check is asked, and values that are alike
to the nested pack where there is one. The order of their keys, the keys that have no rule, and the
kind of mapping do not matter at any depth, nor whether a key is absent or holds nothing.

What is alike to a pack is accepted alike in permissive mode, with the same calls. An examination
finds the same values invalid, and so the keys without a rule have no part in that. It does list
them, though, and where a mapping refuses to be listed there is no end to the examination; so both
values must consist of mappings that can be listed.

## Main definitions

* `Pack.Alike` — two values that a pack cannot tell apart but for extra keys
* `Run.AgreesIn` — two runs that do the same and end with the same part of an answer

## Main results

* `Pack.accepts_eq_of_alike` — permissive acceptance is the same run on both
* `Pack.examine_agreesIn_invalid` — examination finds the same invalid values on both
* `Session.invalid_eq_of_alike` — the same of schemas
-/

namespace Conformance

variable {σ α β γ β' γ' : Type}

mutual

/-- Two values are alike to a pack if neither is a mapping, or if both are and have alike values
under each key of the pack. -/
def Pack.Alike : Pack Value α → Value → Value → Prop
  | .mk _ rules, v, w =>
    match v.mapping?, w.mapping? with
    | none, none => True
    | some m, some m' => Pack.RulesAlike rules m m'
    | _, _ => False
termination_by structural a => a

/-- Two mappings answer the look-up of the key of each rule, with values that are alike to the
rule. -/
def Pack.RulesAlike : List (Value × Rule Value α) → Mapping → Mapping → Prop
  | [], _, _ => True
  | (key, r) :: rest, m, m' =>
    (∃ x y, m.get key = .ok x ∧ m'.get key = .ok y ∧ r.Alike x y) ∧ Pack.RulesAlike rest m m'
termination_by structural a => a

/-- Only the same value is alike to a check; to a nested pack, what is alike to that. -/
def Rule.Alike : Rule Value α → Value → Value → Prop
  | .leaf _ _, x, y => x = y
  | .nested _ p, x, y => p.Alike x y
termination_by structural a => a

end

/-! ### Runs that agree in a part of their answers -/

namespace Run

/-- Two runs do the same to each state and end with the same fault, or with answers of which the
given part is the same. -/
def AgreesIn (part : β → γ) (x y : Run σ β) : Prop := part <$> x = part <$> y

theorem AgreesIn.refl (part : β → γ) (x : Run σ β) : AgreesIn part x x := rfl

/-- Where both end with an answer, they end in the same state. -/
theorem AgreesIn.answer {part : β → γ} {x y : Run σ β} (h : AgreesIn part x y) {s t u : σ}
    {a b : β} (left : x s = (.ok a, t)) (right : y s = (.ok b, u)) : part a = part b ∧ t = u := by
  have same := congrFun h s
  rw [map_apply, map_apply, left, right] at same
  obtain ⟨answer, states⟩ := Prod.mk.inj same
  exact ⟨Except.ok.inj answer, states⟩

theorem AgreesIn.pure {part : β → γ} {a b : β} (h : part a = part b) :
    AgreesIn part (pure a : Run σ β) (pure b) := by
  rw [AgreesIn, map_pure, map_pure, h]

theorem AgreesIn.bind {part : β → γ} {part' : β' → γ'} {x y : Run σ β} {f g : β → Run σ β'}
    (first : AgreesIn part x y)
    (second : ∀ a b, part a = part b → AgreesIn part' (f a) (g b)) :
    AgreesIn part' (x >>= f) (y >>= g) := by
  funext s
  have same := congrFun first s
  rw [map_apply, map_apply] at same
  rw [map_apply, map_apply, bind_apply, bind_apply]
  generalize x s = left, y s = right at same ⊢
  -- A fault of one is the fault of the other; two answers go on alike, from the same state.
  match left, right with
  | (.error fault, t), (.error fault', u) =>
    cases same
    rfl
  | (.ok a, t), (.ok b, u) =>
    obtain ⟨answer, rfl⟩ := Prod.mk.inj same
    exact congrFun (second a b (Except.ok.inj answer)) t
  | (.error fault, t), (.ok b, u) => cases same
  | (.ok a, t), (.error fault, u) => cases same

end Run

/-! ### Acceptance and examination of values that are alike -/

namespace Pack

/-- Values that are alike to a pack are both mappings or both none. -/
theorem Alike.cases {id : Nat} {rules : List (Value × Rule Value α)} {v w : Value}
    (h : (mk id rules).Alike v w) :
    (v.mapping? = none ∧ w.mapping? = none) ∨
      ∃ m m', v.mapping? = some m ∧ w.mapping? = some m' ∧ RulesAlike rules m m' := by
  rw [Alike] at h
  cases left : v.mapping? with
  | none =>
    cases right : w.mapping? with
    | none => exact .inl ⟨rfl, rfl⟩
    | some m' => simp [left, right] at h
  | some m =>
    cases right : w.mapping? with
    | none => simp [left, right] at h
    | some m' => exact .inr ⟨m, m', rfl, rfl, by simpa [left, right] using h⟩

/-- Where the mappings are alike, both answer each look-up. -/
theorem RulesAlike.answered {rules : List (Value × Rule Value α)} {m m' : Mapping}
    (h : RulesAlike rules m m') :
    (∀ entry ∈ rules, ∃ x, m.get entry.1 = .ok x) ∧
      ∀ entry ∈ rules, ∃ y, m'.get entry.1 = .ok y := by
  induction rules with
  | nil => simp
  | cons entry rest ih =>
    obtain ⟨⟨x, y, looked, looked', -⟩, others⟩ := h
    obtain ⟨left, right⟩ := ih others
    exact ⟨List.forall_mem_cons.mpr ⟨⟨x, looked⟩, left⟩,
      List.forall_mem_cons.mpr ⟨⟨y, looked'⟩, right⟩⟩

variable (check : α → Value → Run σ Bool)

/-- Rules, if the packs in them accept alike. -/
theorem acceptRules_eq_of_alike {rules : List (Value × Rule Value α)} {m m' : Mapping}
    (nested : ∀ key n q, (key, .nested n q) ∈ rules → ∀ x y, q.Alike x y →
      q.accepts check false x = q.accepts check false y)
    (h : RulesAlike rules m m') :
    acceptRules check false rules m = acceptRules check false rules m' := by
  induction rules with
  | nil => rfl
  | cons entry rest ih =>
    obtain ⟨key, r⟩ := entry
    obtain ⟨⟨x, y, looked, looked', alike⟩, others⟩ := h
    have here : r.accepts check false x = r.accepts check false y := by
      cases r with
      | leaf n c => rw [show x = y from alike]
      | nested n q => exact nested key n q List.mem_cons_self x y alike
    have further := ih (fun k n q rule => nested k n q (List.mem_cons_of_mem _ rule)) others
    simp only [acceptRules, looked, looked', Run.lift_ok_bind, here, further]

/-- Values that are alike to a pack are accepted alike in permissive mode, with the same calls. -/
theorem accepts_eq_of_alike (p : Pack Value α) (v w : Value) (h : p.Alike v w) :
    p.accepts check false v = p.accepts check false w := by
  induction p using Pack.induction generalizing v w with
  | step id rules ih =>
    rw [accepts, accepts]
    rcases h.cases with ⟨left, right⟩ | ⟨m, m', left, right, alike⟩
    · rw [left, right]
    · -- Permissive mode does not look at the keys, so that only the rules are left.
      rw [left, right]
      exact acceptRules_eq_of_alike check ih alike

/-- Rules, if the same is found invalid in what the packs in them are applied to. -/
theorem examineRules_agreesIn_invalid {rules : List (Value × Rule Value α)} {m m' : Mapping}
    (nested : ∀ key n q, (key, .nested n q) ∈ rules → ∀ x y, m.get key = .ok x →
      m'.get key = .ok y → q.Alike x y →
      Run.AgreesIn Explanation.invalid (q.examine check x) (q.examine check y))
    (h : RulesAlike rules m m') :
    Run.AgreesIn Explanation.invalid (examineRules check rules m)
      (examineRules check rules m') := by
  induction rules with
  | nil => exact .refl _ _
  | cons entry rest ih =>
    obtain ⟨key, r⟩ := entry
    obtain ⟨⟨x, y, looked, looked', alike⟩, others⟩ := h
    have here : Run.AgreesIn Explanation.invalid (r.examine check key x)
        (r.examine check key y) := by
      cases r with
      | leaf n c =>
        rw [show x = y from alike]
        exact .refl _ _
      | nested n q =>
        have below := nested key n q List.mem_cons_self x y looked looked' alike
        refine below.bind fun d e equal => .pure ?_
        rw [Explanation.under, Explanation.under, equal]
    have further := ih (fun k n q rule => nested k n q (List.mem_cons_of_mem _ rule)) others
    simp only [examineRules, looked, looked', Run.lift_ok_bind]
    refine here.bind fun d d' equal => further.bind fun e e' equal' => .pure ?_
    rw [Explanation.append, Explanation.append, equal, equal']

/-- In values that are alike to a pack the same is found invalid, with the same calls, if the
mappings in both of them can be listed. -/
theorem examine_agreesIn_invalid (p : Pack Value α) (v w : Value) (h : p.Alike v w)
    (listable : p.MeetsListable v) (listable' : p.MeetsListable w) :
    Run.AgreesIn Explanation.invalid (p.examine check v) (p.examine check w) := by
  induction p using Pack.induction generalizing v w with
  | step id rules ih =>
    rcases h.cases with ⟨left, right⟩ | ⟨m, m', left, right, alike⟩
    · rw [examine_of_mapping?_eq_none left, examine_of_mapping?_eq_none right]
      exact .refl _ _
    · obtain ⟨entries, listed⟩ := (listable.here left).items alike.answered.1
      obtain ⟨entries', listed'⟩ := (listable'.here right).items alike.answered.2
      have below := examineRules_agreesIn_invalid check
        (fun key n q rule x y looked looked' alike => ih key n q rule x y alike
          (listable.nested left rule looked) (listable'.nested right rule looked')) alike
      simp only [examine, left, right, listed, listed', Run.lift_ok_bind]
      -- What is extra may differ, but it only stands beside what the rules found invalid.
      exact below.bind fun d e equal => .pure equal

end Pack

namespace Session

/-- Values that are alike to a schema are accepted alike in permissive mode, from every state and
with the same calls; and the same is found invalid in them. An examination of one ends as that of
the other does, if the mappings in both can be listed. -/
theorem invalid_eq_of_alike (check : Value → Value → Run σ Bool) (schema v w : Value)
    (p : Pack Value Value) (read : Pack.ofValue schema = .ok p) (alike : p.Alike v w) :
    acceptsBy check schema v (.bool false) = acceptsBy check schema w (.bool false) ∧
      (∀ s d e t u, examineBy check schema v s = (.ok d, t) →
        examineBy check schema w s = (.ok e, u) → d.invalid = e.invalid ∧ t = u) ∧
      (p.MeetsListable v → p.MeetsListable w →
        Explanation.invalid <$> examineBy check schema v =
          Explanation.invalid <$> examineBy check schema w) := by
  rw [acceptsBy_eq read, acceptsBy_eq read, examineBy_eq read, examineBy_eq read]
  have agreeing := Pack.examine_agreesIn_invalid check p v w alike
  refine ⟨Pack.accepts_eq_of_alike check p v w alike, fun s d e t u left right => ?_, agreeing⟩
  -- Both examinations end, so that they have listed all mappings.
  have agree := agreeing (Pack.meetsListable_of_examine left) (Pack.meetsListable_of_examine right)
  exact agree.answer left right

/-- A dictionary and a view that differ in the order of their keys, in the keys without a rule at
two depths, and in a key that is absent from one and holds nothing in the other. -/
theorem invalid_eq_of_alike_view :
    let schema : Value := .dict 2 [
      (.text "a", .callable 3 (.check .number)),
      (.text "b", .dict 4 [(.text "c", .callable 5 (.check .text))])]
    let v : Value := .dict 6 [
      (.text "z", .int 1), (.text "a", .text "one"),
      (.text "b", .dict 7 [(.text "y", .int 2), (.text "c", .null)])]
    let w : Value := .view [(.text "b", .view []), (.text "a", .text "one")]
    let p : Pack Value Value := .mk 0 [
      (.text "a", .leaf 0 (.callable 3 (.check .number))),
      (.text "b", .nested 0 (.mk 0 [(.text "c", .leaf 0 (.callable 5 (.check .text)))]))]
    Pack.ofValue schema = .ok p ∧ p.Alike v w ∧ p.MeetsListable v ∧ p.MeetsListable w ∧
      acceptsBy Value.verdict schema v (.bool false) =
        acceptsBy Value.verdict schema w (.bool false) ∧
      (∃ d e : Explanation, examineBy Value.verdict schema v .initial = (.ok d, .initial) ∧
        examineBy Value.verdict schema w .initial = (.ok e, .initial) ∧
        d.invalid = e.invalid ∧ d.extra.length = 2 ∧ e.extra = []) ∧
      Explanation.invalid <$> examineBy Value.verdict schema v =
        Explanation.invalid <$> examineBy Value.verdict schema w := by
  intro schema v w p
  have alike : p.Alike v w :=
    ⟨⟨_, _, rfl, rfl, rfl⟩, ⟨_, _, rfl, rfl, ⟨_, _, rfl, rfl, rfl⟩, trivial⟩, trivial⟩
  have listable : p.MeetsListable v ∧ p.MeetsListable w := by
    constructor
    -- Two mappings are on the way: the value itself and what stands under its second key.
    all_goals
      refine .mk rfl (.inl ⟨_, rfl⟩) fun key n q x rule lookup => ?_
      simp at rule
      obtain ⟨rfl, rfl, rfl⟩ := rule
      cases lookup
      exact .mk rfl (.inl ⟨_, rfl⟩) fun key n q x rule => by simp at rule
  obtain ⟨accepted, ended, examined⟩ := invalid_eq_of_alike Value.verdict schema v w p rfl alike
  have invalid := (ended .initial _ _ .initial .initial rfl rfl).1
  exact ⟨rfl, alike, listable.1, listable.2, accepted, ⟨_, _, rfl, rfl, invalid, rfl, rfl⟩,
    examined listable.1 listable.2⟩

end Session

end Conformance
