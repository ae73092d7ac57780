import Conformance.Proofs.Reach
import Conformance.Validation

/-!
# Acceptance against examination

Acceptance stops at the first refusal, examination goes on. Started from the same state, both call
the same checks until that refusal, and each check gives both of them the same answer, whatever it
does to the state. So the answer of acceptance can be read off the explanation: a value is accepted
if nothing invalid was found and, in exact mode, nothing extra either. Exact mode asks for one thing
more that no explanation shows: that an empty pack, too, is applied to a mapping.

## Main definitions

* `Pack.Decided` — what the explanation of an examination says about the run of acceptance

## Main results

* `Pack.decided_of_examine` — an examination decides acceptance in both modes
* `Pack.accepts_permissively` — what is accepted exactly is accepted permissively
* `Pack.examine_of_accepts_exactly` — and nothing is found in it
* `Session.acceptsBy_permissively_iff`, `Session.acceptsBy_exactly_iff` — the same of schemas
-/

namespace Conformance

variable {σ α : Type}

namespace Explanation

theorem isFree_iff {exact : Bool} {e : Explanation} :
    e.isFree exact = true ↔ e.invalid = [] ∧ (exact = true → e.extra = []) := by
  cases exact <;> simp [isFree]

@[simp] theorem isFree_empty (exact : Bool) : Explanation.empty.isFree exact = true := by
  cases exact <;> rfl

theorem isFree_append_iff {exact : Bool} {d e : Explanation} :
    (d.append e).isFree exact = true ↔ d.isFree exact = true ∧ e.isFree exact = true := by
  simp only [isFree_iff, append, List.append_eq_nil_iff]
  constructor
  · rintro ⟨⟨noInvalid, noInvalid'⟩, noExtra⟩
    exact ⟨⟨noInvalid, fun h => (noExtra h).1⟩, noInvalid', fun h => (noExtra h).2⟩
  · rintro ⟨⟨noInvalid, noExtra⟩, noInvalid', noExtra'⟩
    exact ⟨⟨noInvalid, noInvalid'⟩, fun h => ⟨noExtra h, noExtra' h⟩⟩

@[simp] theorem isFree_under (exact : Bool) (key : Value) (e : Explanation) :
    (e.under key).isFree exact = e.isFree exact := by
  rw [Bool.eq_iff_iff, isFree_iff, isFree_iff]
  simp [under, Finding.under_eq_nil_iff]

end Explanation

namespace Pack

/-- No entry of a mapping is extra exactly if each of its keys has a rule. -/
theorem extras_eq_nil_iff (rules : List (Value × Rule Value α)) (entries : List (Value × Value)) :
    extras rules entries = [] ↔
      (entries.map (·.1)).any (fun key => !hasRule rules key) = false := by
  simp [extras]

/-- What the explanation `e` of an examination that ends in `t` says about the run of acceptance,
where `meets` says that acceptance meets nothing but mappings: it gives an answer, and a positive
one, in the same state, exactly if nothing was found that counts. -/
def Decided (exact : Bool) (run : Except Fault Bool × σ) (e : Explanation) (t : σ) (meets : Prop) :
    Prop :=
  ∃ b u, run = (.ok b, u) ∧ (b = true ↔ e.isFree exact = true ∧ (exact = true → meets)) ∧
    (b = true → u = t)

theorem Decided.accepted {exact : Bool} {e : Explanation} {t : σ} {meets : Prop}
    (free : e.isFree exact = true) (h : exact = true → meets) :
    Decided exact (.ok true, t) e t meets :=
  ⟨true, t, rfl, by simpa [free] using h, fun _ => rfl⟩

theorem Decided.refused {exact : Bool} {e : Explanation} {s t : σ} {meets : Prop}
    (h : ¬ (e.isFree exact = true ∧ (exact = true → meets))) :
    Decided exact (.ok false, s) e t meets :=
  ⟨false, s, rfl, by simpa using h, by simp⟩

/-- Two parts of a pack, the second of which is only asked if the first accepts. -/
theorem Decided.andThen {exact : Bool} {x y : Run σ Bool} {s t u : σ} {d e : Explanation}
    {first second : Prop} (hx : Decided exact (x s) d u first)
    (hy : Decided exact (y u) e t second) :
    Decided exact ((do if ← x then y else pure false : Run σ Bool) s) (d.append e) t
      (first ∧ second) := by
  obtain ⟨b, u', ran, answer, same⟩ := hx
  rw [Run.bind_apply_ok ran]
  cases b with
  | false =>
    -- The second part is not asked. Had nothing been found in both, the first would have accepted.
    refine Decided.refused ?_
    rintro ⟨free, meets⟩
    have accepted := answer.mpr ⟨(Explanation.isFree_append_iff.mp free).1, fun h => (meets h).1⟩
    exact absurd accepted (by simp)
  | true =>
    -- Acceptance is in the state in which the examination went on.
    obtain rfl := same rfl
    obtain ⟨c, w, ran', answer', same'⟩ := hy
    refine ⟨c, w, ran', ?_, same'⟩
    rw [answer', Explanation.isFree_append_iff]
    obtain ⟨free, meets⟩ := answer.mp rfl
    constructor
    · rintro ⟨free', meets'⟩
      exact ⟨⟨free, free'⟩, fun h => ⟨meets h, meets' h⟩⟩
    · rintro ⟨⟨-, free'⟩, meets'⟩
      exact ⟨free', fun h => (meets' h).2⟩

end Pack

variable {check : α → Value → Run σ Bool}

/-- A rule, if the pack in it is decided. -/
theorem Rule.decided_of_examine (exact : Bool) {key : Value} {r : Rule Value α} {x : Value}
    {s t : σ} {e : Explanation}
    (nested : ∀ n q, r = .nested n q → ∀ s t e, q.examine check x s = (.ok e, t) →
      Pack.Decided exact (q.accepts check exact x s) e t (q.MeetsMappings x))
    (h : r.examine check key x s = (.ok e, t)) :
    Pack.Decided exact (r.accepts check exact x s) e t
      (∀ n q, r = .nested n q → q.MeetsMappings x) := by
  cases r with
  | leaf n c =>
    obtain ⟨b, asked, rfl⟩ := Rule.examine_leaf_eq_ok_iff.mp h
    rw [Rule.accepts, asked]
    cases b with
    | true => exact .accepted (by simp) (by simp)
    | false => exact .refused (by simp [Explanation.isFree])
  | nested n q =>
    obtain ⟨found, examined, rfl⟩ := Rule.examine_nested_eq_ok_iff.mp h
    obtain ⟨b, u, ran, answer, same⟩ := nested n q rfl s t found examined
    refine ⟨b, u, ran, ?_, same⟩
    simpa using answer

namespace Pack

/-- Rules, if the packs in them are decided. -/
theorem rulesDecided_of_examineRules (exact : Bool) {rules : List (Value × Rule Value α)}
    {m : Mapping} {s t : σ} {e : Explanation}
    (nested : ∀ key n q, (key, .nested n q) ∈ rules → ∀ x s t e,
      q.examine check x s = (.ok e, t) →
        Decided exact (q.accepts check exact x s) e t (q.MeetsMappings x))
    (h : examineRules check rules m s = (.ok e, t)) :
    Decided exact (acceptRules check exact rules m s) e t (RulesMeetMappings rules m) := by
  induction rules generalizing s e with
  | nil =>
    obtain ⟨rfl, rfl⟩ := Run.pure_eq_ok_iff.mp h
    exact .accepted (by simp) fun _ key n q x rule => absurd rule (by simp)
  | cons entry rest ih =>
    obtain ⟨key, r⟩ := entry
    obtain ⟨x, here, others, u, lookup, examined, examinedRest, rfl⟩ :=
      examineRules_cons_eq_ok_iff.mp h
    have first := Rule.decided_of_examine exact
      (fun n q equal => nested key n q (equal ▸ List.mem_cons_self) x) examined
    have second := ih (fun k n q rule => nested k n q (List.mem_cons_of_mem _ rule)) examinedRest
    rw [rulesMeetMappings_cons_iff lookup, acceptRules,
      Run.bind_apply_ok (Run.lift_eq_ok_iff.mpr ⟨lookup, rfl⟩)]
    exact first.andThen second

/-- Where an examination ends with an explanation, acceptance ends with an answer, and the
explanation decides which. -/
theorem decided_of_examine (exact : Bool) (p : Pack Value α) (v : Value) (s t : σ)
    (e : Explanation) (h : p.examine check v s = (.ok e, t)) :
    Decided exact (p.accepts check exact v s) e t (p.MeetsMappings v) := by
  induction p using Pack.induction generalizing v s t e with
  | step id rules ih =>
    cases mapping : v.mapping? with
    | none =>
      rw [accepts, mapping]
      rw [examine_of_mapping?_eq_none mapping] at h
      obtain ⟨rfl, rfl⟩ := Run.pure_eq_ok_iff.mp h
      -- An empty pack finds nothing here. Exact mode refuses all the same, for want of a mapping.
      have meetsNot := not_meetsMappings_of_mapping?_eq_none (p := mk id rules) mapping
      refine ⟨_, t, rfl, ?_, fun _ => rfl⟩
      cases exact <;> simp [Explanation.isFree, meetsNot]
    | some m =>
      obtain ⟨found, entries, examined, items, rfl⟩ := (examine_eq_ok_iff mapping).mp h
      rw [accepts_of_items mapping items]
      split
      next hasExtra =>
        -- An extra key is enough for a refusal, whatever the rules would say.
        obtain ⟨rfl, hasExtra⟩ := Bool.and_eq_true_iff.mp hasExtra
        refine Decided.refused ?_
        rintro ⟨free, -⟩
        have noExtra := (List.append_eq_nil_iff.mp ((Explanation.isFree_iff.mp free).2 rfl)).1
        rw [extras_eq_nil_iff] at noExtra
        exact absurd (noExtra.symm.trans hasExtra) (by simp)
      next noExtra =>
        rw [meetsMappings_mk_iff mapping]
        obtain ⟨b, w, ran, answer, same⟩ :=
          rulesDecided_of_examineRules exact
            (fun key n q rule x s t e => ih key n q rule x s t e) examined
        refine ⟨b, w, ran, ?_, same⟩
        rw [answer]
        -- No extra key stands here, so what counts was found below the rules.
        have noExtra : exact = true → extras rules entries = [] := by
          rintro rfl
          rw [extras_eq_nil_iff]
          simpa using noExtra
        have free : found.isFree exact = true ↔
            Explanation.isFree exact
              ⟨found.invalid, extras rules entries ++ found.extra⟩ = true := by
          cases exact <;> simp_all [Explanation.isFree_iff]
        rw [free]

/-- A rule that accepts in exact mode accepts permissively, if the pack in it does. -/
theorem acceptsRule_permissively {r : Rule Value α} {x : Value} {s t : σ}
    (nested : ∀ n q, r = .nested n q → ∀ s t, q.accepts check true x s = (.ok true, t) →
      q.accepts check false x s = (.ok true, t))
    (h : r.accepts check true x s = (.ok true, t)) :
    r.accepts check false x s = (.ok true, t) := by
  cases r with
  | leaf n c => exact h
  | nested n q => exact nested n q rfl s t h

/-- Rules that accept in exact mode accept permissively, if the packs in them do. -/
theorem acceptRules_permissively {rules : List (Value × Rule Value α)} {m : Mapping} {s t : σ}
    (nested : ∀ key n q, (key, .nested n q) ∈ rules → ∀ x s t,
      q.accepts check true x s = (.ok true, t) → q.accepts check false x s = (.ok true, t))
    (h : acceptRules check true rules m s = (.ok true, t)) :
    acceptRules check false rules m s = (.ok true, t) := by
  induction rules generalizing s with
  | nil => exact h
  | cons entry rest ih =>
    obtain ⟨key, r⟩ := entry
    obtain ⟨x, u, lookup, accepted, further⟩ := acceptRules_cons_eq_true_iff.mp h
    have first := acceptsRule_permissively
      (fun n q equal => nested key n q (equal ▸ List.mem_cons_self) x) accepted
    have others := ih (fun k n q rule => nested k n q (List.mem_cons_of_mem _ rule)) further
    exact acceptRules_cons_eq_true_iff.mpr ⟨x, u, lookup, first, others⟩

/-- What a pack accepts in exact mode it accepts permissively, with the same calls. -/
theorem accepts_permissively (p : Pack Value α) (v : Value) (s t : σ)
    (h : p.accepts check true v s = (.ok true, t)) :
    p.accepts check false v s = (.ok true, t) := by
  induction p using Pack.induction generalizing v s t with
  | step id rules ih =>
    obtain ⟨m, mapping, -, accepted⟩ := accepts_exactly_iff.mp h
    rw [accepts_permissively_of_mapping mapping]
    exact acceptRules_permissively (fun key n q rule x s t => ih key n q rule x s t) accepted

/-- Rules that accept find nothing, if the packs in them find nothing. -/
theorem examineRules_of_accepts {rules : List (Value × Rule Value α)} {m : Mapping} {s t : σ}
    (nested : ∀ key n q, (key, .nested n q) ∈ rules → ∀ x s t, m.get key = .ok x →
      q.accepts check true x s = (.ok true, t) → q.examine check x s = (.ok .empty, t))
    (h : acceptRules check true rules m s = (.ok true, t)) :
    examineRules check rules m s = (.ok .empty, t) := by
  induction rules generalizing s with
  | nil =>
    obtain ⟨-, rfl⟩ := Run.pure_eq_ok_iff.mp h
    rfl
  | cons entry rest ih =>
    obtain ⟨key, r⟩ := entry
    obtain ⟨x, u, lookup, accepted, further⟩ := acceptRules_cons_eq_true_iff.mp h
    have others := ih (fun k n q rule => nested k n q (List.mem_cons_of_mem _ rule)) further
    have here : r.examine check key x s = (.ok .empty, u) := by
      cases r with
      | leaf n c => exact Rule.examine_leaf_eq_ok_iff.mpr ⟨true, accepted, rfl⟩
      | nested n q =>
        have below := nested key n q List.mem_cons_self x s u lookup accepted
        exact Rule.examine_nested_eq_ok_iff.mpr ⟨.empty, below, rfl⟩
    exact examineRules_cons_eq_ok_iff.mpr ⟨x, .empty, .empty, u, lookup, here, others, rfl⟩

/-- A mapping that is accepted in exact mode has been told key by key: each of its keys has a rule,
and where there is a rule there was a look-up. -/
theorem told_of_accepts {rules : List (Value × Rule Value α)} {m : Mapping} {s t : σ}
    (noExtra : hasExtra rules m = .ok false)
    (accepted : acceptRules check true rules m s = (.ok true, t)) :
    m.told = .ok m.entries := by
  obtain ⟨keys, keysTold, none⟩ := hasExtra_eq_ok_iff.mp noExtra
  obtain rfl := Mapping.keys_eq_ok keysTold
  refine Mapping.told_eq_ok_iff.mpr ⟨rfl, keysTold, ?_⟩
  cases rules with
  | nil =>
    -- Without a rule there can be no key.
    refine .inl ?_
    rw [← List.map_eq_nil_iff, List.eq_nil_iff_forall_not_mem]
    intro key member
    exact absurd (List.any_eq_false.mp none key member) (by simp [hasRule])
  | cons entry rest =>
    obtain ⟨x, _, lookup, -⟩ := acceptRules_cons_eq_true_iff.mp accepted
    exact .inr (Mapping.get_of_get lookup)

/-- What a pack accepts in exact mode is examined to the end, with the same calls, and nothing is
found, as long as the mappings on the way list what they tell. -/
theorem examine_of_accepts_exactly (p : Pack Value α) (v : Value) (s t : σ)
    (consistent : p.MeetsConsistent v) (h : p.accepts check true v s = (.ok true, t)) :
    p.examine check v s = (.ok .empty, t) := by
  induction p using Pack.induction generalizing v s t with
  | step id rules ih =>
    obtain ⟨m, mapping, noExtra, accepted⟩ := accepts_exactly_iff.mp h
    have found := examineRules_of_accepts
      (fun key n q rule x s t lookup =>
        ih key n q rule x s t (consistent.nested mapping rule lookup))
      accepted
    have listed := consistent.here mapping _ (told_of_accepts noExtra accepted)
    obtain ⟨keys, keysTold, none⟩ := hasExtra_eq_ok_iff.mp noExtra
    have extras : extras rules m.entries = [] :=
      (extras_eq_nil_iff rules _).mpr (Mapping.keys_eq_ok keysTold ▸ none)
    refine (examine_eq_ok_iff mapping).mpr ⟨.empty, m.entries, found, listed, ?_⟩
    rw [extras]
    rfl

end Pack

namespace Session

variable {check : Value → Value → Run σ Bool} {schema v : Value} {p : Pack Value Value}

theorem acceptsBy_eq (h : Pack.ofValue schema = .ok p) (exact : Bool) :
    acceptsBy check schema v (.bool exact) = p.accepts check exact v := by
  funext s
  simp only [acceptsBy, requireFlag, packOf, h]
  rfl

theorem examineBy_eq (h : Pack.ofValue schema = .ok p) :
    examineBy check schema v = p.examine check v := by
  funext s
  simp only [examineBy, packOf, h]
  rfl

/-- Only what is a schema is examined to the end. -/
theorem exists_pack_of_examineBy {s t : σ} {e : Explanation}
    (h : examineBy check schema v s = (.ok e, t)) :
    ∃ p, Pack.ofValue schema = .ok p ∧ p.examine check v s = (.ok e, t) := by
  cases read : Pack.ofValue schema with
  | ok p => exact ⟨p, rfl, by rw [← examineBy_eq read, h]⟩
  | error cause =>
    rw [examineBy, packOf, read] at h
    cases h

/-- Where a value can be examined, it is accepted permissively or not, and it is accepted exactly if
nothing invalid was found. This holds whatever the checks do to the state. -/
theorem acceptsBy_permissively_iff (check : Value → Value → Run σ Bool) (schema v : Value) (s t : σ)
    (e : Explanation) (h : examineBy check schema v s = (.ok e, t)) :
    ∃ b u, acceptsBy check schema v (.bool false) s = (.ok b, u) ∧ (b = true ↔ e.invalid = []) := by
  obtain ⟨p, read, examined⟩ := exists_pack_of_examineBy h
  obtain ⟨b, u, ran, answer, -⟩ := Pack.decided_of_examine false p v s t e examined
  refine ⟨b, u, by rw [acceptsBy_eq read, ran], ?_⟩
  rw [answer, Explanation.isFree_iff]
  simp

/-- A value whose first entry is a stream that its check uses up, and which is refused below a
nested pack. -/
theorem acceptsBy_permissively_stream :
    let schema : Value := .dict 2 [
      (.text "a", .callable 3 (.allCount (.int 2) (.callable 4 (.check .number)))),
      (.text "b", .dict 5 [(.text "c", .callable 6 (.check .text))])]
    let v : Value := .dict 7 [
      (.text "a", .stream 8 [.int 1, .int 2]), (.text "b", .dict 9 [(.text "c", .int 5)])]
    ∃ t b u,
      examineBy Value.verdict schema v .initial =
        (.ok ⟨[.nested (.text "b") [.value (.text "c") (.int 5)]], []⟩, t) ∧
      acceptsBy Value.verdict schema v (.bool false) .initial = (.ok b, u) ∧
      (b = true ↔ [Finding.nested (.text "b") [.value (.text "c") (.int 5)]] = []) := by
  intro schema v
  have examined : ∃ t, examineBy Value.verdict schema v .initial =
      (.ok ⟨[.nested (.text "b") [.value (.text "c") (.int 5)]], []⟩, t) := ⟨_, rfl⟩
  obtain ⟨t, examined⟩ := examined
  obtain ⟨b, u, ran, answer⟩ := acceptsBy_permissively_iff Value.verdict schema v _ t _ examined
  exact ⟨t, b, u, examined, ran, answer⟩

/-- Where a value can be examined, it is accepted in exact mode exactly if nothing was found and no
pack, not even an empty one, is applied to anything but a mapping. Whatever is accepted in exact
mode is accepted permissively, also where the examination fails. -/
theorem acceptsBy_exactly_iff (check : Value → Value → Run σ Bool) (schema v : Value) (s : σ) :
    (∀ e t, examineBy check schema v s = (.ok e, t) →
      ∃ p b u, Pack.ofValue schema = .ok p ∧
        acceptsBy check schema v (.bool true) s = (.ok b, u) ∧
        (b = true ↔ e.invalid = [] ∧ e.extra = [] ∧
          ∀ path q w, p.Reaches v path q w → w.isMapping = true)) ∧
      ∀ t, acceptsBy check schema v (.bool true) s = (.ok true, t) →
        acceptsBy check schema v (.bool false) s = (.ok true, t) := by
  constructor
  · intro e t h
    obtain ⟨p, read, examined⟩ := exists_pack_of_examineBy h
    obtain ⟨b, u, ran, answer, -⟩ := Pack.decided_of_examine true p v s t e examined
    refine ⟨p, b, u, read, by rw [acceptsBy_eq read, ran], ?_⟩
    rw [answer, Explanation.isFree_iff, Pack.MeetsMappings]
    simp [and_assoc]
  · intro t h
    cases read : Pack.ofValue schema with
    | ok p =>
      rw [acceptsBy_eq read] at h ⊢
      exact Pack.accepts_permissively p v s t h
    | error cause =>
      simp only [acceptsBy, requireFlag, packOf, read] at h
      cases h

/-- An empty pack that is applied to a number: nothing is found, but nothing is accepted either. -/
theorem acceptsBy_exactly_empty_pack :
    let schema : Value := .dict 2 [(.text "toy", .dict 3 [])]
    let v : Value := .dict 4 [(.text "toy", .int 5)]
    let w : Value := .dict 5 [(.text "toy", .dict 6 [])]
    examineBy Value.verdict schema v .initial = (.ok ⟨[], []⟩, .initial) ∧
      (∃ p b u, Pack.ofValue schema = .ok p ∧
        acceptsBy Value.verdict schema v (.bool true) .initial = (.ok b, u) ∧
        (b = true ↔ ([] : List Finding) = [] ∧ ([] : List Finding) = [] ∧
          ∀ path q x, p.Reaches v path q x → x.isMapping = true)) ∧
      acceptsBy Value.verdict schema w (.bool true) .initial = (.ok true, .initial) ∧
      acceptsBy Value.verdict schema w (.bool false) .initial = (.ok true, .initial) := by
  intro schema v w
  have examined : examineBy Value.verdict schema v .initial = (.ok ⟨[], []⟩, .initial) := rfl
  have accepted :
      acceptsBy Value.verdict schema w (.bool true) .initial = (.ok true, .initial) := rfl
  exact ⟨examined, (acceptsBy_exactly_iff Value.verdict schema v .initial).1 _ _ examined, accepted,
    (acceptsBy_exactly_iff Value.verdict schema w .initial).2 _ accepted⟩

end Session

end Conformance
