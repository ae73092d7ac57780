import Conformance.Proofs.Parallel
import Conformance.Proofs.Verdicts

/-!
# Exact mode and sets of keys

In exact mode a pack refuses a mapping with an extra key. A missing key it does not look for: the
value there is taken to be nothing, and the rule is asked about that. A nested rule refuses nothing,
since it is no mapping. So if no check accepts nothing, a missing key is refused as well, and the
mapping must have just the keys of the pack.

Checks that have their mind made up about every value then leave nothing to the walk: what is
accepted can be told without it, by the keys and the values at them, at every depth.

## Main definitions

* `Value.SameKeys` — two lists of keys that have the same keys
* `Pack.Fits`, `Rule.Fits` — a value that has just the keys of a pack, at every depth, and at them
  values for which the checks hold
* `DecidedBy` — checks that always answer, each by the value alone
* `Value.HasLists` — a mapping with the two lists of an explanation

## Main results

* `Pack.accepts_exactly_iff_fits` — what is accepted in exact mode is what fits
* `Value.isExplanation_iff` — the shape of an explanation
* `Session.acceptsBy_exactly_iff_fits` — the same of schemas, and of explanations
-/

namespace Conformance

variable {σ α : Type}

/-! ### Keys -/

namespace Value

/-- Two lists of keys that have the same keys. -/
def SameKeys (ks ls : List Value) : Prop :=
  (∀ k ∈ ks, ∃ l ∈ ls, k.same l = true) ∧ ∀ l ∈ ls, ∃ k ∈ ks, l.same k = true

/-- A key has a value exactly if it is one of the keys. -/
theorem exists_lookup?_iff {entries : List (Value × Value)} {key : Value} :
    (∃ x, lookup? entries key = some x) ↔ ∃ k ∈ entries.map (·.1), key.same k = true := by
  rw [← Option.isSome_iff_exists, lookup?, find?, Option.isSome_map, List.find?_isSome]
  simp

theorem text_same_text (s t : String) : (text s).same (text t) = (s == t) := by
  change Value.holds (if s == t then .ok true else .ok false) = (s == t)
  cases s == t <;> rfl

/-- Only a text is the same key as a text. -/
theorem same_text_iff {v : Value} {s : String} : v.same (text s) = true ↔ v = text s := by
  cases v with
  | text t => simp [text_same_text]
  | probe id operation => cases operation <;> exact iff_of_false nofun nofun
  | pack p => cases p; exact iff_of_false nofun nofun
  | _ => exact iff_of_false nofun nofun

theorem text_same_iff {v : Value} {s : String} : (text s).same v = true ↔ v = text s := by
  cases v with
  | text t => rw [text_same_text, beq_iff_eq, text.injEq, eq_comm]
  | probe id operation => cases operation <;> exact iff_of_false nofun nofun
  | _ => exact iff_of_false nofun nofun

end Value

/-! ### What fits a pack -/

mutual

/-- `p.Fits holds v`: the value is a mapping that has just the keys of the pack, and the value at
each of them fits its rule. -/
inductive Pack.Fits (holds : α → Value → Bool) : Pack Value α → Value → Prop
  | mk {id : Nat} {rules : List (Value × Rule Value α)} {v : Value}
      {entries : List (Value × Value)} (found : v.entries? = some entries)
      (keys : Value.SameKeys (entries.map (·.1)) (rules.map (·.1)))
      (values : ∀ key r x, (key, r) ∈ rules → Value.lookup? entries key = some x →
        Rule.Fits holds r x) : Pack.Fits holds (.mk id rules) v

/-- `r.Fits holds x`: the check of the rule holds for the value, or the value fits its pack. -/
inductive Rule.Fits (holds : α → Value → Bool) : Rule Value α → Value → Prop
  | leaf {id : Nat} {c : α} {x : Value} (h : holds c x = true) : Rule.Fits holds (.leaf id c) x
  | nested {id : Nat} {p : Pack Value α} {x : Value} (h : Pack.Fits holds p x) :
      Rule.Fits holds (.nested id p) x

end

variable {check : α → Value → Run σ Bool} {holds : α → Value → Bool}

/-- `DecidedBy check holds checks`: each of the checks always answers, and whether it holds for a
value is up to the value alone. -/
def DecidedBy (check : α → Value → Run σ Bool) (holds : α → Value → Bool) (checks : List α) :
    Prop :=
  ∀ c ∈ checks, ∀ x s, ∃ t, check c x s = (.ok (holds c x), t)

namespace Rule

/-- What fits a rule is not nothing, if no check in the rule holds for nothing. -/
theorem not_fits_null {r : Rule Value α} (refused : ∀ c ∈ r.leaves, holds c .null = false) :
    ¬ r.Fits holds .null := by
  rintro (held | ⟨⟨found, -, -⟩⟩)
  · simp [refused _ List.mem_cons_self] at held
  · cases found

/-- What fits a rule is found under its key, since nothing, which stands for a missing key, does not
fit. -/
theorem exists_get_fits_iff {r : Rule Value α} (refused : ∀ c ∈ r.leaves, holds c .null = false)
    {m : Mapping} {entries : List (Value × Value)} (told : m.told = .ok entries) (key : Value) :
    (∃ x, m.get key = .ok x ∧ r.Fits holds x) ↔
      ∃ x, Value.lookup? entries key = some x ∧ r.Fits holds x := by
  constructor
  · rintro ⟨x, looked, fits⟩
    have equal := Mapping.get_eq_ok looked
    rw [(Mapping.told_eq_ok_iff.mp told).1] at equal
    cases found : Value.lookup? entries key with
    | none =>
      rw [equal, found] at fits
      exact absurd fits (not_fits_null refused)
    | some y =>
      rw [found] at equal
      exact ⟨x, congrArg some equal.symm, fits⟩
  · rintro ⟨x, found, fits⟩
    exact ⟨x, Mapping.get_of_told told found, fits⟩

/-- In exact mode a rule accepts what fits it, if the pack in it does. -/
theorem accepts_exactly_iff_fits {r : Rule Value α} (decided : DecidedBy check holds r.leaves)
    (nested : ∀ n q, r = .nested n q → ∀ x s,
      (∃ t, q.accepts check true x s = (.ok true, t)) ↔ q.Fits holds x) (x : Value) (s : σ) :
    (∃ t, r.accepts check true x s = (.ok true, t)) ↔ r.Fits holds x := by
  cases r with
  | leaf n c =>
    obtain ⟨t, ran⟩ := decided c List.mem_cons_self x s
    rw [accepts, ran]
    constructor
    · rintro ⟨_, equal⟩
      exact .leaf (Except.ok.inj (Prod.mk.inj equal).1)
    · rintro ⟨held⟩
      exact ⟨t, by rw [held]⟩
  | nested n q =>
    rw [accepts, nested n q rfl]
    constructor
    · exact .nested
    · rintro (_ | fits)
      exact fits

end Rule

namespace Pack

/-- In exact mode rules accept a mapping if at each of their keys it gives what fits the rule. -/
theorem acceptRules_exactly_iff_fits {rules : List (Value × Rule Value α)} {m : Mapping}
    (decided : DecidedBy check holds (leavesOf rules))
    (nested : ∀ key n q, (key, .nested n q) ∈ rules → ∀ x s,
      (∃ t, q.accepts check true x s = (.ok true, t)) ↔ q.Fits holds x) (s : σ) :
    (∃ t, acceptRules check true rules m s = (.ok true, t)) ↔
      ∀ entry ∈ rules, ∃ x, m.get entry.1 = .ok x ∧ entry.2.Fits holds x := by
  induction rules generalizing s with
  | nil => exact iff_of_true ⟨s, rfl⟩ nofun
  | cons entry rest ih =>
    obtain ⟨key, r⟩ := entry
    have here := Rule.accepts_exactly_iff_fits
      (fun c leaf => decided c (List.mem_append_left _ leaf))
      (fun n q equal => nested key n q (equal ▸ List.mem_cons_self))
    have others := ih (fun c leaf => decided c (List.mem_append_right _ leaf))
      fun k n q rule => nested k n q (List.mem_cons_of_mem _ rule)
    simp only [acceptRules_cons_eq_true_iff, List.forall_mem_cons]
    constructor
    · rintro ⟨t, x, u, lookup, accepted, further⟩
      exact ⟨⟨x, lookup, (here x s).mp ⟨u, accepted⟩⟩, (others u).mp ⟨t, further⟩⟩
    · rintro ⟨⟨x, lookup, fits⟩, further⟩
      obtain ⟨u, accepted⟩ := (here x s).mpr fits
      obtain ⟨t, further⟩ := (others u).mpr further
      exact ⟨t, x, u, lookup, accepted, further⟩

/-- No key is extra exactly if each is one of the keys of the rules. -/
theorem no_extra_iff {rules : List (Value × Rule Value α)} {keys : List Value} :
    keys.any (fun key => !hasRule rules key) = false ↔
      ∀ k ∈ keys, ∃ l ∈ rules.map (·.1), k.same l = true := by
  simp [hasRule]

/-- A mapping of entries fits a pack if no key is extra, and what is found at the key of each rule
fits the rule. -/
theorem fits_iff_lookup {id : Nat} {rules : List (Value × Rule Value α)} {v : Value}
    {entries : List (Value × Value)} (found : v.entries? = some entries) :
    (mk id rules).Fits holds v ↔
      (∀ k ∈ entries.map (·.1), ∃ l ∈ rules.map (·.1), k.same l = true) ∧
        ∀ entry ∈ rules, ∃ x, Value.lookup? entries entry.1 = some x ∧ entry.2.Fits holds x := by
  constructor
  · rintro ⟨found', keys, values⟩
    cases found.symm.trans found'
    refine ⟨keys.1, fun entry rule => ?_⟩
    obtain ⟨x, lookup⟩ :=
      Value.exists_lookup?_iff.mpr (keys.2 entry.1 (List.mem_map_of_mem rule))
    exact ⟨x, lookup, values entry.1 entry.2 x rule lookup⟩
  · rintro ⟨listed, fits⟩
    refine .mk found ⟨listed, fun l member => ?_⟩ fun key r x rule lookup => ?_
    · obtain ⟨entry, rule, rfl⟩ := List.mem_map.mp member
      obtain ⟨x, lookup, -⟩ := fits entry rule
      exact Value.exists_lookup?_iff.mp ⟨x, lookup⟩
    · obtain ⟨y, lookup', fits⟩ := fits (key, r) rule
      cases lookup.symm.trans lookup'
      exact fits

/-- Where no check holds for nothing, in exact mode a pack accepts just what fits it. -/
theorem accepts_exactly_iff_fits (p : Pack Value α) (decided : DecidedBy check holds p.leaves)
    (refused : ∀ c ∈ p.leaves, holds c .null = false) (v : Value) (s : σ) :
    (∃ t, p.accepts check true v s = (.ok true, t)) ↔ p.Fits holds v := by
  induction p using Pack.induction generalizing v s with
  | step id rules ih =>
    have rulesFit (m : Mapping) := acceptRules_exactly_iff_fits (m := m) decided
      (fun key n q rule x s => ih key n q rule (fun c leaf => decided c (mem_leavesOf rule leaf))
        (fun c leaf => refused c (mem_leavesOf rule leaf)) x s) s
    cases found : v.entries? with
    | none =>
      refine iff_of_false ?_ ?_
      · rintro ⟨t, accepted⟩
        obtain ⟨m, mapping, noExtra, ran⟩ := accepts_exactly_iff.mp accepted
        have told := told_of_accepts noExtra ran
        cases found.symm.trans (Value.entries?_eq_some_iff.mpr ⟨m, mapping, told⟩)
      · rintro ⟨found', -, -⟩
        cases found.symm.trans found'
    | some entries =>
      obtain ⟨m, mapping, told⟩ := Value.entries?_eq_some_iff.mp found
      have keysTold := (Mapping.told_eq_ok_iff.mp told).2.1
      have accepted : (∃ t, (mk id rules).accepts check true v s = (.ok true, t)) ↔
          (∀ k ∈ entries.map (·.1), ∃ l ∈ rules.map (·.1), k.same l = true) ∧
            ∃ t, acceptRules check true rules m s = (.ok true, t) := by
        simp only [accepts_exactly_iff, mapping, hasExtra_eq_ok_iff, keysTold, no_extra_iff,
          Option.some.injEq, Except.ok.injEq, exists_eq_left', exists_and_left]
      rw [accepted, rulesFit, fits_iff_lookup found]
      refine and_congr_right fun _ => forall₂_congr fun entry rule => ?_
      exact Rule.exists_get_fits_iff (fun c leaf => refused c (mem_leavesOf rule leaf)) told entry.1

/-- Checks that always answer leave acceptance with an answer, if all mappings on the way answer as
well. -/
theorem exists_accepts (exact : Bool) {p : Pack Value α} (decided : DecidedBy check holds p.leaves)
    {v : Value} (answering : p.Meets (Answers exact) v) (s : σ) :
    ∃ b t, p.accepts check exact v s = (.ok b, t) := by
  -- The walk does not end in a fault beside itself.
  have asked : Run.ParallelChecks (fun _ _ => True) (fun _ _ _ => False) check check p.leaves := by
    intro c leaf x s t _
    obtain ⟨u, ran⟩ := decided c leaf x s
    obtain ⟨w, ran'⟩ := decided c leaf x t
    rw [ran, ran']
    exact .answer rfl trivial
  have ended := parallel_accepts exact p v asked (.inl answering) s s trivial
  generalize p.accepts check exact v s = outcome at ended
  cases ended with
  | answer => exact ⟨_, _, rfl⟩
  | fault states => exact states.elim

end Pack

/-! ### Explanations -/

namespace Value

/-- `e.HasLists invalid extra`: `e` is a mapping with the two keys of an explanation and no other,
at which it has lists or tuples of the given items. -/
def HasLists (e : Value) (invalid extra : List Value) : Prop :=
  ∃ entries, e.entries? = some entries ∧
    (∀ key, key ∈ entries.map (·.1) ↔ key = text "invalid" ∨ key = text "extra") ∧
    (lookup? entries (text "invalid")).bind sequence? = some invalid ∧
    (lookup? entries (text "extra")).bind sequence? = some extra

/-- Keys that are the same as texts are these texts. -/
theorem sameKeys_texts_iff {keys : List Value} {texts : List String} :
    SameKeys keys (texts.map text) ↔ ∀ key, key ∈ keys ↔ ∃ s ∈ texts, key = text s := by
  constructor
  · rintro ⟨listed, present⟩ key
    constructor
    · intro member
      obtain ⟨l, isText, same⟩ := listed key member
      obtain ⟨s, known, rfl⟩ := List.mem_map.mp isText
      exact ⟨s, known, same_text_iff.mp same⟩
    · rintro ⟨s, known, rfl⟩
      obtain ⟨k, member, same⟩ := present (text s) (List.mem_map_of_mem known)
      rwa [text_same_iff.mp same] at member
  · intro equal
    refine ⟨fun k member => ?_, fun l isText => ?_⟩
    · obtain ⟨s, known, rfl⟩ := (equal k).mp member
      exact ⟨text s, List.mem_map_of_mem known, same_text_iff.mpr rfl⟩
    · obtain ⟨s, known, rfl⟩ := List.mem_map.mp isText
      exact ⟨text s, (equal _).mpr ⟨s, known, rfl⟩, text_same_iff.mpr rfl⟩

theorem decidedBy_shape : DecidedBy (fun f x => (pure (f x) : Run Unit Bool)) (fun f x => f x)
    Explanation.shape.leaves :=
  fun _ _ _ s => ⟨s, rfl⟩

/-- It is clear whether a value has the shape of an explanation, unless it is a mapping that refuses
to say so. -/
theorem exists_isExplanation {e : Value}
    (answers : ∀ m, e.mapping? = some m → Pack.Answers true Explanation.shape.rules m) :
    ∃ b, e.isExplanation = .ok b := by
  have answering : Explanation.shape.Meets (Pack.Answers true) e := by
    intro path q w m reached mapping
    cases reached with
    | here => exact answers m mapping
    | through _ rule => simp at rule
  obtain ⟨b, t, ran⟩ := Pack.exists_accepts true decidedBy_shape answering ()
  exact ⟨b, congrArg Prod.fst ran⟩

theorem isExplanation_iff_fits {e : Value} :
    e.isExplanation = .ok true ↔ Explanation.shape.Fits (fun f x => f x) e := by
  have refused : ∀ f ∈ Explanation.shape.leaves, f null = false := by
    simp [Explanation.shape, Pack.leaves, Pack.leavesOf, Rule.leaves, isSequence, sequence?]
  rw [← Pack.accepts_exactly_iff_fits Explanation.shape decidedBy_shape refused e ()]
  constructor
  · intro h
    exact ⟨(), Prod.ext h rfl⟩
  · rintro ⟨t, ran⟩
    exact congrArg Prod.fst ran

/-- An explanation is a mapping with its two keys, at which it has lists or tuples. -/
theorem isExplanation_iff {e : Value} :
    e.isExplanation = .ok true ↔ ∃ invalid extra, e.HasLists invalid extra := by
  rw [isExplanation_iff_fits]
  constructor
  · intro fits
    cases fits with
    | @mk _ _ _ entries found keys values =>
      have keys : ∀ key, key ∈ entries.map (·.1) ↔ ∃ s ∈ ["invalid", "extra"], key = text s :=
        sameKeys_texts_iff.mp keys
      have listed (s : String) (known : s ∈ ["invalid", "extra"]) :
          ∃ items, (lookup? entries (text s)).bind sequence? = some items := by
        obtain ⟨x, lookup⟩ :=
          exists_lookup?_iff.mpr ⟨text s, (keys _).mpr ⟨s, known, rfl⟩, text_same_iff.mpr rfl⟩
        obtain ⟨isList⟩ := values (text s) (.leaf 0 isSequence) x
          (by simpa [Violation.text] using known) lookup
        rw [lookup]
        exact Option.isSome_iff_exists.mp isList
      obtain ⟨invalid, list⟩ := listed "invalid" (by simp)
      obtain ⟨extra, list'⟩ := listed "extra" (by simp)
      exact ⟨invalid, extra, entries, found, by simpa using keys, list, list'⟩
  · rintro ⟨invalid, extra, entries, found, keys, list, list'⟩
    have isList {s : String} {items : List Value} {x : Value}
        (list : (lookup? entries (text s)).bind sequence? = some items)
        (lookup : lookup? entries (text s) = some x) :
        Rule.Fits (fun f x => f x) (.leaf 0 isSequence) x := by
      rw [lookup] at list
      exact .leaf (Option.isSome_of_eq_some list)
    have keys : ∀ key, key ∈ entries.map (·.1) ↔ ∃ s ∈ ["invalid", "extra"], key = text s := by
      simpa using keys
    refine .mk found (sameKeys_texts_iff.mpr keys) fun key r x rule lookup => ?_
    rcases List.mem_cons.mp rule with equal | rule
    · cases equal
      exact isList list lookup
    · cases List.mem_singleton.mp rule
      exact isList list' lookup

end Value

namespace Session

/-- Where every check always answers, is decided by the value alone and does not hold for nothing, a
value is accepted in exact mode just if it fits: it is a mapping with the keys of the pack and no
other, and so on below each of them. As long as the mappings on the way answer what they are asked,
it is always clear whether a value is accepted. So explanations are the mappings with their two
keys, at which they have lists or tuples. -/
theorem acceptsBy_exactly_iff_fits :
    (∀ (σ : Type) (check : Value → Value → Run σ Bool) (holds : Value → Value → Bool)
      (schema v : Value) (p : Pack Value Value) (s : σ), Pack.ofValue schema = .ok p →
      (∀ c ∈ p.leaves, ∀ x s, ∃ t, check c x s = (.ok (holds c x), t)) →
      (∀ c ∈ p.leaves, holds c .null = false) →
        ((∃ t, acceptsBy check schema v (.bool true) s = (.ok true, t)) ↔ p.Fits holds v) ∧
          ((∀ path q w m, p.Reaches v path q w → w.mapping? = some m →
              Pack.Answers true q.rules m) →
            ∃ b t, acceptsBy check schema v (.bool true) s = (.ok b, t))) ∧
      ∀ e : Value, (e.isExplanation = .ok true ↔ ∃ invalid extra, e.HasLists invalid extra) ∧
        ((∀ m, e.mapping? = some m → Pack.Answers true Explanation.shape.rules m) →
          ∃ b, e.isExplanation = .ok b) := by
  constructor
  · intro σ check holds schema v p s read decided refused
    rw [acceptsBy_eq read]
    exact ⟨p.accepts_exactly_iff_fits decided refused v s,
      fun answering => Pack.exists_accepts true decided answering s⟩
  · exact fun e => ⟨Value.isExplanation_iff, Value.exists_isExplanation⟩

/-- Of two values, one has all keys of the pack, in another order and with an empty dictionary for
an empty pack, and the other lacks one further down. -/
theorem acceptsBy_exactly_iff_fits_nested :
    let number : Value := .callable 2 (.check .number)
    let text : Value := .callable 3 (.check .text)
    let schema : Value := .dict 4 [(.text "a", number), (.text "b", .dict 5 []),
      (.text "c", .dict 6 [(.text "d", text)])]
    let p : Pack Value Value := .mk 0 [(.text "a", .leaf 0 number),
      (.text "b", .nested 0 (.mk 0 [])),
      (.text "c", .nested 0 (.mk 0 [(.text "d", .leaf 0 text)]))]
    let holds : Value → Value → Bool := fun c x =>
      match c with
      | .callable _ (.check k) => k.holds x
      | _ => false
    let v : Value := .dict 7 [(.text "c", .dict 8 [(.text "d", .text "x")]),
      (.text "b", .dict 9 []), (.text "a", .int 1)]
    let w : Value := .dict 10 [(.text "c", .dict 11 []), (.text "b", .dict 12 []),
      (.text "a", .int 1)]
    Pack.ofValue schema = .ok p ∧
      (∀ c ∈ p.leaves, ∀ x s, ∃ t, c.verdict x s = (.ok (holds c x), t)) ∧
      (∀ c ∈ p.leaves, holds c .null = false) ∧ p.MeetsReadable w ∧
      (∃ t, acceptsBy Value.verdict schema v (.bool true) .initial = (.ok true, t)) ∧
      p.Fits holds v ∧
      (∃ b t, acceptsBy Value.verdict schema w (.bool true) .initial = (.ok b, t)) ∧
      ¬ p.Fits holds w ∧ Explanation.empty.toValue.isExplanation = .ok true ∧
      ∃ invalid extra, Explanation.empty.toValue.HasLists invalid extra := by
  intro number text schema p holds v w
  have read : Pack.ofValue schema = .ok p := rfl
  have decided : ∀ c ∈ p.leaves, ∀ x s, ∃ t, c.verdict x s = (.ok (holds c x), t) :=
    List.forall_mem_cons.mpr
      ⟨fun x s => ⟨s, rfl⟩, List.forall_mem_singleton.mpr fun x s => ⟨s, rfl⟩⟩
  have refused : ∀ c ∈ p.leaves, holds c .null = false :=
    List.forall_mem_cons.mpr ⟨rfl, List.forall_mem_singleton.mpr rfl⟩
  have readable : p.MeetsReadable w := by
    refine .mk rfl ⟨_, rfl⟩ fun key n q x rule lookup => ?_
    simp only [List.mem_cons, List.not_mem_nil, or_false, Prod.mk.injEq, reduceCtorEq, and_false,
      false_or, Rule.nested.injEq] at rule
    -- Below the one key the empty pack is applied, and below the other a check is asked.
    rcases rule with ⟨rfl, rfl, rfl⟩ | ⟨rfl, rfl, rfl⟩ <;> cases lookup <;>
      exact .mk rfl ⟨_, rfl⟩ (by simp)
  obtain ⟨exactly, shaped⟩ := acceptsBy_exactly_iff_fits
  have walk (x : Value) := exactly Session Value.verdict holds schema x p .initial read decided
    refused
  have accepted : ∃ t, acceptsBy Value.verdict schema v (.bool true) .initial = (.ok true, t) :=
    ⟨_, rfl⟩
  refine ⟨read, decided, refused, readable, accepted, (walk v).1.mp accepted,
    (walk w).2 (readable.answers true), fun fits => ?_, rfl, ?_⟩
  · obtain ⟨t, accepted⟩ := (walk w).1.mpr fits
    cases accepted
  · exact (shaped Explanation.empty.toValue).1.mp rfl

end Session

end Conformance
