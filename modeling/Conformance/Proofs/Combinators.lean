import Conformance.Proofs.Outcomes

/-!
# Combinators as connectives

Checks are combined by asking several of them in turn, up to the first that decides, and by letting
nothing pass. Read as formulas, these are a conjunction, a disjunction, and a disjunction with a
condition on the value. But what a check raises is caught once, for the whole tree, and not at each
of its parts. A part that raises is thereby false, as it should be, and yet so is every disjunction
that has asked it, whatever comes after it. Only then the verdict is not that of the formula.

The leaves of a tree can be any calls. All that is asked of them is that there is no doubt about
their verdicts, so that a leaf may refuse a value sometimes by saying so and sometimes by raising.

## Main definitions

* `Session.optionally`, `Session.both`, `Session.either` — combinators of calls
* `Formula` — trees of combinators; `Formula.call`, `Formula.holds` — as calls and as formulas
* `Formula.Gives` — what a tree can come to, if each of its leaves can come to something
* `Formula.Unmasked` — no part that raises is asked before a true one
* `Formula.Shuffled` — the same tree with parts in another order

## Main results

* `Formula.holds_of_gives` — what can come true is true
* `Formula.eq_holds_of_gives` — and only that is, if nothing true is masked
* `Session.comesTo_call` — runs come to what the tree can come to
* `Session.verdict_formula` — verdicts against truth values, and against other orders
* `Value.apply_eq_call` — the combinators of the library are these
-/

namespace Conformance

variable {α : Type}

/-! ### Combinators of calls -/

/-- Whether a value is nothing. -/
def Value.isNull : Value → Bool
  | .null => true
  | _ => false

namespace Session

/-- Nothing passes, and every other value is left to a call. -/
def optionally (call : Value → Run Session Value) (x : Value) : Run Session Value :=
  if x.isNull then pure (.bool true) else .bool <$> callHolds call x

/-- Whether all calls hold for a value, up to the first that does not. -/
def allOf : List (Value → Run Session Value) → Value → Run Session Bool
  | [], _ => pure true
  | call :: calls, x => do if ← callHolds call x then allOf calls x else pure false

/-- Whether some call holds for a value, up to the first that does. -/
def anyOf : List (Value → Run Session Value) → Value → Run Session Bool
  | [], _ => pure false
  | call :: calls, x => do if ← callHolds call x then pure true else anyOf calls x

/-- All calls have to hold. -/
def both (calls : List (Value → Run Session Value)) (x : Value) : Run Session Value :=
  .bool <$> (allOf calls x).insideIteration

/-- Some call has to hold. -/
def either (calls : List (Value → Run Session Value)) (x : Value) : Run Session Value :=
  .bool <$> (anyOf calls x).insideIteration

end Session

/-! ### Formulas -/

/-- A tree of combinators. -/
inductive Formula (α : Type) where
  | leaf (a : α)
  | optional (p : Formula α)
  | both (ps : List (Formula α))
  | either (ps : List (Formula α))

namespace Formula

/-- What holds of leaves, and of a tree as soon as it holds of its parts, holds of every tree. -/
@[elab_as_elim]
theorem induction {motive : Formula α → Prop} (leaf : ∀ a, motive (.leaf a))
    (optional : ∀ p, motive p → motive (.optional p))
    (both : ∀ ps, (∀ p ∈ ps, motive p) → motive (.both ps))
    (either : ∀ ps, (∀ p ∈ ps, motive p) → motive (.either ps)) : ∀ t, motive t
  | .leaf a => leaf a
  | .optional p => optional p (induction leaf optional both either p)
  | .both ps => both ps fun p _ => induction leaf optional both either p
  | .either ps => either ps fun p _ => induction leaf optional both either p

mutual

/-- A formula as the call that it stands for. -/
def call (base : α → Value → Run Session Value) : Formula α → Value → Run Session Value
  | .leaf a => base a
  | .optional p => Session.optionally (p.call base)
  | .both ps => Session.both (calls base ps)
  | .either ps => Session.either (calls base ps)
termination_by structural t => t

/-- Several formulas as calls. -/
def calls (base : α → Value → Run Session Value) :
    List (Formula α) → List (Value → Run Session Value)
  | [] => []
  | p :: ps => p.call base :: calls base ps
termination_by structural ts => ts

end

mutual

/-- The leaves of a formula. -/
def leaves : Formula α → List α
  | .leaf a => [a]
  | .optional p => p.leaves
  | .both ps | .either ps => leavesOf ps
termination_by structural t => t

/-- The leaves of several formulas. -/
def leavesOf : List (Formula α) → List α
  | [] => []
  | p :: ps => p.leaves ++ leavesOf ps
termination_by structural ts => ts

end

mutual

/-- The truth value of a formula, from what its leaves say and whether there is nothing to be
checked. -/
def holds (said : α → Bool) (absent : Bool) : Formula α → Bool
  | .leaf a => said a
  | .optional p => absent || p.holds said absent
  | .both ps => allHold said absent ps
  | .either ps => anyHolds said absent ps
termination_by structural t => t

/-- The conjunction of several formulas. -/
def allHold (said : α → Bool) (absent : Bool) : List (Formula α) → Bool
  | [] => true
  | p :: ps => p.holds said absent && allHold said absent ps
termination_by structural ts => ts

/-- The disjunction of several formulas. -/
def anyHolds (said : α → Bool) (absent : Bool) : List (Formula α) → Bool
  | [] => false
  | p :: ps => p.holds said absent || anyHolds said absent ps
termination_by structural ts => ts

end

theorem leavesOf_eq_flatMap (ps : List (Formula α)) : leavesOf ps = ps.flatMap leaves := by
  induction ps with
  | nil => rfl
  | cons p ps ih => rw [leavesOf, List.flatMap_cons, ih]

theorem mem_leavesOf {ps : List (Formula α)} {a : α} :
    a ∈ leavesOf ps ↔ ∃ p ∈ ps, a ∈ p.leaves := by
  rw [leavesOf_eq_flatMap, List.mem_flatMap]

/-- What is asked of all leaves of several formulas is asked of the leaves of each. -/
theorem forall_leaves_of_mem {ps : List (Formula α)} {P : α → Prop} (h : ∀ a ∈ leavesOf ps, P a)
    {p : Formula α} (member : p ∈ ps) : ∀ a ∈ p.leaves, P a :=
  fun a inside => h a (mem_leavesOf.mpr ⟨p, member, inside⟩)

variable {said : α → Bool} {absent : Bool}

theorem holds_both (ps : List (Formula α)) :
    (both ps).holds said absent = ps.all (holds said absent) := by
  rw [holds]
  induction ps with
  | nil => rfl
  | cons p ps ih => rw [allHold, List.all_cons, ih]

theorem holds_either (ps : List (Formula α)) :
    (either ps).holds said absent = ps.any (holds said absent) := by
  rw [holds]
  induction ps with
  | nil => rfl
  | cons p ps ih => rw [anyHolds, List.any_cons, ih]

/-! ### What a formula can come to -/

/-- What a formula can give for a value, where `leaf` tells what its leaves can give: a truth value,
or nothing if it raises. Operands are asked in order. One that raises ends the search, and then the
formula raises too. -/
inductive Gives (leaf : α → Option Bool → Prop) (absent : Bool) : Formula α → Option Bool → Prop
  | leaf {a : α} {o : Option Bool} (h : leaf a o) : Gives leaf absent (.leaf a) o
  | absent {p : Formula α} (h : absent = true) : Gives leaf absent (.optional p) (some true)
  | optional {p : Formula α} {o : Option Bool} (present : absent = false)
    (h : Gives leaf absent p o) : Gives leaf absent (.optional p) o
  | all {ps : List (Formula α)} (h : ∀ p ∈ ps, Gives leaf absent p (some true)) :
    Gives leaf absent (.both ps) (some true)
  | stopAll {before after : List (Formula α)} {p : Formula α} {o : Option Bool}
    (earlier : ∀ q ∈ before, Gives leaf absent q (some true)) (here : Gives leaf absent p o)
    (stops : o ≠ some true) : Gives leaf absent (.both (before ++ p :: after)) o
  | none {ps : List (Formula α)} (h : ∀ p ∈ ps, Gives leaf absent p (some false)) :
    Gives leaf absent (.either ps) (some false)
  | stopAny {before after : List (Formula α)} {p : Formula α} {o : Option Bool}
    (earlier : ∀ q ∈ before, Gives leaf absent q (some false)) (here : Gives leaf absent p o)
    (stops : o ≠ some false) : Gives leaf absent (.either (before ++ p :: after)) o

/-- No operand of an `either` that can raise comes before one that is true. -/
inductive Unmasked (leaf : α → Option Bool → Prop) (said : α → Bool) (absent : Bool) :
    Formula α → Prop
  | leaf (a : α) : Unmasked leaf said absent (.leaf a)
  | optional {p : Formula α} (h : absent = false → Unmasked leaf said absent p) :
    Unmasked leaf said absent (.optional p)
  | both {ps : List (Formula α)} (h : ∀ p ∈ ps, Unmasked leaf said absent p) :
    Unmasked leaf said absent (.both ps)
  | either {ps : List (Formula α)} (h : ∀ p ∈ ps, Unmasked leaf said absent p)
    (order : ps.Pairwise fun p q => p.Gives leaf absent none → q.holds said absent = false) :
    Unmasked leaf said absent (.either ps)

/-- The operands of `both` and `either` come in another order, at any depth. -/
inductive Shuffled : Formula α → Formula α → Prop
  | refl (p : Formula α) : Shuffled p p
  | trans {p q r : Formula α} (h : Shuffled p q) (h' : Shuffled q r) : Shuffled p r
  | optional {p q : Formula α} (h : Shuffled p q) : Shuffled (.optional p) (.optional q)
  | both {ps qs : List (Formula α)} (h : ps.Perm qs) : Shuffled (.both ps) (.both qs)
  | either {ps qs : List (Formula α)} (h : ps.Perm qs) : Shuffled (.either ps) (.either qs)
  | insideBoth {before after : List (Formula α)} {p q : Formula α} (h : Shuffled p q) :
    Shuffled (.both (before ++ p :: after)) (.both (before ++ q :: after))
  | insideEither {before after : List (Formula α)} {p q : Formula α} (h : Shuffled p q) :
    Shuffled (.either (before ++ p :: after)) (.either (before ++ q :: after))

namespace Shuffled

variable {t t' : Formula α}

theorem holds_eq (h : Shuffled t t') : t.holds said absent = t'.holds said absent := by
  induction h with
  | refl p => rfl
  | trans _ _ first second => exact first.trans second
  | optional _ ih => rw [holds, holds, ih]
  | both perm => rw [holds_both, holds_both, perm.all_eq]
  | either perm => rw [holds_either, holds_either, perm.any_eq]
  | insideBoth _ ih => simp only [holds_both, List.all_append, List.all_cons, ih]
  | insideEither _ ih => simp only [holds_either, List.any_append, List.any_cons, ih]

theorem mem_leaves_iff (h : Shuffled t t') (a : α) : a ∈ t.leaves ↔ a ∈ t'.leaves := by
  induction h with
  | refl p => rfl
  | trans _ _ first second => exact first.trans second
  | optional _ ih => exact ih
  | both perm => simp only [leaves, mem_leavesOf, perm.mem_iff]
  | either perm => simp only [leaves, mem_leavesOf, perm.mem_iff]
  | insideBoth _ ih =>
    simp only [leaves, leavesOf_eq_flatMap, List.flatMap_append, List.flatMap_cons,
      List.mem_append, ih]
  | insideEither _ ih =>
    simp only [leaves, leavesOf_eq_flatMap, List.flatMap_append, List.flatMap_cons,
      List.mem_append, ih]

end Shuffled

/-! ### Formulas as what they can come to -/

variable {leaf : α → Option Bool → Prop} {t : Formula α} {o : Option Bool}

theorem Gives.both_cons {p : Formula α} {ps : List (Formula α)}
    (here : p.Gives leaf absent (some true)) (others : (both ps).Gives leaf absent o) :
    (both (p :: ps)).Gives leaf absent o := by
  cases others with
  | all h => exact .all (List.forall_mem_cons.mpr ⟨here, h⟩)
  | stopAll earlier h stops =>
    exact .stopAll (List.forall_mem_cons.mpr ⟨here, earlier⟩) h stops

theorem Gives.both_stop {p : Formula α} {ps : List (Formula α)} (here : p.Gives leaf absent o)
    (stops : o ≠ some true) : (both (p :: ps)).Gives leaf absent o :=
  @Gives.stopAll α leaf absent [] ps p o nofun here stops

theorem Gives.either_cons {p : Formula α} {ps : List (Formula α)}
    (here : p.Gives leaf absent (some false)) (others : (either ps).Gives leaf absent o) :
    (either (p :: ps)).Gives leaf absent o := by
  cases others with
  | none h => exact .none (List.forall_mem_cons.mpr ⟨here, h⟩)
  | stopAny earlier h stops =>
    exact .stopAny (List.forall_mem_cons.mpr ⟨here, earlier⟩) h stops

theorem Gives.either_stop {p : Formula α} {ps : List (Formula α)} (here : p.Gives leaf absent o)
    (stops : o ≠ some false) : (either (p :: ps)).Gives leaf absent o :=
  @Gives.stopAny α leaf absent [] ps p o nofun here stops

/-- What can come true is true. -/
theorem holds_of_gives (sound : ∀ a ∈ t.leaves, leaf a (some true) → said a = true)
    (given : t.Gives leaf absent (some true)) : t.holds said absent = true := by
  induction t using Formula.induction with
  | leaf a =>
    cases given with
    | leaf h => exact sound a List.mem_cons_self h
  | optional p ih =>
    cases given with
    | absent h => rw [holds, h, Bool.true_or]
    | optional present h => rw [holds, ih sound h, Bool.or_true]
  | both ps ih =>
    -- A search that has stopped has not come true.
    rw [holds_both, List.all_eq_true]
    cases given with
    | all h => exact fun p member => ih p member (forall_leaves_of_mem sound member) (h p member)
    | stopAll _ _ stops => exact absurd rfl stops
  | either ps ih =>
    rw [holds_either, List.any_eq_true]
    cases given with
    | @stopAny before after p _ _ here _ =>
      have member : p ∈ before ++ p :: after := List.mem_append_right _ List.mem_cons_self
      exact ⟨p, member, ih p member (forall_leaves_of_mem sound member) here⟩

/-- Where no operand that raises hides a true one, a formula comes true exactly if it is. -/
theorem eq_holds_of_gives (exact : ∀ a ∈ t.leaves, ∀ o, leaf a o → (o == some true) = said a)
    (unmasked : t.Unmasked leaf said absent) (given : t.Gives leaf absent o) :
    (o == some true) = t.holds said absent := by
  induction t using Formula.induction generalizing o with
  | leaf a =>
    cases given with
    | leaf h => exact exact a List.mem_cons_self o h
  | optional p ih =>
    cases given with
    | absent h => rw [holds, h, Bool.true_or, beq_self_eq_true]
    | optional present h =>
      cases unmasked with
      | optional inside => rw [ih exact (inside present) h, holds, present, Bool.false_or]
  | both ps ih =>
    cases unmasked with
    | both inside =>
      have part {p o} (member : p ∈ ps) (h : p.Gives leaf absent o) :
          (o == some true) = p.holds said absent :=
        ih p member (forall_leaves_of_mem exact member) (inside p member) h
      rw [holds_both]
      cases given with
      | all h =>
        refine (List.all_eq_true.mpr fun p member => ?_).symm
        exact (part member (h p member)).symm
      | @stopAll before after p _ _ here stops =>
        -- The operand that stopped the search is false, whether it said so or raised.
        have member : p ∈ before ++ p :: after := List.mem_append_right _ List.mem_cons_self
        rw [beq_eq_false_iff_ne.mpr stops]
        refine (List.all_eq_false.mpr ⟨p, member, ?_⟩).symm
        rw [← part member here, beq_eq_false_iff_ne.mpr stops]
        exact Bool.false_ne_true
  | either ps ih =>
    cases unmasked with
    | either inside order =>
      have part {p o} (member : p ∈ ps) (h : p.Gives leaf absent o) :
          (o == some true) = p.holds said absent :=
        ih p member (forall_leaves_of_mem exact member) (inside p member) h
      rw [holds_either]
      cases given with
      | none h =>
        refine (List.any_eq_false.mpr fun p member => ?_).symm
        rw [← part member (h p member)]
        exact Bool.false_ne_true
      | @stopAny before after p _ earlier here stops =>
        have member : p ∈ before ++ p :: after := List.mem_append_right _ List.mem_cons_self
        cases o with
        | some b =>
          cases b with
          | false => exact absurd rfl stops
          | true => exact (List.any_eq_true.mpr ⟨p, member, (part member here).symm⟩).symm
        | none =>
          -- Nothing before the operand that raised is true, and nothing after it may be.
          refine (List.any_eq_false.mpr fun q among => ?_).symm
          suffices h : q.holds said absent = false by rw [h]; exact Bool.false_ne_true
          rcases List.mem_append.mp among with before' | rest
          · exact (part among (earlier q before')).symm
          · rcases List.mem_cons.mp rest with rfl | after'
            · exact (part member here).symm
            · have later := (List.pairwise_append.mp order).2.1
              exact List.rel_of_pairwise_cons later after' here

end Formula

/-! ### Runs -/

namespace Run

variable {P Q : Option Bool → Prop}

/-- A run of a condition ends, from every state, with a truth value or an ordinary fault for which
`P` allows. -/
abbrev ComesTo (P : Option Bool → Prop) (x : Run Session Bool) : Prop :=
  x.EndsIn (fun b => P (some b)) fun fault => fault.isOrdinary = true ∧ P none

theorem ComesTo.imp {x : Run Session Bool} (h : x.ComesTo P) (weaker : ∀ o, P o → Q o) :
    x.ComesTo Q :=
  h.mono (fun b => weaker (some b)) fun _ given => ⟨given.1, weaker none given.2⟩

theorem ComesTo.insideIteration {x : Run Session Bool} (h : x.ComesTo P) :
    x.insideIteration.ComesTo P := by
  refine EndsIn.insideIteration h fun signal given => ?_
  split
  · exact ⟨rfl, given.2⟩
  · exact given

end Run

namespace Session

variable {base : α → Value → Run Session Value} {leaf : α → Option Bool → Prop} {x : Value}
  {ps : List (Formula α)}

/-- An answer that is given as a truth value is taken as it is. -/
theorem callHolds_of_bool {call : Value → Run Session Value} {y : Run Session Bool}
    (h : call x = .bool <$> y) : callHolds call x = y := by
  funext s
  rw [callHolds, h, Run.bind_apply, Run.map_apply]
  rcases y s with ⟨_ | _, _⟩ <;> rfl

theorem comesTo_allOf
    (h : ∀ p ∈ ps, (callHolds (p.call base) x).ComesTo (p.Gives leaf x.isNull)) :
    (allOf (Formula.calls base ps) x).ComesTo ((Formula.both ps).Gives leaf x.isNull) := by
  induction ps with
  | nil => exact .pure (.all nofun)
  | cons p ps ih =>
    obtain ⟨first, others⟩ := List.forall_mem_cons.mp h
    -- What the first operand gives is kept, since it tells how the search goes on.
    refine Run.EndsIn.bind (first.mono (fun _ => id) fun _ raised =>
      ⟨raised.1, .both_stop raised.2 nofun⟩) fun held given => ?_
    cases held with
    | true => exact (ih others).imp fun o => .both_cons given
    | false => exact .pure (.both_stop given nofun)

theorem comesTo_anyOf
    (h : ∀ p ∈ ps, (callHolds (p.call base) x).ComesTo (p.Gives leaf x.isNull)) :
    (anyOf (Formula.calls base ps) x).ComesTo ((Formula.either ps).Gives leaf x.isNull) := by
  induction ps with
  | nil => exact .pure (.none nofun)
  | cons p ps ih =>
    obtain ⟨first, others⟩ := List.forall_mem_cons.mp h
    refine Run.EndsIn.bind (first.mono (fun _ => id) fun _ raised =>
      ⟨raised.1, .either_stop raised.2 nofun⟩) fun held given => ?_
    cases held with
    | true => exact .pure (.either_stop given nofun)
    | false => exact (ih others).imp fun o => .either_cons given

/-- The call of a formula gives what the formula can come to. -/
theorem comesTo_call {t : Formula α}
    (leaves : ∀ a ∈ t.leaves, (callHolds (base a) x).ComesTo (leaf a)) :
    (callHolds (t.call base) x).ComesTo (t.Gives leaf x.isNull) := by
  induction t using Formula.induction with
  | leaf a => exact (leaves a List.mem_cons_self).imp fun o => .leaf
  | optional p ih =>
    cases absent : x.isNull with
    | true =>
      have passes : callHolds (p.optional.call base) x = pure true := by
        rw [callHolds, Formula.call, optionally, absent]
        rfl
      rw [passes]
      exact .pure (.absent rfl)
    | false =>
      have same : callHolds (p.optional.call base) x = callHolds (p.call base) x :=
        callHolds_of_bool (by rw [Formula.call, optionally, absent]; rfl)
      rw [same]
      have inside := ih leaves
      rw [absent] at inside
      exact inside.imp fun o => .optional rfl
  | both ps ih =>
    rw [Formula.call, callHolds_of_bool rfl]
    exact (comesTo_allOf fun p member =>
      ih p member (Formula.forall_leaves_of_mem leaves member)).insideIteration
  | either ps ih =>
    rw [Formula.call, callHolds_of_bool rfl]
    exact (comesTo_anyOf fun p member =>
      ih p member (Formula.forall_leaves_of_mem leaves member)).insideIteration

/-! ### Verdicts -/

variable {call : Value → Run Session Value} (check : Value)

theorem verdict_fst (s : Session) :
    (verdict check call x s).1 = match (callHolds call x s).1 with
      | .ok b => .ok b
      | .error fault => if fault.isOrdinary then .ok false else .error fault := by
  have same : verdict check call x s = Run.recover (callHolds call x) _ s := rfl
  rw [same, Run.recover]
  rcases callHolds call x s with ⟨fault | b, t⟩
  · dsimp only
    split <;> rfl
  · rfl

/-- A verdict is positive exactly if the condition comes true. -/
theorem verdict_of_comesTo {P : Option Bool → Prop} (h : (callHolds call x).ComesTo P)
    (s : Session) : ∃ o, P o ∧ (verdict check call x s).1 = .ok (o == some true) := by
  have ended := h s
  rw [verdict_fst]
  generalize (callHolds call x s).1 = answered at ended ⊢
  cases ended with
  | @answer b given => exact ⟨some b, given, by cases b <;> rfl⟩
  | fault given => exact ⟨none, given.2, by dsimp only; rw [if_pos given.1]; rfl⟩

/-- What a call can give for a value from some state: a truth value, or nothing if it raises. -/
def CanGive (call : Value → Run Session Value) (x : Value) : Option Bool → Prop
  | some b => ∃ s, (callHolds call x s).1 = .ok b
  | none => ∃ s fault, (callHolds call x s).1 = .error fault

section Settled

variable {check} {b : Bool} (settled : ∀ s, (verdict check call x s).1 = .ok b)
include settled

theorem isOrdinary_of_settled {s : Session} {fault : Fault}
    (answered : (callHolds call x s).1 = .error fault) : fault.isOrdinary = true ∧ b = false := by
  have judged := settled s
  rw [verdict_fst, answered] at judged
  cases ordinary : fault.isOrdinary with
  | true =>
    simp only [ordinary, if_true] at judged
    cases judged
    exact ⟨rfl, rfl⟩
  | false => simp [ordinary] at judged

/-- A call about whose verdict there is no doubt raises ordinary faults only. -/
theorem comesTo_of_settled : (callHolds call x).ComesTo (CanGive call x) := by
  intro s
  cases answered : (callHolds call x s).1 with
  | ok b => exact .answer ⟨s, answered⟩
  | error fault => exact .fault ⟨(isOrdinary_of_settled settled answered).1, s, fault, answered⟩

theorem eq_of_canGive {o : Option Bool} (given : CanGive call x o) : (o == some true) = b := by
  cases o with
  | some said =>
    obtain ⟨s, answered⟩ := given
    have judged := settled s
    rw [verdict_fst, answered] at judged
    cases judged
    cases b <;> rfl
  | none =>
    obtain ⟨s, fault, answered⟩ := given
    exact (isOrdinary_of_settled settled answered).2.symm

end Settled

section Formula

variable {t t' : Formula α} {rule : α → Value} {said : α → Bool}
  (settled : ∀ a ∈ t.leaves, ∀ s, (verdict (rule a) (base a) x s).1 = .ok (said a))
include settled

theorem comesTo_of_leaves :
    (callHolds (t.call base) x).ComesTo (t.Gives (fun a => CanGive (base a) x) x.isNull) :=
  comesTo_call fun a leaf => comesTo_of_settled (settled a leaf)

theorem verdict_eq_holds (unmasked : t.Unmasked (fun a => CanGive (base a) x) said x.isNull)
    (s : Session) : (verdict check (t.call base) x s).1 = .ok (t.holds said x.isNull) := by
  obtain ⟨o, given, judged⟩ := verdict_of_comesTo check (comesTo_of_leaves settled) s
  have exact := t.eq_holds_of_gives (fun a leaf o => eq_of_canGive (settled a leaf)) unmasked given
  rw [judged, exact]

/-- The verdict of a tree of combinators over leaves with settled verdicts. It is one to which the
tree can come, so that nothing is accepted that the formula does not allow. Where no operand of an
`either` that can raise comes before a true one, it is the truth value of the formula; and then the
order of operands does not matter, as long as this is so for both orders. -/
theorem verdict_formula :
    (∀ s, ∃ o, t.Gives (fun a => CanGive (base a) x) x.isNull o ∧
      (verdict check (t.call base) x s).1 = .ok (o == some true)) ∧
    (∀ s, (verdict check (t.call base) x s).1 = .ok true → t.holds said x.isNull = true) ∧
    (t.Unmasked (fun a => CanGive (base a) x) said x.isNull →
      (∀ s, (verdict check (t.call base) x s).1 = .ok (t.holds said x.isNull)) ∧
      ∀ t', t.Shuffled t' → t'.Unmasked (fun a => CanGive (base a) x) said x.isNull →
        ∀ s s', (verdict check (t'.call base) x s').1 = (verdict check (t.call base) x s).1) := by
  refine ⟨verdict_of_comesTo check (comesTo_of_leaves settled), fun s accepted => ?_,
    fun unmasked => ⟨verdict_eq_holds check settled unmasked, fun t' shuffled unmasked' s s' => ?_⟩⟩
  · obtain ⟨o, given, judged⟩ := verdict_of_comesTo check (comesTo_of_leaves settled) s
    have true : o = some true := by
      rw [accepted] at judged
      exact beq_iff_eq.mp (Except.ok.inj judged).symm
    subst true
    exact Formula.holds_of_gives (fun a leaf h => (eq_of_canGive (settled a leaf) h).symm) given
  · -- Another order has the same leaves and the same truth value.
    have settled' : ∀ a ∈ t'.leaves, ∀ s, (verdict (rule a) (base a) x s).1 = .ok (said a) :=
      fun a leaf => settled a ((shuffled.mem_leaves_iff a).mpr leaf)
    rw [verdict_eq_holds check settled unmasked, verdict_eq_holds check settled' unmasked',
      shuffled.holds_eq]

end Formula

end Session

/-! ### Callables as formulas -/

mutual

/-- The tree of combinators that a value is. Its leaves are no combinators. -/
def Value.formula : Value → Formula Value
  | .callable id f => f.formula id
  | v => .leaf v
termination_by structural a => a

/-- The tree of combinators that a callable of the given number is. -/
def Callable.formula (id : Nat) : Callable → Formula Value
  | .optional p => .optional p.formula
  | .both ps => .both (Value.formulas ps)
  | .either ps => .either (Value.formulas ps)
  | f => .leaf (.callable id f)
termination_by structural a => a

/-- The trees of combinators that several values are. -/
def Value.formulas : List Value → List (Formula Value)
  | [] => []
  | p :: ps => p.formula :: Value.formulas ps
termination_by structural a => a

end

mutual

/-- A call is that of the tree of combinators. -/
theorem Value.apply_eq_call (f : Value) : f.apply = f.formula.call Value.apply := by
  cases f with
  | callable id f =>
    funext x
    rw [Value.apply, Callable.apply_eq_call id f, Value.formula]
  | _ => rfl

theorem Callable.apply_eq_call (id : Nat) (f : Callable) :
    f.apply = (f.formula id).call Value.apply := by
  cases f with
  | optional p =>
    funext x
    rw [Callable.formula, Formula.call, ← Value.apply_eq_call p]
    cases x <;> rfl
  | both ps =>
    funext x
    rw [Callable.formula, Formula.call, Session.both, ← Value.allHold_eq_allOf ps]
    rfl
  | either ps =>
    funext x
    rw [Callable.formula, Formula.call, Session.either, ← Value.anyHolds_eq_anyOf ps]
    rfl
  | _ =>
    -- No other callable is a combinator, so that each is a leaf.
    funext x
    rw [Callable.formula, Formula.call, Value.apply]
    all_goals nofun

theorem Value.allHold_eq_allOf (ps : List Value) (x : Value) :
    Value.allHold ps x = Session.allOf (Formula.calls Value.apply (Value.formulas ps)) x := by
  match ps with
  | [] => rfl
  | p :: ps =>
    rw [Value.allHold, Value.formulas, Formula.calls, Session.allOf, ← Value.apply_eq_call p,
      Value.allHold_eq_allOf ps]

theorem Value.anyHolds_eq_anyOf (ps : List Value) (x : Value) :
    Value.anyHolds ps x = Session.anyOf (Formula.calls Value.apply (Value.formulas ps)) x := by
  match ps with
  | [] => rfl
  | p :: ps =>
    rw [Value.anyHolds, Value.formulas, Formula.calls, Session.anyOf, ← Value.apply_eq_call p,
      Value.anyHolds_eq_anyOf ps]

end

/-- A verdict is that of the tree of combinators. -/
theorem Value.verdict_eq_formula (f x : Value) :
    f.verdict x = Session.verdict f (f.formula.call Value.apply) x := by
  rw [Value.verdict, Value.apply_eq_call]

/-- A part that says that an iteration is over counts as false, and ends nothing but its own
search. -/
theorem Session.verdict_formula_stopping :
    let number : Value := .callable 4 (.check .number)
    let stop : Value := .callable 30 (.raising ⟨"StopIteration", none⟩)
    let f : Value := .callable 31 (.either [number,
      .callable 32 (.both [stop, .callable 33 (.optional number)])])
    let said : Value → Bool := fun a => a.same number
    (∀ a ∈ f.formula.leaves, ∀ s, (a.verdict (.int 3) s).1 = .ok (said a)) ∧
      f.formula.Unmasked (fun a => CanGive a.apply (.int 3)) said false ∧
      ∀ s, (f.verdict (.int 3) s).1 = .ok true := by
  intro number stop f said
  have settled : ∀ a ∈ f.formula.leaves, ∀ s, (a.verdict (.int 3) s).1 = .ok (said a) :=
    List.forall_mem_cons.mpr ⟨fun _ => rfl, List.forall_mem_cons.mpr ⟨fun _ => rfl,
      List.forall_mem_cons.mpr ⟨fun _ => rfl, nofun⟩⟩⟩
  have unmasked : f.formula.Unmasked (fun a => CanGive a.apply (.int 3)) said false := by
    refine .either (List.forall_mem_cons.mpr ⟨.leaf number, List.forall_mem_cons.mpr ⟨.both ?_,
      nofun⟩⟩) (.cons ?_ (.cons nofun .nil))
    · exact List.forall_mem_cons.mpr ⟨.leaf stop, List.forall_mem_cons.mpr
        ⟨.optional fun _ => .leaf number, nofun⟩⟩
    · exact List.forall_mem_cons.mpr ⟨fun _ => rfl, nofun⟩
  refine ⟨settled, unmasked, fun s => ?_⟩
  rw [Value.verdict_eq_formula]
  exact ((verdict_formula f settled).2.2 unmasked).1 s

/-- An operand that raises before a true one keeps it from being asked. So the formula is true and
the value is refused, but accepted in the other order. -/
theorem Session.verdict_masked :
    let boom : Value := .callable 14 (.primitive .boom)
    let number : Value := .callable 4 (.check .number)
    let f : Value := .callable 30 (.either [boom, number])
    let f' : Value := .callable 31 (.either [number, boom])
    let said : Value → Bool := fun a => a.same number
    (∀ a ∈ f.formula.leaves, ∀ s, (a.verdict (.int 3) s).1 = .ok (said a)) ∧
      f.formula.holds said false = true ∧ f.formula.Shuffled f'.formula ∧
      (f.verdict (.int 3) .initial).1 = .ok false ∧
      (f'.verdict (.int 3) .initial).1 = .ok true := by
  intro boom number f f' said
  refine ⟨?_, rfl, .either (.swap _ _ _), rfl, rfl⟩
  exact List.forall_mem_cons.mpr ⟨fun _ => rfl, List.forall_mem_cons.mpr ⟨fun _ => rfl, nofun⟩⟩

end Conformance
