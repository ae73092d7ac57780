import Conformance.Proofs.Parts
import Mathlib.Algebra.Order.Field.Basic
import Mathlib.Algebra.Order.Field.Rat
import Mathlib.Data.Fintype.EquivFin
import Mathlib.Data.Int.Cast.Lemmas
import Mathlib.Data.List.Forall2

/-!
# Keys and their agreement

A key cannot change: it has no parts, or is a tuple or a frozen set of keys. By agreement keys fall
into classes, so that a mapping can tell them apart by looking for one that agrees. What has no
parts is equal by what it stands for: a number by its exact value, whatever its kind, a range by its
terms, and an object by being itself. Tuples agree item by item. A frozen set only asks whether each
of its items agrees with some item of the other; that this goes in both directions is because as
many items, no two of which agree, have as many partners.

## Main definitions

* `Number.exact`, `Value.atom?` — what a value without parts is equal by
* `Value.IsKey` — keys, with items that are pairwise different in each frozen set

## Main results

* `Value.same_iff_of_atom?`, `Value.same_tuple_iff`, `Value.same_iff_of_set?` — what the kinds of
  keys agree with
* `Value.IsKey.sameLaws` — on keys, agreement is an equivalence
-/

namespace Conformance

/-! ### Numbers -/

/-- The number that a number is exactly: an infinity by its sign, or a fraction. -/
def Number.exact : Number → Bool ⊕ ℚ
  | int n => .inr n
  | float (.infinite negative) => .inl negative
  | float (.finite negative significand exponent) =>
    .inr (Binary64.signed negative significand * 2 ^ exponent)

theorem Binary64.compareScaled_eq_iff {m e n f : Int} :
    compareScaled m e n f = .eq ↔ (m : ℚ) * 2 ^ e = n * 2 ^ f := by
  -- Both are brought to the smaller power, which is then cancelled.
  have scaled : ∀ k g : Int, min e f ≤ g →
      (k : ℚ) * 2 ^ g = ((k * Nat.pow 2 (g - min e f).toNat : Int) : ℚ) * 2 ^ min e f := by
    intro k g least
    have split : g = ((g - min e f).toNat : Int) + min e f := by omega
    calc (k : ℚ) * 2 ^ g
        = k * (2 ^ ((g - min e f).toNat : Int) * 2 ^ min e f) := by
          rw [← zpow_add₀ two_ne_zero, ← split]
      _ = _ := by
          rw [zpow_natCast, Nat.pow_eq, Int.cast_mul, Int.cast_natCast, Nat.cast_pow, mul_assoc]
          rfl
  rw [compareScaled, compare_eq_iff_eq, scaled m e (min_le_left e f),
    scaled n f (min_le_right e f), mul_left_inj' (zpow_ne_zero _ two_ne_zero), Int.cast_inj]

/-- Numbers are equal exactly if they have the same exact value. -/
theorem Number.equal_iff {m n : Number} : m.equal n = true ↔ m.exact = n.exact := by
  have infinite : ∀ s t : Bool, (Ord.compare t s == .eq) = true ↔ s = t := by decide
  -- An infinity is no fraction; finite numbers are compared after they are scaled.
  cases m with
  | int m =>
    cases n with
    | int n => simp [equal, exact]
    | float y =>
      cases y with
      | infinite t => cases t <;> simp [equal, exact, Binary64.compareInt]
      | finite t k f =>
        simpa [equal, exact, Binary64.compareInt, Binary64.compareScaled_eq_iff] using eq_comm
  | float x =>
    cases n with
    | int n =>
      cases x with
      | infinite s => cases s <;> simp [equal, exact, Binary64.compareInt]
      | finite s k e => simp [equal, exact, Binary64.compareInt, Binary64.compareScaled_eq_iff]
    | float y =>
      cases x with
      | infinite s =>
        cases y with
        | infinite t => simpa [equal, exact, Binary64.compare] using infinite s t
        | finite t k f => cases s <;> simp [equal, exact, Binary64.compare]
      | finite s m e =>
        cases y with
        | infinite t => cases t <;> simp [equal, exact, Binary64.compare]
        | finite t k f =>
          simp [equal, exact, Binary64.compare, Binary64.compareScaled_eq_iff]

namespace Value

/-! ### Answers that hold -/

theorem holds_eq_true_iff {answer : Except Fault Bool} :
    holds answer = true ↔ answer = .ok true := by
  rcases answer with _ | b <;> simp [holds]

@[simp] theorem holds_foreign (w : Value) : holds (foreign w) = false := by
  unfold foreign
  split <;> rfl

@[simp] theorem holds_agreeWhere (equal : Value → Bool) (w : Value) :
    holds (agreeWhere equal w) = equal w := by
  unfold agreeWhere
  split
  · next h => exact h.symm
  · next h => simp [h]

theorem holds_agreeFamily_iff {α : Type} {family : Option α} {compare : α → Except Fault Bool}
    {w : Value} : holds (agreeFamily family compare w) = true ↔
      ∃ part, family = some part ∧ holds (compare part) = true := by
  cases family <;> simp [agreeFamily]

theorem holds_agreeNumber_iff {m : Number} {w : Value} :
    holds (agreeNumber m w) = true ↔ ∃ n, w.number? = some n ∧ m.exact = n.exact := by
  rw [agreeNumber]
  cases w.number? with
  | none => simp
  | some n => simp [holds, Number.equal_iff]

theorem holds_agreeObject_iff {v : Value} {i : Nat} {w : Value} :
    holds (agreeObject v i w) = true ↔ w.identity? = some i ∧ w.typeName = v.typeName := by
  unfold agreeObject
  split
  · next h =>
    simp only [Bool.and_eq_true, beq_iff_eq] at h
    simp [holds, h]
  · next h =>
    -- Another object is refused or foreign, and so never agrees.
    have other : ¬ (w.identity? = some i ∧ w.typeName = v.typeName) := by
      rintro ⟨object, type⟩
      exact h (by simp [object, type])
    simp only [other, iff_false, Bool.not_eq_true]
    split
    · rfl
    · rfl
    · split
      · rfl
      · exact holds_foreign w
    · split
      · rfl
      · exact holds_foreign w
    · exact holds_foreign w

/-! ### Values without parts -/

/-- What a value without parts is equal by. -/
inductive Atom where
  | null
  | number (x : Bool ⊕ ℚ)
  | text (s : String)
  | bytes (data : List UInt8)
  | range (length : Nat) (start step : Int)
  | object (type : String) (id : Nat)

/-- What a value is equal by, if it has no parts. The start of a range counts from one term on, and
its step from two. -/
def atom? (v : Value) : Option Atom :=
  match v with
  | null => some .null
  | text s => some (.text s)
  | bytes data | bytearray _ data => some (.bytes data)
  | range start stop step =>
    let n := Range.length start stop step
    some (.range n (if n = 0 then 0 else start) (if n ≤ 1 then 0 else step))
  | v => (v.number?.map fun m => .number m.exact) <|> v.identity?.map (.object v.typeName)

theorem atom?_eq_number_iff {w : Value} {x : Bool ⊕ ℚ} :
    w.atom? = some (.number x) ↔ ∃ n, w.number? = some n ∧ n.exact = x := by
  cases w <;> simp [atom?, number?, identity?]

theorem atom?_eq_object_iff {w : Value} {type : String} {i : Nat} :
    w.atom? = some (.object type i) ↔ w.identity? = some i ∧ w.typeName = type := by
  cases w <;> simp [atom?, number?, identity?, and_comm]

theorem atom?_eq_bytes_iff {w : Value} {data : List UInt8} :
    w.atom? = some (.bytes data) ↔ w.bytes? = some data := by
  cases w <;> simp [atom?, number?, identity?, bytes?]

/-- A value without parts agrees with those that are equal by the same. -/
theorem same_iff_of_atom? {v w : Value} {a : Atom} (h : v.atom? = some a) :
    v.same w = true ↔ w.atom? = some a := by
  unfold same agree
  cases v with
  | null =>
    cases h
    cases w <;> simp [agreeAt, atom?, number?, identity?]
  | text s =>
    cases h
    cases w with
    | text t => simpa [agreeAt, atom?] using eq_comm
    | _ => simp [agreeAt, atom?, number?, identity?]
  | range start stop step =>
    cases h
    cases w with
    | range start' stop' step' =>
      simp only [agreeAt, holds_agreeWhere, Range.agree, atom?, Option.some.injEq, Atom.range.injEq,
        Bool.and_eq_true, Bool.or_eq_true, beq_iff_eq]
      grind
    | _ => simp [agreeAt, atom?, number?, identity?]
  | bytes data | bytearray i data =>
    cases h
    simp [agreeAt, atom?_eq_bytes_iff]
  | bool b | int n | float x =>
    cases h
    rw [agreeAt, holds_agreeNumber_iff, atom?_eq_number_iff]
    exact exists_congr fun n => and_congr_right fun _ => eq_comm
  -- The others are objects that are equal to nothing but themselves.
  | nan i | stream i items | rowStream i e r | frame i columns rows cell | probe i p
  | callable i f | rule r | settings s =>
    cases h
    rw [agreeAt, holds_agreeObject_iff, atom?_eq_object_iff]
  | _ => cases h

/-! ### Values with items -/

/-- Items agree in step if there are as many of them and each agrees with that at its place. -/
theorem agreeItems_iff {side : Side} {vs ws : List Value} :
    agreeItems vs side ws = .ok true ∧ vs.length = ws.length ↔
      List.Forall₂ (fun v w => agreeAt v side w = .ok true) vs ws := by
  induction vs generalizing ws with
  | nil => cases ws <;> simp [agreeItems]
  | cons v vs ih =>
    cases ws with
    | nil => simp
    | cons w ws =>
      rw [List.forall₂_cons, ← ih, agreeItems, List.length_cons, List.length_cons,
        Nat.add_right_cancel_iff, ← and_assoc]
      refine and_congr_left fun _ => ?_
      rcases agreeAt v side w with _ | _ | _ <;> simp [bind, Except.bind]

theorem same_tuple_iff {vs : List Value} {w : Value} :
    (tuple vs).same w = true ↔
      ∃ ws, w = tuple ws ∧ List.Forall₂ (fun v w => v.same w = true) vs ws := by
  have inStep : ∀ ws, holds (do
      let alike ← agreeItems vs .left ws
      .ok (alike && vs.length == ws.length)) = true ↔
        List.Forall₂ (fun v w => v.same w = true) vs ws := by
    intro ws
    simp only [same, agree, holds_eq_true_iff]
    rw [← agreeItems_iff]
    rcases agreeItems vs .left ws with _ | b <;> simp [bind, Except.bind]
  unfold same agree
  rw [agreeAt, holds_agreeFamily_iff]
  simp only [inStep]
  cases w <;> simp [tuple?, same, agree]

theorem contained_iff {vs ws : List Value} :
    contained vs ws = true ↔ ∀ v ∈ vs, ∃ w ∈ ws, v.same w = true := by
  induction vs with
  | nil => simp [contained]
  | cons v vs ih =>
    rw [contained, Bool.and_eq_true, ih, List.forall_mem_cons, List.any_eq_true]
    rfl

/-- A set agrees with sets of as many items, among which each of its own finds one. -/
theorem same_iff_of_set? {v w : Value} {items : List Value} (h : v.set? = some items) :
    v.same w = true ↔ ∃ others, w.set? = some others ∧ items.length = others.length ∧
      ∀ x ∈ items, ∃ y ∈ others, x.same y = true := by
  have compared : v.same w = holds (agreeFamily w.set? (fun others =>
      .ok (items.length == others.length && contained items others)) w) := by
    cases v <;> cases h <;> rw [same, agree, agreeAt]
  rw [compared, holds_agreeFamily_iff]
  simp [holds, contained_iff]

/-! ### Keys -/

/-- Whether a value can be a key: nothing inside it can change, and in each frozen set the items are
pairwise different. -/
def IsKey (v : Value) : Prop := ∀ w, v.HasPart w → w.unhashable? = none ∧
  ∀ items, w.set? = some items → items.Pairwise fun earlier later => later.same earlier = false

/-- What a key has to do with other values: it agrees with itself, and with nothing that does not
agree with it and with all that agrees with that. -/
structure SameLaws (v : Value) : Prop where
  refl : v.same v = true
  symm : ∀ w, v.same w = true → w.same v = true
  trans : ∀ w u, v.same w = true → w.same u = true → v.same u = true

/-- If all of some items have partners among as many others, and no two have the same, then all the
others are partners. -/
theorem exists_partner {r : Value → Value → Prop} {items others : List Value}
    (size : items.length = others.length) (partner : ∀ x ∈ items, ∃ y ∈ others, r x y)
    (apart : items.Pairwise fun earlier later => ∀ y, r earlier y → ¬ r later y) :
    ∀ y ∈ others, ∃ x ∈ items, r x y := by
  have placed : ∀ i : Fin items.length, ∃ j : Fin others.length, r items[i] others[j] := by
    intro i
    obtain ⟨y, member, related⟩ := partner items[i] (List.getElem_mem i.isLt)
    obtain ⟨j, bound, rfl⟩ := List.getElem_of_mem member
    exact ⟨⟨j, bound⟩, related⟩
  choose place related using placed
  -- One place among as many is given to each item and to no other, so that none is left.
  have injective : Function.Injective place := by
    intro i j same
    have apartAt := List.pairwise_iff_getElem.mp apart
    rcases lt_trichotomy i j with before | equal | after
    · exact absurd (same ▸ related j) (apartAt i j i.isLt j.isLt before _ (related i))
    · exact equal
    · exact absurd (same ▸ related i) (apartAt j i j.isLt i.isLt after _ (related j))
  have bijective := (Fintype.bijective_iff_injective_and_card place).mpr
    ⟨injective, by simp [size]⟩
  intro y member
  obtain ⟨j, bound, rfl⟩ := List.getElem_of_mem member
  obtain ⟨i, found⟩ := bijective.surjective ⟨j, bound⟩
  exact ⟨items[i], List.getElem_mem i.isLt, by simpa [found] using related i⟩

namespace SameLaws

theorem of_atom? {v : Value} {a : Atom} (h : v.atom? = some a) : SameLaws v where
  refl := (same_iff_of_atom? h).mpr h
  symm _ same := (same_iff_of_atom? ((same_iff_of_atom? h).mp same)).mpr h
  trans _ _ same further := by
    have between := (same_iff_of_atom? h).mp same
    exact (same_iff_of_atom? h).mpr ((same_iff_of_atom? between).mp further)

theorem of_tuple {items : List Value} (laws : ∀ x ∈ items, SameLaws x) :
    SameLaws (tuple items) := by
  have refl : List.Forall₂ (fun v w => v.same w = true) items items :=
    List.forall₂_same.mpr fun x member => (laws x member).refl
  refine ⟨same_tuple_iff.mpr ⟨items, rfl, refl⟩, fun w same => ?_, fun w u same further => ?_⟩
  · obtain ⟨ws, rfl, inStep⟩ := same_tuple_iff.mp same
    refine same_tuple_iff.mpr ⟨items, rfl, ?_⟩
    clear same refl
    induction inStep with
    | nil => exact .nil
    | cons here _ ih =>
      obtain ⟨first, others⟩ := List.forall_mem_cons.mp laws
      exact .cons (first.symm _ here) (ih others)
  · obtain ⟨ws, rfl, inStep⟩ := same_tuple_iff.mp same
    obtain ⟨us, rfl, onwards⟩ := same_tuple_iff.mp further
    refine same_tuple_iff.mpr ⟨us, rfl, ?_⟩
    clear same further refl
    induction inStep generalizing us with
    | nil => exact onwards
    | cons here _ ih =>
      obtain ⟨first, others⟩ := List.forall_mem_cons.mp laws
      cases onwards with
      | cons next rest => exact .cons (first.trans _ _ here next) (ih others _ rest)

theorem of_frozenset {items : List Value} (laws : ∀ x ∈ items, SameLaws x)
    (distinct : items.Pairwise fun earlier later => later.same earlier = false) :
    SameLaws (frozenset items) := by
  have family : (frozenset items).set? = some items := rfl
  refine ⟨?_, fun w same => ?_, fun w u same further => ?_⟩
  · exact (same_iff_of_set? family).mpr
      ⟨items, rfl, rfl, fun x member => ⟨x, member, (laws x member).refl⟩⟩
  · obtain ⟨others, isSet, size, partner⟩ := (same_iff_of_set? family).mp same
    -- Two items with one partner would agree with each other.
    have apart : items.Pairwise fun earlier later =>
        ∀ y, earlier.same y = true → ¬ later.same y = true := by
      refine distinct.imp_of_mem fun {earlier later} first second different y here there => ?_
      have back := (laws earlier first).symm y here
      rw [(laws later second).trans y earlier there back] at different
      cases different
    refine (same_iff_of_set? isSet).mpr ⟨items, rfl, size.symm, fun y member => ?_⟩
    obtain ⟨x, inside, alike⟩ := exists_partner size partner apart y member
    exact ⟨x, inside, (laws x inside).symm y alike⟩
  · obtain ⟨others, isSet, size, partner⟩ := (same_iff_of_set? family).mp same
    obtain ⟨more, isSet', size', partner'⟩ := (same_iff_of_set? isSet).mp further
    refine (same_iff_of_set? family).mpr ⟨more, isSet', size.trans size', fun x member => ?_⟩
    obtain ⟨y, inside, alike⟩ := partner x member
    obtain ⟨z, inside', alike'⟩ := partner' y inside
    exact ⟨z, inside', (laws x member).trans y z alike alike'⟩

end SameLaws

theorem isKey_iff {v : Value} : v.IsKey ↔ (v.unhashable? = none ∧ ∀ items, v.set? = some items →
    items.Pairwise fun earlier later => later.same earlier = false) ∧ ∀ x ∈ v.parts, x.IsKey :=
  forall_hasPart_iff

mutual

/-- On keys, agreement is an equivalence. -/
theorem IsKey.sameLaws {v : Value} (key : v.IsKey) : SameLaws v := by
  obtain ⟨⟨hashable, distinct⟩, inParts⟩ := isKey_iff.mp key
  cases v with
  | tuple items => exact .of_tuple (sameLaws_of_areKeys items inParts)
  | frozenset items =>
    exact .of_frozenset (sameLaws_of_areKeys items inParts) (distinct items rfl)
  | list | branch | set | dict | view | pack => cases hashable
  | _ => exact .of_atom? rfl

theorem sameLaws_of_areKeys (items : List Value) (keys : ∀ x ∈ items, x.IsKey) :
    ∀ x ∈ items, SameLaws x := by
  match items with
  | [] => exact List.forall_mem_nil _
  | v :: vs =>
    obtain ⟨first, others⟩ := List.forall_mem_cons.mp keys
    exact List.forall_mem_cons.mpr ⟨first.sameLaws, sameLaws_of_areKeys vs others⟩

end

end Value

end Conformance
