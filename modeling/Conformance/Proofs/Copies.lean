import Conformance.Proofs.PlainData
import Conformance.Proofs.Verdicts
import Mathlib.Data.List.Forall2

/-!
# What copies keep

To copy a value is to copy whatever it holds, and fails with the first thing in it that is a stream
or a read-only view. A copy of a mapping has a copy of each entry, in the same order. Look-ups in
it find copies of what they found, as long as its keys are their own copies: a key that is known by
its number only is copied to another key.

So whether a pack accepts the copy of what it accepts is up to the single checks: each of them has
to accept the copy of the value that it accepts.

## Main definitions

* `Value.Holds` — what is copied where a value is
* `Value.isCopyable` — what stands in the way of a copy, and what does not
* `Value.CopiedEntry`, `Value.CopiedMapping` — an entry or a mapping, and its copy
* `Pack.MeetsFixedKeys`, `Pack.AcceptsCopies` — what a pack needs to accept a copy

## Main results

* `Value.copying_copyEntries` — copying succeeds, or tells what cannot be copied
* `Value.copyEntries_eq_ok_iff`, `Value.mapping?_of_copy` — what a copy consists of
* `Pack.accepts_copy` — a pack that accepts a value exactly accepts its copy
-/

namespace Conformance

variable {β γ : Type}

namespace Value

/-! ### What is copied -/

/-- Whether nothing in a value itself stands in the way of its copy. -/
def isCopyable : Value → Bool
  | view _ | stream .. | rowStream .. => false
  | _ => true

/-- What is copied along with a value: its parts, the check of a rule, and the pack in a rule. -/
def components : Value → List Value
  | rule (.leaf _ f) => [f]
  | rule (.nested _ p) => [pack p]
  | v => v.parts

/-- What is copied where a value is, at any depth. -/
def Holds : Value → Value → Prop := Relation.ReflTransGen fun v w => w ∈ v.components

theorem holds_iff {v w : Value} : v.Holds w ↔ v = w ∨ ∃ x ∈ v.components, x.Holds w := by
  rw [Holds, Relation.ReflTransGen.cases_head_iff]

theorem holds_iff_of_components {v w : Value} (none : v.components = []) : v.Holds w ↔ v = w := by
  rw [holds_iff, none]
  simp

/-- What an attempt to copy says of all that is held: everything in it can be copied, or it tells
the type of something that cannot. -/
def Copying (held : Value → Prop) : Except Fault β → Prop
  | .ok _ => ∀ w, held w → w.isCopyable = true
  | .error fault => ∃ w, held w ∧ w.isCopyable = false ∧ fault = .uncopyable w.typeName

namespace Copying

variable {held held' : Value → Prop} {x : Except Fault β}

theorem congr (h : Copying held x) (same : ∀ w, held w ↔ held' w) : Copying held' x := by
  rwa [show held' = held from funext fun w => propext (same w).symm]

theorem bind {f : β → Except Fault γ} (first : Copying held x)
    (second : ∀ b, Copying held' (f b)) : Copying (fun w => held w ∨ held' w) (x >>= f) := by
  cases x with
  | error fault =>
    obtain ⟨w, inside, stuck, rfl⟩ := first
    exact ⟨w, .inl inside, stuck, rfl⟩
  | ok b =>
    change Copying _ (f b)
    have further := second b
    cases ran : f b with
    | error fault =>
      rw [ran] at further
      obtain ⟨w, inside, stuck, rfl⟩ := further
      exact ⟨w, .inr inside, stuck, rfl⟩
    | ok c =>
      rw [ran] at further
      exact fun w inside => inside.elim (first w) (further w)

theorem map {f : β → γ} (h : Copying held x) : Copying held (do return f (← x)) := by
  cases x with
  | error fault => exact h
  | ok b => exact h

/-- A value that can be copied itself adds nothing to what stands in the way. -/
theorem self {v : Value} (copyable : v.isCopyable = true)
    (h : Copying (fun w => ∃ x ∈ v.components, x.Holds w) x) : Copying v.Holds x := by
  cases x with
  | error fault =>
    obtain ⟨w, inside, stuck, rfl⟩ := h
    exact ⟨w, holds_iff.mpr (.inr inside), stuck, rfl⟩
  | ok b =>
    intro w inside
    rcases holds_iff.mp inside with rfl | inside
    · exact copyable
    · exact h w inside

end Copying

theorem holds_component_iff {v w : Value} {m : Mapping} (mapping : v.mapping? = some m) :
    (∃ x ∈ v.components, x.Holds w) ↔
      ∃ entry ∈ m.entries, entry.1.Holds w ∨ entry.2.Holds w := by
  have same : v.components = m.entries.flatMap fun entry => [entry.1, entry.2] := by
    rw [← parts_of_mapping? mapping]
    cases v with
    | rule r => cases mapping
    | _ => rfl
  rw [same]
  constructor
  · rintro ⟨x, member, inside⟩
    obtain ⟨entry, listed, member⟩ := List.mem_flatMap.mp member
    refine ⟨entry, listed, ?_⟩
    rcases List.mem_cons.mp member with rfl | member
    · exact .inl inside
    · obtain rfl := List.mem_singleton.mp member
      exact .inr inside
  · rintro ⟨entry, listed, inside | inside⟩
    · exact ⟨entry.1, List.mem_flatMap.mpr ⟨entry, listed, by simp⟩, inside⟩
    · exact ⟨entry.2, List.mem_flatMap.mpr ⟨entry, listed, by simp⟩, inside⟩

mutual

/-- To copy a value is to copy all that it holds. -/
theorem copying_copy (n : Nat) (v : Value) : Copying v.Holds (copy n v) := by
  cases v with
  | list i items | branch i items | tuple items | set i items | frozenset items =>
    exact .self rfl (copying_copyItems n items).map
  | dict i entries =>
    -- Of each entry the value is copied first, which is not the order of the parts.
    refine .self rfl (Copying.congr ?_ fun w => (holds_component_iff rfl).symm)
    exact (copying_copyEntries n entries).map
  | rule r => exact .self rfl (copying_copyRule n r).map
  | pack p => exact .self rfl (copying_copyPack n p).map
  | probe i p => exact .self rfl (copying_copyProbe n i p).map
  | view entries => exact ⟨view entries, .refl, rfl, rfl⟩
  | stream i items => exact ⟨stream i items, .refl, rfl, rfl⟩
  | rowStream i e root => exact ⟨rowStream i e root, .refl, rfl, rfl⟩
  | _ =>
    refine .self rfl ?_
    rintro w ⟨x, member, -⟩
    cases member

theorem copying_copyProbe (n i : Nat) (p : Probe) :
    Copying (fun w => ∃ x ∈ (probe i p).components, x.Holds w) (copyProbe n p) := by
  cases p with
  | unlisted entries refusals =>
    refine Copying.congr ?_ fun w => (holds_component_iff rfl).symm
    exact (copying_copyEntries n entries).map
  | indexed items => exact (copying_copyItems n items).map
  | lookup =>
    refine Copying.congr ?_ fun w => (holds_component_iff rfl).symm
    rintro w ⟨entry, listed, inside⟩
    cases List.mem_singleton.mp listed
    rw [holds_iff_of_components rfl, holds_iff_of_components rfl] at inside
    rcases inside with rfl | rfl <;> rfl
  | _ =>
    rintro w ⟨x, member, -⟩
    cases member

theorem copying_copyItems (n : Nat) (items : List Value) :
    Copying (fun w => ∃ x ∈ items, x.Holds w) (copyItems n items) := by
  match items with
  | [] => exact fun w ⟨x, member, _⟩ => nomatch member
  | v :: vs =>
    have both := (copying_copy n v).bind fun v' => (copying_copyItems n vs).map (f := (v' :: ·))
    exact both.congr fun w => by simp

/-- Copying entries succeeds, or tells the type of something in them that cannot be copied. -/
theorem copying_copyEntries (n : Nat) (entries : List (Value × Value)) :
    Copying (fun w => ∃ entry ∈ entries, entry.1.Holds w ∨ entry.2.Holds w)
      (copyEntries n entries) := by
  match entries with
  | [] => exact fun w ⟨x, member, _⟩ => nomatch member
  | (k, v) :: rest =>
    have all := (copying_copy n v).bind fun v' => (copying_copy n k).bind fun k' =>
      (copying_copyEntries n rest).map (f := ((k', v') :: ·))
    exact all.congr fun w => by simp [or_left_comm, or_assoc]

theorem copying_copyRule (n : Nat) (r : Rule Value Value) :
    Copying (fun w => ∃ x ∈ (rule r).components, x.Holds w) (copyRule n r) := by
  cases r with
  | leaf i f =>
    have check := (copying_copy n f).map (f := fun f' => (.leaf (i + n) f' : Rule Value Value))
    exact check.congr fun w => by simp [components]
  | nested i p =>
    have inside := (copying_copyPack n p).map (f := Rule.nested (i + n))
    have self : Copying (pack p).Holds (copyRule n (.nested i p)) := .self rfl inside
    exact self.congr fun w => by simp [components]

theorem copying_copyPack (n : Nat) (p : Pack Value Value) :
    Copying (fun w => ∃ x ∈ (pack p).components, x.Holds w) (copyPack n p) := by
  cases p with
  | mk i rules =>
    refine Copying.congr ?_ fun w => (holds_component_iff rfl).symm
    exact (copying_copyRules n rules).map.congr fun w => by simp [Pack.rules, Mapping.entries]

theorem copying_copyRules (n : Nat) (rules : List (Value × Rule Value Value)) :
    Copying (fun w => ∃ entry ∈ rules, entry.1.Holds w ∨ (rule entry.2).Holds w)
      (copyRules n rules) := by
  match rules with
  | [] => exact fun w ⟨x, member, _⟩ => nomatch member
  | (k, r) :: rest =>
    have here : Copying (rule r).Holds (copyRule n r) := .self rfl (copying_copyRule n r)
    have all := here.bind fun r' => (copying_copy n k).bind fun k' =>
      (copying_copyRules n rest).map (f := ((k', r') :: ·))
    exact all.congr fun w => by simp [or_left_comm, or_assoc]

end

/-! ### What a copy consists of -/

/-- An entry and its copy. -/
structure CopiedEntry (n : Nat) (entry entry' : Value × Value) : Prop where
  key : entry.1.copy n = .ok entry'.1
  value : entry.2.copy n = .ok entry'.2

/-- The copy of entries consists of their copies, in the same order. -/
theorem copyEntries_eq_ok_iff {n : Nat} {entries copied : List (Value × Value)} :
    copyEntries n entries = .ok copied ↔ List.Forall₂ (CopiedEntry n) entries copied := by
  induction entries generalizing copied with
  | nil =>
    rw [copyEntries]
    cases copied <;> simp
  | cons entry rest ih =>
    obtain ⟨k, v⟩ := entry
    rw [copyEntries]
    constructor
    · intro h
      cases value : copy n v with
      | error fault => rw [value] at h; cases h
      | ok v' =>
        cases key : copy n k with
        | error fault => rw [value, key] at h; cases h
        | ok k' =>
          cases others : copyEntries n rest with
          | error fault => rw [value, key, others] at h; cases h
          | ok rest' =>
            rw [value, key, others] at h
            cases h
            exact .cons ⟨key, value⟩ (ih.mp others)
    · intro h
      cases h with
      | cons here others =>
        obtain ⟨key, value⟩ := here
        rw [value, key, ih.mpr others]
        rfl

/-- The keys of a copy are those that were copied, in the same order, if each of them is its own
copy. -/
theorem fixed_iff_keys_eq {n : Nat} {entries copied : List (Value × Value)}
    (h : List.Forall₂ (CopiedEntry n) entries copied) :
    (∀ entry ∈ entries, entry.1.copy n = .ok entry.1) ↔
      copied.map (·.1) = entries.map (·.1) := by
  induction h with
  | nil => simp
  | @cons entry entry' entries copied here others ih =>
    rw [List.forall_mem_cons, ih, List.map_cons, List.map_cons, List.cons.injEq, here.key,
      Except.ok.injEq]

theorem copyRules_eq_ok {n : Nat} {rules copied : List (Value × Rule Value Value)}
    (h : copyRules n rules = .ok copied) :
    List.Forall₂ (CopiedEntry n) (rules.map fun entry => (entry.1, rule entry.2))
      (copied.map fun entry => (entry.1, rule entry.2)) := by
  induction rules generalizing copied with
  | nil =>
    cases h
    exact .nil
  | cons entry rest ih =>
    obtain ⟨k, r⟩ := entry
    rw [copyRules] at h
    cases value : copyRule n r with
    | error fault => rw [value] at h; cases h
    | ok r' =>
      cases key : copy n k with
      | error fault => rw [value, key] at h; cases h
      | ok k' =>
        cases others : copyRules n rest with
        | error fault => rw [value, key, others] at h; cases h
        | ok rest' =>
          rw [value, key, others] at h
          cases h
          exact .cons ⟨key, by rw [copy, value]; rfl⟩ (ih others)

/-- A mapping and one of the copies of its entries, which refuses the same. -/
inductive CopiedMapping (n : Nat) : Mapping → Mapping → Prop
  | readable {entries entries' : List (Value × Value)}
      (copies : List.Forall₂ (CopiedEntry n) entries entries') :
      CopiedMapping n (.readable entries) (.readable entries')
  | unlisted {entries entries' : List (Value × Value)} (refusals : Refusals)
      (copies : List.Forall₂ (CopiedEntry n) entries entries') :
      CopiedMapping n (.unlisted entries refusals) (.unlisted entries' refusals)

/-- What is made of copied entries. -/
theorem exists_copied {n : Nat} {β : Type} {entries : List (Value × Value)} {b : β}
    {f : List (Value × Value) → β} (h : (do return f (← copyEntries n entries)) = Except.ok b) :
    ∃ entries', b = f entries' ∧ List.Forall₂ (CopiedEntry n) entries entries' := by
  cases inside : copyEntries n entries with
  | error fault => rw [inside] at h; cases h
  | ok entries' =>
    rw [inside] at h
    cases h
    exact ⟨entries', rfl, copyEntries_eq_ok_iff.mp inside⟩

/-- The copy of a mapping has the copies of its entries. -/
theorem mapping?_of_copy {n : Nat} {v v' : Value} {m : Mapping} (copied : v.copy n = .ok v')
    (mapping : v.mapping? = some m) : ∃ m', v'.mapping? = some m' ∧ CopiedMapping n m m' := by
  cases v with
  | dict i listed =>
    cases mapping
    rw [copy] at copied
    obtain ⟨entries', rfl, copies⟩ := exists_copied copied
    exact ⟨_, rfl, .readable copies⟩
  | view listed => cases copied
  | probe i p =>
    rw [copy] at copied
    cases p with
    | lookup =>
      cases mapping
      cases copied
      exact ⟨_, rfl, .unlisted _ (.cons ⟨rfl, rfl⟩ .nil)⟩
    | unlisted listed refusals =>
      cases mapping
      rw [copyProbe, bind_assoc] at copied
      obtain ⟨entries', rfl, copies⟩ := exists_copied copied
      exact ⟨_, rfl, .unlisted _ copies⟩
    | _ => cases mapping
  | pack p =>
    cases p with
    | mk i rules =>
      cases mapping
      rw [copy, copyPack] at copied
      cases inside : copyRules n rules with
      | error fault => rw [inside] at copied; cases copied
      | ok rules' =>
        rw [inside] at copied
        cases copied
        exact ⟨_, rfl, .readable (copyRules_eq_ok inside)⟩
  | _ => cases mapping

/-- A look-up in copied entries with the same keys finds a copy of what was found. -/
theorem lookup?_of_copied {n : Nat} {entries copied : List (Value × Value)}
    (h : List.Forall₂ (CopiedEntry n) entries copied)
    (fixed : ∀ entry ∈ entries, entry.1.copy n = .ok entry.1) (key : Value) :
    ((lookup? entries key).getD .null).copy n = .ok ((lookup? copied key).getD .null) := by
  induction h with
  | nil => rfl
  | @cons entry entry' entries copied here others ih =>
    obtain ⟨first, further⟩ := List.forall_mem_cons.mp fixed
    have same : entry'.1 = entry.1 := Except.ok.inj (here.key.symm.trans first)
    -- The look-up is the same up to here, so either both stop or both go on.
    simp only [lookup?, find?, List.find?_cons, same]
    cases key.same entry.1 with
    | true => exact here.value
    | false => exact ih further

namespace CopiedMapping

variable {n : Nat} {m m' : Mapping}

theorem copies (h : CopiedMapping n m m') : List.Forall₂ (CopiedEntry n) m.entries m'.entries := by
  cases h with
  | readable copies | unlisted refusals copies => exact copies

/-- The copy of a mapping tells the same keys. -/
theorem keys (h : CopiedMapping n m m')
    (fixed : ∀ entry ∈ m.entries, entry.1.copy n = .ok entry.1) : m'.keys = m.keys := by
  cases h with
  | readable copies => exact congrArg Except.ok ((fixed_iff_keys_eq copies).mp fixed)
  | unlisted refusals copies =>
    rw [Mapping.keys, Mapping.keys, (fixed_iff_keys_eq copies).mp fixed]

/-- A look-up in the copy of a mapping finds a copy of what was found. -/
theorem get (h : CopiedMapping n m m') (fixed : ∀ entry ∈ m.entries, entry.1.copy n = .ok entry.1)
    {key x : Value} (lookup : m.get key = .ok x) :
    ∃ x', m'.get key = .ok x' ∧ x.copy n = .ok x' := by
  have found := lookup?_of_copied h.copies fixed key
  rw [← Mapping.get_eq_ok lookup] at found
  refine ⟨_, ?_, found⟩
  cases h with
  | readable => rfl
  | unlisted refusals =>
    rw [Mapping.get] at lookup ⊢
    split at lookup
    · cases lookup
    next answers => rw [if_neg answers, Mapping.entries]

end CopiedMapping

end Value

/-! ### Acceptance of copies -/

namespace Pack

variable {p : Pack Value Value} {v : Value} {n : Nat}

/-- On the way each key of a mapping is its own copy. -/
def MeetsFixedKeys (n : Nat) (p : Pack Value Value) (v : Value) : Prop :=
  ∀ path q w entries, p.Reaches v path q w → w.entries? = some entries →
    ∀ entry ∈ entries, entry.1.copy n = .ok entry.1

/-- Each check on the way that accepts what it is asked about accepts the copy, from every state. -/
def AcceptsCopies (n : Nat) (p : Pack Value Value) (v : Value) : Prop :=
  ∀ path q w m key i f x x', p.Reaches v path q w → w.mapping? = some m →
    (key, .leaf i f) ∈ q.rules → m.get key = .ok x → x.copy n = .ok x' →
    (∃ s t, f.verdict x s = (.ok true, t)) → ∀ s, ∃ t, f.verdict x' s = (.ok true, t)

theorem MeetsFixedKeys.nested {id : Nat} {rules : List (Value × Rule Value Value)} {m : Mapping}
    {key x : Value} {i : Nat} {q : Pack Value Value} (h : (mk id rules).MeetsFixedKeys n v)
    (mapping : v.mapping? = some m) (rule : (key, .nested i q) ∈ rules)
    (lookup : m.get key = .ok x) : q.MeetsFixedKeys n x :=
  fun path p w entries further => h (key :: path) p w entries (.through mapping rule lookup further)

theorem AcceptsCopies.nested {id : Nat} {rules : List (Value × Rule Value Value)} {m : Mapping}
    {key x : Value} {i : Nat} {q : Pack Value Value} (h : (mk id rules).AcceptsCopies n v)
    (mapping : v.mapping? = some m) (rule : (key, .nested i q) ∈ rules)
    (lookup : m.get key = .ok x) : q.AcceptsCopies n x :=
  fun path p w m' k j f y y' further =>
    h (key :: path) p w m' k j f y y' (.through mapping rule lookup further)

/-- Rules accept a copy, if each of them accepts the copy of what it accepts. -/
theorem acceptRules_copy {rules : List (Value × Rule Value Value)} {m m' : Mapping}
    (copies : Value.CopiedMapping n m m')
    (fixed : ∀ entry ∈ m.entries, entry.1.copy n = .ok entry.1)
    (each : ∀ key r, (key, r) ∈ rules → ∀ x x', m.get key = .ok x →
      x.copy n = .ok x' → (∃ s t, r.accepts Value.verdict true x s = (.ok true, t)) →
      ∀ s, ∃ t, r.accepts Value.verdict true x' s = (.ok true, t)) {s t : Session}
    (accepted : acceptRules Value.verdict true rules m s = (.ok true, t)) (u : Session) :
    ∃ w, acceptRules Value.verdict true rules m' u = (.ok true, w) := by
  induction rules generalizing s u with
  | nil => exact ⟨u, rfl⟩
  | cons entry rest ih =>
    obtain ⟨key, r⟩ := entry
    obtain ⟨x, s', lookup, here, further⟩ := acceptRules_cons_eq_true_iff.mp accepted
    obtain ⟨x', lookup', copy⟩ := copies.get fixed lookup
    obtain ⟨u', again⟩ := each key r List.mem_cons_self _ _ lookup copy ⟨s, s', here⟩ u
    obtain ⟨w, others⟩ := ih (fun k r rule => each k r (List.mem_cons_of_mem _ rule)) further u'
    exact ⟨w, acceptRules_cons_eq_true_iff.mpr ⟨_, u', lookup', again, others⟩⟩

/-- A pack that accepts a value exactly accepts its copy exactly, from every state, if the keys of
the mappings on the way are their own copies and each check accepts the copy of what it accepts. -/
theorem accepts_copy (p : Pack Value Value) (v v' : Value) (copied : v.copy n = .ok v')
    (fixed : p.MeetsFixedKeys n v) (checks : p.AcceptsCopies n v) (s t : Session)
    (accepted : p.accepts Value.verdict true v s = (.ok true, t)) (u : Session) :
    ∃ w, p.accepts Value.verdict true v' u = (.ok true, w) := by
  induction p using Pack.induction generalizing v v' s t u with
  | step id rules ih =>
    -- Only a mapping that tells its entries is accepted exactly, and its copy is one as well.
    obtain ⟨m, mapping, noExtra, held⟩ := accepts_exactly_iff.mp accepted
    obtain ⟨m', mapping', copies⟩ := Value.mapping?_of_copy copied mapping
    have told := Value.entries?_eq_some_iff.mpr ⟨m, mapping, told_of_accepts noExtra held⟩
    have own := fixed [] _ v m.entries (.here _ _) told
    have each : ∀ key r, (key, r) ∈ rules → ∀ x x', m.get key = .ok x →
        x.copy n = .ok x' → (∃ s t, r.accepts Value.verdict true x s = (.ok true, t)) →
        ∀ s, ∃ t, r.accepts Value.verdict true x' s = (.ok true, t) := by
      intro key r rule x x' lookup copiedHere accepts u
      cases r with
      | leaf i f =>
        exact checks [] _ v _ key i f x x' (.here _ _) mapping rule lookup copiedHere accepts u
      | nested i q =>
        obtain ⟨s, t, acceptedHere⟩ := accepts
        exact ih key i q rule x x' copiedHere (fixed.nested mapping rule lookup)
          (checks.nested mapping rule lookup) s t acceptedHere u
    obtain ⟨w, heldAgain⟩ := acceptRules_copy copies own each held u
    refine ⟨w, accepts_exactly_iff.mpr ⟨m', mapping', ?_, heldAgain⟩⟩
    rw [hasExtra, copies.keys own]
    exact noExtra

end Pack

end Conformance
