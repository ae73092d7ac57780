import Conformance.Pack.Reading
import Conformance.Proofs.Reach
import Conformance.Proofs.Rows
import Mathlib.Logic.Relation

/-!
# What is inside a value

The parts of a container are its items, or its keys and values; what is inside a value is the value
itself and whatever is inside its parts. What a callable or a stream holds is not inside it.

A walk over a pack sees no values but those in the mappings that it meets, and nothing. So a
property that passes from mappings to their values holds of all that a walk meets and reports.

## Main definitions

* `Value.parts`, `Value.HasPart` — what is inside a value, one level down and at any depth
* `Value.Inherited` — properties that pass from mappings to their values

## Main results

* `Value.forall_hasPart_iff` — what holds of everything inside a value
* `Value.Inherited.of_reaches`, `Value.Inherited.of_examine` — what such a property says of a walk
* `Pack.ofValue_ne_unreadable` — a schema without mappings that refuse to be read can be read, or is
  malformed for another reason
-/

namespace Conformance

variable {σ α : Type}

namespace Value

/-- The items of a container, or its keys and values, whatever it tells of them. -/
def parts (v : Value) : List Value :=
  match v with
  | list _ items | branch _ items | tuple items | set _ items | frozenset items
  | probe _ (.indexed items) => items
  | v => (v.mapping?.elim [] Mapping.entries).flatMap fun entry => [entry.1, entry.2]

/-- What is inside a value, at any depth; the value itself is, too. -/
def HasPart : Value → Value → Prop := Relation.ReflTransGen fun v w => w ∈ v.parts

theorem HasPart.refl (v : Value) : v.HasPart v := Relation.ReflTransGen.refl

theorem HasPart.trans {u v w : Value} (h : u.HasPart v) (further : v.HasPart w) : u.HasPart w :=
  Relation.ReflTransGen.trans h further

theorem HasPart.of_mem {v w : Value} (h : w ∈ v.parts) : v.HasPart w :=
  Relation.ReflTransGen.single h

theorem parts_of_mapping? {v : Value} {m : Mapping} (h : v.mapping? = some m) :
    v.parts = m.entries.flatMap fun entry => [entry.1, entry.2] := by
  cases v with
  | probe id p => cases p <;> cases h <;> rfl
  | _ => cases h <;> rfl

theorem parts_of_sequence? {v : Value} {items : List Value} (h : v.sequence? = some items) :
    v.parts = items := by
  cases v <;> cases h <;> rfl

theorem HasPart.value {v : Value} {m : Mapping} {entry : Value × Value}
    (h : v.mapping? = some m) (member : entry ∈ m.entries) : v.HasPart entry.2 := by
  refine .of_mem ?_
  rw [parts_of_mapping? h]
  exact List.mem_flatMap.mpr ⟨entry, member, by simp⟩

theorem HasPart.key {v : Value} {m : Mapping} {entry : Value × Value}
    (h : v.mapping? = some m) (member : entry ∈ m.entries) : v.HasPart entry.1 := by
  refine .of_mem ?_
  rw [parts_of_mapping? h]
  exact List.mem_flatMap.mpr ⟨entry, member, by simp⟩

/-- Nothing but itself is inside a value without parts. -/
theorem HasPart.eq_of_parts {v w : Value} (h : v.HasPart w) (none : v.parts = []) : w = v := by
  rcases Relation.ReflTransGen.cases_head h with rfl | ⟨x, member, -⟩
  · rfl
  · rw [none] at member
    cases member

/-- Whatever holds of all that is inside a value holds of it and of all that is inside its parts. -/
theorem forall_hasPart_iff {P : Value → Prop} {v : Value} :
    (∀ w, v.HasPart w → P w) ↔ P v ∧ ∀ x ∈ v.parts, ∀ w, x.HasPart w → P w := by
  constructor
  · intro all
    exact ⟨all v (.refl v), fun x member w part => all w ((HasPart.of_mem member).trans part)⟩
  · rintro ⟨here, inParts⟩ w part
    rcases Relation.ReflTransGen.cases_head part with rfl | ⟨x, member, further⟩
    · exact here
    · exact inParts x member w further

/-- A property of values that passes from mappings to what stands at their keys, and holds where
nothing does. -/
structure Inherited (Q : Value → Prop) : Prop where
  null : Q .null
  value : ∀ v m, Q v → v.mapping? = some m → ∀ entry ∈ m.entries, Q entry.2

namespace Inherited

variable {Q : Value → Prop}

/-- Whatever holds of all that is inside a value, unless it fails of nothing. -/
theorem of_hasPart {P : Value → Prop} (null : P .null) :
    Inherited fun v => ∀ w, v.HasPart w → P w where
  null w part := by
    rw [part.eq_of_parts rfl]
    exact null
  value _ _ all found _ member w part := all w ((HasPart.value found member).trans part)

/-- What holds of nothing and of all that is inside the values of a dictionary holds of all that is
inside anything but the dictionary as a whole. -/
theorem of_entries {P : Value → Prop} {id : Nat} {entries : List (Value × Value)} (null : P .null)
    (inside : ∀ entry ∈ entries, ∀ w, entry.2.HasPart w → P w) :
    Inherited fun v => v = .dict id entries ∨ ∀ w, v.HasPart w → P w where
  null := .inr (of_hasPart null).null
  value v m holds mapping entry member := by
    rcases holds with rfl | all
    · cases mapping
      exact .inr (inside entry member)
    · exact .inr ((of_hasPart null).value v m all mapping entry member)

theorem of_items (h : Inherited Q) {v : Value} {m : Mapping} {entries : List (Value × Value)}
    (holds : Q v) (mapping : v.mapping? = some m) (listed : m.items = .ok entries) :
    ∀ entry ∈ entries, Q entry.2 := by
  obtain rfl := Mapping.items_eq_ok listed
  exact h.value v _ holds mapping

theorem of_get (h : Inherited Q) {v : Value} {m : Mapping} {key x : Value} (holds : Q v)
    (mapping : v.mapping? = some m) (lookup : m.get key = .ok x) : Q x := by
  rw [Mapping.get_eq_ok lookup]
  cases found : lookup? m.entries key with
  | none => exact h.null
  | some w =>
    obtain ⟨entry, first, rfl⟩ := Option.map_eq_some_iff.mp found
    exact h.value v m holds mapping entry (List.mem_of_find?_eq_some first)

/-- An inherited property holds of every value to which a pack is applied. -/
theorem of_reaches (h : Inherited Q) {p q : Pack Value α} {v w : Value} {path : List Value}
    (holds : Q v) (reached : p.Reaches v path q w) : Q w := by
  induction reached with
  | here => exact holds
  | through mapping _ lookup _ ih => exact ih (h.of_get holds mapping lookup)

theorem meetsReadable (h : Inherited Q) {p : Pack Value α} {v : Value} (holds : Q v)
    (reads : ∀ w, Q w → w.IsListable) : p.MeetsReadable v :=
  fun _ _ w m reached mapping => reads w (h.of_reaches holds reached) m mapping

variable {check : α → Value → Run σ Bool}

/-- Rules, if it holds of what is reported below the packs in them. -/
theorem of_examineRules (h : Inherited Q) {rules : List (Value × Rule Value α)} {v : Value}
    {m : Mapping} {s t : σ} {e : Explanation} (holds : Q v) (mapping : v.mapping? = some m)
    (nested : ∀ key n q, (key, .nested n q) ∈ rules → ∀ x s t e, Q x →
      q.examine check x s = (.ok e, t) → ∀ w ∈ e.reported, Q w)
    (examined : Pack.examineRules check rules m s = (.ok e, t)) : ∀ w ∈ e.reported, Q w := by
  induction rules generalizing s e with
  | nil =>
    obtain ⟨rfl, -⟩ := Run.pure_eq_ok_iff.mp examined
    exact fun w member => nomatch member
  | cons entry rest ih =>
    obtain ⟨key, r⟩ := entry
    obtain ⟨x, here, others, u, lookup, first, further, rfl⟩ :=
      Pack.examineRules_cons_eq_ok_iff.mp examined
    have seen : Q x := h.of_get holds mapping lookup
    have inRest := ih (fun k n q rule => nested k n q (List.mem_cons_of_mem _ rule)) further
    have inHere : ∀ w ∈ here.reported, Q w := by
      cases r with
      | leaf n c =>
        obtain ⟨b, -, rfl⟩ := Rule.examine_leaf_eq_ok_iff.mp first
        cases b with
        | true => exact fun w member => nomatch member
        | false => exact List.forall_mem_singleton.mpr seen
      | nested n q =>
        obtain ⟨found, below, rfl⟩ := Rule.examine_nested_eq_ok_iff.mp first
        rw [Explanation.reported_under]
        exact nested key n q List.mem_cons_self x s u found seen below
    intro w member
    rcases Explanation.mem_reported_append.mp member with member | member
    · exact inHere w member
    · exact inRest w member

/-- An inherited property holds of every value that an examination reports. -/
theorem of_examine (h : Inherited Q) (p : Pack Value α) (v : Value) (s t : σ) (e : Explanation)
    (holds : Q v) (examined : p.examine check v s = (.ok e, t)) : ∀ w ∈ e.reported, Q w := by
  induction p using Pack.induction generalizing v s t e with
  | step id rules ih =>
    cases mapping : v.mapping? with
    | none =>
      rw [Pack.examine_of_mapping?_eq_none mapping] at examined
      obtain ⟨rfl, -⟩ := Run.pure_eq_ok_iff.mp examined
      have reported := Finding.reportedIn_values Prod.fst (fun _ => .null) rules
      intro w member
      rw [Explanation.reported, reported, Finding.reportedIn, List.append_nil] at member
      obtain ⟨-, -, rfl⟩ := List.mem_map.mp member
      exact h.null
    | some m =>
      obtain ⟨found, entries, below, listed, rfl⟩ := (Pack.examine_eq_ok_iff mapping).mp examined
      have inRules := h.of_examineRules holds mapping
        (fun key n q rule x s t e => ih key n q rule x s t e) below
      have extra := Finding.reportedIn_values Prod.fst Prod.snd
        (entries.filter fun entry => !Pack.hasRule rules entry.1)
      intro w member
      have split : (⟨found.invalid, Pack.extras rules entries ++ found.extra⟩ : Explanation) =
          Explanation.append ⟨[], Pack.extras rules entries⟩ found := rfl
      rw [split, Explanation.mem_reported_append, Explanation.reported, Pack.extras, extra]
        at member
      rcases member with member | member
      · obtain ⟨entry, kept, rfl⟩ := List.mem_map.mp member
        exact h.of_items holds mapping listed entry (List.mem_filter.mp kept).1
      · exact inRules w member

end Inherited

end Value

/-! ### Reading schemas -/

/-- Two parts of a reading, neither of which fails for this cause. -/
theorem bind_ne_error {β γ : Type} {x : Except Malformed β} {f : β → Except Malformed γ}
    {cause : Malformed} (first : x ≠ .error cause) (second : ∀ b, f b ≠ .error cause) :
    (x >>= f) ≠ .error cause := by
  cases x with
  | error other =>
    intro same
    cases same
    exact first rfl
  | ok b => exact second b

mutual

/-- A rule without mappings that refuse to be read can be read, or is malformed in its form. -/
theorem Rule.ofValue_ne_unreadable (v : Value)
    (readable : ∀ w, v.HasPart w → w.IsListable) :
    Rule.ofValue v ≠ .error .unreadable := by
  cases v with
  | dict id entries =>
    have inner := Rule.ofEntries_ne_unreadable entries fun entry member w part =>
      readable w ((Value.HasPart.value (v := .dict id entries) rfl member).trans part)
    rw [Rule.ofValue]
    exact bind_ne_error inner fun _ => nofun
  | view entries =>
    have inner := Rule.ofEntries_ne_unreadable entries fun entry member w part =>
      readable w ((Value.HasPart.value (v := .view entries) rfl member).trans part)
    rw [Rule.ofValue]
    exact bind_ne_error inner fun _ => nofun
  | probe id p =>
    cases p with
    | lookup | unlisted => exact absurd (readable _ (.refl _) _ rfl) nofun
    | _ => nofun
  | _ => nofun

/-- Entries of such rules. -/
theorem Rule.ofEntries_ne_unreadable (entries : List (Value × Value))
    (readable : ∀ entry ∈ entries, ∀ w, entry.2.HasPart w → w.IsListable) :
    Rule.ofEntries entries ≠ .error .unreadable := by
  match entries with
  | [] => nofun
  | (key, v) :: rest =>
    have first := Rule.ofValue_ne_unreadable v (readable (key, v) List.mem_cons_self)
    have others := Rule.ofEntries_ne_unreadable rest fun entry member =>
      readable entry (List.mem_cons_of_mem _ member)
    rw [Rule.ofEntries]
    exact bind_ne_error first fun _ => bind_ne_error others fun _ => nofun

end

/-- A schema of such rules can be read, or is malformed in its form. -/
theorem Pack.ofValue_ne_unreadable {id : Nat} {entries : List (Value × Value)}
    (readable : ∀ entry ∈ entries, ∀ w, entry.2.HasPart w → w.IsListable) :
    Pack.ofValue (.dict id entries) ≠ .error .unreadable :=
  bind_ne_error (Rule.ofEntries_ne_unreadable entries readable) fun _ => nofun

end Conformance
