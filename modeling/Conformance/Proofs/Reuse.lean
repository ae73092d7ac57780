import Conformance.Proofs.Copies
import Conformance.Proofs.Overlays

/-!
# Built defaults, put to use

Built defaults conform to their schema, whatever kind of values and keys they have. To use them is
to overlay a copy of them, and a copy does not take every kind as well as the schema does. A
default that a mapping is asked for can be a read-only view, and this has no copy. A default that
is known by its number only is copied to another object, which a check for the very object refuses.
A key of this kind is copied to another key.

So where nothing overlays the defaults, the result is what they are asked for if everything in them
can be copied, if keys are their own copies, and if checks accept copies of what they accept. Plain
data and the checks of the library are of this kind.

## Main definitions

* `Session.Renewal` — what the copy of built defaults has in common with them

## Main results

* `Pack.meetsFixedKeys_of_isPlain`, `Pack.acceptsCopies_of_isPlain` — plain data under checks of the
  library
* `Session.overlay_nothing_of_built` — built defaults, overlaid by nothing
-/

namespace Conformance

/-! ### Plain data under checks of the library -/

namespace Pack

variable {p q : Pack Value Value} {v w : Value} {path : List Value}

theorem Reaches.mem_leaves (reached : p.Reaches v path q w) {f : Value} (leaf : f ∈ q.leaves) :
    f ∈ p.leaves := by
  induction reached with
  | here => exact leaf
  | through _ rule _ _ ih => exact mem_leavesOf rule (ih leaf)

theorem Reaches.isPlain (reached : p.Reaches v path q w) (plain : v.IsPlain) : w.IsPlain :=
  (Value.Inherited.of_hasPart trivial).of_reaches plain reached

/-- The keys of plain data are their own copies. -/
theorem meetsFixedKeys_of_isPlain (n : Nat) (p : Pack Value Value) (plain : v.IsPlain) :
    p.MeetsFixedKeys n v := by
  intro path q w entries reached found entry member
  have plainHere := reached.isPlain plain
  cases w with
  | dict i listed =>
    cases found
    have plainKey := (plainHere.entry rfl entry member).1
    -- A key cannot be changed, so there is no number in it that a copy would change.
    have hashable := plainHere.isDatum.1 entry member
    rw [Value.copy_of_isOrdinary n entry.1 plainKey.isOrdinary,
      Value.renumber_of_hashable n entry.1 plainKey.isOrdinary hashable]
  | view => exact plainHere.isDatum.elim
  | pack => exact plainHere.isDatum.elim
  | probe => exact plainHere.isDatum.elim
  | _ => cases found

/-- A check of the library accepts the copy of plain data that it accepts, as it does not see
numbers. -/
theorem acceptsCopies_of_isPlain (n : Nat) (library : ∀ f ∈ p.leaves, f.isLibrary = true)
    (plain : v.IsPlain) : p.AcceptsCopies n v := by
  intro path q w m key i f x x' reached mapping rule lookup copied accepts
  obtain ⟨s, t, accepted⟩ := accepts
  have plainHere : x.IsPlain :=
    (Value.Inherited.of_hasPart trivial).of_get (reached.isPlain plain) mapping lookup
  have leaf : f ∈ p.leaves := by
    cases q with
    | mk id rules => exact reached.mem_leaves (mem_leavesOf rule (List.mem_singleton.mpr rfl))
  cases copied.symm.trans (Value.copy_of_isOrdinary n x plainHere.isOrdinary)
  exact (Value.alike_verdict (library f leaf) n (Value.holdsStream_of_isPlain x plainHere)).accepts
    accepted

end Pack

namespace Session

/-! ### Defaults that nothing overlays -/

/-- The entries that are left of defaults after they were copied: a copy of each, in their order.
They have the same keys if every key is its own copy, and conform to the schema if this goes for the
keys on the way and its checks accept copies of what they accept. -/
structure Renewal (n : Nat) (schema : Value) (p : Pack Value Value)
    (values out : List (Value × Value)) : Prop where
  copies : List.Forall₂ (Value.CopiedEntry n) values out
  keys : out.map (·.1) = values.map (·.1) ↔ ∀ entry ∈ values, entry.1.copy n = .ok entry.1
  conforms : p.MeetsFixedKeys n (.dict 0 values) → p.AcceptsCopies n (.dict 0 values) →
    ∀ id s, ∃ t, accepts schema (.dict id out) (.bool true) s = (.ok true, t)

theorem Renewal.of_copies {n : Nat} {schema : Value} {p : Pack Value Value}
    {values out : List (Value × Value)} {s t : Session} (read : Pack.ofValue schema = .ok p)
    (accepted : p.accepts Value.verdict true (.dict 0 values) s = (.ok true, t))
    (copied : Value.copyEntries n values = .ok out) : Renewal n schema p values out where
  copies := Value.copyEntries_eq_ok_iff.mp copied
  keys := (Value.fixed_iff_keys_eq (Value.copyEntries_eq_ok_iff.mp copied)).symm
  conforms fixed checks id u := by
    have whole : (Value.dict 0 values).copy n = .ok (.dict (0 + n) out) := by
      rw [Value.copy, copied]
      rfl
    obtain ⟨w, again⟩ := p.accepts_copy _ _ whole fixed checks s t accepted u
    refine ⟨w, ?_⟩
    rw [accepts, acceptsBy_eq read]
    -- The number of a dictionary is nothing that a pack looks at.
    cases p
    exact again

/-- The keys of built defaults are pairwise different if those of the source are. -/
theorem distinct_of_splitSource {name source : Value} {raws values : List (Value × Value)}
    (split : splitSource name source = .ok (raws, values))
    (distinct : ∀ entries, source.entries? = some entries →
      entries.Pairwise fun earlier later => later.1.same earlier.1 = false) :
    values.Pairwise fun earlier later => later.1.same earlier.1 = false := by
  obtain ⟨listed, found, -, keys⟩ := keys_of_splitSource split
  have apart : (listed.map (·.1)).Pairwise fun earlier later => later.same earlier = false :=
    List.pairwise_map.mpr (distinct listed found)
  rw [← keys] at apart
  exact List.pairwise_map.mp apart

/-- Built defaults, overlaid by nothing: either something in them has no copy, which is a fault and
changes nothing, or the result is what the copies come to. For plain data under checks of the
library there is nothing in the way. -/
theorem overlay_nothing_of_built (name source schema defaults : Value) (s t : Session)
    (built : buildDefaults name source s = (.ok (schema, defaults), t))
    (distinct : ∀ entries, source.entries? = some entries →
      entries.Pairwise fun earlier later => later.1.same earlier.1 = false)
    (id : Nat) (u : Session) :
    ∃ p values, Pack.ofValue schema = .ok p ∧ defaults = .dict 0 values ∧
      ((∃ w, defaults.Holds w ∧ w.isCopyable = false ∧
          overlay (.dict id []) defaults u = (.error (.uncopyable w.typeName), u)) ∨
        (∀ w, defaults.Holds w → w.isCopyable = true) ∧ ∃ out,
          overlay (.dict id []) defaults u = (.ok out, { u with nextId := 2 * u.nextId }) ∧
          Renewal u.nextId schema p values out) ∧
      (defaults.IsPlain → (∀ f ∈ p.leaves, f.isLibrary = true) →
        (∀ w, defaults.Holds w → w.isCopyable = true) ∧
          p.MeetsFixedKeys u.nextId defaults ∧ p.AcceptsCopies u.nextId defaults) := by
  obtain ⟨raws, values, rules, _, split, rfl, rfl, written, accepted⟩ :=
    split_of_buildDefaultsBy built
  have read : Pack.ofValue (.dict 0 raws) = .ok (.mk 0 rules) := Pack.ofValue_of_ofEntries written
  have apart := distinct_of_splitSource split distinct
  have ran : overlay (.dict id []) (.dict 0 values) u = _ := overlay_apply rfl apart rfl u
  -- To copy the dictionary is to copy its entries, so this tells what may stand in the way.
  have attempt : Value.Copying (Value.dict 0 values).Holds ((Value.dict 0 values).copy u.nextId) :=
    Value.copying_copy u.nextId _
  refine ⟨.mk 0 rules, values, read, rfl, ?_, fun plain library => ⟨?_, ?_, ?_⟩⟩
  · cases copied : Value.copyEntries u.nextId values with
    | error fault =>
      rw [copied] at ran
      rw [Value.copy, copied] at attempt
      obtain ⟨w, inside, stuck, rfl⟩ := attempt
      exact .inl ⟨w, inside, stuck, ran⟩
    | ok out =>
      rw [copied] at ran
      rw [Value.copy, copied] at attempt
      exact .inr ⟨attempt, out, ran, .of_copies read accepted copied⟩
  · rw [Value.copy_of_isOrdinary _ _ plain.isOrdinary] at attempt
    exact attempt
  · exact Pack.meetsFixedKeys_of_isPlain _ _ plain
  · exact Pack.acceptsCopies_of_isPlain _ library plain

/-- Plain defaults, with one for a nested schema. -/
theorem overlay_nothing_of_built_nested :
    let text : Value := .callable 2 (.check .text)
    let size : Value := .callable 3 (.oneOf [.int 1, .int 2])
    let source : Value := .dict 4 [
      (.int 1, .tuple [text, .text "one"]),
      (.text "toy", .list 5 [.dict 6 [(.text "size", size)], .dict 7 [(.text "size", .int 1)]])]
    let schema : Value := .dict 0 [(.int 1, text), (.text "toy", .dict 6 [(.text "size", size)])]
    let defaults : Value :=
      .dict 0 [(.int 1, .text "one"), (.text "toy", .dict 7 [(.text "size", .int 1)])]
    (∃ t, buildDefaults (.text "pets") source .initial = (.ok (schema, defaults), t)) ∧
    ∃ out t, overlay (.dict 8 []) defaults .initial = (.ok out, t) ∧
      ∀ id s, ∃ u, accepts schema (.dict id out) (.bool true) s = (.ok true, u) := by
  intro text size source schema defaults
  have built : ∃ t, buildDefaults (.text "pets") source .initial = (.ok (schema, defaults), t) :=
    ⟨_, rfl⟩
  refine ⟨built, ?_⟩
  obtain ⟨t, built⟩ := built
  have distinct : ∀ entries, source.entries? = some entries →
      entries.Pairwise fun earlier later => later.1.same earlier.1 = false := by
    intro entries found
    cases found
    decide
  obtain ⟨p, values, read, isDict, outcome, fitting⟩ :=
    overlay_nothing_of_built (.text "pets") source schema defaults .initial t built distinct 8
      .initial
  have plain : defaults.IsPlain := by
    simp [defaults, Value.isPlain_iff (v := .dict _ _), Value.isPlain_iff (v := .text _),
      Value.isPlain_iff (v := .int _), Value.parts, Value.mapping?, Mapping.entries, Value.IsDatum,
      Value.unhashable?]
    decide
  have library : ∀ f ∈ p.leaves, f.isLibrary = true := by
    intro f leaf
    cases read
    simp [Pack.leaves, Pack.leavesOf, Rule.leaves] at leaf
    rcases leaf with rfl | rfl
    · rfl
    · rfl
  obtain ⟨copyable, fixed, checks⟩ := fitting plain library
  rcases outcome with ⟨w, inside, stuck, -⟩ | ⟨-, out, ran, renewed⟩
  · rw [copyable w inside] at stuck
    cases stuck
  · rw [isDict] at fixed checks
    exact ⟨out, _, ran, renewed.conforms fixed checks⟩

/-- Three sources that are built, and are of no use as they are. A read-only view conforms to a
check for mappings, and has no copy. An object that is the only one to be accepted is copied to
another one. So is an object that is a key. -/
theorem overlay_nothing_refused :
    let mapping : Value := .callable 2 (.check .mapping)
    let view : Value := .view [(.text "a", .int 1)]
    let object : Value := .probe 3 .plain
    let other : Value := .probe (3 + Session.initial.nextId) .plain
    let only : Value := .callable 4 (.oneOf [object])
    (∃ t, buildDefaults (.text "cfg") (.dict 5 [(.text "a", .tuple [mapping, view])]) .initial =
        (.ok (.dict 0 [(.text "a", mapping)], .dict 0 [(.text "a", view)]), t)) ∧
      overlay (.dict 6 []) (.dict 0 [(.text "a", view)]) .initial =
        (.error (.uncopyable "mappingproxy"), .initial) ∧
    (∃ t, buildDefaults (.text "cfg") (.dict 5 [(.text "a", .tuple [only, object])]) .initial =
        (.ok (.dict 0 [(.text "a", only)], .dict 0 [(.text "a", object)]), t)) ∧
      (∃ t, overlay (.dict 6 []) (.dict 0 [(.text "a", object)]) .initial =
          (.ok [(.text "a", other)], t) ∧
        accepts (.dict 0 [(.text "a", only)]) (.dict 7 [(.text "a", other)]) (.bool true) t =
          (.ok false, t)) ∧
    (∃ t, buildDefaults (.text "cfg") (.dict 5 [(object, .tuple [mapping, .dict 8 []])]) .initial =
        (.ok (.dict 0 [(object, mapping)], .dict 0 [(object, .dict 8 [])]), t)) ∧
      ∃ out t, overlay (.dict 6 []) (.dict 0 [(object, .dict 8 [])]) .initial = (.ok out, t) ∧
        out.map (·.1) = [other] ∧ object.same other = false :=
  ⟨⟨_, rfl⟩, rfl, ⟨_, rfl⟩, ⟨_, rfl, rfl⟩, ⟨_, rfl⟩, ⟨_, _, rfl, rfl, rfl⟩⟩

end Session

end Conformance
