import Conformance.Proofs.Steadiness
import Conformance.Value.Items
import Conformance.Value.Mapping

/-!
# Streams in values

A stream gives each of its items once. What holds a stream at some depth gives it away when it is
iterated over or looked into, so that its items can be taken then. From a value that holds none
there is nothing to be taken: what it yields holds no stream either, and reading it changes
nothing.

## Main definitions

* `Value.holdsStream`, `Mapping.holdsStream` — whether a stream can be taken out of a value or of a
  mapping

## Main results

* `Value.holdsStream_of_mapping?`, `Mapping.holdsStream_of_get`, `Mapping.holdsStream_of_items`,
  `Value.holdsStream_of_iterate`, `Value.holdsStream_of_collect` — what is read out of a value holds
  no stream if the value holds none
* `Value.steady_iterate`, `Value.steady_collect`, `Items.steady_each` — reading takes from no stream
  but the value itself
-/

namespace Conformance

/-! ### Values that hold streams -/

mutual

/-- Whether a value is a stream, or one can be taken out of it at some depth. -/
def Value.holdsStream : Value → Bool
  | .stream .. | .rowStream .. => true
  | .list _ items | .branch _ items | .tuple items | .set _ items | .frozenset items
  | .frame _ items .. | .probe _ (.indexed items) => Value.anyHoldsStream items
  | .dict _ entries | .view entries | .probe _ (.unlisted entries _) =>
    Value.entriesHoldStream entries
  | .pack (.mk _ rules) => Value.keysHoldStream rules
  | _ => false
termination_by structural a => a

/-- Whether one of several values holds a stream. -/
def Value.anyHoldsStream : List Value → Bool
  | [] => false
  | v :: vs => v.holdsStream || Value.anyHoldsStream vs
termination_by structural a => a

/-- Whether one of the keys or values of entries holds a stream. -/
def Value.entriesHoldStream : List (Value × Value) → Bool
  | [] => false
  | (k, v) :: rest => k.holdsStream || v.holdsStream || Value.entriesHoldStream rest
termination_by structural a => a

/-- Whether one of the keys of rules holds a stream. -/
def Value.keysHoldStream : List (Value × Rule Value Value) → Bool
  | [] => false
  | (k, _) :: rest => k.holdsStream || Value.keysHoldStream rest
termination_by structural a => a

end

/-- Whether a stream can be taken out of a mapping. -/
def Mapping.holdsStream (m : Mapping) : Bool := Value.entriesHoldStream m.entries

namespace Value

theorem anyHoldsStream_eq_false_iff {vs : List Value} :
    anyHoldsStream vs = false ↔ ∀ v ∈ vs, v.holdsStream = false := by
  induction vs with
  | nil => simp [anyHoldsStream]
  | cons v vs ih => simp [anyHoldsStream, ih]

theorem entriesHoldStream_eq_false_iff {entries : List (Value × Value)} :
    entriesHoldStream entries = false ↔
      ∀ entry ∈ entries, entry.1.holdsStream = false ∧ entry.2.holdsStream = false := by
  induction entries with
  | nil => simp [entriesHoldStream]
  | cons entry rest ih =>
    obtain ⟨k, v⟩ := entry
    simp [entriesHoldStream, ih, and_assoc]

theorem keysHoldStream_eq_false_iff {rules : List (Value × Rule Value Value)} :
    keysHoldStream rules = false ↔ ∀ entry ∈ rules, entry.1.holdsStream = false := by
  induction rules with
  | nil => simp [keysHoldStream]
  | cons entry rest ih =>
    obtain ⟨k, r⟩ := entry
    simp [keysHoldStream, ih]

/-- No stream can be taken out of a value as a mapping that cannot be taken out of it anyway. -/
theorem holdsStream_of_mapping? {v : Value} {m : Mapping} (mapping : v.mapping? = some m)
    (h : v.holdsStream = false) : m.holdsStream = false := by
  cases v with
  | dict id entries => cases mapping; exact h
  | view entries => cases mapping; exact h
  | pack p =>
    cases p with
    | mk id rules =>
      cases mapping
      -- The entries of a pack are its keys with rules, and no stream is in a rule.
      refine entriesHoldStream_eq_false_iff.mpr fun entry member => ?_
      obtain ⟨rule, listed, rfl⟩ := List.mem_map.mp member
      exact ⟨keysHoldStream_eq_false_iff.mp h rule listed, rfl⟩
  | probe id p => cases p <;> cases mapping <;> first | rfl | exact h
  | _ => cases mapping

end Value

namespace Mapping

variable {m : Mapping}

theorem holdsStream_of_items (h : m.holdsStream = false) {entries : List (Value × Value)}
    (listed : m.items = .ok entries) :
    ∀ entry ∈ entries, entry.1.holdsStream = false ∧ entry.2.holdsStream = false := by
  obtain rfl := items_eq_ok listed
  exact Value.entriesHoldStream_eq_false_iff.mp h

theorem holdsStream_of_get (h : m.holdsStream = false) {key x : Value}
    (lookup : m.get key = .ok x) : x.holdsStream = false := by
  rw [get_eq_ok lookup, Value.lookup?, Value.find?]
  cases found : m.entries.find? fun entry => key.same entry.1 with
  | none => rfl
  | some entry =>
    exact (Value.entriesHoldStream_eq_false_iff.mp h entry (List.mem_of_find?_eq_some found)).2

end Mapping

/-! ### Items -/

theorem Items.eq_toList_of_toList? {iterated : Items} {items : List Value}
    (listed : iterated.toList? = .ok items) : items = iterated.toList := by
  unfold toList? at listed
  cases held : iterated.heldSize with
  | ok size =>
    rw [held] at listed
    exact (Except.ok.inj listed).symm
  | error fault =>
    rw [held] at listed
    cases listed

theorem Items.holdsStream_of_mem_terms {start step : Int} {count : Nat} {w : Value}
    (h : w ∈ terms start step count) : w.holdsStream = false := by
  induction count generalizing start with
  | zero => cases h
  | succ n ih =>
    rcases List.mem_cons.mp h with rfl | h
    · rfl
    · exact ih h

namespace Value

/-- Iterating over a value takes only from a stream that the value is. -/
theorem steady_iterate (v : Value) : Run.Steady (v.holdsStream = false) v.iterate := by
  cases v with
  | stream id items =>
    have read := (Session.steady_rest id (.ok items)).bind fun items => .pure (Items.listed items)
    exact read.mono (by simp [holdsStream])
  | rowStream id explanation root =>
    have read := (Session.steady_rest id ((Value.rows root explanation).map fun rows =>
      rows.map Row.toValue)).bind fun items => .pure (Items.listed items)
    exact read.mono (by simp [holdsStream])
  | probe id p =>
    cases p with
    | unlisted entries refusals =>
      rw [iterate]
      split
      · exact .raise _
      · exact .pure _
    | _ => first | exact .pure _ | exact .raise _
  | _ => first | exact .pure _ | exact .raise _

/-- What iterating over a value yields holds no stream if the value holds none. -/
theorem holdsStream_of_iterate {v : Value} {s t : Session} {items : Items}
    (ran : v.iterate s = (.ok items, t)) (h : v.holdsStream = false) :
    ∀ w ∈ items.toList, w.holdsStream = false := by
  cases v with
  | list id listed | branch id listed | tuple listed | set id listed | frozenset listed
  | frame id listed rows cell =>
    cases ran
    exact anyHoldsStream_eq_false_iff.mp h
  | text s =>
    cases ran
    intro w member
    obtain ⟨c, -, rfl⟩ := List.mem_map.mp member
    rfl
  | bytes data | bytearray id data =>
    cases ran
    intro w member
    obtain ⟨b, -, rfl⟩ := List.mem_map.mp member
    rfl
  | dict id entries | view entries =>
    cases ran
    intro w member
    obtain ⟨entry, listed, rfl⟩ := List.mem_map.mp member
    exact (entriesHoldStream_eq_false_iff.mp h entry listed).1
  | range start stop step =>
    cases ran
    exact fun w member => Items.holdsStream_of_mem_terms member
  | pack p =>
    cases p with
    | mk id rules =>
      cases ran
      intro w member
      obtain ⟨entry, listed, rfl⟩ := List.mem_map.mp member
      exact keysHoldStream_eq_false_iff.mp h entry listed
  | probe id p =>
    cases p with
    | length => cases ran; exact fun w member => by cases member
    | lookup =>
      cases ran
      intro w member
      cases List.mem_singleton.mp member
      rfl
    | unlisted entries refusals =>
      rw [iterate] at ran
      split at ran
      · cases ran
      · cases ran
        intro w member
        obtain ⟨entry, listed, rfl⟩ := List.mem_map.mp member
        exact (entriesHoldStream_eq_false_iff.mp h entry listed).1
    | indexed listed =>
      cases ran
      exact anyHoldsStream_eq_false_iff.mp h
    | _ => cases ran
  | stream id items | rowStream id explanation root => cases h
  | _ => cases ran

theorem steady_collect (v : Value) : Run.Steady (v.holdsStream = false) v.collect :=
  (steady_iterate v).bind fun _ => by
    split
    · exact .raise _
    · exact .lift _

theorem holdsStream_of_collect {v : Value} {s t : Session} {items : List Value}
    (ran : v.collect s = (.ok items, t)) (h : v.holdsStream = false) :
    ∀ w ∈ items, w.holdsStream = false := by
  obtain ⟨iterated, u, yielded, ran⟩ := Run.bind_eq_ok_iff.mp ran
  have free := holdsStream_of_iterate yielded h
  split at ran
  · cases ran
  · obtain ⟨listed, -⟩ := Run.lift_eq_ok_iff.mp ran
    rw [Items.eq_toList_of_toList? listed]
    exact free

end Value

namespace Items

variable {still : Prop} {holds : Value → Run Session Bool}

theorem steady_eachListed {items : List Value} (h : ∀ w ∈ items, Run.Steady still (holds w)) :
    Run.Steady still (eachListed holds items) := by
  induction items with
  | nil => exact .pure true
  | cons w rest ih =>
    have others := ih fun w member => h w (List.mem_cons_of_mem _ member)
    refine (h w List.mem_cons_self).bind fun held => ?_
    cases held with
    | true => exact others
    | false => exact .pure false

theorem steady_each {items : Items} (h : ∀ w ∈ items.toList, Run.Steady still (holds w)) :
    Run.Steady still (items.each holds) := by
  cases items with
  | listed items => exact steady_eachListed h
  | counted start step count =>
    rw [each, eachCounted_eq_eachListed]
    exact steady_eachListed h

end Items

end Conformance
