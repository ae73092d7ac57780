import Conformance.Proofs.KeyAgreement
import Conformance.Proofs.Renumbering
import Conformance.Value.Copying

/-!
# Plain data

Data is plain if at every depth it consists of nothing, truth values, numbers, texts, bytes, ranges
and containers of these. Containers are well-formed: what is a key or an item of a set can be one,
and keys are pairwise different.

Ordinary data may also have the lists that stand for the entries of nested packs. It agrees with
itself, and a copy of it is the same data with other numbers. Its keys are the very keys that it was
copied from, and each of them is found.

## Main definitions

* `Value.IsDatum`, `Value.IsPlain`, `Value.IsOrdinary`

## Main results

* `Value.isPlain_iff` — data is plain if its parts are
* `Value.same_self` — ordinary data is the same as itself
* `Value.copy_of_isOrdinary` — the copy of ordinary data
* `Value.lookup?_of_mem` — an entry is found by its key
-/

namespace Conformance.Value

/-- Whether a value is of the kinds that plain data consists of, and is well-formed. -/
def IsDatum : Value → Prop
  | null | bool _ | int _ | float _ | nan _ | text _ | bytes _ | bytearray .. | range .. | list ..
  | tuple _ => True
  | set _ items | frozenset items => ∀ v ∈ items, v.unhashable? = none
  | dict _ entries => (∀ entry ∈ entries, entry.1.unhashable? = none) ∧
      entries.Pairwise fun earlier later => later.1.same earlier.1 = false
  | _ => False

/-- Whether a value consists of such values at every depth. -/
def IsPlain (v : Value) : Prop := ∀ w, v.HasPart w → w.IsDatum

/-- Data is plain if it is of these kinds and its parts are plain. -/
theorem isPlain_iff {v : Value} : v.IsPlain ↔ v.IsDatum ∧ ∀ x ∈ v.parts, x.IsPlain :=
  forall_hasPart_iff

namespace IsPlain

variable {v : Value}

theorem isDatum (h : v.IsPlain) : v.IsDatum := (isPlain_iff.mp h).1

theorem part (h : v.IsPlain) {x : Value} (member : x ∈ v.parts) : x.IsPlain :=
  (isPlain_iff.mp h).2 x member

theorem entry (h : v.IsPlain) {m : Mapping} (mapping : v.mapping? = some m) :
    ∀ entry ∈ m.entries, entry.1.IsPlain ∧ entry.2.IsPlain :=
  fun _ member => ⟨fun w inside => h w ((HasPart.key mapping member).trans inside),
    fun w inside => h w ((HasPart.value mapping member).trans inside)⟩

end IsPlain

/-- Whether a value is of these kinds, or a list for the entries of a nested pack. -/
def IsOrdinaryKind : Value → Prop
  | branch .. => True
  | v => v.IsDatum

/-- The only mappings of these kinds are dictionaries, which list what they tell. -/
theorem IsOrdinaryKind.isConsistent {v : Value} (h : v.IsOrdinaryKind) : v.IsConsistent := by
  intro m mapping
  cases v with
  | dict id entries =>
    cases mapping
    exact Mapping.isConsistent_readable entries
  | view | pack | probe => exact h.elim
  | _ => cases mapping

/-- Whether a value consists of plain data and of such lists at every depth. -/
def IsOrdinary (v : Value) : Prop := ∀ w, v.HasPart w → w.IsOrdinaryKind

theorem IsPlain.isOrdinary {v : Value} (h : v.IsPlain) : v.IsOrdinary := by
  intro w inside
  have datum := h w inside
  cases w with
  | branch => trivial
  | _ => exact datum

/-- Data is ordinary if it is of these kinds and its parts are ordinary. -/
theorem isOrdinary_iff {v : Value} :
    v.IsOrdinary ↔ v.IsOrdinaryKind ∧ ∀ x ∈ v.parts, x.IsOrdinary :=
  forall_hasPart_iff

namespace IsOrdinary

variable {v : Value}

theorem kind (h : v.IsOrdinary) : v.IsOrdinaryKind := (isOrdinary_iff.mp h).1

theorem part (h : v.IsOrdinary) {x : Value} (member : x ∈ v.parts) : x.IsOrdinary :=
  (isOrdinary_iff.mp h).2 x member

theorem entry (h : v.IsOrdinary) {m : Mapping} (mapping : v.mapping? = some m) :
    ∀ entry ∈ m.entries, entry.1.IsOrdinary ∧ entry.2.IsOrdinary :=
  fun _ member => ⟨fun w inside => h w ((HasPart.key mapping member).trans inside),
    fun w inside => h w ((HasPart.value mapping member).trans inside)⟩

end IsOrdinary

mutual

/-- Plain data holds no stream. -/
theorem holdsStream_of_isPlain (v : Value) (plain : v.IsPlain) : v.holdsStream = false := by
  cases v with
  | list i items | tuple items | set i items | frozenset items =>
    exact anyHoldsStream_of_isPlain items fun _ member => plain.part member
  | dict i entries => exact entriesHoldStream_of_isPlain entries (plain.entry rfl)
  | stream | rowStream | branch | view | frame | pack | probe => exact plain.isDatum.elim
  | _ => rfl

theorem anyHoldsStream_of_isPlain (items : List Value) (plain : ∀ v ∈ items, v.IsPlain) :
    anyHoldsStream items = false := by
  match items with
  | [] => rfl
  | v :: vs =>
    obtain ⟨first, others⟩ := List.forall_mem_cons.mp plain
    rw [anyHoldsStream, holdsStream_of_isPlain v first, anyHoldsStream_of_isPlain vs others]
    rfl

theorem entriesHoldStream_of_isPlain (entries : List (Value × Value))
    (plain : ∀ entry ∈ entries, entry.1.IsPlain ∧ entry.2.IsPlain) :
    entriesHoldStream entries = false := by
  match entries with
  | [] => rfl
  | (k, v) :: rest =>
    obtain ⟨⟨key, value⟩, others⟩ := List.forall_mem_cons.mp plain
    rw [entriesHoldStream, holdsStream_of_isPlain k key, holdsStream_of_isPlain v value,
      entriesHoldStream_of_isPlain rest others]
    rfl

end

/-! ### Keys -/

theorem unhashableItem?_eq_none {items : List Value} (h : unhashableItem? items = none) :
    ∀ v ∈ items, v.unhashable? = none := by
  induction items with
  | nil => nofun
  | cons v vs ih =>
    rw [unhashableItem?] at h
    cases first : v.unhashable? with
    | some type => simp [first] at h
    | none => exact List.forall_mem_cons.mpr ⟨first, ih (by simpa [first] using h)⟩

mutual

/-- There is no container with a number in a key. -/
theorem renumber_of_hashable (n : Nat) (v : Value) (ordinary : v.IsOrdinary)
    (hashable : v.unhashable? = none) : v.renumber n = v := by
  cases v with
  | tuple items =>
    rw [renumber, renumberItems_of_hashable n items (fun _ member => ordinary.part member)
      (unhashableItem?_eq_none hashable)]
  | frozenset items =>
    rw [renumber, renumberItems_of_hashable n items (fun _ member => ordinary.part member)
      ordinary.kind]
  -- The containers that carry numbers can be changed, and so are no keys.
  | list | branch | set | bytearray | dict => cases hashable
  | view | frame | probe => exact ordinary.kind.elim
  | _ => rfl

theorem renumberItems_of_hashable (n : Nat) (items : List Value)
    (ordinary : ∀ v ∈ items, v.IsOrdinary) (hashable : ∀ v ∈ items, v.unhashable? = none) :
    renumberItems n items = items := by
  match items with
  | [] => rfl
  | v :: vs =>
    obtain ⟨first, others⟩ := List.forall_mem_cons.mp ordinary
    obtain ⟨firstHashable, othersHashable⟩ := List.forall_mem_cons.mp hashable
    rw [renumberItems, renumber_of_hashable n v first firstHashable,
      renumberItems_of_hashable n vs others othersHashable]

end

section OtherNumbers

variable {n : Nat} {v x : Value}

/-- The parts of ordinary data with other numbers are its parts with other numbers: the keys, which
are left as they are, have none. -/
theorem exists_of_mem_parts_renumber (ordinary : v.IsOrdinary)
    (member : x ∈ (v.renumber n).parts) : ∃ y ∈ v.parts, x = y.renumber n := by
  cases v with
  | list i items | branch i items | tuple items | set i items | frozenset items =>
    rw [renumber, parts, renumberItems_eq_map] at member
    obtain ⟨y, inside, rfl⟩ := List.mem_map.mp member
    exact ⟨y, inside, rfl⟩
  | dict i entries =>
    rw [renumber, parts_of_mapping? rfl, renumberEntries_eq_map] at member
    rw [parts_of_mapping? rfl]
    obtain ⟨_, renumbered, member⟩ := List.mem_flatMap.mp member
    obtain ⟨entry, listed, rfl⟩ := List.mem_map.mp renumbered
    rcases List.mem_pair.mp member with rfl | rfl
    · refine ⟨entry.1, List.mem_flatMap.mpr ⟨entry, listed, by simp⟩, ?_⟩
      exact (renumber_of_hashable n _ (ordinary.entry rfl entry listed).1
        (ordinary.kind.1 entry listed)).symm
    · exact ⟨entry.2, List.mem_flatMap.mpr ⟨entry, listed, by simp⟩, rfl⟩
  | view | pack | probe => exact ordinary.kind.elim
  | _ => cases member

theorem exists_of_hasPart_renumber (ordinary : v.IsOrdinary)
    (inside : (v.renumber n).HasPart x) : ∃ y, v.HasPart y ∧ x = y.renumber n := by
  induction inside with
  | refl => exact ⟨v, .refl v, rfl⟩
  | tail _ member ih =>
    obtain ⟨y, inside, rfl⟩ := ih
    have ordinaryHere : y.IsOrdinary := fun w further => ordinary w (inside.trans further)
    obtain ⟨z, part, rfl⟩ := exists_of_mem_parts_renumber ordinaryHere member
    exact ⟨z, inside.trans (.of_mem part), rfl⟩

theorem isOrdinary_renumber (n : Nat) (ordinary : v.IsOrdinary) : (v.renumber n).IsOrdinary := by
  intro w inside
  obtain ⟨y, part, rfl⟩ := exists_of_hasPart_renumber ordinary inside
  have kind := ordinary y part
  cases y with
  | set i items | frozenset items =>
    -- What is found by its key holds no container, so that the items are the same.
    have ordinaryItems : ∀ x ∈ items, x.IsOrdinary := fun x member w further =>
      ordinary w ((part.trans (.of_mem member)).trans further)
    rw [renumber, renumberItems_of_hashable n items ordinaryItems kind]
    exact kind
  | dict i entries =>
    obtain ⟨hashable, distinct⟩ := kind
    rw [renumber, renumberEntries_eq_map]
    exact ⟨List.forall_mem_map.mpr hashable, List.pairwise_map.mpr distinct⟩
  | _ => exact kind

end OtherNumbers

/-- What the keys of a mapping have in common: each is found, and no later key passes for an earlier
one. -/
structure Keyed (keys : List Value) : Prop where
  self : ∀ k ∈ keys, k.same k = true
  distinct : keys.Pairwise fun earlier later => later.same earlier = false

theorem Keyed.tail {k : Value} {keys : List Value} (h : Keyed (k :: keys)) : Keyed keys :=
  ⟨fun k member => h.self k (List.mem_cons_of_mem _ member), (List.pairwise_cons.mp h.distinct).2⟩

/-- The value of an entry is found under its key. -/
theorem lookup?_of_mem {entries : List (Value × Value)} (keyed : Keyed (entries.map (·.1)))
    {entry : Value × Value} (member : entry ∈ entries) :
    lookup? entries entry.1 = some entry.2 := by
  induction entries with
  | nil => cases member
  | cons first rest ih =>
    rw [lookup?, find?]
    rcases List.mem_cons.mp member with rfl | member
    · have found : entry.1.same entry.1 = true := keyed.self entry.1 List.mem_cons_self
      simp [found]
    · -- A later key does not pass for the first one, so the search goes on.
      have later := (List.pairwise_cons.mp keyed.distinct).1 entry.1
        (List.mem_map_of_mem (f := (·.1)) member)
      rw [List.find?_cons, later]
      exact ih keyed.tail member

theorem insert_of_forall_not_same {key value : Value} {entries : List (Value × Value)}
    (h : ∀ entry ∈ entries, key.same entry.1 = false) :
    insert key value entries = entries ++ [(key, value)] := by
  induction entries with
  | nil => rfl
  | cons first rest ih =>
    obtain ⟨here, others⟩ := List.forall_mem_cons.mp h
    rw [insert, here, ih others]
    rfl

/-- Entries with new keys are put after those that are there, in their order. -/
theorem insertAll_eq_append {entries added : List (Value × Value)}
    (distinct : (entries ++ added).Pairwise fun earlier later => later.1.same earlier.1 = false) :
    insertAll entries added = entries ++ added := by
  induction added generalizing entries with
  | nil => exact (List.append_nil entries).symm
  | cons entry rest ih =>
    have earlier : ∀ e ∈ entries, entry.1.same e.1 = false := fun e member =>
      (List.pairwise_append.mp distinct).2.2 e member entry List.mem_cons_self
    have step : insertAll entries (entry :: rest) = insertAll (entries ++ [entry]) rest := by
      rw [insertAll, List.foldl_cons, insert_of_forall_not_same earlier, insertAll]
    rw [List.append_cons] at distinct ⊢
    rw [step, ih distinct]

/-- What merged entries consist of comes from one side or the other. -/
theorem forall_insertAll {entries added : List (Value × Value)} {P Q : Value → Prop}
    (lower : ∀ entry ∈ entries, P entry.1 ∧ Q entry.2)
    (upper : ∀ entry ∈ added, P entry.1 ∧ Q entry.2) :
    ∀ entry ∈ insertAll entries added, P entry.1 ∧ Q entry.2 := by
  have step : ∀ (key value : Value) (entries : List (Value × Value)), P key ∧ Q value →
      (∀ entry ∈ entries, P entry.1 ∧ Q entry.2) →
      ∀ entry ∈ insert key value entries, P entry.1 ∧ Q entry.2 := by
    intro key value entries here all
    induction entries with
    | nil => exact List.forall_mem_singleton.mpr here
    | cons entry rest ih =>
      obtain ⟨first, others⟩ := List.forall_mem_cons.mp all
      rw [insert]
      split
      · exact List.forall_mem_cons.mpr ⟨⟨first.1, here.2⟩, others⟩
      · exact List.forall_mem_cons.mpr ⟨first, ih others⟩
  induction added generalizing entries with
  | nil => exact lower
  | cons entry rest ih =>
    obtain ⟨here, others⟩ := List.forall_mem_cons.mp upper
    exact ih (step entry.1 entry.2 entries here lower) others

/-! ### Agreement with itself -/

/-- Entries agree in their order with a mapping in which they are all found, if their values agree
with themselves. -/
theorem inOwnOrder_of_found {entries all : List (Value × Value)}
    (found : ∀ entry ∈ entries, lookup? all entry.1 = some entry.2)
    (alike : ∀ entry ∈ entries, agreeAt entry.2 .left entry.2 = .ok true) :
    Comparand.inOwnOrder (comparands entries) all = .ok true := by
  induction entries with
  | nil => rfl
  | cons entry rest ih =>
    obtain ⟨foundHere, foundRest⟩ := List.forall_mem_cons.mp found
    obtain ⟨alikeHere, alikeRest⟩ := List.forall_mem_cons.mp alike
    have here : find? (fun key => holds (agreeAt entry.1 .left key)) all = some entry.2 := foundHere
    rw [comparands, Comparand.inOwnOrder, here]
    simp only [alikeHere]
    exact ih foundRest alikeRest

theorem agreeAt_dict_self {id : Nat} {entries : List (Value × Value)}
    (keyed : Keyed (entries.map (·.1)))
    (alike : ∀ entry ∈ entries, agreeAt entry.2 .left entry.2 = .ok true) :
    agreeAt (dict id entries) .left (dict id entries) = .ok true := by
  have inOrder := inOwnOrder_of_found (fun _ member => lookup?_of_mem keyed member) alike
  have size : (comparands entries).length = entries.length := by
    clear inOrder alike keyed
    induction entries with
    | nil => rfl
    | cons entry rest ih => rw [comparands, List.length_cons, List.length_cons, ih]
  rw [agreeAt]
  simp only [agreeMapping, entries?, agreeFamily, sideAgainst, defersTo, Comparand.agree, size,
    beq_self_eq_true, if_true, Bool.false_eq_true, if_false, inOrder]

mutual

/-- Ordinary data agrees with itself. -/
theorem agreeAt_self (v : Value) (ordinary : v.IsOrdinary) : agreeAt v .left v = .ok true := by
  cases v with
  | list i items | branch i items =>
    have alike := agreeAt_self_of_mem items fun _ member => ordinary.part member
    have inStep := (agreeItems_iff.mpr (List.forall₂_same.mpr alike)).1
    simp [agreeAt, list?, agreeFamily, sideAgainst, defersTo, inStep]
  | tuple items =>
    have alike := agreeAt_self_of_mem items fun _ member => ordinary.part member
    have inStep := (agreeItems_iff.mpr (List.forall₂_same.mpr alike)).1
    simp [agreeAt, tuple?, agreeFamily, inStep, bind, Except.bind]
  | set i items | frozenset items =>
    have alike := agreeAt_self_of_mem items fun _ member => ordinary.part member
    -- Each item is found as itself.
    have inside : contained items items = true := contained_iff.mpr fun x member =>
      ⟨x, member, holds_eq_true_iff.mpr (alike x member)⟩
    simp [agreeAt, set?, agreeFamily, inside]
  | dict i entries =>
    have alike := entriesAgree_self entries (ordinary.entry rfl)
    refine agreeAt_dict_self ⟨fun k member => ?_, List.pairwise_map.mpr ordinary.kind.2⟩
      fun entry member => (alike entry member).2
    obtain ⟨entry, listed, rfl⟩ := List.mem_map.mp member
    exact holds_eq_true_iff.mpr (alike entry listed).1
  | null | bool | int | float | nan | text | bytes | bytearray | range =>
    exact holds_eq_true_iff.mp ((same_iff_of_atom? rfl).mpr rfl)
  | _ => exact ordinary.kind.elim

theorem agreeAt_self_of_mem (items : List Value) (ordinary : ∀ v ∈ items, v.IsOrdinary) :
    ∀ v ∈ items, agreeAt v .left v = .ok true := by
  match items with
  | [] => exact List.forall_mem_nil _
  | v :: vs =>
    obtain ⟨first, others⟩ := List.forall_mem_cons.mp ordinary
    exact List.forall_mem_cons.mpr ⟨agreeAt_self v first, agreeAt_self_of_mem vs others⟩

theorem entriesAgree_self (entries : List (Value × Value))
    (ordinary : ∀ entry ∈ entries, entry.1.IsOrdinary ∧ entry.2.IsOrdinary) :
    ∀ entry ∈ entries, agreeAt entry.1 .left entry.1 = .ok true ∧
      agreeAt entry.2 .left entry.2 = .ok true := by
  match entries with
  | [] => exact List.forall_mem_nil _
  | (k, v) :: rest =>
    obtain ⟨⟨key, value⟩, others⟩ := List.forall_mem_cons.mp ordinary
    exact List.forall_mem_cons.mpr
      ⟨⟨agreeAt_self k key, agreeAt_self v value⟩, entriesAgree_self rest others⟩

end

theorem same_self {v : Value} (ordinary : v.IsOrdinary) : v.same v = true :=
  holds_eq_true_iff.mpr (agreeAt_self v ordinary)

theorem IsPlain.keyed {id : Nat} {entries : List (Value × Value)}
    (h : (dict id entries).IsPlain) : Keyed (entries.map (·.1)) := by
  refine ⟨fun k member => ?_, List.pairwise_map.mpr h.isDatum.2⟩
  obtain ⟨entry, listed, rfl⟩ := List.mem_map.mp member
  exact same_self (h.entry rfl entry listed).1.isOrdinary

/-! ### Copies -/

mutual

/-- The copy of ordinary data is the data with other numbers. -/
theorem copy_of_isOrdinary (shift : Nat) (v : Value) (ordinary : v.IsOrdinary) :
    copy shift v = .ok (v.renumber shift) := by
  cases v with
  | list i items | branch i items | tuple items | set i items | frozenset items =>
    rw [copy, copyItems_of_isOrdinary shift items fun _ member => ordinary.part member]
    rfl
  | dict i entries =>
    rw [copy, copyEntries_of_isOrdinary shift entries (ordinary.entry rfl) ordinary.kind.1]
    rfl
  | null | bool | int | float | nan | text | bytes | bytearray | range => rfl
  | _ => exact ordinary.kind.elim

theorem copyItems_of_isOrdinary (shift : Nat) (items : List Value)
    (ordinary : ∀ v ∈ items, v.IsOrdinary) :
    copyItems shift items = .ok (renumberItems shift items) := by
  match items with
  | [] => rfl
  | v :: vs =>
    obtain ⟨first, others⟩ := List.forall_mem_cons.mp ordinary
    rw [copyItems, copy_of_isOrdinary shift v first, copyItems_of_isOrdinary shift vs others]
    rfl

/-- Keys are copied as themselves. -/
theorem copyEntries_of_isOrdinary (shift : Nat) (entries : List (Value × Value))
    (ordinary : ∀ entry ∈ entries, entry.1.IsOrdinary ∧ entry.2.IsOrdinary)
    (hashable : ∀ entry ∈ entries, entry.1.unhashable? = none) :
    copyEntries shift entries = .ok (renumberEntries shift entries) := by
  match entries with
  | [] => rfl
  | (k, v) :: rest =>
    obtain ⟨⟨key, value⟩, others⟩ := List.forall_mem_cons.mp ordinary
    obtain ⟨keyHashable, othersHashable⟩ := List.forall_mem_cons.mp hashable
    rw [copyEntries, copy_of_isOrdinary shift v value, copy_of_isOrdinary shift k key,
      copyEntries_of_isOrdinary shift rest others othersHashable,
      renumber_of_hashable shift k key keyHashable]
    rfl

end

end Conformance.Value
