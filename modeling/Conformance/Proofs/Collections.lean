import Conformance.Proofs.Refusals

/-!
# Checks of collections

A check of a collection wants a number of items and asks each of them. The items are those that
iterating over the collection yields, but their number is the one that the collection tells. So two
collections of the same items come to the same if each tells the number of these. A collection that
knows no number is read into a list first and counted there, so its items have to be few enough to
be held.

Three kinds of collections do not tell the number of their items: a table tells that of its rows and
yields its labels, a range may be too long for its number to be told, and an object may refuse. The
last two are refused. So is what can be iterated over although its class is none of iterables.

## Main definitions

* `Session.HoldsInTurn` — a call holds for several values, one after the other
* `Value.Yields` — iterating over a collection yields items
* `Value.Tells` — the number that is taken for theirs
* `Value.Counts` — this is indeed their number

## Main results

* `Value.Yields.counts` — all collections count, but for those that cannot and for tables
* `Session.eachOf_eq`, `Session.eachOf_eq_false` — what is asked about the items, and what is
  refused
* `Session.eachOf_eq_true_iff` — the check holds if the number that is told is the one that is asked
  for and the call holds for each item
-/

namespace Conformance

variable {call : Value → Run Session Value}

/-! ### Calls in turn -/

/-- Called on each of several values in turn, a call holds for all of them and takes one state to
another. -/
inductive Session.HoldsInTurn (call : Value → Run Session Value) :
    List Value → Session → Session → Prop
  | nil (s : Session) : HoldsInTurn call [] s s
  | cons {v : Value} {vs : List Value} {s t u : Session} (here : callHolds call v s = (.ok true, t))
      (others : HoldsInTurn call vs t u) : HoldsInTurn call (v :: vs) s u

/-- Whether a call holds for each of several values depends on no state. -/
def Session.HoldsRegardless (call : Value → Run Session Value) (vs : List Value) : Prop :=
  ∀ v ∈ vs, ∀ s t, (callHolds call v s).1 = (callHolds call v t).1

namespace Items

theorem eachListed_eq_true_iff {vs : List Value} {s u : Session} :
    eachListed (Session.callHolds call) vs s = (.ok true, u) ↔ Session.HoldsInTurn call vs s u := by
  induction vs generalizing s with
  | nil =>
    constructor
    · intro h
      cases h
      exact .nil u
    · intro h
      cases h
      rfl
  | cons v vs ih =>
    rw [eachListed, Run.bind_eq_ok_iff]
    constructor
    · rintro ⟨held, t, here, further⟩
      cases held with
      | true => exact .cons here (ih.mp further)
      | false => cases further
    · intro h
      cases h with
      | cons here others => exact ⟨true, _, here, ih.mpr others⟩

theorem length_terms (start step : Int) (count : Nat) :
    (terms start step count).length = count := by
  induction count generalizing start with
  | zero => rfl
  | succ n ih => rw [terms, List.length_cons, ih]

theorem length_toList (read : Items) : read.toList.length = read.size := by
  cases read with
  | listed items => rfl
  | counted start step count => exact length_terms start step count

/-- Too many items to be held are not read into a list. -/
theorem toList?_eq_error {read : Items} (many : Value.maxHeld < read.toList.length) :
    ∃ fault, read.toList? = .error fault ∧ fault.isOrdinary = true := by
  rw [length_toList] at many
  rw [toList?, heldSize, if_pos many]
  split <;> exact ⟨_, rfl, rfl⟩

theorem toList?_eq_ok {read : Items} (few : read.toList.length ≤ Value.maxHeld) :
    read.toList? = .ok read.toList := by
  rw [length_toList] at few
  have countable : ¬ Value.maxCount < read.size := by
    unfold Value.maxHeld at few
    unfold Value.maxCount
    omega
  rw [toList?, heldSize, if_neg countable, if_neg (Nat.not_lt.mpr few)]
  rfl

end Items

/-- A run whose answer is the same from all states. -/
theorem Run.Alike.of_fst {x : Run Session Bool} (h : ∀ s t, (x s).1 = (x t).1) : Alike Eq x x := by
  intro s t _
  have same := h s t
  generalize x s = left, x t = right at same ⊢
  rcases left with ⟨fault | b, u⟩ <;> rcases right with ⟨fault' | b', u'⟩ <;> cases same
  · exact .fault trivial
  · exact .answer rfl trivial

namespace Session

theorem orRefuse_eq_true_iff {x : Run Session Bool} {s t : Session} :
    orRefuse x s = (.ok true, t) ↔ x s = (.ok true, t) := by
  rw [orRefuse, Run.recover]
  rcases x s with ⟨fault | b, u⟩
  · dsimp only
    split <;> simp
  · rfl

theorem insideIteration_eq_ok_iff {x : Run Session Bool} {s t : Session} {b : Bool} :
    x.insideIteration s = (.ok b, t) ↔ x s = (.ok b, t) := by
  rw [Run.insideIteration]
  rcases x s with ⟨fault | _, u⟩
  · cases fault <;> simp
  · rfl

/-- What is made of a refusal depends on the outcome alone. -/
theorem orRefuse_congr {x y : Run Session Bool} {s t : Session} (h : x s = y t) :
    orRefuse x s = orRefuse y t := by
  rw [orRefuse, orRefuse, Run.recover, Run.recover, h]

end Session

/-! ### Items and their number -/

namespace Value

/-- Iterating over a collection yields items and takes one state to another. A text, bytes and a
mapping are no collections. -/
structure Yields (v : Value) (s : Session) (items : List Value) (t : Session) : Prop where
  notText : ∀ x, v ≠ .text x
  notBytes : ∀ data, v ≠ .bytes data
  notMapping : v.isMapping = false
  iterated : ∃ read : Items, read.toList = items ∧ v.iterate s = (.ok read, t)

/-- The number that a collection of the given items tells or, if it knows none, that of the items,
which are few enough to be held at once. -/
def Tells (v : Value) (items : List Value) (count : Nat) : Prop :=
  match v.length? with
  | some told => told = .ok count
  | none => count = items.length ∧ items.length ≤ maxHeld

/-- What is told is the number of the given items. -/
def Counts (v : Value) (items : List Value) : Prop := v.Tells items items.length

variable {v : Value} {s t : Session} {items : List Value}

namespace Yields

theorem isCollection (h : v.Yields s items t) : Session.isCollection v = v.isIterable := by
  unfold Session.isCollection
  split
  next x => exact absurd rfl (h.notText x)
  next data => exact absurd rfl (h.notBytes data)
  next => rw [h.notMapping, Bool.not_false, Bool.and_true]

theorem ne_null (h : v.Yields s items t) : v ≠ .null := by
  rintro rfl
  obtain ⟨read, -, iterated⟩ := h.iterated
  cases iterated

/-- A collection that knows its number of items is not used up by iterating over it. -/
theorem state_eq (h : v.Yields s items t) (known : v.length? ≠ none) : t = s := by
  obtain ⟨read, -, iterated⟩ := h.iterated
  cases v with
  | stream i items => exact absurd rfl known
  | rowStream i explanation root => exact absurd rfl known
  | probe i p =>
    cases p with
    | unlisted => cases h.notMapping
    | _ => first | cases iterated; rfl | cases iterated
  | _ => first | cases iterated; rfl | cases iterated

/-- What is of no class of iterables has its items reached by their place. -/
theorem exists_eq_indexed (h : v.Yields s items t) (other : v.isIterable = false) :
    ∃ i, v = .probe i (.indexed items) := by
  obtain ⟨read, rfl, iterated⟩ := h.iterated
  cases v with
  | probe i p =>
    cases p with
    | indexed => cases iterated; exact ⟨i, rfl⟩
    | _ => first | exact Bool.noConfusion other | cases iterated
  | _ => first | exact Bool.noConfusion other | cases iterated

/-- A collection counts its items, unless it does not tell their number, knows none and has too many
to be held, or is a table, which tells the number of its rows but yields its labels. -/
theorem counts (h : v.Yields s items t) (told : ∀ fault, ¬ v.Uncountable fault)
    (held : v.length? = none → items.length ≤ maxHeld)
    (square : ∀ i columns rows cell, v = .frame i columns rows cell → rows = columns.length) :
    v.Counts items := by
  obtain ⟨read, rfl, iterated⟩ := h.iterated
  cases v with
  | text x => exact absurd rfl (h.notText x)
  | bytes data => exact absurd rfl (h.notBytes data)
  | stream i items => exact ⟨rfl, held rfl⟩
  | rowStream i explanation root => exact ⟨rfl, held rfl⟩
  | range start stop step =>
    cases iterated
    have short : Range.length start stop step ≤ maxCount :=
      Nat.le_of_not_lt fun long => told _ (.endless long)
    simp only [Counts, Tells, length?, if_pos short, Items.length_toList, Items.size]
  | frame i columns rows cell =>
    -- A table yields its labels and tells the number of its rows.
    cases iterated
    exact congrArg Except.ok (square i columns rows cell rfl)
  | bytearray i data =>
    cases iterated
    simp only [Counts, Tells, length?, Items.toList, List.length_map]
  | probe i p =>
    cases p with
    | length => exact absurd (.refusing i) (told _)
    | lookup => cases h.notMapping
    | unlisted => cases h.notMapping
    | indexed => cases iterated; rfl
    | _ => cases iterated
  | dict => cases h.notMapping
  | view => cases h.notMapping
  | pack => cases h.notMapping
  | _ => cases iterated <;> rfl

end Yields

end Value

/-! ### The check of a collection -/

namespace Session

variable {n v : Value} {k : Int} {count : Nat} {s t u : Session} {items : List Value}

/-- What a check of items comes to, once they have been read and a number has been told. -/
def checkListed (k : Int) (call : Value → Run Session Value) (count : Nat) (items : List Value) :
    Run Session Bool :=
  orRefuse (if (count : Int) = k then
    (Items.eachListed (callHolds call) items).insideIteration else pure false)

theorem checkListed_eq_true_iff :
    checkListed k call count items t = (.ok true, u) ↔
      (count : Int) = k ∧ HoldsInTurn call items t u := by
  rw [checkListed, orRefuse_eq_true_iff]
  split
  next same => rw [insideIteration_eq_ok_iff, Items.eachListed_eq_true_iff, and_iff_right same]
  next other => simp [other]

theorem alike_checkListed (k : Int) (count : Nat) (h : HoldsRegardless call items) :
    Run.Alike Eq (checkListed k call count items) (checkListed k call count items) := by
  have each : Run.Alike Eq (Items.eachListed (callHolds call) items)
      (Items.eachListed (callHolds call) items) := by
    induction items with
    | nil => exact .pure rfl
    | cons x rest ih =>
      obtain ⟨here, others⟩ := List.forall_mem_cons.mp h
      exact (Run.Alike.of_fst here).andThen (ih others)
  refine alike_orRefuse ?_
  split
  · exact each.insideIteration
  · exact .pure rfl

/-- A collection is looked at through its items and the number that it tells. -/
theorem itemsHold_eq (number : n.integer? = some k) (yields : v.Yields s items t)
    (tells : v.Tells items count) :
    itemsHold n call v s =
      (if (count : Int) = k then
        (Items.eachListed (callHolds call) items).insideIteration else pure false) t := by
  obtain ⟨read, rfl, iterated⟩ := yields.iterated
  have known := yields.state_eq
  unfold itemsHold itemsAndCount
  rw [Value.Tells] at tells
  cases told : v.length? with
  | some answer =>
    -- The number is compared first, and then the items are read from the same state.
    rw [told] at tells
    obtain rfl := known (by simp [told])
    cases tells
    simp only [Run.lift_ok_bind, pure_bind, Value.agree_ofCount number, decide_eq_true_eq]
    split
    · rw [Run.bind_apply_ok iterated, Items.each_eq_eachListed]
    · rfl
  | none =>
    -- The items are read into a list first, from which they are counted and asked about.
    rw [told] at tells
    obtain ⟨rfl, few⟩ := tells
    have listed : v.collect s = (.ok read.toList, t) := by
      rw [collect_of_length?_eq_none told, Run.bind_apply_ok iterated, Items.toList?_eq_ok few]
      rfl
    simp only [bind_assoc]
    rw [Run.bind_apply_ok listed]
    simp only [pure_bind, Value.agree_ofCount number, Run.lift_ok_bind, decide_eq_true_eq]
    split <;> rfl

/-- Where no number is told, there is a fault. -/
theorem exists_itemsHold_eq_error (n : Value) (call : Value → Run Session Value)
    (yields : v.Yields s items t) (untold : ∀ count, ¬ v.Tells items count) :
    ∃ fault, itemsHold n call v s = (.error fault, t) ∧ fault.isOrdinary = true := by
  obtain ⟨read, rfl, iterated⟩ := yields.iterated
  have known := yields.state_eq
  unfold itemsHold itemsAndCount
  cases told : v.length? with
  | some answer =>
    obtain rfl := known (by simp [told])
    cases answer with
    | ok count => exact absurd (by rw [Value.Tells, told]) (untold count)
    | error fault => exact ⟨fault, rfl, (Value.length?_eq_error_iff.mp told).isOrdinary⟩
  | none =>
    have many : Value.maxHeld < read.toList.length := Nat.lt_of_not_le fun few => by
      have tells : v.Tells read.toList read.toList.length := by
        rw [Value.Tells, told]
        exact ⟨rfl, few⟩
      exact untold _ tells
    obtain ⟨fault, failed, ordinary⟩ := Items.toList?_eq_error many
    have unlisted : v.collect s = (.error fault, t) := by
      rw [collect_of_length?_eq_none told, Run.bind_apply_ok iterated, failed]
      rfl
    exact ⟨fault, by simp only [bind_assoc, Run.bind_apply_error unlisted], ordinary⟩

theorem eachOf_eq (number : n.integer? = some k) (yields : v.Yields s items t)
    (iterable : v.isIterable = true) (tells : v.Tells items count) :
    eachOf n call v s =
      (do return .bool (← checkListed k call count items) : Run Session Value) t := by
  rw [eachOf_of_ne_null n call yields.ne_null, if_pos (yields.isCollection.trans iterable),
    Run.bind_apply, Run.bind_apply, orRefuse_congr (itemsHold_eq number yields tells)]
  rfl

/-- What is of no class of iterables is refused, and so is a collection whose number is not told. -/
theorem eachOf_eq_false (yields : v.Yields s items t)
    (refused : v.isIterable = false ∨ ∀ count, ¬ v.Tells items count) :
    eachOf n call v s = (.ok (.bool false), t) := by
  cases iterable : v.isIterable with
  | false =>
    obtain ⟨i, rfl⟩ := yields.exists_eq_indexed iterable
    rw [yields.state_eq (by simp [Value.length?])]
    rfl
  | true =>
    obtain ⟨fault, ended, ordinary⟩ := exists_itemsHold_eq_error n call yields
      (refused.resolve_left (by simp [iterable]))
    rw [eachOf_of_ne_null n call yields.ne_null, if_pos (yields.isCollection.trans iterable),
      Run.bind_apply, orRefuse, Run.recover, ended]
    simp only [ordinary, if_true]
    rfl

theorem eachOf_eq_bool_true_iff (number : n.integer? = some k) (yields : v.Yields s items t)
    (iterable : v.isIterable = true) (tells : v.Tells items count) :
    eachOf n call v s = (.ok (.bool true), u) ↔
      (count : Int) = k ∧ HoldsInTurn call items t u := by
  rw [eachOf_eq number yields iterable tells, Run.bind_eq_ok_iff, ← checkListed_eq_true_iff]
  constructor
  · rintro ⟨b, w, checked, same⟩
    cases same
    exact checked
  · intro checked
    exact ⟨true, u, checked, rfl⟩

/-- The answer depends on the items and the number alone, if the call has no other state than its
argument. -/
theorem eachOf_fst_eq {v' : Value} {s' t' : Session} (number : n.integer? = some k)
    (yields : v.Yields s items t) (iterable : v.isIterable = true) (tells : v.Tells items count)
    (yields' : v'.Yields s' items t') (iterable' : v'.isIterable = true)
    (tells' : v'.Tells items count) (h : HoldsRegardless call items) :
    (eachOf n call v' s').1 = (eachOf n call v s).1 := by
  rw [eachOf_eq number yields iterable tells, eachOf_eq number yields' iterable' tells']
  have alike : Run.Alike Eq (do return .bool (← checkListed k call count items) : Run Session Value)
      (do return .bool (← checkListed k call count items)) :=
    (alike_checkListed k count h).bind fun _ _ same => .pure (congrArg Value.bool same)
  exact (alike t' t trivial).eq

/-- A check of a collection holds just if the collection is of a class of iterables, the number that
it tells is the one that is asked for, and the call holds for each of its items, one after the
other. If what is told is the number of the items, these alone matter: any other such collection of
the same items, read from a state that it takes to the same state, comes to the same, and from other
states too if the call depends on no state. What is of no class of iterables is refused, and so is a
collection that does not tell its number. -/
theorem eachOf_eq_true_iff (number : n.integer? = some k) (yields : v.Yields s items t) :
    (∀ u, eachOf n call v s = (.ok (.bool true), u) ↔
      v.isIterable = true ∧ (∃ count : Nat, v.Tells items count ∧ (count : Int) = k) ∧
        HoldsInTurn call items t u) ∧
    (v.isIterable = true → v.Counts items →
      (∀ u, eachOf n call v s = (.ok (.bool true), u) ↔
        (items.length : Int) = k ∧ HoldsInTurn call items t u) ∧
      ∀ v' s' t', v'.Yields s' items t' → v'.isIterable = true → v'.Counts items →
        (t' = t → eachOf n call v' s' = eachOf n call v s) ∧
        (HoldsRegardless call items → (eachOf n call v' s').1 = (eachOf n call v s).1)) ∧
    (v.isIterable = false ∨ (∀ count, ¬ v.Tells items count) →
      eachOf n call v s = (.ok (.bool false), t)) := by
  refine ⟨fun u => ⟨fun holds => ?_, ?_⟩, fun iterable counts => ⟨fun u =>
    eachOf_eq_bool_true_iff number yields iterable counts,
    fun v' s' t' yields' iterable' counts' => ⟨fun same => ?_,
      eachOf_fst_eq number yields iterable counts yields' iterable' counts'⟩⟩,
    eachOf_eq_false yields⟩
  · have iterable : v.isIterable = true := eq_true_of_ne_false fun other => by
      cases (eachOf_eq_false yields (.inl other)).symm.trans holds
    have told : ∃ count, v.Tells items count := Classical.not_forall_not.mp fun untold => by
      cases (eachOf_eq_false yields (.inr untold)).symm.trans holds
    obtain ⟨count, tells⟩ := told
    obtain ⟨same, inTurn⟩ := (eachOf_eq_bool_true_iff number yields iterable tells).mp holds
    exact ⟨iterable, ⟨count, tells, same⟩, inTurn⟩
  · rintro ⟨iterable, ⟨count, tells, same⟩, inTurn⟩
    exact (eachOf_eq_bool_true_iff number yields iterable tells).mpr ⟨same, inTurn⟩
  · rw [eachOf_eq number yields iterable counts, eachOf_eq number yields' iterable' counts', same]

/-- A stream is read and used up, and comes to the same as a list of its items. -/
theorem eachOf_eq_true_iff_stream :
    let call := Value.apply (.callable 3 (.check .text))
    let items : List Value := [.text "a", .text "b"]
    let v : Value := .stream 20 items
    let t : Session := { Session.initial with taken := [(20, 2)] }
    v.Yields .initial items t ∧ v.Counts items ∧
      eachOf (.int 2) call v .initial = (.ok (.bool true), t) ∧
      (eachOf (.int 2) call (.list 21 items) .initial).1 = .ok (.bool true) := by
  intro call items v t
  have yields : v.Yields .initial items t := ⟨nofun, nofun, rfl, _, rfl, rfl⟩
  have yields' : (Value.list 21 items).Yields .initial items .initial :=
    ⟨nofun, nofun, rfl, _, rfl, rfl⟩
  have counts : v.Counts items := ⟨rfl, Nat.le_of_ble_eq_true rfl⟩
  obtain ⟨holds, same⟩ :=
    (@eachOf_eq_true_iff call (.int 2) v 2 .initial t items rfl yields).2.1 rfl counts
  have inTurn : HoldsInTurn call items t t := .cons rfl (.cons rfl (.nil t))
  have answer := (holds t).mpr ⟨rfl, inTurn⟩
  have regardless : HoldsRegardless call items :=
    List.forall_mem_cons.mpr ⟨fun _ _ => rfl, List.forall_mem_cons.mpr ⟨fun _ _ => rfl, nofun⟩⟩
  have alike := (same _ _ _ yields' rfl rfl).2 regardless
  exact ⟨yields, counts, answer, by rw [alike, answer]⟩

theorem holdsInTurn_of_forall {vs : List Value} (h : ∀ v ∈ vs, callHolds call v s = (.ok true, s)) :
    HoldsInTurn call vs s s := by
  induction vs with
  | nil => exact .nil s
  | cons v vs ih =>
    obtain ⟨here, others⟩ := List.forall_mem_cons.mp h
    exact .cons here (ih others)

/-- A table of two rows without a column has two items, of which there is none. A range can have as
many terms as are asked for, all of which pass, and yet be refused, because it has too many to tell
their number. And what is reached by its place is refused for its class. -/
theorem eachOf_miscounted :
    let always := Value.apply (.callable 30 (.both []))
    let table : Value := .frame 20 [] 2 .zero
    let endless : Value := .range 0 9223372036854775808 1
    let numbers : List Value := [.int 1, .int 2, .int 3]
    let array : Value := .probe 21 (.indexed numbers)
    (table.Yields .initial [] .initial ∧
      ∀ call, eachOf (.int 2) call table .initial = (.ok (.bool true), .initial)) ∧
    (∃ items, endless.Yields .initial items .initial ∧
      (items.length : Int) = 9223372036854775808 ∧ HoldsInTurn always items .initial .initial ∧
      eachOf (.int 9223372036854775808) always endless .initial =
        (.ok (.bool false), .initial)) ∧
    array.Yields .initial numbers .initial ∧ HoldsInTurn always numbers .initial .initial ∧
      eachOf (.int 3) always array .initial = (.ok (.bool false), .initial) := by
  intro always table endless numbers array
  have yields : endless.Yields .initial (Items.terms 0 1 9223372036854775808) .initial :=
    ⟨nofun, nofun, rfl, .counted 0 1 9223372036854775808, rfl, rfl⟩
  have untold : ∀ count, ¬ endless.Tells (Items.terms 0 1 9223372036854775808) count := by
    intro count tells
    have refused : endless.length? = some (.error .countTooLarge) :=
      Value.length?_eq_error_iff.mpr (.endless (by decide))
    rw [Value.Tells, refused] at tells
    cases tells
  refine ⟨⟨⟨nofun, nofun, rfl, _, rfl, rfl⟩, fun call => rfl⟩, ⟨_, yields, ?_,
    holdsInTurn_of_forall fun _ _ => rfl, ?_⟩, ⟨nofun, nofun, rfl, _, rfl, rfl⟩,
    holdsInTurn_of_forall fun _ _ => rfl, rfl⟩
  · rw [Items.length_terms]
    rfl
  · exact eachOf_eq_false yields (.inr untold)

end Session

end Conformance
