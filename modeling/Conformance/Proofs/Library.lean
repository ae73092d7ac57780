import Conformance.Proofs.Parallel
import Conformance.Proofs.Renumbering
import Conformance.Proofs.Repetition

/-!
# Checks of the library

The checks of the library, and whatever is put together from them alone, look at nothing but the
value. So their verdict about a value that holds no stream is the same in every state, and the same
for the value with other numbers for its containers. The same goes for the acceptance of such values
by packs of such checks.

## Main definitions

* `Value.isLibrary`, `Callable.isLibrary` — checks that are put together from those of the library
* `Run.Alike` — runs that give related answers, whatever states they start from

## Main results

* `Value.alike_verdict` — a verdict depends on the value alone, and not on its numbers
* `Pack.alike_accepts` — and so does acceptance
-/

namespace Conformance

variable {β γ : Type}

/-! ### Runs that give related answers -/

namespace Run

/-- Started from any two states, two runs give answers that `A` relates, or the same fault. -/
abbrev Alike (A : β → γ → Prop) (x : Run Session β) (y : Run Session γ) : Prop :=
  Parallel (fun _ _ => True) (fun _ _ _ => True) A x y

namespace Alike

variable {A : β → γ → Prop}

theorem raise (fault : Fault) : Alike A (Run.raise fault) (Run.raise fault) :=
  Parallel.raise fun _ _ _ => trivial

theorem lift (a : Except Fault β) : Alike Eq (Run.lift a) (Run.lift a) :=
  Parallel.lift fun _ _ _ _ _ => trivial

theorem truth {x y : Run Session Value} (h : Alike Eq x y) : Alike Eq x.truth y.truth := by
  refine h.bind ?_
  rintro v _ rfl
  exact lift v.truth

/-- An answer that is given as a value. -/
theorem bool {x y : Run Session Bool} (h : Alike Eq x y) :
    Alike Eq (Value.bool <$> x).truth (Value.bool <$> y).truth := by
  refine truth ?_
  rw [← bind_pure_comp, ← bind_pure_comp]
  exact h.bind fun _ _ same => .pure (congrArg Value.bool same)

theorem insideIteration {x y : Run Session β} (h : Alike Eq x y) :
    Alike Eq x.insideIteration y.insideIteration :=
  Parallel.insideIteration h fun _ _ _ _ => trivial

/-- Two parts, the second of which is asked only if the first one holds. -/
theorem andThen {x y x' y' : Run Session Bool} (first : Alike Eq x y) (second : Alike Eq x' y') :
    Alike Eq (do if ← x then x' else pure false) (do if ← y then y' else pure false) := by
  refine first.bind ?_
  rintro held _ rfl
  cases held with
  | true => exact second
  | false => exact .pure rfl

/-- If one of them accepts from some state, the other one accepts from every state. -/
theorem accepts {x y : Run Session Bool} (h : Alike Eq x y) {s t : Session}
    (accepted : y s = (.ok true, t)) (u : Session) : ∃ w, x u = (.ok true, w) := by
  have ended := h u s trivial
  rw [accepted] at ended
  generalize x u = left at ended ⊢
  cases ended with
  | answer same _ => exact ⟨_, by rw [same]⟩

end Alike

end Run

/-! ### The library -/

mutual

/-- Whether a value is a check that is put together from those of the library. -/
def Value.isLibrary : Value → Bool
  | .callable _ f => f.isLibrary
  | _ => false
termination_by structural a => a

/-- Whether a callable is a check that is put together from those of the library. -/
def Callable.isLibrary : Callable → Bool
  | .check _ | .ofKind _ | .oneOf _ | .collective _ | .hasCount _ | .sameSize _ => true
  | .optional p | .allCount _ p => p.isLibrary
  | .both ps | .either ps => Value.allLibrary ps
  | .mapStructure keyCheck valueCheck => keyCheck.isLibrary && valueCheck.isLibrary
  | _ => false
termination_by structural a => a

/-- Whether all of several values are such checks. -/
def Value.allLibrary : List Value → Bool
  | [] => true
  | p :: ps => p.isLibrary && Value.allLibrary ps
termination_by structural a => a

end

/-! ### Single checks -/

theorem Check.holds_renumber (c : Check) (n : Nat) (x : Value) :
    c.holds (x.renumber n) = c.holds x := by
  cases x with
  | probe i p => cases c <;> cases p <;> rfl
  | _ => cases c <;> rfl

theorem Kind.holds_renumber (k : Kind) (n : Nat) (x : Value) :
    k.holds (x.renumber n) = k.holds x := by
  cases x with
  | probe i p => cases k <;> cases p <;> rfl
  | _ => cases k <;> rfl

theorem Value.isOneOf_renumber (options : List Value) (n : Nat) (x : Value) :
    (x.renumber n).isOneOf options = x.isOneOf options := by
  induction options with
  | nil => rfl
  | cons option rest ih => rw [isOneOf, isOneOf, agree, agree, agreeAt_renumber, ih]

namespace Session

theorem sameCount_renumber (others : List Value) (n : Nat) (x : Value) :
    sameCount (others ++ [x.renumber n]) = sameCount (others ++ [x]) := by
  have last : [x.renumber n].mapM Value.count? = [x].mapM Value.count? := by
    simp only [List.mapM_cons, Value.count?_renumber]
  rw [sameCount, sameCount, List.mapM_append, List.mapM_append, last]

/-- The comparison of a count, as a condition, depends on no state. -/
theorem alike_countEquals (count : Option Nat) (m : Value) :
    Run.Alike Eq (Value.countEquals count m).truth (Value.countEquals count m).truth := by
  cases m with
  | frame i columns rows cell => exact fun _ _ _ => .fault trivial
  | _ =>
    exact Run.Alike.truth (.bind (Run.Alike.lift _) fun _ _ same => .pure (by rw [same]))

theorem alike_countIs (m : Value) (n : Nat) (x : Value) :
    Run.Alike Eq (countIs m (x.renumber n)).truth (countIs m x).truth := by
  rw [countIs, countIs, Value.count?_renumber, Run.truth_bind]
  refine .bind (Run.Alike.lift _) ?_
  rintro count _ rfl
  exact alike_countEquals count m

end Session

/-! ### Checks of collections -/

/-- A call gives alike conditions for a value without streams and for the value with other
numbers. -/
def Session.CallsAlike (call : Value → Run Session Value) : Prop :=
  ∀ n x, x.holdsStream = false → Run.Alike Eq (call (x.renumber n)).truth (call x).truth

/-- Such a call gives alike conditions for the same value. -/
theorem Session.CallsAlike.self {call : Value → Run Session Value} (h : CallsAlike call)
    {x : Value} (free : x.holdsStream = false) : Run.Alike Eq (call x).truth (call x).truth := by
  have alike := h 0 x free
  rwa [Value.renumber_zero] at alike

namespace Items

theorem each_eq_eachListed {σ : Type} (holds : Value → Run σ Bool) (items : Items) :
    items.each holds = eachListed holds items.toList := by
  cases items with
  | listed items => rfl
  | counted start step count => exact eachCounted_eq_eachListed holds start step count

theorem alike_eachListed {call : Value → Run Session Value} (h : Session.CallsAlike call) (n : Nat)
    {items : List Value} (free : ∀ x ∈ items, x.holdsStream = false) :
    Run.Alike Eq (eachListed (Session.callHolds call) (items.map (Value.renumber n)))
      (eachListed (Session.callHolds call) items) := by
  induction items with
  | nil => exact .pure rfl
  | cons x rest ih =>
    obtain ⟨here, others⟩ := List.forall_mem_cons.mp free
    exact (h n x here).andThen (ih others)

theorem alike_each {call : Value → Run Session Value} (h : Session.CallsAlike call) (n : Nat)
    {items : Items} (free : ∀ x ∈ items.toList, x.holdsStream = false) :
    Run.Alike Eq ((items.renumber n).each (Session.callHolds call))
      (items.each (Session.callHolds call)) := by
  rw [each_eq_eachListed, each_eq_eachListed, toList_renumber]
  exact alike_eachListed h n free

end Items

namespace Session

/-- Items that belong to a collection and to the collection with other numbers. -/
def ItemsAlike (n : Nat) (renumbered items : Items) : Prop :=
  renumbered = items.renumber n ∧ ∀ x ∈ items.toList, x.holdsStream = false

theorem alike_iterate (n : Nat) {v : Value} (mapping : v.isMapping = false)
    (free : v.holdsStream = false) :
    Run.Alike (ItemsAlike n) (v.renumber n).iterate v.iterate := by
  obtain ⟨items, plain, renumbered⟩ := Value.iterate_renumber n mapping free
  rw [renumbered]
  cases items with
  | error fault =>
    rw [plain]
    exact Run.Alike.raise fault
  | ok items =>
    have inside : ∀ x ∈ items.toList, x.holdsStream = false :=
      Value.holdsStream_of_iterate (s := .initial) (by rw [plain]; rfl) free
    rw [plain]
    exact .pure ⟨rfl, inside⟩

/-- A collection that does not know its number of items is read by iterating over it. -/
theorem collect_of_length?_eq_none {v : Value} (h : v.length? = none) :
    v.collect = (do Run.lift (← v.iterate).toList?) := by
  cases v with
  | probe i p =>
    cases p with
    | length => cases h
    | _ => rfl
  | _ => rfl

theorem alike_collect (n : Nat) {v : Value} (h : v.length? = none) (mapping : v.isMapping = false)
    (free : v.holdsStream = false) :
    Run.Alike (fun renumbered items => ItemsAlike n (.listed renumbered) (.listed items))
      (v.renumber n).collect v.collect := by
  rw [collect_of_length?_eq_none h,
    collect_of_length?_eq_none ((Value.length?_renumber n v).trans h)]
  refine (alike_iterate n mapping free).bind ?_
  rintro _ items ⟨rfl, inside⟩
  rw [Items.toList?_renumber]
  cases listed : items.toList? with
  | error fault => exact Run.Alike.raise fault
  | ok read =>
    obtain rfl := Items.eq_toList_of_toList? listed
    exact .pure ⟨rfl, inside⟩

/-- Counts that are the same, with runs that read alike items. -/
def CountsAlike (n : Nat) (renumbered counted : Nat × Run Session Items) : Prop :=
  renumbered.1 = counted.1 ∧ Run.Alike (ItemsAlike n) renumbered.2 counted.2

theorem alike_itemsAndCount (n : Nat) {v : Value} (mapping : v.isMapping = false)
    (free : v.holdsStream = false) :
    Run.Alike (CountsAlike n) (itemsAndCount (v.renumber n)) (itemsAndCount v) := by
  unfold itemsAndCount
  rw [Value.length?_renumber]
  cases known : v.length? with
  | some count =>
    refine .bind (Run.Alike.lift count) ?_
    rintro count _ rfl
    exact .pure ⟨rfl, alike_iterate n mapping free⟩
  | none =>
    refine (alike_collect n known mapping free).bind ?_
    rintro renumbered items ⟨same, inside⟩
    cases same
    exact .pure ⟨by simp, .pure ⟨rfl, inside⟩⟩

theorem alike_orRefuse {x y : Run Session Bool} (h : Run.Alike Eq x y) :
    Run.Alike Eq (orRefuse x) (orRefuse y) :=
  h.recover fun _ _ _ _ _ => .answer rfl trivial

theorem isCollection_renumber (n : Nat) (v : Value) :
    isCollection (v.renumber n) = isCollection v := by
  cases v with
  | probe i p => cases p <;> rfl
  | _ => rfl

theorem isMapping_of_isCollection {v : Value} (h : isCollection v = true) :
    v.isMapping = false := by
  cases v with
  | probe i p => cases p <;> first | rfl | cases h
  | _ => first | rfl | cases h

/-- Whether a collection has a number of items and a call holds for each. -/
def itemsHold (m : Value) (call : Value → Run Session Value) (collection : Value) :
    Run Session Bool := do
  let (count, items) ← itemsAndCount collection
  if ← Run.lift ((Value.ofCount (some count)).agree m) then
    let items ← items
    Run.insideIteration (items.each (callHolds call))
  else pure false

/-- What a check of items comes to, unless there is nothing to be checked. -/
theorem eachOf_of_ne_null (m : Value) (call : Value → Run Session Value) {collection : Value}
    (h : collection ≠ .null) :
    eachOf m call collection = if isCollection collection then
      (do return .bool (← orRefuse (itemsHold m call collection))) else pure (.bool false) := by
  cases collection with
  | null => exact absurd rfl h
  | _ => rfl

theorem alike_itemsHold (m : Value) {call : Value → Run Session Value} (h : CallsAlike call)
    (n : Nat) {v : Value} (mapping : v.isMapping = false) (free : v.holdsStream = false) :
    Run.Alike Eq (itemsHold m call (v.renumber n)) (itemsHold m call v) := by
  refine (alike_itemsAndCount n mapping free).bind ?_
  -- The count decides before any item is looked at.
  rintro ⟨_, renumbered⟩ ⟨count, items⟩ ⟨rfl, reading⟩
  refine .bind (Run.Alike.lift _) ?_
  rintro agreed _ rfl
  cases agreed with
  | false => exact .pure rfl
  | true =>
    refine reading.bind ?_
    rintro _ items ⟨rfl, inside⟩
    exact (Items.alike_each h n inside).insideIteration

theorem alike_eachOf (m : Value) {call : Value → Run Session Value} (h : CallsAlike call) :
    CallsAlike (eachOf m call) := by
  intro n v free
  by_cases null : v = .null
  · -- Nothing counts as a collection without items.
    subst null
    exact alike_countEquals (some 0) m
  · have null' : v.renumber n ≠ .null := by
      cases v <;> simp_all [Value.renumber]
    rw [eachOf_of_ne_null m call null, eachOf_of_ne_null m call null', isCollection_renumber]
    split
    next collection =>
      have mapping := isMapping_of_isCollection collection
      refine Run.Alike.truth ((alike_orRefuse (alike_itemsHold m h n mapping free)).bind ?_)
      rintro answer _ rfl
      exact .pure rfl
    next => exact Run.Alike.truth (.pure rfl)

/-! ### Checks of mappings -/

theorem alike_eachEntry {onKey onValue : Value → Run Session Value} (key : CallsAlike onKey)
    (value : CallsAlike onValue) (n : Nat) {entries : List (Value × Value)}
    (free : ∀ entry ∈ entries, entry.1.holdsStream = false ∧ entry.2.holdsStream = false) :
    Run.Alike Eq
      (eachEntry onKey onValue (entries.map fun entry => (entry.1, entry.2.renumber n)))
      (eachEntry onKey onValue entries) := by
  induction entries with
  | nil => exact .pure rfl
  | cons entry rest ih =>
    obtain ⟨⟨freeKey, freeValue⟩, others⟩ := List.forall_mem_cons.mp free
    -- Keys are the same in both, so only their states may differ.
    exact (key.self freeKey).andThen ((value n entry.2 freeValue).andThen (ih others))

theorem alike_entriesHold {onKey onValue : Value → Run Session Value} (key : CallsAlike onKey)
    (value : CallsAlike onValue) : CallsAlike (entriesHold onKey onValue) := by
  intro n v free
  rw [entriesHold, entriesHold, Value.mapping?_renumber]
  cases mapping : v.mapping? with
  | none => exact Run.Alike.truth (.pure rfl)
  | some m =>
    refine Run.Alike.truth (.bind (alike_orRefuse ?_) fun _ _ same => .pure (by rw [same]))
    rw [Mapping.items_renumber]
    cases listed : m.items with
    | error fault => exact Run.Alike.raise fault
    | ok entries =>
      have inside :=
        Mapping.holdsStream_of_items (Value.holdsStream_of_mapping? mapping free) listed
      exact (alike_eachEntry key value n inside).insideIteration

end Session

/-! ### Everything in the library -/

mutual

/-- A call of a check of the library looks at nothing but its argument, and not at numbers. -/
theorem Value.alike_apply (f : Value) (library : f.isLibrary = true) :
    Session.CallsAlike f.apply := by
  cases f with
  | callable id f =>
    intro n x free
    rw [Value.apply, Value.apply]
    exact Callable.alike_apply f library n x free
  | _ => cases library

theorem Callable.alike_apply (f : Callable) (library : f.isLibrary = true) :
    Session.CallsAlike f.apply := by
  intro n x free
  cases f with
  | check c =>
    rw [Callable.apply, Callable.apply, Check.holds_renumber]
    exact Run.Alike.truth (.pure rfl)
  | ofKind k =>
    rw [Callable.apply, Callable.apply, Kind.holds_renumber]
    exact Run.Alike.truth (.pure rfl)
  | oneOf options =>
    rw [Callable.apply, Callable.apply, Value.isOneOf_renumber]
    exact Run.Alike.truth (.pure rfl)
  | optional p =>
    have asked := (Value.alike_apply p library n x free).bool
    cases x with
    | null => exact Run.Alike.truth (.pure rfl)
    | _ => exact asked
  | both ps => exact (Value.alike_allHold ps library n x free).insideIteration.bool
  | either ps => exact (Value.alike_anyHolds ps library n x free).insideIteration.bool
  | collective c =>
    cases c with
    | sameSize =>
      rw [Callable.apply, Callable.apply, ← List.nil_append [x.renumber n],
        Session.sameCount_renumber]
      exact (Run.Alike.lift _).truth
    | _ => exact Run.Alike.truth (Run.Alike.raise _)
  | hasCount m => exact Session.alike_countIs m n x
  | allCount m p => exact Session.alike_eachOf m (Value.alike_apply p library) n x free
  | sameSize others =>
    rw [Callable.apply, Callable.apply, Session.sameCount_renumber]
    exact (Run.Alike.lift _).truth
  | mapStructure keyCheck valueCheck =>
    obtain ⟨key, value⟩ := Bool.and_eq_true_iff.mp library
    exact Session.alike_entriesHold (Value.alike_apply keyCheck key)
      (Value.alike_apply valueCheck value) n x free
  | _ => cases library

theorem Value.alike_allHold (ps : List Value) (library : Value.allLibrary ps = true) (n : Nat)
    (x : Value) (free : x.holdsStream = false) :
    Run.Alike Eq (Value.allHold ps (x.renumber n)) (Value.allHold ps x) := by
  match ps with
  | [] => exact .pure rfl
  | p :: ps =>
    obtain ⟨first, others⟩ := Bool.and_eq_true_iff.mp library
    exact (Value.alike_apply p first n x free).andThen (Value.alike_allHold ps others n x free)

theorem Value.alike_anyHolds (ps : List Value) (library : Value.allLibrary ps = true) (n : Nat)
    (x : Value) (free : x.holdsStream = false) :
    Run.Alike Eq (Value.anyHolds ps (x.renumber n)) (Value.anyHolds ps x) := by
  match ps with
  | [] => exact .pure rfl
  | p :: ps =>
    obtain ⟨first, others⟩ := Bool.and_eq_true_iff.mp library
    refine (Value.alike_apply p first n x free).bind ?_
    rintro held _ rfl
    cases held with
    | true => exact .pure rfl
    | false => exact Value.alike_anyHolds ps others n x free

end

/-- What a check of the library says about a value depends on the value alone, and not on its
numbers. -/
theorem Value.alike_verdict {f : Value} (library : f.isLibrary = true) (n : Nat) {x : Value}
    (free : x.holdsStream = false) : Run.Alike Eq (f.verdict (x.renumber n)) (f.verdict x) :=
  (Value.alike_apply f library n x free).recover fun _ _ _ _ _ => .answer rfl trivial

/-! ### Acceptance -/

namespace Pack

/-- Rules, if the packs in them accept alike. -/
theorem alike_acceptRules (exact : Bool) {rules : List (Value × Rule Value Value)} {m : Mapping}
    (n : Nat) (library : ∀ f ∈ leavesOf rules, f.isLibrary = true) (free : m.holdsStream = false)
    (nested : ∀ key i q x, (key, .nested i q) ∈ rules → x.holdsStream = false →
      (∀ f ∈ q.leaves, f.isLibrary = true) →
      Run.Alike Eq (q.accepts Value.verdict exact (x.renumber n))
        (q.accepts Value.verdict exact x)) :
    Run.Alike Eq (acceptRules Value.verdict exact rules (m.renumber n))
      (acceptRules Value.verdict exact rules m) := by
  induction rules with
  | nil => exact .pure rfl
  | cons entry rest ih =>
    obtain ⟨key, r⟩ := entry
    have others := ih (fun f leaf => library f (List.mem_append_right _ leaf))
      fun k i q x rule => nested k i q x (List.mem_cons_of_mem _ rule)
    rw [acceptRules, acceptRules, Mapping.get_renumber]
    cases lookup : m.get key with
    | error fault => exact Run.Alike.raise fault
    | ok x =>
      -- Both rules are asked about the same value, but for its numbers.
      have freeValue := Mapping.holdsStream_of_get free lookup
      have here : Run.Alike Eq (r.accepts Value.verdict exact (x.renumber n))
          (r.accepts Value.verdict exact x) := by
        cases r with
        | leaf i f =>
          exact Value.alike_verdict
            (library f (List.mem_append_left _ (List.mem_singleton.mpr rfl))) n freeValue
        | nested i q =>
          exact nested key i q x List.mem_cons_self freeValue fun f leaf =>
            library f (List.mem_append_left _ leaf)
      exact here.andThen others

/-- Whether a pack of checks of the library accepts a value depends on the value alone, and not on
its numbers. -/
theorem alike_accepts (exact : Bool) (n : Nat) (p : Pack Value Value) (v : Value)
    (library : ∀ f ∈ p.leaves, f.isLibrary = true) (free : v.holdsStream = false) :
    Run.Alike Eq (p.accepts Value.verdict exact (v.renumber n))
      (p.accepts Value.verdict exact v) := by
  induction p using Pack.induction generalizing v with
  | step id rules ih =>
    rw [accepts, accepts, Value.mapping?_renumber]
    cases mapping : v.mapping? with
    | none => exact .pure rfl
    | some m =>
      have extra : hasExtra rules (m.renumber n) = hasExtra rules m := by
        rw [hasExtra, hasExtra, Mapping.keys_renumber]
      simp only [Option.map_some, extra]
      refine .bind (Run.Alike.lift _) ?_
      rintro extra _ rfl
      cases extra with
      | true => exact .pure rfl
      | false =>
        exact alike_acceptRules exact n library (Value.holdsStream_of_mapping? mapping free)
          fun key i q x rule freeValue inside => ih key i q rule x inside freeValue

end Pack

/-- A rule with checks of the library accepts a value from every state if it accepts it from one,
and then also the value with other numbers. -/
theorem Rule.accepts_renumber {r : Rule Value Value} {exact : Bool} {x : Value} {s t : Session}
    (library : ∀ f ∈ r.leaves, f.isLibrary = true) (free : x.holdsStream = false)
    (accepted : r.accepts Value.verdict exact x s = (.ok true, t)) (n : Nat) (u : Session) :
    ∃ w, r.accepts Value.verdict exact (x.renumber n) u = (.ok true, w) := by
  cases r with
  | leaf i f =>
    exact (Value.alike_verdict (library f (List.mem_singleton.mpr rfl)) n free).accepts accepted u
  | nested i q => exact (Pack.alike_accepts exact n q x library free).accepts accepted u

end Conformance
