import Conformance.Proofs.Outcomes

/-!
# What checks of the library refuse

A check should say true or false of every value. Checks of the shape of a value do, and so does what
asks items and entries, because whatever is raised there is caught and counts as a refusal. But a
check of nothing but the number of items catches nothing. There are values that do not tell their
number, and what they raise instead passes through all combinations of checks to the caller.

## Main definitions

* `Value.Uncountable` — a value that does not tell its number of items, and what it raises
* `Run.Decides` — runs that answer with a truth value
* `Value.isComposed` — the checks of single values that are put together from the library
* `Value.counted` — the values whose items such a check counts without catching a refusal

## Main results

* `Value.length?_eq_error_iff`, `Value.count?_eq_error_iff` — nothing else is uncountable
* `Session.decides_eachOf`, `Session.decides_entriesHold` — checks of items and entries never raise
* `Value.apply_eq_bool_or_uncountable` — what a check put together from the library comes to
-/

namespace Conformance

variable {β : Type}

/-! ### Counting -/

/-- A value that has items and yet does not tell their number, with what it raises instead. -/
inductive Value.Uncountable : Value → Fault → Prop
  /-- It refuses to be asked. -/
  | refusing (i : Nat) : Uncountable (.probe i .length) (.refused .length)
  /-- The number is beyond what can be told. -/
  | endless {start stop step : Int} (long : maxCount < Range.length start stop step) :
    Uncountable (.range start stop step) .countTooLarge

namespace Value

variable {n v : Value} {fault : Fault}

theorem Uncountable.isOrdinary (h : v.Uncountable fault) : fault.isOrdinary = true := by
  cases h <;> rfl

theorem length?_eq_error_iff : v.length? = some (.error fault) ↔ v.Uncountable fault := by
  constructor
  · intro h
    cases v with
    | range start stop step =>
      simp only [length?, Option.some.injEq] at h
      split at h
      next => cases h
      next long =>
        cases h
        exact .endless (Nat.lt_of_not_le long)
    | probe i p =>
      cases p <;> cases h
      exact .refusing i
    | _ => cases h
  · intro h
    cases h with
    | refusing i => rfl
    | endless long => simp only [length?, if_neg (Nat.not_le.mpr long)]

/-- Counting fails for no other values: whatever has no items is not asked for their number. -/
theorem count?_eq_error_iff : v.count? = .error fault ↔ v.Uncountable fault := by
  rw [← length?_eq_error_iff]
  unfold count?
  split
  · -- Nothing counts as empty, and has no number of items of its own.
    simp [length?]
  · cases v.length? with
    | none => simp
    | some told => cases told <;> simp

theorem outcome_count? (v : Value) : Outcome (fun _ => True) v.Uncountable v.count? := by
  cases counted : v.count? with
  | ok count => exact .answer trivial
  | error fault => exact .fault (count?_eq_error_iff.mp counted)

/-- What one of several values raises that does not tell its number. -/
def SomeUncountable (vs : List Value) (fault : Fault) : Prop := ∃ w ∈ vs, w.Uncountable fault

namespace SomeUncountable

variable {vs ws : List Value}

theorem of_mem (member : v ∈ vs) (h : v.Uncountable fault) : SomeUncountable vs fault :=
  ⟨v, member, h⟩

theorem mono (subset : vs ⊆ ws) (h : SomeUncountable vs fault) : SomeUncountable ws fault := by
  obtain ⟨w, member, uncountable⟩ := h
  exact ⟨w, subset member, uncountable⟩

/-- Where more values are counted, more can be raised. -/
theorem endsIn_of_subset {x : Run Session β} {A : β → Prop} (subset : vs ⊆ ws)
    (h : x.EndsIn A (SomeUncountable vs)) : x.EndsIn A (SomeUncountable ws) :=
  Run.EndsIn.mono h (fun _ => id) fun _ => .mono subset

theorem isOrdinary (h : SomeUncountable vs fault) : fault.isOrdinary = true := by
  obtain ⟨w, -, uncountable⟩ := h
  exact uncountable.isOrdinary

/-- No callable raises it by itself, so that it passes every iteration as it is. -/
theorem insideIteration {x : Run Session β} {A : β → Prop} (h : x.EndsIn A (SomeUncountable vs)) :
    x.insideIteration.EndsIn A (SomeUncountable vs) := by
  refine h.insideIteration fun signal raised => ?_
  obtain ⟨w, -, uncountable⟩ := raised
  cases uncountable

end SomeUncountable

variable {k : Int}

/-- A number of items is compared with an integer by value. -/
theorem agree_ofCount (number : n.integer? = some k) (count : Nat) :
    (ofCount (some count)).agree n = .ok (decide ((count : Int) = k)) := by
  have equal (w : Value) (h : w.number? = some (.int k)) :
      (ofCount (some count)).agree w = .ok (decide ((count : Int) = k)) := by
    change agreeNumber (.int count) w = _
    rw [agreeNumber, h]
    rfl
  cases n with
  | bool b => cases number; exact equal _ rfl
  | int n => cases number; exact equal _ rfl
  | _ => cases number

/-- Where there is no number of items, no integer equals it. -/
theorem agree_ofCount_none (number : n.integer? = some k) :
    (ofCount none).agree n = .ok false := by
  cases n <;> first | rfl | cases number

theorem exists_countEquals_eq (number : n.integer? = some k) (count : Option Nat) :
    ∃ b, countEquals count n = pure (.bool b) := by
  obtain ⟨b, agreed⟩ : ∃ b, (ofCount count).agree n = .ok b := by
    cases count with
    | none => exact ⟨_, agree_ofCount_none number⟩
    | some count => exact ⟨_, agree_ofCount number count⟩
  refine ⟨b, ?_⟩
  cases n with
  | frame => cases number
  | _ => simp only [countEquals, agreed, Run.lift_ok_bind]

end Value

/-! ### Checks of items and entries -/

namespace Session

variable {call : Value → Run Session Value}

theorem endsOrdinarily_itemsHold {n : Value} {k : Int} (number : n.integer? = some k)
    (h : ∀ x, (call x).EndsOrdinarily) (v : Value) : (itemsHold n call v).EndsOrdinarily := by
  -- What has been counted leaves a run that reads the items.
  have counted : (itemsAndCount v).EndsIn (fun read => read.2.EndsOrdinarily)
      fun fault => fault.isOrdinary = true := by
    unfold itemsAndCount
    cases told : v.length? with
    | some count =>
      refine Run.EndsIn.bind (A := fun _ => True) (.lift ?_) fun _ _ =>
        .pure v.endsOrdinarily_iterate
      cases count with
      | ok count => exact .answer trivial
      | error fault => exact .fault (Value.length?_eq_error_iff.mp told).isOrdinary
    | none => exact Run.EndsIn.bind v.endsOrdinarily_collect fun items _ => .pure (.pure _)
  refine counted.bind fun (count, items) reading => ?_
  refine Run.EndsOrdinarily.bind (.lift ?_) fun agreed => ?_
  · rw [Value.agree_ofCount number]
    exact .answer trivial
  · cases agreed with
    | true => exact .bind reading fun items => (endsOrdinarily_each h items).insideIteration
    | false => exact .pure _

end Session

/-! ### Truth values -/

/-- Ends with a truth value, or with one of the given faults. -/
abbrev Run.Decides (E : Fault → Prop) (x : Run Session Value) : Prop :=
  x.EndsIn (fun v => ∃ b, v = .bool b) E

namespace Run.Decides

variable {E : Fault → Prop}

theorem pure (b : Bool) : Decides E (pure (.bool b) : Run Session Value) := EndsIn.pure ⟨b, rfl⟩

theorem ordinarily {x : Run Session Value} {vs : List Value}
    (h : x.Decides (Value.SomeUncountable vs)) : x.EndsOrdinarily :=
  h.mono (fun _ _ => trivial) fun _ => Value.SomeUncountable.isOrdinary

theorem ofBool {x : Run Session Bool} (h : x.EndsIn (fun _ => True) E) : Decides E (.bool <$> x) :=
  EndsIn.map h fun b _ => ⟨b, rfl⟩

end Run.Decides

namespace Session

variable {E : Fault → Prop} {call : Value → Run Session Value}

theorem endsIn_callHolds {x : Value} (h : (call x).Decides E) :
    (callHolds call x).EndsIn (fun _ => True) E := by
  refine h.bind fun v truth => ?_
  obtain ⟨b, rfl⟩ := truth
  exact .pure trivial

/-- What raises ordinary faults only raises none once these count as refusals. -/
theorem decides_orRefuse {x : Run Session Bool} (h : x.EndsOrdinarily) :
    Run.Decides E (do return .bool (← orRefuse x)) := by
  refine Run.EndsIn.bind (A := fun _ => True) ?_ fun b _ => Run.Decides.pure b
  unfold orRefuse
  rw [Run.recover_eq_settle]
  refine Run.EndsIn.settle h fun answer ended => ?_
  cases ended with
  | answer => exact .pure trivial
  | fault ordinary =>
    dsimp only
    rw [if_pos ordinary]
    exact .pure trivial

theorem decides_eachOf {n : Value} {k : Int} (number : n.integer? = some k)
    (h : ∀ x, (call x).EndsOrdinarily) (v : Value) : (eachOf n call v).Decides E := by
  by_cases nothing : v = .null
  · subst nothing
    obtain ⟨b, compared⟩ := Value.exists_countEquals_eq number (some 0)
    rw [eachOf, compared]
    exact .pure b
  · rw [eachOf_of_ne_null n call nothing]
    split
    · exact decides_orRefuse (endsOrdinarily_itemsHold number h v)
    · exact .pure _

theorem decides_entriesHold {onKey onValue : Value → Run Session Value}
    (key : ∀ x, (onKey x).EndsOrdinarily) (value : ∀ x, (onValue x).EndsOrdinarily) (v : Value) :
    (entriesHold onKey onValue v).Decides E := by
  unfold entriesHold
  cases v.mapping? with
  | none => exact .pure _
  | some m =>
    refine decides_orRefuse (.bind (.lift ?_) fun entries =>
      (endsOrdinarily_eachEntry key value entries).insideIteration)
    cases m with
    | readable entries => exact .answer trivial
    | unlisted => exact .fault rfl

theorem decides_countIs {n : Value} {k : Int} (number : n.integer? = some k) (v : Value) :
    (countIs n v).Decides v.Uncountable := by
  refine Run.EndsIn.bind (.lift v.outcome_count?) fun count _ => ?_
  obtain ⟨b, compared⟩ := Value.exists_countEquals_eq number count
  rw [compared]
  exact Run.Decides.pure b

theorem outcome_sameCount (vs : List Value) :
    Outcome (fun v => ∃ b, v = .bool b) (Value.SomeUncountable vs) (sameCount vs) := by
  have counted : Outcome (fun _ => True) (Value.SomeUncountable vs) (vs.mapM Value.count?) := by
    induction vs with
    | nil => exact .answer trivial
    | cons v vs ih =>
      -- The first value that cannot be counted ends the counting.
      rw [List.mapM_cons]
      refine Outcome.bind (v.outcome_count?.mono (fun _ => id) fun _ => .of_mem List.mem_cons_self)
        fun _ _ => ?_
      refine (ih.mono (fun _ => id) fun _ => .mono (List.subset_cons_self v vs)).bind fun _ _ => ?_
      exact .answer trivial
  refine counted.bind fun counts _ => ?_
  cases counts with
  | nil => exact .answer ⟨true, rfl⟩
  | cons first rest => exact .answer ⟨_, rfl⟩

end Session

/-! ### Checks put together from the library -/

mutual

/-- Whether a value is a check of single values that is put together from the library. Numbers of
items are integers. -/
def Value.isComposed : Value → Bool
  | .callable _ f => f.isComposed
  | _ => false
termination_by structural a => a

/-- Whether a callable is such a check. -/
def Callable.isComposed : Callable → Bool
  | .check _ | .ofKind _ | .oneOf _ | .collective .sameSize | .sameSize _ => true
  | .hasCount n => n.integer?.isSome
  | .allCount n p => n.integer?.isSome && p.isComposed
  | .optional p => p.isComposed
  | .both ps | .either ps => Value.allComposed ps
  | .mapStructure keyCheck valueCheck => keyCheck.isComposed && valueCheck.isComposed
  | _ => false
termination_by structural a => a

/-- Whether all of several values are such checks. -/
def Value.allComposed : List Value → Bool
  | [] => true
  | p :: ps => p.isComposed && Value.allComposed ps
termination_by structural a => a

end

mutual

/-- The values whose items a check of a value counts without catching a refusal. What is asked of
items and entries is not among them, because there everything that is raised is caught. -/
def Value.counted : Value → Value → List Value
  | .callable _ f, x => f.counted x
  | _, _ => []
termination_by structural a => a

/-- The values whose items a callable counts without catching a refusal. -/
def Callable.counted : Callable → Value → List Value
  | .hasCount _, x | .collective .sameSize, x => [x]
  | .sameSize others, x => others ++ [x]
  | .optional p, x => p.counted x
  | .both ps, x | .either ps, x => Value.countedByAll ps x
  | _, _ => []
termination_by structural a => a

/-- The values whose items several checks count without catching a refusal. -/
def Value.countedByAll : List Value → Value → List Value
  | [], _ => []
  | p :: ps, x => p.counted x ++ Value.countedByAll ps x
termination_by structural a => a

end

mutual

theorem Value.decides_apply (f : Value) (composed : f.isComposed = true) (x : Value) :
    (f.apply x).Decides (Value.SomeUncountable (f.counted x)) := by
  cases f with
  | callable id f =>
    rw [Value.apply]
    exact f.decides_apply composed x
  | _ => cases composed
termination_by structural f

theorem Callable.decides_apply (f : Callable) (composed : f.isComposed = true) (x : Value) :
    (f.apply x).Decides (Value.SomeUncountable (f.counted x)) := by
  cases f with
  | check c => exact .pure _
  | ofKind k => exact .pure _
  | oneOf options => exact .pure _
  | optional p =>
    -- Nothing passes without a call.
    cases x with
    | null => exact .pure true
    | _ => exact .ofBool (Session.endsIn_callHolds (p.decides_apply composed _))
  | both ps =>
    have parts := Value.endsIn_allHold ps composed x
    exact .ofBool (Value.SomeUncountable.insideIteration parts)
  | either ps =>
    have parts := Value.endsIn_anyHolds ps composed x
    exact .ofBool (Value.SomeUncountable.insideIteration parts)
  | collective c =>
    cases c with
    | sameSize => exact .lift (Session.outcome_sameCount [x])
    | _ => cases composed
  | hasCount n =>
    obtain ⟨k, number⟩ := Option.isSome_iff_exists.mp composed
    exact (Session.decides_countIs number x).mono (fun _ => id) fun _ =>
      .of_mem List.mem_cons_self
  | allCount n p =>
    -- What is counted inside is caught, as long as it raises ordinary faults only.
    obtain ⟨numbered, inside⟩ := Bool.and_eq_true_iff.mp composed
    obtain ⟨k, number⟩ := Option.isSome_iff_exists.mp numbered
    exact Session.decides_eachOf number (fun x => (p.decides_apply inside x).ordinarily) x
  | sameSize others => exact .lift (Session.outcome_sameCount (others ++ [x]))
  | mapStructure keyCheck valueCheck =>
    obtain ⟨key, value⟩ := Bool.and_eq_true_iff.mp composed
    exact Session.decides_entriesHold (fun x => (keyCheck.decides_apply key x).ordinarily)
      (fun x => (valueCheck.decides_apply value x).ordinarily) x
  | _ => cases composed
termination_by structural f

theorem Value.endsIn_allHold (ps : List Value) (composed : Value.allComposed ps = true)
    (x : Value) :
    (Value.allHold ps x).EndsIn (fun _ => True)
      (Value.SomeUncountable (Value.countedByAll ps x)) := by
  match ps with
  | [] => exact .pure trivial
  | p :: ps =>
    obtain ⟨first, others⟩ := Bool.and_eq_true_iff.mp composed
    have here := Session.endsIn_callHolds (p.decides_apply first x)
    refine (Value.SomeUncountable.endsIn_of_subset (List.subset_append_left _ _) here).bind
      fun held _ => ?_
    cases held with
    | true =>
      exact Value.SomeUncountable.endsIn_of_subset (List.subset_append_right _ _)
        (Value.endsIn_allHold ps others x)
    | false => exact .pure trivial
termination_by structural ps

theorem Value.endsIn_anyHolds (ps : List Value) (composed : Value.allComposed ps = true)
    (x : Value) :
    (Value.anyHolds ps x).EndsIn (fun _ => True)
      (Value.SomeUncountable (Value.countedByAll ps x)) := by
  match ps with
  | [] => exact .pure trivial
  | p :: ps =>
    obtain ⟨first, others⟩ := Bool.and_eq_true_iff.mp composed
    have here := Session.endsIn_callHolds (p.decides_apply first x)
    refine (Value.SomeUncountable.endsIn_of_subset (List.subset_append_left _ _) here).bind
      fun held _ => ?_
    cases held with
    | true => exact .pure trivial
    | false =>
      exact Value.SomeUncountable.endsIn_of_subset (List.subset_append_right _ _)
        (Value.endsIn_anyHolds ps others x)
termination_by structural ps

end

/-- A check that is put together from the library says true or false of a value, or it counts one
that does not tell its number of items, and ends with what that raises instead. -/
theorem Value.apply_eq_bool_or_uncountable {f : Value} (composed : f.isComposed = true) (x : Value)
    (s : Session) :
    (∃ b t, f.apply x s = (.ok (.bool b), t)) ∨
      ∃ w ∈ f.counted x, ∃ fault t, w.Uncountable fault ∧ f.apply x s = (.error fault, t) := by
  have ended := f.decides_apply composed x s
  generalize f.apply x s = result at ended ⊢
  obtain ⟨answer, t⟩ := result
  cases ended with
  | answer truth =>
    obtain ⟨b, rfl⟩ := truth
    exact .inl ⟨b, t, rfl⟩
  | fault some =>
    obtain ⟨w, member, uncountable⟩ := some
    exact .inr ⟨w, member, _, t, uncountable, rfl⟩

/-- What is counted are the value and the given list, but not the items, of which one does not tell
its number. -/
theorem Value.apply_eq_bool_or_uncountable_nested :
    let inner : Value := .callable 30 (.optional (.callable 31 (.hasCount (.int 2))))
    let f : Value := .callable 32 (.both [.callable 33 (.allCount (.int 1) inner),
      .callable 34 (.either [.callable 3 (.check .text),
        .callable 35 (.sameSize [.list 40 [.null]])])])
    let x : Value := .list 41 [.probe 42 .length]
    f.isComposed = true ∧ f.counted x = [.list 40 [.null], x] ∧
      ((∃ b t, f.apply x .initial = (.ok (.bool b), t)) ∨
        ∃ w ∈ f.counted x, ∃ fault t, w.Uncountable fault ∧
          f.apply x .initial = (.error fault, t)) :=
  ⟨rfl, rfl, Value.apply_eq_bool_or_uncountable rfl _ _⟩

/-- A check of a number of items raises for every value that does not tell it. -/
theorem Callable.apply_hasCount_eq_error_iff {n x : Value} {k : Int} {fault : Fault} {s t : Session}
    (number : n.integer? = some k) :
    (Callable.hasCount n).apply x s = (.error fault, t) ↔ x.Uncountable fault ∧ t = s := by
  rw [Callable.apply, Session.countIs]
  cases counted : x.count? with
  | ok count =>
    obtain ⟨b, compared⟩ := Value.exists_countEquals_eq number count
    rw [Run.lift_ok_bind, compared, ← Value.count?_eq_error_iff, counted]
    constructor
    · intro h
      cases h
    · rintro ⟨h, -⟩
      cases h
  | error raised =>
    rw [← Value.count?_eq_error_iff, counted]
    constructor
    · intro h
      cases h
      exact ⟨rfl, rfl⟩
    · rintro ⟨h, rfl⟩
      cases h
      rfl

/-- A range of more terms than can be told is not refused: the check raises. -/
theorem Callable.apply_hasCount_endless :
    (Callable.hasCount (.int 5)).apply (.range 0 100000000000000000000 1) .initial =
      (.error .countTooLarge, .initial) :=
  (Callable.apply_hasCount_eq_error_iff rfl).mpr ⟨.endless (by decide), rfl⟩

end Conformance
