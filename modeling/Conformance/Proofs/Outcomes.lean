import Conformance.Proofs.Containment
import Conformance.Proofs.Library

/-!
# What runs end with

A run ends with an answer or with a fault. Here both are described together, for all states that
the run may start from, so that what is put together from several runs is described by its parts.
The question is most often whether faults are ordinary, since these alone can be made refusals. All
faults of reading are: of the rows of an explanation, of the items of a value, and of what a check
is asked about each of them.

## Main definitions

* `Outcome`, `Run.EndsIn` — answers of one kind, faults of another
* `Fault.Ordinarily`, `Run.EndsOrdinarily` — no faults but ordinary ones

## Main results

* `Run.EndsIn.settle`, `Run.EndsIn.bind`, `Run.EndsIn.insideIteration` — what runs are put together
  from
* `Value.ordinarily_rows`, `Value.endsOrdinarily_iterate`, `Value.endsOrdinarily_collect` — reading
* `Session.endsOrdinarily_each`, `Session.endsOrdinarily_eachEntry` — checks of all that was read
-/

namespace Conformance

variable {σ β γ : Type}

/-! ### What a run can end with -/

/-- An outcome is an answer of one kind or a fault of another. -/
inductive Outcome (A : β → Prop) (E : Fault → Prop) : Except Fault β → Prop
  | answer {b : β} (h : A b) : Outcome A E (.ok b)
  | fault {fault : Fault} (h : E fault) : Outcome A E (.error fault)

namespace Outcome

variable {A : β → Prop} {B : γ → Prop} {E F : Fault → Prop}

theorem mono {B : β → Prop} {a : Except Fault β} (h : Outcome A E a) (answers : ∀ b, A b → B b)
    (faults : ∀ fault, E fault → F fault) : Outcome B F a := by
  cases h with
  | answer h => exact .answer (answers _ h)
  | fault h => exact .fault (faults _ h)

theorem bind {a : Except Fault β} {f : β → Except Fault γ} (first : Outcome A E a)
    (second : ∀ b, A b → Outcome B E (f b)) : Outcome B E (a >>= f) := by
  cases first with
  | answer h => exact second _ h
  | fault h => exact .fault h

theorem map {a : Except Fault β} {f : β → γ} (h : Outcome A E a) (answers : ∀ b, A b → B (f b)) :
    Outcome B E (a.map f) := by
  cases h with
  | answer h => exact .answer (answers _ h)
  | fault h => exact .fault h

end Outcome

/-- From every state, a run ends with an answer of one kind or with a fault of another. -/
def Run.EndsIn (A : β → Prop) (E : Fault → Prop) (x : Run σ β) : Prop :=
  ∀ s, Outcome A E (x s).1

namespace Run.EndsIn

variable {A : β → Prop} {B : γ → Prop} {E F : Fault → Prop} {x : Run σ β}

theorem lift {a : Except Fault β} (h : Outcome A E a) : EndsIn A E (Run.lift a : Run σ β) :=
  fun _ => h

theorem pure {b : β} (h : A b) : EndsIn A E (pure b : Run σ β) := lift (.answer h)

theorem raise {fault : Fault} (h : E fault) : EndsIn A E (Run.raise fault : Run σ β) :=
  lift (.fault h)

theorem mono {B : β → Prop} (h : EndsIn A E x) (answers : ∀ b, A b → B b)
    (faults : ∀ fault, E fault → F fault) : EndsIn B F x := fun s => (h s).mono answers faults

theorem settle {next : Except Fault β → Run σ γ} (first : EndsIn A E x)
    (second : ∀ answer, Outcome A E answer → EndsIn B F (next answer)) :
    EndsIn B F (x.settle next) := fun s => second _ (first s) _

theorem bind {f : β → Run σ γ} (first : EndsIn A E x)
    (second : ∀ b, A b → EndsIn B E (f b)) : EndsIn B E (x >>= f) := by
  rw [bind_eq_settle]
  refine first.settle fun answer ended => ?_
  cases ended with
  | answer h => exact second _ h
  | fault h => exact raise h

theorem map {f : β → γ} (h : EndsIn A E x) (answers : ∀ b, A b → B (f b)) :
    EndsIn B E (f <$> x) := by
  rw [map_eq_pure_bind]
  exact h.bind fun b given => pure (answers b given)

theorem insideIteration (h : EndsIn A E x)
    (signals : ∀ signal, E (.raised signal) →
      E (if signal.endsIteration then .iterationStopped else .raised signal)) :
    EndsIn A E x.insideIteration := by
  rw [insideIteration_eq_settle]
  refine h.settle fun answer ended => ?_
  cases ended with
  | answer h => exact pure h
  | @fault fault h =>
    cases fault with
    | raised signal => exact raise (signals signal h)
    | _ => exact raise h

end Run.EndsIn

/-! ### Ordinary faults -/

/-- Ends with an answer, or with a fault that does not ask the whole program to stop. -/
abbrev Run.EndsOrdinarily (x : Run σ β) : Prop :=
  x.EndsIn (fun _ => True) fun fault => fault.isOrdinary = true

/-- The same of an answer that needs no state. -/
abbrev Fault.Ordinarily (a : Except Fault β) : Prop :=
  Outcome (fun _ => True) (fun fault => fault.isOrdinary = true) a

namespace Run.EndsOrdinarily

variable {x : Run σ β}

theorem pure (b : β) : EndsOrdinarily (pure b : Run σ β) := EndsIn.pure trivial

theorem bind {f : β → Run σ γ} (first : EndsOrdinarily x) (second : ∀ b, EndsOrdinarily (f b)) :
    EndsOrdinarily (x >>= f) := EndsIn.bind first fun b _ => second b

theorem insideIteration (h : EndsOrdinarily x) : EndsOrdinarily x.insideIteration := by
  refine EndsIn.insideIteration h fun signal ordinary => ?_
  split
  · rfl
  · exact ordinary

end Run.EndsOrdinarily

theorem Value.ordinarily_truth (v : Value) : Fault.Ordinarily v.truth := by
  cases said : v.truth with
  | ok b => exact .answer trivial
  | error fault => exact .fault (isOrdinary_of_truth said)

/-! ### Reading explanations -/

theorem Value.ordinarily_isExplanation (v : Value) : Fault.Ordinarily v.isExplanation := by
  have ends : (Explanation.shape.accepts (fun f x => pure (f x)) true v :
      Run Unit Bool).EndsOrdinarily := by
    rw [Explanation.shape, Pack.accepts]
    cases v.mapping? with
    | none => exact .pure _
    | some m =>
      have get (key : Value) : Fault.Ordinarily (m.get key) := by
        cases looked : m.get key with
        | ok x => exact .answer trivial
        | error fault => exact .fault (Mapping.get_eq_error looked ▸ rfl)
      have told (rules : List (Value × Rule Value (Value → Bool))) :
          Fault.Ordinarily (Pack.hasExtra rules m) := by
        cases extra : Pack.hasExtra rules m with
        | ok b => exact .answer trivial
        | error fault => exact .fault (Mapping.keys_eq_error (Pack.keys_of_hasExtra extra) ▸ rfl)
      refine .bind (.lift (told _)) fun extra => ?_
      cases extra with
      | true => exact .pure _
      | false =>
        -- Both keys are looked up, and what stands there is only looked at.
        refine .bind (.lift (get _)) fun x => .bind (.pure _) fun held => ?_
        cases held with
        | false => exact .pure _
        | true =>
          refine .bind (.lift (get _)) fun y => .bind (.pure _) fun held => ?_
          cases held <;> exact .pure _
  exact ends ()

mutual

theorem Finding.ordinarily_ofEntries (entries : List Value) :
    Fault.Ordinarily (Finding.ofEntries entries) := by
  match entries with
  | [] => exact .answer trivial
  | entry :: rest =>
    exact (Finding.ordinarily_ofEntry entry).bind fun _ _ =>
      (Finding.ordinarily_ofEntries rest).bind fun _ _ => .answer trivial

theorem Finding.ordinarily_ofEntry (entry : Value) : Fault.Ordinarily (Finding.ofEntry entry) := by
  unfold Finding.ofEntry
  split
  · exact Finding.ordinarily_ofContent _ _
  · exact Finding.ordinarily_ofContent _ _
  · exact Finding.ordinarily_ofContent _ _
  · exact .fault rfl

theorem Finding.ordinarily_ofContent (key v : Value) :
    Fault.Ordinarily (Finding.ofContent key v) := by
  unfold Finding.ofContent
  split
  · exact (Finding.ordinarily_ofEntries _).bind fun _ _ => .answer trivial
  · exact .answer trivial

end

theorem Value.ordinarily_rows (root v : Value) : Fault.Ordinarily (rows root v) := by
  unfold rows
  have read : Fault.Ordinarily (Explanation.ofValue v) := by
    refine v.ordinarily_isExplanation.bind fun shaped _ => ?_
    cases shaped with
    | false => exact .fault rfl
    | true =>
      exact (Finding.ordinarily_ofEntries _).bind fun _ _ =>
        (Finding.ordinarily_ofEntries _).bind fun _ _ => .answer trivial
  refine read.bind fun e _ => ?_
  unfold Explanation.rowsBelow
  cases e.isEmpty with
  | true => exact .answer trivial
  | false =>
    -- Only the root is asked for its truth; the rows are then laid out as they are.
    exact root.ordinarily_truth.bind fun _ _ => .answer trivial

/-! ### Reading items -/

namespace Session

theorem endsOrdinarily_rest (id : Nat) {items : Except Fault (List Value)}
    (h : Fault.Ordinarily items) : (rest id items).EndsOrdinarily := by
  have kept (count : Nat) : (setTaken id count).EndsOrdinarily := fun _ => .answer trivial
  refine .bind ?_ fun remaining => .bind (fun _ => .answer trivial) fun s =>
    .bind (kept _) fun _ => .pure _
  refine .bind (fun _ => .answer trivial) fun s => ?_
  cases h with
  | answer => exact .pure _
  | fault ordinary =>
    -- The fault of working out the items is raised once; after that nothing is left.
    dsimp only
    split
    · exact .bind (kept 1) fun _ => .raise ordinary
    · exact .pure _

end Session

namespace Value

theorem endsOrdinarily_iterate (v : Value) : v.iterate.EndsOrdinarily := by
  cases v with
  | stream i items => exact .bind (Session.endsOrdinarily_rest i (.answer trivial)) fun _ => .pure _
  | rowStream i explanation root =>
    -- The explanation is read at the first step, and this is all that can fail.
    have listed : Fault.Ordinarily ((rows root explanation).map fun rows => rows.map Row.toValue) :=
      Outcome.map (ordinarily_rows root explanation) fun _ _ => trivial
    exact .bind (Session.endsOrdinarily_rest i listed) fun _ => .pure _
  | probe i p =>
    cases p with
    | unlisted entries refusals =>
      rw [iterate]
      split
      · exact .raise rfl
      · exact .pure _
    | length | lookup | indexed => exact .pure _
    | _ => exact .raise rfl
  | _ => first | exact .pure _ | exact .raise rfl

theorem endsOrdinarily_collect (v : Value) : v.collect.EndsOrdinarily := by
  refine .bind v.endsOrdinarily_iterate fun items => ?_
  split
  · exact .raise rfl
  · refine .lift ?_
    unfold Items.toList? Items.heldSize
    split
    · exact .fault rfl
    · split
      · exact .fault rfl
      · exact .answer trivial

end Value

namespace Session

variable {call : Value → Run Session Value}

theorem endsOrdinarily_callHolds (h : ∀ x, (call x).EndsOrdinarily) (x : Value) :
    (callHolds call x).EndsOrdinarily := .bind (h x) fun v => .lift v.ordinarily_truth

theorem endsOrdinarily_each (h : ∀ x, (call x).EndsOrdinarily) (items : Items) :
    (items.each (callHolds call)).EndsOrdinarily := by
  rw [Items.each_eq_eachListed]
  induction items.toList with
  | nil => exact .pure _
  | cons x rest ih =>
    refine .bind (endsOrdinarily_callHolds h x) fun held => ?_
    cases held with
    | true => exact ih
    | false => exact .pure _

theorem endsOrdinarily_eachEntry {onKey onValue : Value → Run Session Value}
    (key : ∀ x, (onKey x).EndsOrdinarily) (value : ∀ x, (onValue x).EndsOrdinarily)
    (entries : List (Value × Value)) : (eachEntry onKey onValue entries).EndsOrdinarily := by
  induction entries with
  | nil => exact .pure _
  | cons entry rest ih =>
    refine .bind (endsOrdinarily_callHolds key entry.1) fun held => ?_
    cases held with
    | false => exact .pure _
    | true =>
      refine .bind (endsOrdinarily_callHolds value entry.2) fun held => ?_
      cases held with
      | false => exact .pure _
      | true => exact ih

end Session

end Conformance
