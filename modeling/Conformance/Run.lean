import Conformance.Fault.Basic

/-!
# Runs

A run works on a state and ends with a result or with a fault. What it did to the state before a
fault stays done, so that whoever recovers goes on from there.

## Main definitions

* `Run` — runs over a state, a lawful monad
* `Run.lift` — an answer that needs no state, as a run
* `Run.recover` — an ordinary fault is followed by another run; any other fault passes through
* `Run.insideIteration` — a fault that would end an iteration is no such fault outside of it
* `Run.alone` — the answer of a run that needs no state
-/

namespace Conformance

/-- A run over a state that ends with a result or a fault. -/
def Run (σ α : Type) := σ → Except Fault α × σ

namespace Run

variable {σ α β : Type}

instance : Monad (Run σ) where
  pure a := fun s => (.ok a, s)
  bind x f := fun s =>
    match x s with
    | (.ok a, s) => f a s
    | (.error e, s) => (.error e, s)

@[simp] theorem pure_apply (a : α) (s : σ) : (pure a : Run σ α) s = (.ok a, s) := rfl

theorem pure_eq_ok_iff {a b : α} {s t : σ} :
    (pure a : Run σ α) s = (.ok b, t) ↔ b = a ∧ t = s := by
  simp [eq_comm]

theorem bind_apply (x : Run σ α) (f : α → Run σ β) (s : σ) :
    (x >>= f) s = match x s with
      | (.ok a, s) => f a s
      | (.error e, s) => (.error e, s) := rfl

theorem bind_apply_ok {x : Run σ α} {s t : σ} {a : α} (h : x s = (.ok a, t)) (f : α → Run σ β) :
    (x >>= f) s = f a t := by
  rw [bind_apply, h]

theorem bind_apply_error {x : Run σ α} {s t : σ} {e : Fault} (h : x s = (.error e, t))
    (f : α → Run σ β) : (x >>= f) s = (.error e, t) := by
  rw [bind_apply, h]

/-- A run in two parts gives a result if both parts do. -/
theorem bind_eq_ok_iff {x : Run σ α} {f : α → Run σ β} {s t : σ} {b : β} :
    (x >>= f) s = (.ok b, t) ↔ ∃ a u, x s = (.ok a, u) ∧ f a u = (.ok b, t) := by
  rw [bind_apply]
  rcases x s with ⟨_ | a, u⟩
  · simp
  · constructor
    · intro h
      exact ⟨a, u, rfl, h⟩
    · rintro ⟨_, _, h, rest⟩
      cases h
      exact rest

theorem map_apply (f : α → β) (x : Run σ α) (s : σ) :
    (f <$> x) s = match x s with
      | (.ok a, s) => (.ok (f a), s)
      | (.error e, s) => (.error e, s) := rfl

instance : LawfulMonad (Run σ) :=
  LawfulMonad.mk' (Run σ)
    (fun x => by
      funext s
      rw [map_apply]
      rcases x s with ⟨_ | _, _⟩ <;> rfl)
    (fun _ _ => rfl)
    (fun x f g => by
      funext s
      simp only [bind_apply]
      rcases x s with ⟨_ | _, _⟩ <;> rfl)

/-- Ends with a fault. -/
def raise (e : Fault) : Run σ α := fun s => (.error e, s)

instance : Inhabited (Run σ α) := ⟨raise .outOfMemory⟩

/-- An answer that needs no state. -/
def lift (x : Except Fault α) : Run σ α := fun s => (x, s)

@[simp] theorem lift_apply (x : Except Fault α) (s : σ) : (lift x : Run σ α) s = (x, s) := rfl

theorem lift_eq_ok_iff {x : Except Fault α} {a : α} {s t : σ} :
    (lift x : Run σ α) s = (.ok a, t) ↔ x = .ok a ∧ t = s := by
  simp [eq_comm]

/-- An answer that is there already is handed on. -/
theorem lift_ok_bind (a : α) (f : α → Run σ β) : (lift (.ok a) : Run σ α) >>= f = f a := rfl

instance : MonadLift (Except Fault) (Run σ) := ⟨lift⟩

instance : MonadStateOf σ (Run σ) where
  get := fun s => (.ok s, s)
  set s := fun _ => (.ok ⟨⟩, s)
  modifyGet f := fun s => let (a, s) := f s; (.ok a, s)

/-- A run that goes on with its own state. -/
theorem get_bind_apply (f : σ → Run σ β) (s : σ) : (get >>= f : Run σ β) s = f s s := rfl

/-- Goes on with another run after an ordinary fault, from the state that the fault left. -/
def recover (x : Run σ α) (handle : Fault → Run σ α) : Run σ α := fun s =>
  match x s with
  | (.error e, s) => if e.isOrdinary then handle e s else (.error e, s)
  | done => done

/-- Runs a step of an iteration. A signal of the step that an iteration is over does not end the
iteration that asked for the step; it is a fault of its own. -/
def insideIteration (x : Run σ α) : Run σ α := fun s =>
  match x s with
  | (.error (.raised signal), s) =>
    (.error (if signal.endsIteration then .iterationStopped else .raised signal), s)
  | done => done

/-- The answer of a run that needs no state. -/
def alone (x : Run Unit α) : Except Fault α := (x ()).1

end Run

end Conformance
