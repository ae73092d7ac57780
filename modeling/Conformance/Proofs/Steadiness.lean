import Conformance.Session

/-!
# Runs that ask for nothing but streams and settings

Answers leave traces in a session: entries of the log, notes, numbers of new objects. A run that is
steady is led by none of them. Its answer depends only on how far the streams have been read and on
the settings, and it leaves the settings as they are. What it takes from streams is the only trace
that can change the answer of the next run.

## Main definitions

* `Session.ReadAlike` — two states with the same settings in which the same is left in each stream
* `Session.Keeps` — a later state with the same settings, in which no number is free that was taken,
  and, under a condition, the same streams
* `Run.Steady` — a run whose answer depends on no more, and which keeps the state in that sense

## Main results

* `Run.Steady.bind`, `Run.Steady.recover`, `Run.Steady.insideIteration` — what steady runs are put
  together from
* `Run.Steady.again` — a steady run that took nothing gives the same answer again
-/

namespace Conformance

variable {σ β γ : Type}

namespace Session

/-- Two states in which all streams have been read as far, with the same settings. -/
structure ReadAlike (s t : Session) : Prop where
  taken : ∀ id, s.takenFrom id = t.takenFrom id
  settings : s.settings = t.settings

/-- A later state `t` has the settings of `s`, no number is free in it that was not free in `s`, and
under a condition nothing was taken from any stream. -/
structure Keeps (still : Prop) (s t : Session) : Prop where
  settings : t.settings = s.settings
  nextId : s.nextId ≤ t.nextId
  taken : still → ∀ id, t.takenFrom id = s.takenFrom id

theorem Keeps.refl (still : Prop) (s : Session) : Keeps still s s :=
  ⟨rfl, Nat.le_refl _, fun _ _ => rfl⟩

theorem Keeps.trans {still : Prop} {s t u : Session} (h : Keeps still s t) (h' : Keeps still t u) :
    Keeps still s u :=
  ⟨h'.settings.trans h.settings, Nat.le_trans h.nextId h'.nextId, fun isStill id =>
    (h'.taken isStill id).trans (h.taken isStill id)⟩

theorem Keeps.mono {still still' : Prop} {s t : Session} (h : Keeps still s t)
    (weaker : still' → still) : Keeps still' s t :=
  ⟨h.settings, h.nextId, fun isStill => h.taken (weaker isStill)⟩

end Session

namespace Run

/-- The result of a run as a condition. -/
def truth (x : Run Session Value) : Run Session Bool := do lift (← x).truth

/-- A run that goes on after an answer of another and also after its fault. -/
def settle (x : Run σ β) (next : Except Fault β → Run σ γ) : Run σ γ := fun s =>
  next (x s).1 (x s).2

theorem bind_eq_settle (x : Run σ β) (f : β → Run σ γ) :
    x >>= f = x.settle fun
      | .ok b => f b
      | .error fault => raise fault := by
  funext s
  rw [bind_apply, settle]
  rcases x s with ⟨_ | _, _⟩ <;> rfl

theorem recover_eq_settle (x : Run σ β) (handle : Fault → Run σ β) :
    x.recover handle = x.settle fun
      | .ok b => pure b
      | .error fault => if fault.isOrdinary then handle fault else raise fault := by
  funext s
  rw [recover, settle]
  rcases x s with ⟨fault | _, _⟩
  · dsimp only
    split <;> rfl
  · rfl

theorem insideIteration_eq_settle (x : Run σ β) :
    x.insideIteration = x.settle fun
      | .error (.raised signal) =>
        raise (if signal.endsIteration then .iterationStopped else .raised signal)
      | answer => lift answer := by
  funext s
  rw [insideIteration, settle]
  rcases x s with ⟨fault | _, _⟩
  · cases fault <;> rfl
  · rfl

/-- The answer of a run depends on no more than how far streams have been read and on the settings,
and so does how far they are read afterwards. The settings are kept, and so are the streams if the
run is `still`. -/
structure Steady (still : Prop) (x : Run Session β) : Prop where
  alike : ∀ s t, s.ReadAlike t → (x s).1 = (x t).1 ∧ (x s).2.ReadAlike (x t).2
  keeps : ∀ s, Session.Keeps still s (x s).2

namespace Steady

variable {still still' : Prop} {x : Run Session β}

/-- A steady run that took nothing gives the same answer again. -/
theorem again (h : Steady still x) {s t : Session} {b : β} (ran : x s = (.ok b, t))
    (kept : ∀ id, t.takenFrom id = s.takenFrom id) : ∃ u, x t = (.ok b, u) := by
  have settings := (h.keeps s).settings
  rw [ran] at settings
  -- The run starts again from a state in which the streams have been read as far as before.
  have answer := (h.alike s t ⟨fun id => (kept id).symm, settings.symm⟩).1
  rw [ran] at answer
  exact ⟨(x t).2, Prod.ext answer.symm rfl⟩

theorem mono (h : Steady still x) (weaker : still' → still) : Steady still' x :=
  ⟨h.alike, fun s => (h.keeps s).mono weaker⟩

theorem lift (answer : Except Fault β) : Steady still (Run.lift answer) :=
  ⟨fun _ _ h => ⟨rfl, h⟩, Session.Keeps.refl still⟩

theorem pure (b : β) : Steady still (pure b : Run Session β) := lift (.ok b)

theorem raise (fault : Fault) : Steady still (Run.raise fault : Run Session β) :=
  lift (.error fault)

/-- What comes next has to be steady only for the outcomes that there are. -/
theorem settle {next : Except Fault β → Run Session γ} (first : Steady still x)
    (second : ∀ s, Steady still (next (x s).1)) : Steady still (x.settle next) where
  alike s t h := by
    obtain ⟨answer, states⟩ := first.alike s t h
    rw [Run.settle, Run.settle, ← answer]
    exact (second s).alike _ _ states
  keeps s := (first.keeps s).trans ((second s).keeps _)

theorem bind_of_answer {f : β → Run Session γ} (first : Steady still x)
    (second : ∀ s b t, x s = (.ok b, t) → Steady still (f b)) : Steady still (x >>= f) := by
  rw [bind_eq_settle]
  refine first.settle fun s => ?_
  cases ran : x s with
  | mk answer t =>
    cases answer with
    | ok b => exact second s b t ran
    | error fault => exact raise fault

theorem bind {f : β → Run Session γ} (first : Steady still x) (second : ∀ b, Steady still (f b)) :
    Steady still (x >>= f) :=
  first.bind_of_answer fun _ b _ _ => second b

theorem map (f : β → γ) (h : Steady still x) : Steady still (f <$> x) := by
  rw [map_eq_pure_bind]
  exact h.bind fun _ => pure _

theorem truth {x : Run Session Value} (h : Steady still x) : Steady still x.truth :=
  h.bind fun _ => lift _

theorem recover {handle : Fault → Run Session β} (h : Steady still x)
    (handled : ∀ fault, Steady still (handle fault)) : Steady still (x.recover handle) := by
  rw [recover_eq_settle]
  refine h.settle fun s => ?_
  cases (x s).1 with
  | ok b => exact pure b
  | error fault =>
    dsimp only
    split
    · exact handled fault
    · exact raise fault

theorem insideIteration (h : Steady still x) : Steady still x.insideIteration := by
  rw [insideIteration_eq_settle]
  refine h.settle fun s => ?_
  cases (x s).1 with
  | ok b => exact pure b
  | error fault => cases fault <;> exact raise _

end Steady

end Run

namespace Session

variable {still : Prop}

/-- What looks at the state looks at streams and settings only. -/
theorem steady_get {f : Session → Run Session β} (same : ∀ s t, s.ReadAlike t → f s = f t)
    (h : ∀ s, Run.Steady still (f s)) : Run.Steady still (get >>= f) where
  alike s t related := by
    have next := (h s).alike s t related
    rwa [congrFun (same s t related) t] at next
  keeps s := (h s).keeps s

/-- What changes the state changes neither streams nor settings. -/
theorem steady_modify {f : Session → Session} (keeps : ∀ s, Keeps True s (f s)) :
    Run.Steady still (modify f) where
  alike s t related := by
    refine ⟨rfl, fun id => ?_, ?_⟩
    · exact ((keeps s).taken trivial id).trans
        ((related.taken id).trans ((keeps t).taken trivial id).symm)
    · exact (keeps s).settings.trans (related.settings.trans (keeps t).settings.symm)
  keeps s := (keeps s).mono fun _ => trivial

theorem steady_log (r : Record) : Run.Steady still (log r) :=
  steady_modify fun _ => ⟨rfl, Nat.le_refl _, fun _ _ => rfl⟩

theorem steady_note (tag observed : Value) : Run.Steady still (note tag observed) :=
  steady_modify fun _ => ⟨rfl, Nat.le_refl _, fun _ _ => rfl⟩

/-- The number of a new object has no part in what comes after it. -/
theorem steady_fresh {x : Run Session β} (h : Run.Steady still x) :
    Run.Steady still (fresh >>= fun _ => x) where
  alike _ _ related := h.alike _ _ ⟨related.taken, related.settings⟩
  keeps s :=
    have kept := h.keeps { s with nextId := s.nextId + 1 }
    ⟨kept.settings, Nat.le_of_succ_le kept.nextId, kept.taken⟩

theorem takenFrom_setTaken (id count : Nat) (s : Session) (other : Nat) :
    (setTaken id count s).2.takenFrom other =
      if other == id then count else s.takenFrom other := by
  have after : (setTaken id count s).2 = { s with taken := (id, count) :: s.taken } := rfl
  rw [after, takenFrom, List.lookup_cons]
  cases other == id <;> rfl

theorem steady_setTaken (id count : Nat) : Run.Steady False (setTaken id count) where
  alike s t related := by
    refine ⟨rfl, fun other => ?_, related.settings⟩
    rw [takenFrom_setTaken, takenFrom_setTaken, related.taken]
  -- Something is taken, so that nothing is promised about the streams.
  keeps _ := ⟨rfl, Nat.le_refl _, False.elim⟩

/-- What is left in a stream depends on how far it has been read. -/
theorem steady_left (id : Nat) (items : Except Fault (List Value)) :
    Run.Steady False (left id items) := by
  refine steady_get (fun s t related => by rw [related.taken id]) fun s => ?_
  cases items with
  | ok items => exact .pure _
  | error fault =>
    dsimp only
    -- The first attempt to read the stream raises, and counts as an item.
    split
    · exact (steady_setTaken id 1).bind fun _ => .raise fault
    · exact .pure _

theorem steady_rest (id : Nat) (items : Except Fault (List Value)) :
    Run.Steady False (rest id items) := by
  refine (steady_left id items).bind fun remaining => ?_
  refine steady_get (fun s t related => by rw [related.taken id]) fun s => ?_
  exact (steady_setTaken id _).bind fun _ => .pure remaining

theorem steady_next? (id : Nat) (items : Except Fault (List Value)) :
    Run.Steady False (next? id items) := by
  refine (steady_left id items).bind fun remaining => ?_
  cases remaining with
  | nil => exact .pure none
  | cons item rest =>
    refine steady_get (fun s t related => by rw [related.taken id]) fun s => ?_
    exact (steady_setTaken id _).bind fun _ => .pure (some item)

end Session

end Conformance
