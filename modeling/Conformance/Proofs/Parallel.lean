import Conformance.Proofs.Reach

/-!
# Runs side by side

Two runs can be compared although they work on different states: a relation says which states
belong together, and the runs are parallel if they end alike from any two such states. What runs
are put together from is put together from parallel parts, so that a walk over a pack is parallel to
the same walk with other checks, as soon as the checks are. A walk adds nothing of its own: it asks
its checks, one after the other, and its look-ups are the same in both.

## Main definitions

* `Run.Ending`, `Run.Parallel` — outcomes that belong together, and runs that end in such
* `Pack.leaves` — the checks of a pack, at every depth

## Main results

* `Run.Parallel.bind`, `Run.Parallel.recover`, `Run.Parallel.insideIteration` — what parallel runs
  are put together from
* `Pack.parallel_accepts`, `Pack.parallel_examine` — the walks with parallel checks
-/

namespace Conformance

variable {σ τ α α' β γ β' γ' κ : Type}

namespace Run

/-- Two outcomes that belong together: answers that `A` relates, in states that `R` relates, or the
same fault, in states that `E` relates. -/
inductive Ending (R : σ → τ → Prop) (E : Fault → σ → τ → Prop) (A : β → γ → Prop) :
    Except Fault β × σ → Except Fault γ × τ → Prop
  | answer {b : β} {c : γ} {s : σ} {t : τ} (answers : A b c) (states : R s t) :
      Ending R E A (.ok b, s) (.ok c, t)
  | fault {fault : Fault} {s : σ} {t : τ} (states : E fault s t) :
      Ending R E A (.error fault, s) (.error fault, t)

/-- Started from states that `R` relates, two runs end in outcomes that belong together. -/
def Parallel (R : σ → τ → Prop) (E : Fault → σ → τ → Prop) (A : β → γ → Prop) (x : Run σ β)
    (y : Run τ γ) : Prop :=
  ∀ s t, R s t → Ending R E A (x s) (y t)

variable {R : σ → τ → Prop} {E : Fault → σ → τ → Prop} {A : β → γ → Prop} {B : β' → γ' → Prop}

theorem Ending.eq {left : Except Fault β × σ} {right : Except Fault β × τ}
    (h : Ending R E Eq left right) : left.1 = right.1 := by
  cases h with
  | answer answers states => exact congrArg Except.ok answers
  | fault states => rfl

/-- What holds of the states that belong together, after an answer and after a fault. -/
theorem Ending.states {left : Except Fault β × σ} {right : Except Fault γ × τ} {P : σ → τ → Prop}
    (h : Ending R E A left right) (answer : ∀ s t, R s t → P s t)
    (fault : ∀ fault s t, E fault s t → P s t) : P left.2 right.2 := by
  cases h with
  | answer _ states => exact answer _ _ states
  | fault states => exact fault _ _ _ states

namespace Parallel

theorem pure {b : β} {c : γ} (h : A b c) : Parallel R E A (pure b) (pure c) :=
  fun _ _ states => .answer h states

theorem raise {fault : Fault} (h : ∀ s t, R s t → E fault s t) :
    Parallel R E A (raise fault) (raise fault) :=
  fun s t states => .fault (h s t states)

/-- An answer that needs no state is the same in both, and so is its fault. -/
theorem lift {a : Except Fault β} (h : ∀ fault, a = .error fault → ∀ s t, R s t → E fault s t) :
    Parallel R E Eq (lift a) (lift a) := by
  intro s t states
  cases a with
  | ok b => exact .answer rfl states
  | error fault => exact .fault (h fault rfl s t states)

theorem bind {x : Run σ β} {y : Run τ γ} {f : β → Run σ β'} {g : γ → Run τ γ'}
    (first : Parallel R E A x y) (second : ∀ b c, A b c → Parallel R E B (f b) (g c)) :
    Parallel R E B (x >>= f) (y >>= g) := by
  intro s t states
  have ended := first s t states
  rw [bind_apply, bind_apply]
  -- A fault of the first part is the fault of both; otherwise both go on.
  generalize x s = left, y t = right at ended ⊢
  cases ended with
  | answer answers states => exact second _ _ answers _ _ states
  | fault states => exact .fault states

/-- Both go on from an answer that needs no state. -/
theorem lift_bind {a : Except Fault β'} {f : β' → Run σ β} {g : β' → Run τ γ}
    (ends : ∀ fault, a = .error fault → ∀ s t, R s t → E fault s t)
    (h : ∀ b, a = .ok b → Parallel R E A (f b) (g b)) :
    Parallel R E A (Run.lift a >>= f) (Run.lift a >>= g) := by
  cases a with
  | ok b => exact h b rfl
  | error fault => exact fun s t states => .fault (ends fault rfl s t states)

/-- Both recover from the same faults, if what follows an ordinary fault belongs together. -/
theorem recover {x : Run σ β} {y : Run τ γ} {f : Fault → Run σ β} {g : Fault → Run τ γ}
    (first : Parallel R E A x y)
    (second : ∀ fault, fault.isOrdinary = true → ∀ s t, E fault s t →
      Ending R E A (f fault s) (g fault t)) :
    Parallel R E A (x.recover f) (y.recover g) := by
  intro s t states
  have ended := first s t states
  rw [Run.recover, Run.recover]
  generalize x s = left, y t = right at ended ⊢
  cases ended with
  | answer answers states => exact .answer answers states
  | @fault fault s t states =>
    dsimp only
    split
    next ordinary => exact second fault ordinary s t states
    next => exact .fault states

/-- A signal that an iteration is over ends neither of them, if it belongs where it did before. -/
theorem insideIteration {x : Run σ β} {y : Run τ γ} (h : Parallel R E A x y)
    (stops : ∀ signal s t, E (.raised signal) s t → E .iterationStopped s t) :
    Parallel R E A x.insideIteration y.insideIteration := by
  intro s t states
  have ended := h s t states
  rw [Run.insideIteration, Run.insideIteration]
  generalize x s = left, y t = right at ended ⊢
  cases ended with
  | answer answers states => exact .answer answers states
  | @fault fault s t states =>
    cases fault with
    | raised signal =>
      dsimp only
      split
      · exact .fault (stops signal s t states)
      · exact .fault states
    | _ => exact .fault states

end Parallel

end Run

/-! ### The checks of a pack -/

mutual

/-- The checks in a rule. -/
def Rule.leaves : Rule κ α → List α
  | .leaf _ c => [c]
  | .nested _ p => p.leaves
termination_by structural a => a

/-- The checks of a pack, at every depth. -/
def Pack.leaves : Pack κ α → List α
  | .mk _ rules => Pack.leavesOf rules
termination_by structural a => a

/-- The checks in rules. -/
def Pack.leavesOf : List (κ × Rule κ α) → List α
  | [] => []
  | (_, r) :: rest => r.leaves ++ Pack.leavesOf rest
termination_by structural a => a

end

/-! ### Walks with parallel checks -/

variable {R : σ → τ → Prop} {E : Fault → σ → τ → Prop} {check : α → Value → Run σ Bool}
  {check' : α → Value → Run τ Bool}

/-- Two checks that are parallel, whatever value they are asked about. -/
def Run.ParallelChecks (R : σ → τ → Prop) (E : Fault → σ → τ → Prop)
    (check : α → Value → Run σ Bool) (check' : α → Value → Run τ Bool) (checks : List α) : Prop :=
  ∀ c ∈ checks, ∀ x, Parallel R E Eq (check c x) (check' c x)

namespace Pack

theorem mem_leavesOf {rules : List (κ × Rule κ α)} {key : κ} {r : Rule κ α}
    (rule : (key, r) ∈ rules) {c : α} (h : c ∈ r.leaves) : c ∈ leavesOf rules := by
  induction rules with
  | nil => cases rule
  | cons entry rest ih =>
    obtain ⟨k, r'⟩ := entry
    rw [leavesOf, List.mem_append]
    rcases List.mem_cons.mp rule with equal | rule
    · cases equal
      exact .inl h
    · exact .inr (ih rule)

/-- An answer is not refused, or else a refusal may end both walks. -/
theorem ends_of_refused {β : Type} {x : Except Fault β} {ends : Fault → Prop}
    (answered : (∃ b, x = .ok b) ∨ ∀ fault, ends fault) (fault : Fault)
    (refused : x = .error fault) : ends fault := by
  rcases answered with ⟨b, answer⟩ | all
  · cases answer.symm.trans refused
  · exact all fault

/-- Rules, if the packs in them accept in parallel. -/
theorem parallel_acceptRules (exact : Bool) {rules : List (Value × Rule Value α)} {m : Mapping}
    (asked : Run.ParallelChecks R E check check' (leavesOf rules))
    (answered : (∀ entry ∈ rules, ∃ x, m.get entry.1 = .ok x) ∨ ∀ fault s t, R s t → E fault s t)
    (nested : ∀ key n q x, (key, .nested n q) ∈ rules → m.get key = .ok x →
      Run.ParallelChecks R E check check' q.leaves →
      Run.Parallel R E Eq (q.accepts check exact x) (q.accepts check' exact x)) :
    Run.Parallel R E Eq (acceptRules check exact rules m) (acceptRules check' exact rules m) := by
  induction rules with
  | nil => exact .pure rfl
  | cons entry rest ih =>
    obtain ⟨key, r⟩ := entry
    have others := ih (fun c leaf => asked c (List.mem_append_right _ leaf))
      (answered.imp_left fun all entry rule => all entry (List.mem_cons_of_mem _ rule))
      fun k n q x rule => nested k n q x (List.mem_cons_of_mem _ rule)
    have looked := answered.imp_left fun all => all (key, r) List.mem_cons_self
    refine .lift_bind (ends_of_refused looked) fun x lookup => ?_
    have here : Run.Parallel R E Eq (r.accepts check exact x) (r.accepts check' exact x) := by
      cases r with
      | leaf n c => exact asked c (List.mem_append_left _ (List.mem_singleton.mpr rfl)) x
      | nested n q =>
        exact nested key n q x List.mem_cons_self lookup fun c leaf =>
          asked c (List.mem_append_left _ leaf)
    refine here.bind fun accepted _ same => ?_
    subst same
    cases accepted with
    | true => exact others
    | false => exact .pure rfl

/-- Acceptance with parallel checks is parallel. All mappings on the way answer what they are asked,
or else a refusal may end both walks. -/
theorem parallel_accepts (exact : Bool) (p : Pack Value α) (v : Value)
    (asked : Run.ParallelChecks R E check check' p.leaves)
    (answering : p.Meets (Answers exact) v ∨ ∀ fault s t, R s t → E fault s t) :
    Run.Parallel R E Eq (p.accepts check exact v) (p.accepts check' exact v) := by
  induction p using Pack.induction generalizing v with
  | step id rules ih =>
    rw [accepts, accepts]
    cases mapping : v.mapping? with
    | none => exact .pure rfl
    | some m =>
      have here := answering.imp_left fun meets => meets.here mapping
      refine .lift_bind (ends_of_refused (here.imp_left Answers.told)) fun extra told => ?_
      cases extra with
      | true => exact .pure rfl
      | false =>
        have answered := here.imp_left fun answers => answers.looked told
        exact parallel_acceptRules exact asked answered fun key n q x rule lookup below =>
          ih key n q rule x below (answering.imp_left fun meets => meets.nested mapping rule lookup)

/-- Rules, if the packs in them examine in parallel. -/
theorem parallel_examineRules {rules : List (Value × Rule Value α)} {m : Mapping}
    (asked : Run.ParallelChecks R E check check' (leavesOf rules))
    (looked : ∀ key, (∃ x, m.get key = .ok x) ∨ ∀ fault s t, R s t → E fault s t)
    (nested : ∀ key n q x, (key, .nested n q) ∈ rules → m.get key = .ok x →
      Run.ParallelChecks R E check check' q.leaves →
      Run.Parallel R E Eq (q.examine check x) (q.examine check' x)) :
    Run.Parallel R E Eq (examineRules check rules m) (examineRules check' rules m) := by
  induction rules with
  | nil => exact .pure rfl
  | cons entry rest ih =>
    obtain ⟨key, r⟩ := entry
    have others := ih (fun c leaf => asked c (List.mem_append_right _ leaf))
      fun k n q x rule => nested k n q x (List.mem_cons_of_mem _ rule)
    refine .lift_bind (ends_of_refused (looked key)) fun x lookup => ?_
    have here : Run.Parallel R E Eq (r.examine check key x) (r.examine check' key x) := by
      cases r with
      | leaf n c =>
        refine (asked c (List.mem_append_left _ (List.mem_singleton.mpr rfl)) x).bind ?_
        rintro accepted _ rfl
        cases accepted <;> exact .pure rfl
      | nested n q =>
        have below := nested key n q x List.mem_cons_self lookup fun c leaf =>
          asked c (List.mem_append_left _ leaf)
        refine below.bind ?_
        rintro found _ rfl
        exact .pure rfl
    refine here.bind ?_
    rintro found _ rfl
    refine others.bind ?_
    rintro further _ rfl
    exact .pure rfl

/-- Examination with parallel checks is parallel. All mappings on the way can be listed, or else a
refusal may end both walks. -/
theorem parallel_examine (p : Pack Value α) (v : Value)
    (asked : Run.ParallelChecks R E check check' p.leaves)
    (readable : p.MeetsReadable v ∨ ∀ fault s t, R s t → E fault s t) :
    Run.Parallel R E Eq (p.examine check v) (p.examine check' v) := by
  induction p using Pack.induction generalizing v with
  | step id rules ih =>
    rw [examine, examine]
    cases mapping : v.mapping? with
    | none => exact .pure rfl
    | some m =>
      have listable := readable.imp_left fun meets => meets.here mapping
      have looked (key : Value) := listable.imp_left fun items =>
        items.elim fun _ listed => Mapping.get_of_items listed key
      have below := parallel_examineRules asked looked fun key n q x rule lookup below =>
        ih key n q rule x below (readable.imp_left fun meets => meets.nested mapping rule lookup)
      refine below.bind ?_
      rintro found _ rfl
      exact .lift_bind (ends_of_refused listable) fun entries _ => .pure rfl

end Pack

end Conformance
