import Conformance.Proofs.Enforcement
import Conformance.Workspace

/-!
# What decorated functions do

Validation can be switched on and off at any time, and a decorated function meets the switch twice.
When it is decorated, the switch decides what it is: the function as it was, or one that validates
its results. Nothing that happens later changes which of the two it is, since functions are only
ever added to a workspace. When it is called, one that validates does so under the settings that are
in force once its result is there.

While the switch is off, a validation does not even read the schema.

## Main definitions

* `Session.Validated` — what a validation comes to, with the switch on or off

## Main results

* `Workspace.prefix_perform`, `Workspace.prefix_after` — what a workspace has stays there
* `Session.enforceBy_validated` — a validation under the given settings, or under those in force
* `Workspace.decorated_calls` — the calls of decorated functions, whatever happened in between
* `Session.guard_eq_apply` — guards as values are decorated functions
-/

namespace Conformance

variable {ι α : Type} {check : Value → Value → Run Session Bool}

namespace Session

/-- What a validation of a value comes to in a state. With the switch off the value is passed
through, whatever the schema and the checks are. With the switch on it is examined; then it is
passed, or rejected with what was found. -/
def Validated (check : Value → Value → Run Session Bool) (schema : Value) (exact enabled : Bool)
    (v : Value) (s : Session) (outcome : Except Fault Value × Session) : Prop :=
  (enabled = false → outcome = (.ok v, { s with records := s.records ++ [.passedThrough] })) ∧
  (enabled = true → outcome = (do
    let e ← examineBy check schema v
    if e.isFree exact then pure v else reject exact e : Run Session Value) s)

theorem passing_validated (check : Value → Value → Run Session Bool) (schema : Value)
    (exact enabled : Bool) (v : Value) (s : Session) :
    Validated check schema exact enabled v s
      (passing check (Pack.ofValue schema) exact enabled v s) := by
  constructor
  · rintro rfl
    rfl
  · rintro rfl
    unfold passing examineBy packOf
    cases Pack.ofValue schema <;> rfl

/-- Given settings decide about a validation, and otherwise those in force. -/
theorem enforceBy_validated (check : Value → Value → Run Session Bool) (schema : Value)
    (exact : Bool) (v : Value) (s : Session) :
    (∀ given : Settings, Validated check schema exact given.enabled v s
      (enforceBy check v schema (.bool exact) (.settings given) s)) ∧
    Validated check schema exact s.settings.enabled v s
      (enforceBy check v schema (.bool exact) .null s) := by
  constructor
  · intro given
    have switch : switchFor (.settings given) s = (.ok given.enabled, s) := rfl
    rw [enforceBy_of_switchFor switch]
    exact passing_validated check schema exact given.enabled v s
  · have switch : switchFor .null s = (.ok s.settings.enabled, s) := rfl
    rw [enforceBy_of_switchFor switch]
    exact passing_validated check schema exact s.settings.enabled v s

/-- What is no truth value is no flag. -/
theorem requireFlag_eq_error (flag : Flag) {v : Value} (h : ∀ b, v ≠ .bool b) :
    requireFlag flag v = .error (.flagNotBool flag v.typeName) := by
  cases v with
  | bool b => exact absurd rfl (h b)
  | _ => rfl

end Session

namespace Decorator

/-- A function whose results are validated under the settings that are then in force. -/
def validating (check : Value → Value → Run Session Bool) (d : Decorator)
    (f : ι → Run Session Value) (x : ι) : Run Session Value := do
  Session.enforceBy check (← f x) d.schema (.bool d.exact) .null

theorem apply_eq (d : Decorator) (f : ι → Run Session Value) (s : Session) :
    d.apply check f s = (.ok (if s.settings.enabled then d.validating check f else f), s) := by
  rw [apply, Run.get_bind_apply]
  cases s.settings.enabled <;> rfl

end Decorator

namespace Workspace

@[simp] theorem inSession_apply (run : Run Session α) (w : Workspace ι) :
    inSession run w = ((run w.session).1, { w with session := (run w.session).2 }) := rfl

/-! ### Steps -/

variable {w : Workspace ι} {d : Decorator} {f : ι → Run Session Value} {k n : Nat}

theorem perform_newDecorator (schema : Value) (exact : Bool) (w : Workspace ι) :
    (Step.newDecorator schema (.bool exact)).perform check w =
      (.ok .null, { w with decorators := w.decorators ++ [⟨schema, exact⟩] }) := rfl

theorem perform_decorate (decorator : w.decorators[k]? = some d)
    (function : w.functions[n]? = some f) :
    (Step.decorate k n).perform check w = (.ok .null, { w with
      functions := w.functions ++
        [if w.session.settings.enabled then d.validating check f else f] }) := by
  rw [Step.perform, Run.get_bind_apply]
  simp only [decorator, function]
  rw [Run.bind_apply, inSession_apply, Decorator.apply_eq]
  rfl

theorem perform_call (function : w.functions[n]? = some f) (x : ι) :
    (Step.call n x).perform check w = inSession (f x) w := by
  rw [Step.perform, Run.get_bind_apply]
  simp only [function]

/-- A step only adds functions and decorators. -/
theorem prefix_perform (check : Value → Value → Run Session Bool) (step : Step ι)
    (w : Workspace ι) :
    w.functions <+: (step.perform check w).2.functions ∧
      w.decorators <+: (step.perform check w).2.decorators := by
  cases step with
  | configure flag file =>
    simp only [Step.perform, Run.bind_apply, inSession_apply]
    rcases Session.resolve flag file w.session with ⟨_ | _, s⟩
    · exact ⟨List.prefix_rfl, List.prefix_rfl⟩
    · exact ⟨List.prefix_rfl, List.prefix_rfl⟩
  | setEnvironment word => exact ⟨List.prefix_rfl, List.prefix_rfl⟩
  | newDecorator schema exact =>
    rw [Step.perform]
    cases Decorator.new schema exact with
    | error fault => exact ⟨List.prefix_rfl, List.prefix_rfl⟩
    | ok d => exact ⟨List.prefix_rfl, List.prefix_append _ _⟩
  | decorate k n =>
    cases decorator : w.decorators[k]? with
    | none =>
      rw [Step.perform, Run.get_bind_apply]
      simp only [decorator]
      exact ⟨List.prefix_rfl, List.prefix_rfl⟩
    | some d =>
      cases function : w.functions[n]? with
      | none =>
        rw [Step.perform, Run.get_bind_apply]
        simp only [decorator, function]
        exact ⟨List.prefix_rfl, List.prefix_rfl⟩
      | some f =>
        rw [perform_decorate decorator function]
        exact ⟨List.prefix_append _ _, List.prefix_rfl⟩
  | validate v schema exact given => exact ⟨List.prefix_rfl, List.prefix_rfl⟩
  | call n x =>
    cases function : w.functions[n]? with
    | none =>
      rw [Step.perform, Run.get_bind_apply]
      simp only [function]
      exact ⟨List.prefix_rfl, List.prefix_rfl⟩
    | some f =>
      rw [perform_call function]
      exact ⟨List.prefix_rfl, List.prefix_rfl⟩

theorem after_cons (step : Step ι) (steps : List (Step ι)) :
    w.after check (step :: steps) = (step.perform check w).2.after check steps := rfl

/-- Steps only add functions and decorators. -/
theorem prefix_after (check : Value → Value → Run Session Bool) (w : Workspace ι)
    (steps : List (Step ι)) :
    w.functions <+: (w.after check steps).functions ∧
      w.decorators <+: (w.after check steps).decorators := by
  induction steps generalizing w with
  | nil => exact ⟨List.prefix_rfl, List.prefix_rfl⟩
  | cons step steps ih =>
    obtain ⟨functions, decorators⟩ := prefix_perform check step w
    obtain ⟨functions', decorators'⟩ := ih (step.perform check w).2
    exact ⟨functions.trans functions', decorators.trans decorators'⟩

theorem getElem?_functions_after (function : w.functions[n]? = some f) (steps : List (Step ι)) :
    (w.after check steps).functions[n]? = some f := by
  obtain ⟨more, equal⟩ := (prefix_after check w steps).1
  have bound := (List.getElem?_eq_some_iff.mp function).1
  rw [← equal, List.getElem?_append_left bound, function]

theorem getElem?_decorators_after (decorator : w.decorators[k]? = some d)
    (steps : List (Step ι)) : (w.after check steps).decorators[k]? = some d := by
  obtain ⟨more, equal⟩ := (prefix_after check w steps).2
  have bound := (List.getElem?_eq_some_iff.mp decorator).1
  rw [← equal, List.getElem?_append_left bound, decorator]

/-- A new decorator, after any further steps. -/
theorem getElem?_decorators_new (schema : Value) (exact : Bool) (steps : List (Step ι)) :
    (w.after check (.newDecorator schema (.bool exact) :: steps)).decorators[w.decorators.length]? =
      some ⟨schema, exact⟩ := by
  rw [after_cons, perform_newDecorator]
  exact getElem?_decorators_after List.getElem?_concat_length steps

/-- A new function, after any further steps. -/
theorem getElem?_functions_decorate (decorator : w.decorators[k]? = some d)
    (function : w.functions[n]? = some f) (steps : List (Step ι)) :
    (w.after check (.decorate k n :: steps)).functions[w.functions.length]? =
      some (if w.session.settings.enabled then d.validating check f else f) := by
  rw [after_cons, perform_decorate decorator function]
  exact getElem?_functions_after List.getElem?_concat_length steps

/-! ### Whole sessions -/

/-- A decorator is made in `w` and applied to `f` in `made`, and the new function is called in
`now`, each after any steps at all. If validation was off when it was applied, the call is one of
`f`, whatever the settings have become. Otherwise the call validates the result of `f` under the
settings that are then in force. A validation with settings of its own goes by these, in any
workspace, and a flag that is no truth value is refused at once, under any settings. -/
theorem decorated_calls (check : Value → Value → Run Session Bool) (w : Workspace ι)
    (schema : Value) (exact : Bool) (n : Nat) (f : ι → Run Session Value) (x : ι)
    (between later : List (Step ι))
    (function : (w.after check (.newDecorator schema (.bool exact) :: between)).functions[n]? =
      some f) :
    let made := w.after check (.newDecorator schema (.bool exact) :: between)
    let now := made.after check (.decorate w.decorators.length n :: later)
    let call := (Step.call made.functions.length x).perform check
    (made.session.settings.enabled = false →
      now.functions[made.functions.length]? = some f ∧ call now = inSession (f x) now) ∧
    (made.session.settings.enabled = true →
      call now = inSession (do Session.enforceBy check (← f x) schema (.bool exact) .null) now ∧
      ∀ y s, f x now.session = (.ok y, s) → ∃ answer t,
        call now = (answer, { now with session := t }) ∧
        Session.Validated check schema exact s.settings.enabled y s (answer, t)) ∧
    (∀ v (given : Settings), ∃ answer t,
      (Step.validate v schema (.bool exact) (.settings given)).perform check now =
        (answer, { now with session := t }) ∧
      Session.Validated check schema exact given.enabled v now.session (answer, t)) ∧
    ∀ flag, (∀ b, flag ≠ .bool b) → ∃ fault, fault = .flagNotBool .exact flag.typeName ∧
      fault.kind = "SchemaError" ∧
      (Step.newDecorator schema flag).perform check now = (.error fault, now) ∧
      ∀ v given, (Step.validate v schema flag given).perform check now = (.error fault, now) := by
  intro made now call
  -- Steps only add functions, so the one that was made is still there.
  have there : now.functions[made.functions.length]? =
      some (if made.session.settings.enabled then
        Decorator.validating check ⟨schema, exact⟩ f else f) :=
    getElem?_functions_decorate (getElem?_decorators_new schema exact between) function later
  refine ⟨fun disabled => ?_, fun enabled => ?_, fun v given => ?_, fun flag wrong => ?_⟩
  · simp only [disabled] at there
    exact ⟨there, perform_call there x⟩
  · simp only [enabled, if_true] at there
    have called : call now = inSession (Decorator.validating check ⟨schema, exact⟩ f x) now :=
      perform_call there x
    refine ⟨called, fun y s ran => ?_⟩
    have validated := (Session.enforceBy_validated check schema exact y s).2
    refine ⟨(Session.enforceBy check y schema (.bool exact) .null s).1,
      (Session.enforceBy check y schema (.bool exact) .null s).2, ?_, validated⟩
    rw [called, inSession_apply, Decorator.validating, Run.bind_apply_ok ran]
  · exact ⟨_, _, rfl, (Session.enforceBy_validated check schema exact v now.session).1 given⟩
  · have refused := Session.requireFlag_eq_error .exact wrong
    refine ⟨_, rfl, rfl, ?_, fun v given => ?_⟩
    · rw [Step.perform, Decorator.new, refused]
      rfl
    · rw [Step.perform, Session.enforceBy, refused]
      rfl

/-- A function decorated while validation is off and called while it is on, with a schema that is
none; and one decorated while it is on, with the value that its schema does not accept, called
while it is off and while it is on again. -/
theorem decorated_calls_switched :
    let identity : Value → Run Session Value := pure
    let w : Workspace Value := ⟨.initial, [identity], []⟩
    let on : Step Value := .configure (.bool true) none
    let off : Step Value := .configure (.bool false) none
    let schema : Value := .dict 2 [(.text "a", .callable 3 (.check .number))]
    let v : Value := .dict 4 [(.text "a", .text "one")]
    let e : Explanation := ⟨[.value (.text "a") (.text "one")], []⟩
    let apart := w.after Value.verdict [.newDecorator (.int 5) (.bool true), off, .decorate 0 0, on]
    let calledOff := w.after Value.verdict [.newDecorator schema (.bool true), .decorate 0 0, off]
    let calledOn := w.after Value.verdict
      [.newDecorator schema (.bool true), .decorate 0 0, off, .setEnvironment (.text "no"), on]
    ((Step.call 1 v).perform Value.verdict apart).1 = .ok v ∧
    ((Step.call 1 v).perform Value.verdict calledOff).1 = .ok v ∧
    ((Step.call 1 v).perform Value.verdict calledOn).1 =
      .error (.nonconforming [⟨"root.a", .invalid, .text "one"⟩] e) := by
  intro identity w on off schema v e apart calledOff calledOn
  have inApart := (decorated_calls Value.verdict w (.int 5) true 0 identity v [off] [on] rfl).1 rfl
  have inOff := (decorated_calls Value.verdict w schema true 0 identity v [] [off] rfl).2.1 rfl
  have inOn := (decorated_calls Value.verdict w schema true 0 identity v []
    [off, .setEnvironment (.text "no"), on] rfl).2.1 rfl
  obtain ⟨_, _, ranOff, passed, -⟩ := inOff.2 v _ rfl
  obtain ⟨_, _, ranOn, -, examined⟩ := inOn.2 v _ rfl
  refine ⟨congrArg Prod.fst inApart.2, ?_, ?_⟩
  · exact (congrArg Prod.fst ranOff).trans (congrArg Prod.fst (passed rfl))
  · exact (congrArg Prod.fst ranOn).trans (congrArg Prod.fst (examined rfl))

end Workspace

namespace Session

/-- Called, the checks of a pack are those that stand in it. -/
theorem passing_checks (p : Pack Value Value) (exact enabled : Bool) (x : Value) :
    passing (fun check => check) (.ok p.checks) exact enabled x =
      passing Value.verdict (.ok p) exact enabled x := by
  simp only [passing, Pack.checks_eq_map, Pack.examine_map]

/-- A guard as a value is the identity, decorated: it is refused for the same flags, and else it is
a new callable that is called as the decorated identity is. -/
theorem guard_eq_apply (schema exact : Value) (s : Session) :
    (∀ fault, Decorator.new schema exact = .error fault →
      guard schema exact s = (.error fault, s)) ∧
    ∀ d, Decorator.new schema exact = .ok d → ∃ id g,
      guard schema exact s = (.ok (.callable id g), { s with nextId := s.nextId + 1 }) ∧
      d.apply Value.verdict (pure : Value → Run Session Value) s = (.ok g.apply, s) := by
  unfold Decorator.new guard
  cases requireFlag .exact exact with
  | error fault => exact ⟨fun _ refused => by cases refused; rfl, nofun⟩
  | ok exact =>
    refine ⟨nofun, fun d made => ?_⟩
    cases made
    refine ⟨s.nextId,
      if s.settings.enabled then .guarded (Pack.ofValue schema) exact else .returning, rfl, ?_⟩
    rw [Decorator.apply_eq]
    cases s.settings.enabled with
    | false => rfl
    | true =>
      have called : Decorator.validating Value.verdict ⟨schema, exact⟩ pure =
          Callable.apply (.guarded (Pack.ofValue schema) exact) := by
        funext x t
        have switch : switchFor .null t = (.ok t.settings.enabled, t) := rfl
        rw [Decorator.validating, pure_bind, enforceBy_of_switchFor switch]
        cases Pack.ofValue schema with
        | error cause => rfl
        | ok p => rw [Callable.apply, Run.get_bind_apply, passing_checks]
      simp only [if_true, called]

end Session

end Conformance
