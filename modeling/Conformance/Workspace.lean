import Conformance.Operation

/-!
# Functions in a session

A program keeps functions beside its session, and can decorate them so that their results are
enforced to conform. It is decided twice whether anything is checked: a function that is decorated
while validation is off is left as it is, and any other asks for the settings again at each call.

A decorator is made first, and applied to functions later. Functions are arbitrary runs: they may
fail, and may change the session, its settings included.

## Main definitions

* `Decorator`, `Decorator.new`, `Decorator.apply`
* `Workspace` — a session with the functions and the decorators of a program
* `Step`, `Step.perform` — what the program can do
* `Workspace.after` — the workspace that a list of steps leaves
-/

namespace Conformance

/-- What makes guarded functions: a schema, which is not looked at before it is needed, and
whether it is to be met exactly. -/
structure Decorator where
  schema : Value
  exact : Bool

namespace Decorator

/-- A decorator. Its flag is checked, also while validation is off. -/
def new (schema exact : Value) : Except Fault Decorator := do
  let exact ← Session.requireFlag .exact exact
  .ok ⟨schema, exact⟩

variable {ι : Type}

/-- The function that stands for `f` from now on: `f` itself while validation is off. Here `check`
is what a callable says about a value. -/
def apply (check : Value → Value → Run Session Bool) (d : Decorator) (f : ι → Run Session Value) :
    Run Session (ι → Run Session Value) := do
  if (← get).settings.enabled then
    pure fun x => do Session.enforceBy check (← f x) d.schema (.bool d.exact) .null
  else pure f

end Decorator

/-- A session with the functions and the decorators of a program, in the order in which they came.
A function is called with an argument of type `ι`. -/
structure Workspace (ι : Type) where
  session : Session
  functions : List (ι → Run Session Value)
  decorators : List Decorator

/-- What a program can do. Functions and decorators go by their numbers. -/
inductive Step (ι : Type) where
  /-- Replaces the settings in force. -/
  | configure (flag : Value) (file : Option SettingsFile)
  /-- Changes what the environment says. -/
  | setEnvironment (word : Value)
  /-- Makes a decorator. -/
  | newDecorator (schema exact : Value)
  /-- Makes a new function out of one. -/
  | decorate (decorator function : Nat)
  /-- Enforces a value to conform. -/
  | validate (v schema exact given : Value)
  | call (function : Nat) (x : ι)

variable {ι : Type}

namespace Workspace

/-- A run of the session, which leaves functions and decorators as they are. -/
def inSession {α : Type} (run : Run Session α) : Run (Workspace ι) α := fun w =>
  ((run w.session).1, { w with session := (run w.session).2 })

end Workspace

/-- The run of a step. What there is not is not decorated and not called. -/
def Step.perform (check : Value → Value → Run Session Bool) : Step ι → Run (Workspace ι) Value
  | configure flag file => do
    return .settings (← Workspace.inSession (Session.resolve flag file))
  | setEnvironment word => Workspace.inSession do
    Session.setEnvironment word
    return .null
  | newDecorator schema exact => do
    let d ← Run.lift (Decorator.new schema exact)
    modify fun w => { w with decorators := w.decorators ++ [d] }
    return .null
  | decorate decorator function => do
    let w ← get
    match w.decorators[decorator]?, w.functions[function]? with
    | some d, some f =>
      let g ← Workspace.inSession (d.apply check f)
      modify fun w => { w with functions := w.functions ++ [g] }
      return .null
    | _, _ => return .null
  | validate v schema exact given =>
    Workspace.inSession (Session.enforceBy check v schema exact given)
  | call function x => do
    match (← get).functions[function]? with
    | some f => Workspace.inSession (f x)
    | none => return .null

/-- The workspace that steps leave, performed one after the other. A fault of one of them does not
keep the next from being performed. -/
def Workspace.after (check : Value → Value → Run Session Bool) (w : Workspace ι)
    (steps : List (Step ι)) : Workspace ι :=
  steps.foldl (fun w step => (step.perform check w).2) w

end Conformance
