import Conformance.Session
import Conformance.Settings.Basic

/-!
# Resolving the settings in force

The settings in force are replaced only as a whole, once their new switch is known.

## Main definitions

* `Session.newSettings` — settings as a new object
* `Session.switchFromEnvironment` — the switch as the environment of the session gives it
* `Session.resolve` — the settings in force from a flag, else from a file, else from the environment
-/

namespace Conformance.Session

/-- Settings as a new object. -/
def newSettings (switch : Except Fault Bool) : Run Session Settings := do
  let enabled ← Run.lift switch
  let id ← fresh
  pure ⟨id, enabled⟩

/-- The switch as the environment of a session gives it. -/
def switchFromEnvironment (s : Session) : Bool :=
  match s.environment with
  | some word => Settings.wordEnables word
  | none => true

/-- The switch from a mapping of the environment, or from the session's own where none is given. -/
def switchFrom (environment : Value) (s : Session) : Except Fault Bool :=
  match environment with
  | .null => .ok s.switchFromEnvironment
  | v => Settings.ofEnvironment v

/-- Replaces the settings in force. A flag wins over a file, and a file over the environment; what
does not win is not looked at. -/
def resolve (flag : Value) (file : Option SettingsFile) : Run Session Settings := do
  let s ← get
  let switch := match flag, file with
    | .null, some file => file.switch
    | .null, none => .ok s.switchFromEnvironment
    | flag, _ => Settings.ofFlag flag
  let settings ← newSettings switch
  modify fun s => { s with settings }
  log (.resolved settings.enabled)
  pure settings

end Conformance.Session
