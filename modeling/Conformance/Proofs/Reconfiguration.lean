import Conformance.Operation
import Conformance.Proofs.Repetition

/-!
# Replacing the settings in force

A session is asked for one thing after the other, and each of them may fail half-way. The settings
in force are replaced by one operation only, once their new switch is known. So whatever has
happened before, that operation either installs new settings, hands them out and makes one entry in
the log, or it fails and leaves the session exactly as it was.

New settings are a new object. For this the numbers of objects have to stay below the next one, and
no operation gives a number back.

## Main definitions

* `SettingsFile.Gives`, `Settings.Decided` — which switch is taken from where
* `Run.KeepsSettings` — a run that keeps the settings in force and gives no number back

## Main results

* `Operation.keepsSettings` — every operation but one keeps the settings
* `Session.resolve_eq` — that one operation replaces them or leaves the session as it was
* `Session.settings_after` — what holds of the settings after any operations
-/

namespace Conformance

variable {β γ : Type}

/-! ### Where the switch is taken from -/

/-- Whether a file gives a switch: it can be decoded and read, it holds an object, and in that
stands a truth value under the name of the switch, or nothing, which leaves validation on. -/
def SettingsFile.Gives (file : SettingsFile) (enabled : Bool) : Prop :=
  ∃ data chars members, file = .content data ∧ Text.decode data = .ok chars ∧
    Document.read (unifyLines chars) = .ok (.object members) ∧
    (Document.member? Settings.memberName members = some (.bool enabled) ∨
      Document.member? Settings.memberName members = none ∧ enabled = true)

theorem SettingsFile.document_eq_ok_iff {file : SettingsFile} {document : Document} :
    file.document = .ok document ↔ ∃ data chars, file = .content data ∧
      Text.decode data = .ok chars ∧ Document.read (unifyLines chars) = .ok document := by
  cases file with
  | missing => simp [SettingsFile.document]
  | directory => simp [SettingsFile.document]
  | content data =>
    cases decoded : Text.decode data with
    | error fault => simp [SettingsFile.document, decoded]
    | ok chars =>
      cases parsed : Document.read (unifyLines chars) with
      | error fault => simp [SettingsFile.document, decoded, parsed]
      | ok other => simp [SettingsFile.document, decoded, parsed]

/-- The switch that a file gives is all that can be had from it; any other file fails. -/
theorem SettingsFile.switch_eq_ok_iff {file : SettingsFile} {enabled : Bool} :
    file.switch = .ok enabled ↔ file.Gives enabled := by
  constructor
  · intro h
    cases read : file.document with
    | error fault =>
      rw [switch, read] at h
      cases h
    | ok document =>
      rw [switch, read] at h
      cases document with
      | object members =>
        obtain ⟨data, chars, content, decoded, parsed⟩ := document_eq_ok_iff.mp read
        refine ⟨data, chars, members, content, decoded, parsed, ?_⟩
        dsimp only [bind, Except.bind] at h
        split at h
        · exact .inr ⟨‹_›, (Except.ok.inj h).symm⟩
        · cases h
          exact .inl ‹_›
        · cases h
      | _ => cases h
  · rintro ⟨data, chars, members, content, decoded, parsed, given⟩
    rw [switch, document_eq_ok_iff.mpr ⟨data, chars, content, decoded, parsed⟩]
    dsimp only [bind, Except.bind]
    rcases given with given | ⟨absent, rfl⟩
    · rw [given]
    · rw [absent]

/-- Which switch is taken from where: a flag that is given decides alone, a file that is given
decides where there is no flag, and the environment where there is neither. -/
inductive Settings.Decided :
    Value → Option SettingsFile → Option String → Bool → Prop
  | flag (enabled : Bool) (file : Option SettingsFile) (environment : Option String) :
      Decided (.bool enabled) file environment enabled
  | file {file : SettingsFile} {enabled : Bool} (environment : Option String)
      (gives : file.Gives enabled) : Decided .null (some file) environment enabled
  | word (word : String) : Decided .null none (some word) (Settings.wordEnables word)
  | silence : Decided .null none none true

/-! ### Runs that keep the settings -/

/-- A run that keeps the settings in force and gives no number back, also if it fails. -/
def Run.KeepsSettings (x : Run Session β) : Prop := ∀ s, Session.Keeps False s (x s).2

namespace Run.KeepsSettings

variable {x : Run Session β}

theorem of_steady {still : Prop} (h : Run.Steady still x) : x.KeepsSettings := fun s =>
  (h.keeps s).mono False.elim

/-- Taking the result as a condition does not change the state. -/
theorem of_truth {x : Run Session Value} {still : Prop} (h : Run.Steady still x.truth) :
    x.KeepsSettings := by
  intro s
  have kept := of_steady h s
  rw [Run.truth, Run.bind_apply] at kept
  rcases ran : x s with ⟨fault | v, t⟩
  · simpa only [ran] using kept
  · simpa only [ran, Run.lift_apply] using kept

theorem lift (answer : Except Fault β) : (Run.lift answer).KeepsSettings :=
  fun s => Session.Keeps.refl False s

theorem pure (b : β) : (pure b : Run Session β).KeepsSettings := lift (.ok b)

theorem raise (fault : Fault) : (Run.raise fault : Run Session β).KeepsSettings :=
  lift (.error fault)

theorem bind {f : β → Run Session γ} (first : x.KeepsSettings) (second : ∀ b, (f b).KeepsSettings) :
    (x >>= f).KeepsSettings := by
  intro s
  have kept := first s
  rw [bind_apply]
  rcases ran : x s with ⟨fault | b, t⟩
  · simpa only [ran] using kept
  · rw [ran] at kept
    exact kept.trans (second b t)

theorem map (f : β → γ) (h : x.KeepsSettings) : (f <$> x).KeepsSettings := by
  rw [map_eq_pure_bind]
  exact h.bind fun _ => pure _

theorem get_bind {f : Session → Run Session β} (h : ∀ s, (f s).KeepsSettings) :
    (get >>= f : Run Session β).KeepsSettings := fun s => h s s

theorem modify {f : Session → Session} (h : ∀ s, Session.Keeps False s (f s)) :
    (modify f : Run Session PUnit).KeepsSettings := h

theorem mapM {f : β → Run Session γ} (h : ∀ b, (f b).KeepsSettings) (bs : List β) :
    (bs.mapM f).KeepsSettings := by
  induction bs with
  | nil => exact pure []
  | cons b bs ih =>
    rw [List.mapM_cons]
    exact (h b).bind fun c => ih.bind fun cs => pure _

end Run.KeepsSettings

theorem Session.keepsSettings_fresh : Session.fresh.KeepsSettings := fun s =>
  ⟨rfl, Nat.le_succ s.nextId, False.elim⟩

theorem le_assignNumber (id next : Nat) : next ≤ ((assignNumber id).run next).2 := by
  unfold assignNumber
  split
  · exact Nat.le_succ next
  · exact Nat.le_refl next

mutual

/-- Numbering gives no number back. -/
theorem Rule.le_number {κ α : Type} (r : Rule κ α) (next : Nat) : next ≤ (r.number.run next).2 := by
  cases r with
  | leaf id check => exact le_assignNumber id next
  | nested id p => exact Nat.le_trans (le_assignNumber id next) (Pack.le_number p _)

theorem Pack.le_number {κ α : Type} (p : Pack κ α) (next : Nat) : next ≤ (p.number.run next).2 := by
  cases p with
  | mk id rules => exact Nat.le_trans (le_assignNumber id next) (Pack.le_numberRules rules _)

theorem Pack.le_numberRules {κ α : Type} (rules : List (κ × Rule κ α)) (next : Nat) :
    next ≤ ((Pack.numberRules rules).run next).2 := by
  match rules with
  | [] => exact Nat.le_refl next
  | (key, r) :: rest => exact Nat.le_trans (Rule.le_number r next) (Pack.le_numberRules rest _)

end

namespace Value

theorem keepsSettings_apply (f x : Value) : (f.apply x).KeepsSettings :=
  .of_truth (f.steady_apply x)

theorem keepsSettings_call (f : Value) (arguments : List Value) :
    (f.call arguments).KeepsSettings := by
  unfold call
  split
  · exact keepsSettings_apply f _
  · -- A check of several arguments.
    rename_i c _ _
    unfold Collective.call
    split
    · exact .of_truth (show Run.Steady False _ from Session.steady_countIs _ _)
    · exact .of_truth (Session.steady_eachOf _ _ fun w => Value.steady_apply _ w)
    · exact .lift _
    · exact .of_truth (Session.steady_entriesHold _ (Value.steady_apply _) (Value.steady_apply _))
    · exact .raise _
  · exact .raise _
  · exact .raise _
  · exact .raise _
  · exact .raise _

theorem keepsSettings_pairAt (index : Nat) (item : Value) : (pairAt index item).KeepsSettings := by
  unfold pairAt
  split
  · refine (Run.KeepsSettings.of_steady item.steady_iterate).bind fun items =>
      (Run.KeepsSettings.lift _).bind fun size => ?_
    split
    · exact .pure _
    · exact .raise _
  · exact .raise _

theorem keepsSettings_pairsFrom {taking : Run Session Unit} (h : taking.KeepsSettings) (index : Nat)
    (items : List Value) : (pairsFrom taking index items).KeepsSettings := by
  induction items generalizing index with
  | nil => exact .pure []
  | cons item rest ih =>
    exact h.bind fun _ => (keepsSettings_pairAt index item).bind fun pair =>
      (Run.KeepsSettings.lift _).bind fun _ => (ih (index + 1)).bind fun pairs => .pure _

theorem keepsSettings_toEntries (v : Value) : v.toEntries.KeepsSettings := by
  unfold toEntries
  split
  · exact .lift _
  · split
    · exact .mapM (fun label => Session.keepsSettings_fresh.bind fun _ => .pure _) _
    · split
      · exact (Run.KeepsSettings.of_steady (Session.steady_left _ _)).bind fun remaining =>
          keepsSettings_pairsFrom
            ((Run.KeepsSettings.of_steady (Session.steady_next? _ _)).bind fun _ => .pure _) 0 _
      · exact (Run.KeepsSettings.of_steady (Value.steady_iterate _)).bind fun items =>
          keepsSettings_pairsFrom (.pure _) 0 _

end Value

namespace Session

variable {schema v given : Value}

theorem keepsSettings_numbering {x : StateM Nat β} (h : ∀ next, next ≤ (x.run next).2) :
    (numbering x).KeepsSettings := fun s => ⟨rfl, h s.nextId, False.elim⟩

theorem keepsSettings_packOf (schema : Value) : (packOf schema).KeepsSettings :=
  .of_steady (show Run.Steady False _ from steady_packOf schema)

theorem keepsSettings_newPack (schema : Value) : (newPack schema).KeepsSettings :=
  (keepsSettings_packOf schema).bind fun p => keepsSettings_numbering p.le_number

theorem keepsSettings_newRule (raw : Value) : (newRule raw).KeepsSettings := by
  unfold newRule
  split
  · exact keepsSettings_numbering (Rule.le_number _)
  · exact .raise _

theorem keepsSettings_verdict (check v : Value) : (check.verdict v).KeepsSettings :=
  .of_steady (check.steady_verdict v)

theorem keepsSettings_checkRule (raw v : Value) : (checkRule raw v).KeepsSettings := by
  refine (keepsSettings_newRule raw).bind fun r => ?_
  cases r with
  | leaf id check => exact keepsSettings_verdict check v
  | nested id p => exact .raise _

theorem keepsSettings_packIsKept (schema : Value) : (packIsKept schema).KeepsSettings :=
  (keepsSettings_newPack schema).bind fun p => (keepsSettings_newPack (.pack p)).bind fun _ =>
    .pure _

theorem keepsSettings_ruleAt (schema key : Value) : (ruleAt schema key).KeepsSettings := by
  refine (keepsSettings_newPack schema).bind fun p => (Run.KeepsSettings.lift _).bind fun _ => ?_
  split
  · exact .pure _
  · exact .raise _

theorem keepsSettings_hasRuleAt (schema key : Value) : (hasRuleAt schema key).KeepsSettings :=
  (keepsSettings_packOf schema).bind fun _ => (Run.KeepsSettings.lift _).bind fun _ => .pure _

theorem keepsSettings_accepts (schema v exact : Value) : (accepts schema v exact).KeepsSettings :=
  .of_steady (steady_accepts schema v exact)

theorem keepsSettings_examine (schema v : Value) : (examine schema v).KeepsSettings :=
  .of_steady (steady_examine schema v)

theorem keepsSettings_views (schema v : Value) : (views schema v).KeepsSettings :=
  (keepsSettings_examine schema v).bind fun _ => (keepsSettings_accepts schema v _).bind fun _ =>
    (keepsSettings_accepts schema v _).bind fun _ => (Run.KeepsSettings.lift _).bind fun _ =>
      (Run.KeepsSettings.lift _).bind fun _ => (Run.KeepsSettings.lift _).bind fun _ =>
        (Run.KeepsSettings.lift _).bind fun _ => .pure _

theorem keepsSettings_nextOf (v : Value) : (nextOf v).KeepsSettings := by
  unfold nextOf
  split
  · exact (Run.KeepsSettings.of_steady (steady_next? _ _)).bind fun _ => .pure _
  · exact .raise _

theorem keepsSettings_log (r : Record) : (log r).KeepsSettings :=
  .of_steady (show Run.Steady False _ from steady_log r)

theorem keepsSettings_buildDefaults (name source : Value) :
    (buildDefaults name source).KeepsSettings := by
  refine (Run.KeepsSettings.lift _).bind fun parts => (keepsSettings_packOf _).bind fun p => ?_
  refine (Run.KeepsSettings.of_steady (p.steady_accepts true _)).bind fun accepted => ?_
  split
  · exact (keepsSettings_log _).bind fun _ => .pure _
  · exact (Run.KeepsSettings.of_steady (p.steady_examine _)).bind fun e =>
      (Run.KeepsSettings.lift _).bind fun _ => .raise _

theorem keepsSettings_overlay (given defaults : Value) :
    (overlay given defaults).KeepsSettings := by
  refine defaults.keepsSettings_toEntries.bind fun base s => ?_
  change Keeps False s ((Run.lift (Value.copyEntries s.nextId (Value.insertAll [] base)) >>= _) s).2
  cases copies : Value.copyEntries s.nextId (Value.insertAll [] base) with
  | error fault => exact .refl False s
  | ok copied =>
    -- The copies have numbers below the double of the next one.
    have grown : Keeps False s { s with nextId := 2 * s.nextId } :=
      ⟨rfl, Nat.le_mul_of_pos_left s.nextId Nat.two_pos, False.elim⟩
    exact grown.trans ((given.keepsSettings_toEntries.bind fun _ => .pure _) _)

theorem keepsSettings_enforce (v schema exact given : Value) :
    (enforce v schema exact given).KeepsSettings := by
  refine (Run.KeepsSettings.lift _).bind fun exact => Run.KeepsSettings.bind ?_ fun enabled => ?_
  · unfold switchFor
    split
    · exact .get_bind fun s => .pure _
    · exact .pure _
    · split
      · exact .raise _
      · exact .raise _
    · exact .raise _
  · exact .of_steady (steady_passing exact enabled v fun p _ => p.steady_examine v)

theorem keepsSettings_guard (schema exact : Value) : (guard schema exact).KeepsSettings :=
  (Run.KeepsSettings.lift _).bind fun _ => .get_bind fun _ =>
    keepsSettings_fresh.bind fun _ => .pure _

theorem keepsSettings_newSettings (switch : Except Fault Bool) :
    (newSettings switch).KeepsSettings :=
  (Run.KeepsSettings.lift switch).bind fun _ => keepsSettings_fresh.bind fun _ => .pure _

theorem keepsSettings_setEnvironment (word : Value) : (setEnvironment word).KeepsSettings :=
  (Run.KeepsSettings.lift _).bind fun _ => .modify fun _ => ⟨rfl, Nat.le_refl _, False.elim⟩

end Session

/-- Every operation but one keeps the settings in force, and gives no number back. -/
theorem Operation.keepsSettings {operation : Operation}
    (h : ∀ flag file, operation ≠ .resolve flag file) : operation.perform.KeepsSettings := by
  cases operation with
  | echo v => exact .pure _
  | call f arguments => exact (f.keepsSettings_call arguments).map _
  | nameOf f => exact (Run.KeepsSettings.lift _).map _
  | check f v => exact (Session.keepsSettings_verdict f v).bind fun _ => .pure _
  | checkRule raw v => exact (Session.keepsSettings_checkRule raw v).bind fun _ => .pure _
  | classify raw => exact (Session.keepsSettings_newRule raw).map _
  | newPack schema => exact (Session.keepsSettings_newPack schema).bind fun _ => .pure _
  | packIsKept schema => exact (Session.keepsSettings_packIsKept schema).bind fun _ => .pure _
  | packText schema => exact (Session.keepsSettings_packOf schema).bind fun _ => .pure _
  | packSize schema => exact (Session.keepsSettings_packOf schema).bind fun _ => .pure _
  | ruleAt schema key => exact (Session.keepsSettings_ruleAt schema key).bind fun _ => .pure _
  | hasRuleAt schema key => exact (Session.keepsSettings_hasRuleAt schema key).bind fun _ => .pure _
  | accepts schema v exact =>
    exact (Session.keepsSettings_accepts schema v exact).bind fun _ => .pure _
  | examine schema v => exact (Session.keepsSettings_examine schema v).bind fun _ => .pure _
  | examinesFree exact schema v =>
    exact ((Session.keepsSettings_examine schema v).bind fun _ => .lift _).bind fun _ => .pure _
  | isExplanation e => exact (Run.KeepsSettings.lift _).bind fun _ => .pure _
  | isFree exact e => exact (Run.KeepsSettings.lift _).bind fun _ => .pure _
  | views schema v => exact Session.keepsSettings_views schema v
  | rows e root => exact (Run.KeepsSettings.lift _).map _
  | newRows e root => exact Session.keepsSettings_fresh.bind fun _ => .pure _
  | next stream => exact (Session.keepsSettings_nextOf stream).map _
  | card e level => exact (Run.KeepsSettings.lift _).bind fun _ => .pure _
  | buildDefaults source name =>
    exact (Session.keepsSettings_buildDefaults name source).bind fun _ => .pure _
  | overlay given defaults =>
    exact (Session.keepsSettings_overlay given defaults).bind fun _ => .pure _
  | enforce v schema exact given =>
    exact (Session.keepsSettings_enforce v schema exact given).map _
  | guard schema exact => exact (Session.keepsSettings_guard schema exact).map _
  | newSettings flag => exact (Session.keepsSettings_newSettings _).bind fun _ => .pure _
  | settingsText flag => exact (Session.keepsSettings_newSettings _).bind fun _ => .pure _
  | settingsFrom environment =>
    exact .get_bind fun s => (Session.keepsSettings_newSettings _).bind fun _ => .pure _
  | settingsOf file => exact (Session.keepsSettings_newSettings _).bind fun _ => .pure _
  | setEnvironment word => exact (Session.keepsSettings_setEnvironment word).bind fun _ => .pure _
  | resolve flag file => exact absurd rfl (h flag file)
  | settings => exact .get_bind fun s => .pure _

/-! ### Replacing them -/

namespace Session

/-- What replacing the settings leaves, if the switch is known. -/
def installed (enabled : Bool) (s : Session) : Session :=
  { s with
    nextId := s.nextId + 1
    settings := ⟨s.nextId, enabled⟩
    records := s.records ++ [.resolved enabled] }

theorem install_apply (switch : Except Fault Bool) (s : Session) :
    (do
      let settings ← newSettings switch
      modify fun s => { s with settings }
      log (.resolved settings.enabled)
      pure settings : Run Session Settings) s =
      match switch with
      | .ok enabled => (.ok ⟨s.nextId, enabled⟩, s.installed enabled)
      | .error fault => (.error fault, s) := by
  cases switch <;> rfl

/-- Settings are replaced once their switch is known, and otherwise nothing happens. -/
theorem resolve_eq (flag : Value) (file : Option SettingsFile) (s : Session) :
    (∃ enabled, Settings.Decided flag file s.environment enabled ∧
      resolve flag file s = (.ok ⟨s.nextId, enabled⟩, s.installed enabled)) ∨
    (∀ enabled, ¬ Settings.Decided flag file s.environment enabled) ∧
      ∃ fault, resolve flag file s = (.error fault, s) := by
  cases flag with
  | null =>
    cases file with
    | none =>
      refine .inl ⟨s.switchFromEnvironment, ?_, install_apply (.ok s.switchFromEnvironment) s⟩
      rw [switchFromEnvironment]
      cases s.environment with
      | none => exact .silence
      | some word => exact .word word
    | some file =>
      have ran : resolve .null (some file) s = _ := install_apply file.switch s
      cases taken : file.switch with
      | ok enabled =>
        rw [taken] at ran
        exact .inl ⟨enabled, .file _ (SettingsFile.switch_eq_ok_iff.mp taken), ran⟩
      | error fault =>
        rw [taken] at ran
        refine .inr ⟨fun enabled decided => ?_, fault, ran⟩
        cases decided with
        | file environment gives =>
          rw [SettingsFile.switch_eq_ok_iff.mpr gives] at taken
          cases taken
  | bool enabled =>
    -- Neither the file nor the environment is looked at.
    exact .inl ⟨enabled, .flag enabled file s.environment, install_apply (.ok enabled) s⟩
  | _ =>
    exact .inr ⟨fun enabled decided => (nomatch decided), _, install_apply (.error _) s⟩

theorem perform_resolve (flag : Value) (file : Option SettingsFile) (s : Session) :
    (∃ enabled, Settings.Decided flag file s.environment enabled ∧
      (Operation.resolve flag file).perform s =
        (.ok (.value (.settings ⟨s.nextId, enabled⟩)), s.installed enabled)) ∨
    (∀ enabled, ¬ Settings.Decided flag file s.environment enabled) ∧
      ∃ fault, (Operation.resolve flag file).perform s = (.error fault, s) := by
  rcases resolve_eq flag file s with ⟨enabled, decided, ran⟩ | ⟨undecided, fault, ran⟩
  · exact .inl ⟨enabled, decided, Run.bind_apply_ok ran _⟩
  · exact .inr ⟨undecided, fault, Run.bind_apply_error ran _⟩

/-- The settings in force are an object like any other: their number is not given to a new one. -/
theorem settings_id_lt_of_perform {s : Session} (h : s.settings.id < s.nextId)
    (operation : Operation) :
    (operation.perform s).2.settings.id < (operation.perform s).2.nextId := by
  by_cases resolves : ∃ flag file, operation = .resolve flag file
  · obtain ⟨flag, file, rfl⟩ := resolves
    rcases perform_resolve flag file s with ⟨enabled, -, ran⟩ | ⟨-, fault, ran⟩
    · -- New settings take the number that was free.
      rw [ran]
      exact Nat.lt_succ_self s.nextId
    · rw [ran]
      exact h
  · have kept := Operation.keepsSettings (fun flag file equal => resolves ⟨flag, file, equal⟩) s
    rw [kept.settings]
    exact Nat.lt_of_lt_of_le h kept.nextId

theorem settings_id_lt_after {s : Session} (h : s.settings.id < s.nextId)
    (operations : List Operation) :
    (s.after operations).settings.id < (s.after operations).nextId := by
  induction operations generalizing s with
  | nil => exact h
  | cons operation rest ih => exact ih (settings_id_lt_of_perform h operation)

/-- After any operations, whatever they were and however they ended, the settings in force are an
object that can be asked for. No operation but one changes them. That one takes the switch from a
flag, else from a file, else from the environment, and looks at nothing behind what it takes it
from. Either it installs and hands out new settings with that switch, with one entry in the log, or
there is no switch to be taken, and it fails and leaves all as it was. -/
theorem settings_after (operations : List Operation) :
    let s := Session.initial.after operations
    s.settings.id < s.nextId ∧
      Operation.settings.perform s = (.ok (.value (.settings s.settings)), s) ∧
      (∀ operation : Operation, (∀ flag file, operation ≠ .resolve flag file) →
        (operation.perform s).2.settings = s.settings) ∧
      ∀ flag file,
        (∃ enabled, Settings.Decided flag file s.environment enabled ∧
          (Operation.resolve flag file).perform s =
            (.ok (.value (.settings ⟨s.nextId, enabled⟩)), { s with
              nextId := s.nextId + 1
              settings := ⟨s.nextId, enabled⟩
              records := s.records ++ [.resolved enabled] })) ∨
        (∀ enabled, ¬ Settings.Decided flag file s.environment enabled) ∧
          ∃ fault, (Operation.resolve flag file).perform s = (.error fault, s) := by
  intro s
  have small : s.settings.id < s.nextId := settings_id_lt_after (by decide) operations
  exact ⟨small, rfl, fun operation other => (Operation.keepsSettings other s).settings,
    fun flag file => perform_resolve flag file s⟩

end Session

end Conformance
