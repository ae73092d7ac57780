import Conformance.Proofs.Enforcement
import Conformance.Proofs.PartialReading
import Mathlib.Logic.Relation

/-!
# Malformed schemas

To read a schema is to read each value at its keys as a rule, and what is below a mapping before
what comes after it. A rule, a mapping or a callable stands for a rule, and nothing else does. The
first value that stands for none ends the reading, and the fault names its type. A schema that is no
mapping is at fault itself. What is below a rule or a pack has been read when that was made, and is
not read again.

Nothing is checked before the whole schema has been read. So on a malformed schema all walks end
with the fault of the reading, whatever they are to look at, and without a call.

## Main definitions

* `Value.standsForRule` — whether a value stands for a rule, whatever is below it
* `Value.Above` — what is read as a rule where a schema is read
* `Value.rulesBelow` — the same, in the order in which it is read

## Main results

* `Value.mem_rulesBelow_iff` — the order of reading leaves nothing out
* `Rule.ofEntries_malformed` — reading finds the first value that stands for no rule
* `Session.newPack_fails` — which schemas are malformed, why, and what becomes of walks
-/

namespace Conformance

namespace Value

/-! ### What is read as a rule -/

/-- Whether a value stands for a rule, whatever is below it: it is a rule, a mapping or a
callable. -/
def standsForRule : Value → Bool
  | rule _ => true
  | v => v.isMapping || v.isCallable

/-- The values at the keys of a mapping that has to be read, which a pack has not. -/
def ruleValues : Value → List Value
  | dict _ entries | view entries => entries.map (·.2)
  | _ => []

/-- `v.Above w`: through nested mappings that have to be read, `w` is reached from `v`. -/
def Above : Value → Value → Prop := Relation.TransGen fun v w => w ∈ v.ruleValues

mutual

/-- All that is reached from a value, what is below a mapping right after it. -/
def rulesBelow : Value → List Value
  | dict _ entries | view entries => rulesIn entries
  | _ => []
termination_by structural a => a

/-- The values of entries, each with all that is reached from it. -/
def rulesIn : List (Value × Value) → List Value
  | [] => []
  | (_, v) :: rest => v :: (v.rulesBelow ++ rulesIn rest)
termination_by structural a => a

end

/-- Each value of entries is read, and then all that is below it. -/
theorem mem_rulesIn_of_mem {entries : List (Value × Value)} {v w : Value}
    (member : v ∈ entries.map (·.2)) (h : w ∈ v :: v.rulesBelow) : w ∈ rulesIn entries := by
  induction entries with
  | nil => cases member
  | cons entry rest ih =>
    rw [rulesIn, ← List.cons_append]
    rcases List.mem_cons.mp member with rfl | member
    · exact List.mem_append_left _ h
    · exact List.mem_append_right _ (ih member)

theorem mem_rulesBelow_of_mem {v w x : Value} (member : x ∈ v.ruleValues)
    (h : w ∈ x :: x.rulesBelow) : w ∈ v.rulesBelow := by
  cases v with
  | dict id entries | view entries => exact mem_rulesIn_of_mem member h
  | _ => cases member

mutual

theorem above_of_mem_rulesBelow (v : Value) {w : Value} (h : w ∈ v.rulesBelow) : v.Above w := by
  cases v with
  | dict id entries | view entries =>
    obtain ⟨x, member, rfl | further⟩ := exists_above_of_mem_rulesIn entries h
    · exact .single member
    · exact .head member further
  | _ => cases h

theorem exists_above_of_mem_rulesIn (entries : List (Value × Value)) {w : Value}
    (h : w ∈ rulesIn entries) : ∃ v ∈ entries.map (·.2), w = v ∨ v.Above w := by
  match entries with
  | [] => cases h
  | (key, v) :: rest =>
    rcases List.mem_cons.mp h with rfl | h
    · exact ⟨w, List.mem_cons_self, .inl rfl⟩
    · rcases List.mem_append.mp h with below | later
      · exact ⟨v, List.mem_cons_self, .inr (above_of_mem_rulesBelow v below)⟩
      · obtain ⟨x, member, reached⟩ := exists_above_of_mem_rulesIn rest later
        exact ⟨x, List.mem_cons_of_mem v member, reached⟩

end

/-- The order of reading leaves nothing out and adds nothing. -/
theorem mem_rulesBelow_iff {v w : Value} : w ∈ v.rulesBelow ↔ v.Above w := by
  refine ⟨above_of_mem_rulesBelow v, fun h => ?_⟩
  induction h using Relation.TransGen.head_induction_on with
  | single member => exact mem_rulesBelow_of_mem member List.mem_cons_self
  | head member further ih => exact mem_rulesBelow_of_mem member (List.mem_cons_of_mem _ ih)

end Value

/-! ### Reading up to the first fault -/

/-- What values come to that are to be rules: all of them stand for one, or the first that does not
is at fault. -/
def Malformed.ofRules (values : List Value) : Except Malformed Unit :=
  match values.find? fun v => !v.standsForRule with
  | none => .ok ()
  | some v => .error (.rule v.typeName)

namespace Malformed

theorem ofRules_append (values more : List Value) :
    ofRules (values ++ more) = (do ofRules values; ofRules more) := by
  rw [ofRules, List.find?_append, ofRules]
  cases values.find? fun v => !v.standsForRule with
  | none => rfl
  | some v => rfl

theorem ofRules_cons_of_standsForRule {v : Value} (h : v.standsForRule = true)
    (more : List Value) : ofRules (v :: more) = ofRules more := by
  rw [ofRules, List.find?_cons_of_neg (by simp [h]), ofRules]

theorem ofRules_eq_ok_iff {values : List Value} :
    ofRules values = .ok () ↔ ∀ v ∈ values, v.standsForRule = true := by
  rw [ofRules]
  cases found : values.find? fun v => !v.standsForRule with
  | none => simpa using found
  | some v =>
    have bad : v.standsForRule = false := by simpa using List.find?_some found
    refine iff_of_false nofun fun all => ?_
    simp [all v (List.mem_of_find?_eq_some found)] at bad

/-- The first of the values that stands for no rule is at fault. -/
theorem ofRules_eq_error_iff {values : List Value} {cause : Malformed} :
    ofRules values = .error cause ↔ ∃ before w after, values = before ++ w :: after ∧
      (∀ v ∈ before, v.standsForRule = true) ∧ w.standsForRule = false ∧
      cause = .rule w.typeName := by
  rw [ofRules]
  constructor
  · intro fails
    split at fails
    case h_1 => cases fails
    case h_2 w found =>
      cases fails
      obtain ⟨bad, before, after, order, good⟩ := List.find?_eq_some_iff_append.mp found
      exact ⟨before, w, after, order, by simpa using good, by simpa using bad, rfl⟩
  · rintro ⟨before, w, after, rfl, good, bad, rfl⟩
    have found : ((before ++ w :: after).find? fun v => !v.standsForRule) = some w :=
      List.find?_eq_some_iff_append.mpr
        ⟨by simp [bad], before, after, rfl, by simpa using good⟩
    rw [found]

end Malformed

namespace Rule

mutual

/-- A value is read as a rule unless something on the way stands for none, and the first such value
is at fault. -/
theorem ofValue_malformed (v : Value)
    (listed : ∀ w ∈ v :: v.rulesBelow, w.IsListable) :
    (ofValue v).map (fun _ => ()) = Malformed.ofRules (v :: v.rulesBelow) := by
  cases v with
  | dict id entries | view entries =>
    have inside := ofEntries_malformed entries (List.forall_mem_cons.mp listed).2
    rw [Malformed.ofRules_cons_of_standsForRule rfl, Value.rulesBelow, ← inside, ofValue]
    cases ofEntries entries <;> rfl
  | rule | pack | callable => rfl
  | probe id operation =>
    cases operation with
    | lookup | unlisted => exact absurd (listed _ List.mem_cons_self _ rfl) nofun
    | _ => rfl
  | _ => rfl

/-- Entries are read one after the other, each with all that is below it. -/
theorem ofEntries_malformed (entries : List (Value × Value))
    (listed : ∀ w ∈ Value.rulesIn entries, w.IsListable) :
    (ofEntries entries).map (fun _ => ()) = Malformed.ofRules (Value.rulesIn entries) := by
  match entries with
  | [] => rfl
  | (key, v) :: rest =>
    -- What is below the first value is read before the values after it, as in the list.
    rw [Value.rulesIn, ← List.cons_append] at listed
    obtain ⟨first, others⟩ := List.forall_mem_append.mp listed
    rw [Value.rulesIn, ← List.cons_append, Malformed.ofRules_append,
      ← ofValue_malformed v first, ← ofEntries_malformed rest others, ofEntries]
    cases ofValue v with
    | error cause => rfl
    | ok r => cases ofEntries rest <;> rfl

end

end Rule

namespace Pack

/-- A mapping is read as a pack unless something below it stands for no rule, and the first such
value is at fault. -/
theorem ofValue_malformed {schema : Value} (mapping : schema.isMapping = true)
    (listed : ∀ w ∈ schema :: schema.rulesBelow, w.IsListable) :
    (ofValue schema).map (fun _ => ()) = Malformed.ofRules schema.rulesBelow := by
  obtain ⟨here, below⟩ := List.forall_mem_cons.mp listed
  cases schema with
  | dict id entries | view entries =>
    rw [Value.rulesBelow, ← Rule.ofEntries_malformed entries below, ofValue]
    cases Rule.ofEntries entries <;> rfl
  | pack p => rfl
  | probe id operation =>
    cases operation with
    | lookup | unlisted => exact absurd (here _ rfl) nofun
    | _ => cases mapping
  | _ => cases mapping

/-- What is no mapping is no schema. -/
theorem ofValue_of_not_isMapping {schema : Value} (unmapped : schema.isMapping = false) :
    ofValue schema = .error (.schema schema.typeName) := by
  cases schema with
  | dict | view | pack => cases unmapped
  | probe id operation =>
    cases operation with
    | lookup | unlisted => cases unmapped
    | _ => rfl
  | _ => rfl

/-- Why a schema cannot be read: it is no mapping, or something below it stands for no rule, and
then the first such value is at fault. -/
theorem ofValue_eq_error_iff {schema : Value} {cause : Malformed}
    (listed : ∀ w ∈ schema :: schema.rulesBelow, w.IsListable) :
    ofValue schema = .error cause ↔
      schema.isMapping = false ∧ cause = .schema schema.typeName ∨
      schema.isMapping = true ∧ ∃ before w after, schema.rulesBelow = before ++ w :: after ∧
        (∀ x ∈ before, x.standsForRule = true) ∧ w.standsForRule = false ∧
        cause = .rule w.typeName := by
  cases mapping : schema.isMapping with
  | false =>
    rw [ofValue_of_not_isMapping mapping, Except.error.injEq, eq_comm]
    simp
  | true =>
    have read : ofValue schema = .error cause ↔
        Malformed.ofRules schema.rulesBelow = .error cause := by
      rw [← ofValue_malformed mapping listed]
      cases ofValue schema <;> simp [Except.map]
    simp [read, Malformed.ofRules_eq_error_iff]

/-- Which schemas cannot be read: those that are no mapping, and those with anything below them that
stands for no rule. -/
theorem exists_ofValue_eq_error_iff {schema : Value}
    (listed : ∀ w ∈ schema :: schema.rulesBelow, w.IsListable) :
    (∃ cause, ofValue schema = .error cause) ↔
      schema.isMapping = false ∨ ∃ w, schema.Above w ∧ w.standsForRule = false := by
  constructor
  · rintro ⟨cause, read⟩
    rcases (ofValue_eq_error_iff listed).mp read with
      ⟨unmapped, -⟩ | ⟨-, before, w, after, order, -, bad, -⟩
    · exact .inl unmapped
    · have member : w ∈ schema.rulesBelow := by simp [order]
      exact .inr ⟨w, Value.mem_rulesBelow_iff.mp member, bad⟩
  · intro fails
    cases read : ofValue schema with
    | error cause => exact ⟨cause, rfl⟩
    | ok p =>
      have mapping := isMapping_of_ofValue read
      have found := ofValue_malformed mapping listed
      rw [read] at found
      rcases fails with unmapped | ⟨w, above, bad⟩
      · simp [mapping] at unmapped
      · -- All that is below a schema that can be read stands for rules.
        have good := Malformed.ofRules_eq_ok_iff.mp found.symm
        simp [good w (Value.mem_rulesBelow_iff.mpr above)] at bad

end Pack

namespace Session

variable {schema : Value} {cause : Malformed}

/-- A schema that cannot be read ends acceptance before any check. -/
theorem acceptsBy_of_malformed {σ : Type} (read : Pack.ofValue schema = .error cause)
    (check : Value → Value → Run σ Bool) (v : Value) (exact : Bool) (s : σ) :
    acceptsBy check schema v (.bool exact) s = (.error (.malformed cause), s) := by
  rw [acceptsBy, packOf, read]
  rfl

theorem examineBy_of_malformed {σ : Type} (read : Pack.ofValue schema = .error cause)
    (check : Value → Value → Run σ Bool) (v : Value) (s : σ) :
    examineBy check schema v s = (.error (.malformed cause), s) := by
  rw [examineBy, packOf, read]
  rfl

theorem enforceBy_of_malformed (read : Pack.ofValue schema = .error cause)
    (check : Value → Value → Run Session Bool) (v given : Value) (exact : Bool) {s : Session}
    (enabled : switchFor given s = (.ok true, s)) :
    enforceBy check v schema (.bool exact) given s = (.error (.malformed cause), s) := by
  rw [enforceBy_of_switchFor enabled, read]
  rfl

/-- Only a schema that cannot be read has no pack. -/
theorem exists_malformed_of_newPack {s t : Session} {fault : Fault}
    (h : newPack schema s = (.error fault, t)) :
    ∃ cause, Pack.ofValue schema = .error cause ∧ fault = .malformed cause ∧ t = s := by
  cases read : Pack.ofValue schema with
  | error cause =>
    rw [newPack_of_malformed read] at h
    cases h
    exact ⟨cause, rfl, rfl, rfl⟩
  | ok p =>
    rw [newPack_of_ofValue read] at h
    cases h

/-- Where no mapping on the way refuses to be read, a schema is malformed exactly if it is no
mapping or something below it stands for no rule. The fault names the type of the schema, or of the
first value that is at fault. Every walk then ends with this fault at once, from every state: it
leaves the state as it is, whatever checks would do to it, and calls none. -/
theorem newPack_fails (schema : Value)
    (listed : ∀ w, w = schema ∨ schema.Above w → w.IsListable) (s : Session) :
    ((∃ fault t, newPack schema s = (.error fault, t) ∧ fault.kind = "SchemaError") ↔
      schema.isMapping = false ∨ ∃ w, schema.Above w ∧ w.standsForRule = false) ∧
    ∀ fault t, newPack schema s = (.error fault, t) →
      t = s ∧ fault.kind = "SchemaError" ∧
      (schema.isMapping = false ∧
          fault.message = "schema must be a mapping, got " ++ schema.typeName ∨
        schema.isMapping = true ∧ ∃ before w after, schema.rulesBelow = before ++ w :: after ∧
          (∀ x ∈ before, x.standsForRule = true) ∧ w.standsForRule = false ∧
          fault.message = "rule must be a predicate or a nested mapping, got " ++ w.typeName) ∧
      (∀ (σ : Type) (check : Value → Value → Run σ Bool) (v : Value) (u : σ),
        (∀ exact, acceptsBy check schema v (.bool exact) u = (.error fault, u) ∧
          acceptCalls check schema v exact u = []) ∧
        examineBy check schema v u = (.error fault, u) ∧ examineCalls check schema v u = []) ∧
      ∀ (check : Value → Value → Run Session Bool) (v given : Value) (exact : Bool) (u : Session),
        switchFor given u = (.ok true, u) →
          enforceBy check v schema (.bool exact) given u = (.error fault, u) := by
  have listed' : ∀ w ∈ schema :: schema.rulesBelow, w.IsListable :=
    fun w member => listed w ((List.mem_cons.mp member).imp_right Value.mem_rulesBelow_iff.mp)
  refine ⟨?_, ?_⟩
  · rw [← Pack.exists_ofValue_eq_error_iff listed']
    constructor
    · rintro ⟨fault, t, ran, -⟩
      obtain ⟨cause, read, -⟩ := exists_malformed_of_newPack ran
      exact ⟨cause, read⟩
    · rintro ⟨cause, read⟩
      refine ⟨_, s, newPack_of_malformed read s, ?_⟩
      rcases (Pack.ofValue_eq_error_iff listed').mp read with
        ⟨-, rfl⟩ | ⟨-, -, -, -, -, -, -, rfl⟩ <;> rfl
  · intro fault t ran
    obtain ⟨cause, read, rfl, rfl⟩ := exists_malformed_of_newPack ran
    have blame := (Pack.ofValue_eq_error_iff listed').mp read
    refine ⟨rfl, ?_, ?_, fun σ check v u => ⟨fun exact => ?_, ?_, ?_⟩, ?_⟩
    · rcases blame with ⟨-, rfl⟩ | ⟨-, -, -, -, -, -, -, rfl⟩ <;> rfl
    · rcases blame with ⟨unmapped, rfl⟩ | ⟨mapping, before, w, after, order, good, bad, rfl⟩
      · exact .inl ⟨unmapped, rfl⟩
      · exact .inr ⟨mapping, before, w, after, order, good, bad, rfl⟩
    · refine ⟨acceptsBy_of_malformed read check v exact u, ?_⟩
      rw [acceptCalls, acceptsBy_of_malformed read]
    · exact examineBy_of_malformed read check v u
    · rw [examineCalls, examineBy_of_malformed read]
    · intro check v given exact u enabled
      exact enforceBy_of_malformed read check v given exact enabled

/-- A number in a nested dictionary, behind two checks, and nothing at a later key: the number comes
first. No check is called, not even by a walk over a value that fails at the first key. -/
theorem newPack_fails_nested :
    let number : Value := .callable 2 (.check .number)
    let schema : Value := .dict 3 [(.text "a", number),
      (.text "b", .dict 4 [(.text "c", number), (.text "d", .int 7)]), (.text "e", .null)]
    let v : Value := .dict 5 [(.text "a", .text "one")]
    let fault : Fault := .malformed (.rule "int")
    (∀ w, w = schema ∨ schema.Above w → w.IsListable) ∧
      newPack schema .initial = (.error fault, .initial) ∧ fault.kind = "SchemaError" ∧
      fault.message = "rule must be a predicate or a nested mapping, got int" ∧
      (∃ w, schema.Above w ∧ w.standsForRule = false) ∧
      (∀ exact, acceptsBy Value.verdict schema v (.bool exact) .initial = (.error fault, .initial) ∧
        acceptCalls Value.verdict schema v exact .initial = []) ∧
      examineBy Value.verdict schema v .initial = (.error fault, .initial) ∧
      examineCalls Value.verdict schema v .initial = [] ∧
      ∀ exact, enforceBy Value.verdict v schema (.bool exact) .null .initial =
        (.error fault, .initial) := by
  intro number schema v fault
  have listed : ∀ w, w = schema ∨ schema.Above w → w.IsListable := by
    intro w reached
    have member : w ∈ schema :: schema.rulesBelow :=
      List.mem_cons.mpr (reached.imp_right Value.mem_rulesBelow_iff.mpr)
    change w ∈ [schema, number, .dict 4 _, number, .int 7, .null] at member
    simp only [List.mem_cons, List.not_mem_nil, or_false] at member
    rcases member with rfl | rfl | rfl | rfl | rfl | rfl <;> intro m mapping <;> cases mapping <;>
      exact ⟨_, rfl⟩
  have ran : newPack schema .initial = (.error fault, .initial) := rfl
  obtain ⟨iff, fails⟩ := newPack_fails schema listed .initial
  obtain ⟨-, kind, -, walks, guards⟩ := fails fault _ ran
  rcases iff.mp ⟨fault, _, ran, kind⟩ with unmapped | bad
  · cases unmapped
  · obtain ⟨accepts, examines, calls⟩ := walks Session Value.verdict v .initial
    exact ⟨listed, ran, kind, rfl, bad, accepts, examines, calls,
      fun exact => guards Value.verdict v .null exact .initial rfl⟩

end Session

end Conformance
