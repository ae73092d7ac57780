import Conformance.Fault.Message
import Conformance.Proofs.Rows

/-!
# What a guard lets pass and how it fails

While validation is on, a guard examines the value and lets it pass if nothing was found that
counts. So it decides as acceptance does, but for one thing: in exact mode acceptance asks for a
mapping wherever a pack is applied, and an examination has nothing to report where an empty pack is
applied to something else. Such a value passes the guard, although it is not accepted.

Where something was found that counts, the guard fails with everything that was found, and with a
message of one line for each finding that counts. For this it lays out an explanation as anyone else
does who is handed one. So this holds as long as no value that counts is itself one of the lists
that stand for the findings of a nested pack: such a value is taken for more findings, and is left
out if it is empty, or makes the guard fail with another fault.

## Main results

* `Finding.rowsOf_map` — the rows of findings are one for each value that is reported
* `Pack.reported_ne_nil_of_examine` — whatever an examination finds, it reports some value
* `Pack.rules_eq_nil_of_reaches` — where nothing is invalid, only empty packs meet anything but
  mappings
* `Session.enforceBy_eq_ok_iff` — what a guard lets pass
* `Session.enforceBy_nonconforming` — how a guard fails
-/

namespace Conformance

variable {σ α : Type}

/-! ### The values that rows report -/

namespace Finding

mutual

/-- The rows of a finding are one for each value that it reports. -/
theorem rows_map (violation : Violation) (path : String) (f : Finding) :
    (f.rows violation path).map (fun r => (r.violation, r.value)) =
      f.reported.map fun v => (violation, v) := by
  cases f with
  | value key v => rfl
  | nested key findings => exact rowsOf_map violation (Row.extendPath path key) findings

/-- The rows of findings are one for each value that they report, in the same order. -/
theorem rowsOf_map (violation : Violation) (path : String) (fs : List Finding) :
    (rowsOf violation path fs).map (fun r => (r.violation, r.value)) =
      (reportedIn fs).map fun v => (violation, v) := by
  match fs with
  | [] => rfl
  | f :: fs =>
    rw [rowsOf, reportedIn, List.map_append, List.map_append, rows_map, rowsOf_map]

end

theorem rowsOf_map_value (violation : Violation) (path : String) (fs : List Finding) :
    (rowsOf violation path fs).map Row.value = reportedIn fs := by
  simpa [Function.comp_def] using congrArg (List.map Prod.snd) (rowsOf_map violation path fs)

theorem violation_of_mem_rowsOf {violation : Violation} {path : String} {fs : List Finding}
    {r : Row} (h : r ∈ rowsOf violation path fs) : r.violation = violation := by
  have member := List.mem_map_of_mem (f := fun r => (r.violation, r.value)) h
  rw [rowsOf_map] at member
  obtain ⟨v, -, equal⟩ := List.mem_map.mp member
  exact (Prod.mk.inj equal).1.symm

end Finding

namespace Explanation

theorem isFree_eq_false_iff {exact : Bool} {e : Explanation} :
    e.isFree exact = false ↔ e.invalid ≠ [] ∨ exact = true ∧ e.extra ≠ [] := by
  obtain ⟨invalid, extra⟩ := e
  cases exact <;> cases invalid <;> simp [isFree]

/-- The rows that count are those of the violations that count. -/
theorem rows_counting (exact : Bool) (path : String) (e : Explanation) :
    (e.counting exact).rows path =
      (e.rows path).filter fun r => exact || r.violation == .invalid := by
  cases exact with
  | true => exact (List.filter_eq_self.mpr fun r _ => rfl).symm
  | false =>
    have invalid : (Finding.rowsOf .invalid path e.invalid).filter
        (fun r => r.violation == .invalid) = Finding.rowsOf .invalid path e.invalid :=
      List.filter_eq_self.mpr fun r member => by
        rw [Finding.violation_of_mem_rowsOf member]
        rfl
    have extra : (Finding.rowsOf .extra path e.extra).filter
        (fun r => r.violation == .invalid) = [] :=
      List.filter_eq_nil_iff.mpr fun r member => by
        rw [Finding.violation_of_mem_rowsOf member]
        decide
    simp [counting, rows, Finding.rowsOf, List.filter_append, invalid, extra]

theorem rows_map_value (path : String) (e : Explanation) :
    (e.rows path).map Row.value = e.reported := by
  rw [rows, List.map_append, Finding.rowsOf_map_value, Finding.rowsOf_map_value, reported]

/-- Findings that report no value are none. -/
theorem composes_reported : Composes fun e =>
    (Finding.reportedIn e.invalid = [] → e.invalid = []) ∧
      (Finding.reportedIn e.extra = [] → e.extra = []) where
  empty := ⟨fun _ => rfl, fun _ => rfl⟩
  invalid key x := ⟨nofun, fun _ => rfl⟩
  extra key x := ⟨fun _ => rfl, nofun⟩
  append d e := by
    simp only [append, Finding.reportedIn_append, List.append_eq_nil_iff]
    rintro ⟨invalid, extra⟩ ⟨invalid', extra'⟩
    exact ⟨fun silent => ⟨invalid silent.1, invalid' silent.2⟩,
      fun silent => ⟨extra silent.1, extra' silent.2⟩⟩
  under key e := by
    simp only [under, Finding.reportedIn_under, Finding.under_eq_nil_iff]
    exact id

end Explanation

namespace Pack

variable {check : α → Value → Run σ Bool}

/-- Whatever counts in an examination, some value is reported. -/
theorem reported_ne_nil_of_examine {exact : Bool} {p : Pack Value α} {v : Value} {s t : σ}
    {e : Explanation} (h : p.examine check v s = (.ok e, t)) (fails : e.isFree exact = false) :
    (e.counting exact).reported ≠ [] := by
  obtain ⟨invalid, extra⟩ := examine_of_composes Explanation.composes_reported p v s t e h
  rw [Explanation.isFree_eq_false_iff] at fails
  intro silent
  obtain ⟨noInvalid, noExtra⟩ := List.append_eq_nil_iff.mp silent
  cases exact with
  | true =>
    rcases fails with found | ⟨-, found⟩
    · exact found (invalid noInvalid)
    · exact found (extra noExtra)
  | false =>
    rcases fails with found | ⟨exactly, -⟩
    · exact found (invalid noInvalid)
    · cases exactly

/-- Where nothing is invalid, a pack on the way that is applied to anything but a mapping is
empty. -/
theorem rules_eq_nil_of_reaches {p q : Pack Value α} {v w : Value} {path : List Value} {s t : σ}
    {e : Explanation} (reached : p.Reaches v path q w) (h : p.examine check v s = (.ok e, t))
    (free : e.invalid = []) (mapping : w.mapping? = none) : q.rules = [] := by
  obtain ⟨s', e', t', examined, valid⟩ := examined_of_reaches reached h
  cases q with
  | mk id rules =>
    rw [examine_of_mapping?_eq_none mapping] at examined
    obtain ⟨rfl, -⟩ := Run.pure_eq_ok_iff.mp examined
    -- All keys of the pack would have been reported.
    exact List.map_eq_nil_iff.mp (valid free)

end Pack

/-! ### Guards -/

namespace Session

/-- A guard that is on passes the value or rejects it, by what the examination found. -/
theorem passing_of_examine {check : α → Value → Run Session Bool} {p : Pack Value α} {v : Value}
    {s t : Session} {e : Explanation} (exact : Bool) (h : p.examine check v s = (.ok e, t)) :
    passing check (.ok p) exact true v s =
      if e.isFree exact then (.ok v, t) else reject exact e t := by
  have ran : passing check (.ok p) exact true v s =
      (if e.isFree exact then pure v else reject exact e : Run Session Value) t :=
    Run.bind_apply_ok h _
  rw [ran]
  split <;> rfl

/-- To reject is to fail. -/
theorem reject_eq_error (exact : Bool) (e : Explanation) (s : Session) :
    ∃ fault, reject exact e s = (.error fault, s) := by
  rw [reject, Run.bind_apply, Run.lift_apply]
  cases Value.rows (.text Row.root) (e.counting exact).toValue with
  | error fault => exact ⟨fault, rfl⟩
  | ok rows => exact ⟨.nonconforming rows e, rfl⟩

/-- A rejection tells the rows that count, if no value that counts can be taken for findings. -/
theorem reject_of_plain (exact : Bool) (e : Explanation) (s : Session)
    (plain : ∀ v ∈ (e.counting exact).reported, v.isBranch = false) :
    reject exact e s = (.error (.nonconforming ((e.counting exact).rows Row.root) e), s) := by
  rw [reject, Value.rows_toValue _ _ plain]
  rfl

variable {check : Value → Value → Run Session Bool} {schema v given : Value} {p : Pack Value Value}
  {s : Session}

/-- A validation with a flag that is a truth value, under settings with a switch. -/
theorem enforceBy_of_switchFor {exact enabled : Bool}
    (switch : switchFor given s = (.ok enabled, s)) :
    enforceBy check v schema (.bool exact) given s =
      passing check (Pack.ofValue schema) exact enabled v s :=
  Run.bind_apply_ok switch _

theorem enforceBy_eq (read : Pack.ofValue schema = .ok p) (exact : Bool)
    (enabled : switchFor given s = (.ok true, s)) :
    enforceBy check v schema (.bool exact) given s = passing check (.ok p) exact true v s := by
  rw [enforceBy_of_switchFor enabled, read]

/-- What a guard that is on lets pass: a value that is accepted, and in exact mode also a value in
which nothing was found, but in which an empty pack is applied to something that is no mapping.
Anything else makes it fail. -/
theorem enforceBy_eq_ok_iff (check : Value → Value → Run Session Bool) (schema v given : Value)
    (exact : Bool) (s t : Session) (e : Explanation) (enabled : switchFor given s = (.ok true, s))
    (h : examineBy check schema v s = (.ok e, t)) :
    ∃ p accepted u answer, Pack.ofValue schema = .ok p ∧
      acceptsBy check schema v (.bool exact) s = (.ok accepted, u) ∧
      enforceBy check v schema (.bool exact) given s = (answer, t) ∧
      (answer = .ok v ∨ ∃ fault, answer = .error fault) ∧
      (answer = .ok v ↔ accepted = true ∨ exact = true ∧ e.invalid = [] ∧ e.extra = [] ∧
        ∃ path q w, p.Reaches v path q w ∧ q.rules = [] ∧ w.isMapping = false) := by
  obtain ⟨p, read, examined⟩ := exists_pack_of_examineBy h
  obtain ⟨accepted, u, ran, decided, -⟩ := Pack.decided_of_examine exact p v s t e examined
  have passed := passing_of_examine exact examined
  obtain ⟨fault, rejected⟩ := reject_eq_error exact e t
  refine ⟨p, accepted, u, if e.isFree exact then .ok v else .error fault, read,
    by rw [acceptsBy_eq read, ran], ?_, ?_, ?_⟩
  · rw [enforceBy_eq read exact enabled, passed, rejected]
    split <;> rfl
  · split
    · exact .inl rfl
    · exact .inr ⟨fault, rfl⟩
  · have free : (if e.isFree exact then .ok v else .error fault : Except Fault Value) = .ok v ↔
        e.isFree exact = true := by
      split <;> simp_all
    rw [free, decided]
    constructor
    · intro free
      obtain ⟨noInvalid, noExtra⟩ := Explanation.isFree_iff.mp free
      rcases Classical.em (exact = true → p.MeetsMappings v) with meets | meetsNot
      · exact .inl ⟨free, meets⟩
      · -- Acceptance meets something that is no mapping, and the pack there has nothing to report.
        obtain ⟨exactly, meetsNot⟩ := Classical.not_imp.mp meetsNot
        obtain ⟨path, q, w, reached, unmapped⟩ := Pack.exists_reaches_of_not_meetsMappings meetsNot
        have empty := Pack.rules_eq_nil_of_reaches reached examined noInvalid
          (Value.mapping?_eq_none unmapped)
        exact .inr ⟨exactly, noInvalid, noExtra exactly, path, q, w, reached, empty, unmapped⟩
    · rintro (⟨free, -⟩ | ⟨-, noInvalid, noExtra, -⟩)
      · exact free
      · exact Explanation.isFree_iff.mpr ⟨noInvalid, fun _ => noExtra⟩

/-- A value with an extra key below a nested pack: a guard in exact mode fails, as acceptance
refuses. -/
theorem enforceBy_eq_ok_iff_nested :
    let schema : Value := .dict 2 [(.text "a", .dict 3 [(.text "b", .callable 4 (.check .number))])]
    let v : Value := .dict 5 [(.text "a", .dict 6 [(.text "b", .int 1), (.text "c", .int 2)])]
    let e : Explanation := ⟨[], [.nested (.text "a") [.value (.text "c") (.int 2)]]⟩
    switchFor .null .initial = (.ok true, .initial) ∧
      examineBy Value.verdict schema v .initial = (.ok e, .initial) ∧
      ∃ p accepted u answer, Pack.ofValue schema = .ok p ∧
        acceptsBy Value.verdict schema v (.bool true) .initial = (.ok accepted, u) ∧
        enforceBy Value.verdict v schema (.bool true) .null .initial = (answer, .initial) ∧
        (answer = .ok v ∨ ∃ fault, answer = .error fault) ∧
        (answer = .ok v ↔ accepted = true ∨ true = true ∧ e.invalid = [] ∧ e.extra = [] ∧
          ∃ path q w, p.Reaches v path q w ∧ q.rules = [] ∧ w.isMapping = false) := by
  intro schema v e
  have enabled : switchFor .null .initial = (.ok true, .initial) := rfl
  have examined : examineBy Value.verdict schema v .initial = (.ok e, .initial) := rfl
  exact ⟨enabled, examined,
    enforceBy_eq_ok_iff Value.verdict schema v .null true _ _ e enabled examined⟩

/-- An empty pack that is applied to a number: a guard in exact mode lets the value pass, although
it is not accepted. -/
theorem enforce_exactly_empty_pack :
    let schema : Value := .dict 2 [(.text "toy", .dict 3 [])]
    let v : Value := .dict 4 [(.text "toy", .int 5)]
    examine schema v .initial = (.ok ⟨[], []⟩, .initial) ∧
      accepts schema v (.bool true) .initial = (.ok false, .initial) ∧
      enforce v schema (.bool true) .null .initial = (.ok v, .initial) :=
  ⟨rfl, rfl, rfl⟩

/-- How a guard that is on fails where something was found that counts: with all that was found, and
with a message that has a line for each finding that counts, in their order, and so at least one.
No value that counts may be one of the lists that stand for the findings of a nested pack. -/
theorem enforceBy_nonconforming (check : Value → Value → Run Session Bool) (schema v given : Value)
    (exact : Bool) (s t : Session) (e : Explanation) (enabled : switchFor given s = (.ok true, s))
    (h : examineBy check schema v s = (.ok e, t))
    (fails : e.invalid ≠ [] ∨ exact = true ∧ e.extra ≠ [])
    (plain : ∀ w ∈ (e.counting exact).reported, w.isBranch = false) :
    ∃ rows fault, enforceBy check v schema (.bool exact) given s = (.error fault, t) ∧
      fault = .nonconforming rows e ∧ fault.kind = "ValidationError" ∧
      fault.message = "value does not conform to schema:\n" ++ "\n".intercalate
        (rows.map fun r => "  " ++ (r.path ++ ": " ++ r.violation.text ++ " " ++ r.value.render)) ∧
      rows = (e.rows Row.root).filter (fun r => exact || r.violation == .invalid) ∧
      rows.map Row.value = (e.counting exact).reported ∧ rows ≠ [] := by
  obtain ⟨p, read, examined⟩ := exists_pack_of_examineBy h
  have notFree : e.isFree exact = false := Explanation.isFree_eq_false_iff.mpr fails
  have values := (e.counting exact).rows_map_value Row.root
  refine ⟨(e.counting exact).rows Row.root, _, ?_, rfl, rfl, rfl, e.rows_counting exact Row.root,
    values, ?_⟩
  · rw [enforceBy_eq read exact enabled, passing_of_examine exact examined, notFree]
    exact reject_of_plain exact e t plain
  · -- Each row reports a value, and some value is reported.
    intro none
    rw [none] at values
    exact Pack.reported_ne_nil_of_examine examined notFree values.symm

/-- A guard in permissive mode, where an extra key does not count: the message has the two invalid
values, and the fault has all that was found. -/
theorem enforceBy_nonconforming_permissive :
    let schema : Value := .dict 2 [
      (.text "a", .callable 3 (.check .number)),
      (.text "b", .dict 4 [(.text "c", .callable 5 (.check .text))])]
    let v : Value := .dict 6 [
      (.text "a", .text "one"), (.text "z", .int 1), (.text "b", .dict 7 [(.text "c", .int 5)])]
    let e : Explanation := ⟨
      [.value (.text "a") (.text "one"), .nested (.text "b") [.value (.text "c") (.int 5)]],
      [.value (.text "z") (.int 1)]⟩
    switchFor .null .initial = (.ok true, .initial) ∧
      examineBy Value.verdict schema v .initial = (.ok e, .initial) ∧ e.invalid ≠ [] ∧
      (∀ w ∈ (e.counting false).reported, w.isBranch = false) ∧
      ∃ fault, enforceBy Value.verdict v schema (.bool false) .null .initial =
          (.error fault, .initial) ∧
        fault.kind = "ValidationError" ∧
        fault.message = "value does not conform to schema:\n" ++ "\n".intercalate
          ["  root.a: invalid 'one'", "  root.b.c: invalid 5"] := by
  intro schema v e
  have enabled : switchFor .null .initial = (.ok true, .initial) := rfl
  have examined : examineBy Value.verdict schema v .initial = (.ok e, .initial) := rfl
  have plain : ∀ w ∈ (e.counting false).reported, w.isBranch = false := by
    simp [e, Explanation.counting, Explanation.reported, Finding.reportedIn, Finding.reported,
      Value.isBranch]
  have fails : e.invalid ≠ [] := by simp [e]
  obtain ⟨rows, fault, ran, -, kind, message, counting, -⟩ := enforceBy_nonconforming Value.verdict
    schema v .null false _ _ e enabled examined (.inl fails) plain
  have rows_eq : rows =
      [⟨"root.a", .invalid, .text "one"⟩, ⟨"root.b.c", .invalid, .int 5⟩] := counting
  have quoted : (Value.text "one").render = "'one'" := by decide +kernel
  refine ⟨enabled, examined, fails, plain, fault, ran, kind, ?_⟩
  rw [message, rows_eq, List.map_cons, quoted]
  rfl

/-- A list that stands for findings, in the place of a number: taken for findings, it makes the
guard fail with another fault, or is left out of the message if it is empty. -/
theorem enforce_branch :
    let schema : Value := .dict 2 [(.text "a", .callable 3 (.check .number))]
    let v : Value := .dict 4 [(.text "a", .branch 5 [.int 1])]
    let w : Value := .dict 4 [(.text "a", .branch 5 [])]
    examine schema v .initial = (.ok ⟨[.value (.text "a") (.branch 5 [.int 1])], []⟩, .initial) ∧
      enforce v schema (.bool false) .null .initial = (.error (.entryNotPair (.int 1)), .initial) ∧
      (Fault.entryNotPair (.int 1)).kind = "SchemaError" ∧
      enforce w schema (.bool false) .null .initial =
        (.error (.nonconforming [] ⟨[.value (.text "a") (.branch 5 [])], []⟩), .initial) :=
  ⟨rfl, rfl, rfl, rfl⟩

end Session

end Conformance
