import Conformance.Proofs.Verdicts
import Conformance.Proofs.Visits

/-!
# The flat form of an examination

An explanation is handed on as a value and laid out flat later, by whoever reads it. What is read is
what was found, as long as no value that is reported is itself one of the lists that stand for the
findings of a nested pack; such a value would be taken for more findings.

So the rows of an examination can be told without the tree between them: for each pack and each
check that the examination comes by, in depth-first order, what that adds. First come all invalid
rows, then all extra rows, those of a mapping before those of the mappings below it.

## Main definitions

* `Explanation.reported` — the values that an explanation reports

## Main results

* `Explanation.ofValue_toValue` — an explanation is read back as it was
* `Value.rows_toValue` — its rows are those of what was found
* `Session.rows_of_examineBy` — the rows of an examination, by what it comes by
-/

namespace Conformance

variable {σ : Type}

/-- Whether a value is a list that stands for the findings of a nested pack. -/
def Value.isBranch : Value → Bool
  | branch .. => true
  | _ => false

mutual

/-- The values that a finding reports. -/
def Finding.reported : Finding → List Value
  | .value _ v => [v]
  | .nested _ findings => Finding.reportedIn findings
termination_by structural a => a

/-- The values that findings report. -/
def Finding.reportedIn : List Finding → List Value
  | [] => []
  | f :: fs => f.reported ++ Finding.reportedIn fs
termination_by structural a => a

end

/-- The values that an explanation reports. -/
def Explanation.reported (e : Explanation) : List Value :=
  Finding.reportedIn e.invalid ++ Finding.reportedIn e.extra

theorem Finding.reportedIn_append (fs gs : List Finding) :
    reportedIn (fs ++ gs) = reportedIn fs ++ reportedIn gs := by
  induction fs with
  | nil => rfl
  | cons f fs ih => simp [reportedIn, ih]

theorem Finding.reportedIn_under (key : Value) (fs : List Finding) :
    reportedIn (under key fs) = reportedIn fs := by
  cases fs <;> simp [under, reportedIn, reported]

theorem Finding.reportedIn_values {β : Type} (key observed : β → Value) (items : List β) :
    reportedIn (items.map fun item => .value (key item) (observed item)) =
      items.map observed := by
  induction items with
  | nil => rfl
  | cons item items ih => simp [reportedIn, reported, ih]

theorem Explanation.mem_reported_append {d e : Explanation} {v : Value} :
    v ∈ (d.append e).reported ↔ v ∈ d.reported ∨ v ∈ e.reported := by
  simp only [reported, append, Finding.reportedIn_append, List.mem_append]
  exact or_or_or_comm

theorem Explanation.reported_under (key : Value) (e : Explanation) :
    (e.under key).reported = e.reported := by
  simp only [reported, under, Finding.reportedIn_under]

/-! ### Reading explanations back -/

/-- What is no list of findings is a value that was found. -/
theorem Finding.ofContent_of_not_branch (key : Value) {v : Value} (h : v.isBranch = false) :
    ofContent key v = .ok (.value key v) := by
  cases v with
  | branch id items => cases h
  | _ => rfl

mutual

theorem Finding.ofEntry_toValue (f : Finding) (plain : ∀ v ∈ f.reported, v.isBranch = false) :
    ofEntry f.toValue = .ok f := by
  cases f with
  | value key v =>
    exact ofContent_of_not_branch key (plain v (List.mem_singleton.mpr rfl))
  | nested key findings =>
    have below := ofEntries_toValues findings plain
    rw [toValue, ofEntry, ofContent, below]
    rfl

theorem Finding.ofEntries_toValues (fs : List Finding)
    (plain : ∀ v ∈ reportedIn fs, v.isBranch = false) : ofEntries (toValues fs) = .ok fs := by
  match fs with
  | [] => rfl
  | f :: fs =>
    rw [reportedIn] at plain
    have first := ofEntry_toValue f fun v member => plain v (List.mem_append_left _ member)
    have others := ofEntries_toValues fs fun v member => plain v (List.mem_append_right _ member)
    rw [toValues, ofEntries, first, others]
    rfl

end

namespace Explanation

theorem isExplanation_toValue (e : Explanation) : e.toValue.isExplanation = .ok true := rfl

/-- An explanation is read back as it was, if no value in it can be taken for findings. -/
theorem ofValue_toValue (e : Explanation) (plain : ∀ v ∈ e.reported, v.isBranch = false) :
    ofValue e.toValue = .ok e := by
  have invalid := Finding.ofEntries_toValues e.invalid fun v member =>
    plain v (List.mem_append_left _ member)
  have extra := Finding.ofEntries_toValues e.extra fun v member =>
    plain v (List.mem_append_right _ member)
  have listedInvalid :
      listOf (e.toValue.entries?.getD []) .invalid = Finding.toValues e.invalid := rfl
  have listedExtra :
      listOf (e.toValue.entries?.getD []) .extra = Finding.toValues e.extra := rfl
  -- The shape is right whatever was found, so only the entries are left to be read.
  rw [ofValue, isExplanation_toValue]
  simp only [listedInvalid, listedExtra, invalid, extra, bind, Except.bind]
  rfl

/-- Below a root that is a text all paths start with it, also where there are none. An empty root is
left out, as it is where it is put in front. -/
theorem rowsBelow_text (e : Explanation) (root : String) :
    e.rowsBelow (.text root) = .ok (e.rows root) := by
  rw [rowsBelow]
  split
  next empty =>
    -- Where there is nothing to lay out the root is not asked; there are no rows either way.
    obtain ⟨invalid, extra⟩ := Bool.and_eq_true_iff.mp empty
    rw [rows, List.isEmpty_iff.mp invalid, List.isEmpty_iff.mp extra]
    rfl
  next =>
    have path : (if !root.isEmpty then root else "") = root := by
      by_cases empty : root = ""
      · rw [empty]
        rfl
      · rw [if_pos (by simpa using empty)]
    exact congrArg (fun path => Except.ok (e.rows path)) path

end Explanation

/-- The rows of an explanation that was handed on are those of what was found. -/
theorem Value.rows_toValue (e : Explanation) (root : String)
    (plain : ∀ v ∈ e.reported, v.isBranch = false) :
    Value.rows (.text root) e.toValue = .ok (e.rows root) := by
  rw [Value.rows, e.ofValue_toValue plain]
  exact e.rowsBelow_text root

namespace Session

/-- The rows of an examination: what each pack and each check that it comes by adds, the invalid
rows before the extra ones. It comes by the packs that are reached, and by the checks of those that
are applied to a mapping, and to no place twice. -/
theorem rows_of_examineBy (check : Value → Value → Run σ Bool) (schema v : Value) (s t : σ)
    (e : Explanation) (root : String) (hroot : root ≠ "")
    (h : examineBy check schema v s = (.ok e, t))
    (plain : ∀ w ∈ e.reported, w.isBranch = false) :
    ∃ p invalid, Pack.ofValue schema = .ok p ∧
      (p.visits v).flatMapM (Visit.invalidRows check root) s = (.ok invalid, t) ∧
      Value.rows (.text root) e.toValue =
        .ok (invalid ++ (p.visits v).flatMap (Visit.extraRows root)) ∧
      (∀ path q w, .pack path q w ∈ p.visits v ↔ p.Reaches v path q w) ∧
      (∀ path c x, .check path c x ∈ p.visits v ↔
        ∃ above key q w m n, path = above ++ [key] ∧ p.Reaches v above q w ∧
          w.mapping? = some m ∧ (key, .leaf n c) ∈ q.rules ∧ m.get key = .ok x) ∧
      ((∀ path q w, p.Reaches v path q w → q.keys.Nodup) →
        ((p.visits v).map Visit.path).Nodup) := by
  obtain ⟨p, read, examined⟩ := exists_pack_of_examineBy h
  obtain ⟨invalid, extra⟩ := Pack.visits_yield root hroot p v s t e examined
  refine ⟨p, _, read, invalid, ?_, fun _ _ _ => Pack.mem_visits_pack_iff, fun _ _ _ =>
    Pack.mem_visits_check_iff, Pack.nodup_paths_visits⟩
  rw [Value.rows_toValue e root plain, Explanation.rows, extra]

/-- Violations at three depths: a check that refuses, a number in the place of a nested pack, and an
extra key at the top and below a nested pack. -/
theorem rows_of_examineBy_nested :
    let schema : Value := .dict 2 [
      (.text "a", .callable 3 (.check .number)),
      (.text "b", .dict 4 [
        (.text "c", .callable 5 (.check .text)),
        (.text "d", .dict 6 [(.text "e", .callable 7 (.check .number))])])]
    let v : Value := .dict 8 [
      (.text "a", .text "one"), (.text "z", .int 1),
      (.text "b", .dict 9 [(.text "c", .int 5), (.text "d", .int 7), (.text "y", .int 2)])]
    ∃ e t, examineBy Value.verdict schema v .initial = (.ok e, t) ∧
      Value.rows (.text "cfg") e.toValue = .ok [
        ⟨"cfg.a", .invalid, .text "one"⟩, ⟨"cfg.b.c", .invalid, .int 5⟩,
        ⟨"cfg.b.d.e", .invalid, .null⟩,
        ⟨"cfg.z", .extra, .int 1⟩, ⟨"cfg.b.y", .extra, .int 2⟩] := by
  intro schema v
  let e : Explanation := ⟨
    [.value (.text "a") (.text "one"), .nested (.text "b")
      [.value (.text "c") (.int 5), .nested (.text "d") [.value (.text "e") .null]]],
    [.value (.text "z") (.int 1), .nested (.text "b") [.value (.text "y") (.int 2)]]⟩
  have examined : examineBy Value.verdict schema v .initial = (.ok e, .initial) := rfl
  have plain : ∀ w ∈ e.reported, w.isBranch = false := by
    simp [e, Explanation.reported, Finding.reportedIn, Finding.reported, Value.isBranch]
  obtain ⟨p, invalid, read, ran, rows, -⟩ := rows_of_examineBy Value.verdict schema v .initial _ e
    "cfg" (by decide) examined plain
  obtain rfl := Except.ok.inj read
  obtain rfl := Except.ok.inj (congrArg Prod.fst ran)
  exact ⟨e, _, examined, rows⟩

end Session

end Conformance
