import Conformance.Operation
import Conformance.Proofs.ExactKeys
import Conformance.Proofs.Flattening

/-!
# Malformed explanations

An explanation can come from anywhere. It is in order if it has its two lists, and in them nothing
but pairs, also in each list of findings that is the second part of a pair. Then it has a row for
each pair whose second part is no such list, from left to right and what is below a pair in its
place.

All of it is looked at before the first row. So a fault anywhere, even in the last entry of the
innermost list, leaves no row at all: neither the rows nor the card can be had, and a stream of the
rows fails when the first one is taken and is at its end from then on.

## Main definitions

* `Value.IsPaired` — an entry that is in order, with all that is below it
* `Value.places`, `Value.placesIn` — what entries report, with the keys that lead there
* `Finding.Read` — what an attempt to read entries comes to
* `Row.ofPlace` — the row of what is reported at a place

## Main results

* `Finding.read_ofEntries` — entries are read if they are in order, and then to what they report
* `Explanation.read_ofValue` — the same of explanations
* `Session.rows_all_or_none` — all rows of an explanation that is in order, and none of another
-/

namespace Conformance

variable {β γ : Type}

/-! ### Entries in order -/

namespace Value

/-- Whether a value is a list or a tuple of two, and so is whatever is listed in a list of findings
that is the second of these. -/
inductive IsPaired : Value → Prop
  | mk {entry key x : Value} (pair : entry.sequence? = some [key, x])
      (below : ∀ id inner, x = .branch id inner → ∀ w ∈ inner, IsPaired w) : IsPaired entry

/-- A pair is in order if all that is listed in its second part is. -/
theorem isPaired_iff {entry key x : Value} (pair : entry.sequence? = some [key, x]) :
    entry.IsPaired ↔ ∀ id inner, x = .branch id inner → ∀ w ∈ inner, w.IsPaired := by
  constructor
  · rintro ⟨pair', below⟩
    cases pair.symm.trans pair'
    exact below
  · exact .mk pair

mutual

/-- What an entry reports, with the keys that lead there. What is no pair reports nothing. -/
def places : Value → List (List Value × Value)
  | tuple [key, x] | list _ [key, x] | branch _ [key, x] => placesAt key x
  | _ => []
termination_by structural a => a

/-- What entries report, one after the other. -/
def placesIn : List Value → List (List Value × Value)
  | [] => []
  | entry :: rest => entry.places ++ placesIn rest
termination_by structural a => a

/-- What a pair of a key and a value reports: the value, or if that is a list of findings, what is
listed there, below the key. -/
def placesAt (key : Value) : Value → List (List Value × Value)
  | branch _ inner => (placesIn inner).map fun place => (key :: place.1, place.2)
  | x => [([key], x)]
termination_by structural a => a

end

end Value

/-! ### Reading entries -/

namespace Finding

/-- What an attempt to read entries comes to, where `paired` says that all of them are in order:
they are, and `part` of what is read is as expected, or they are not, and one of them is at
fault. -/
def Read (paired : Prop) (part : β → γ) (expected : γ) : Except Fault β → Prop
  | .ok b => paired ∧ part b = expected
  | .error fault => ¬ paired ∧ ∃ entry, fault = .entryNotPair entry

namespace Read

variable {β' γ' δ δ' : Type} {paired paired' : Prop} {part : β → γ} {expected : γ}
  {x : Except Fault β}

theorem congr (h : Read paired part expected x) (same : paired ↔ paired') :
    Read paired' part expected x := by
  cases x with
  | ok b => exact ⟨same.mp h.1, h.2⟩
  | error fault => exact ⟨mt same.mpr h.1, h.2⟩

/-- Something is made of what is read. -/
theorem map (h : Read paired part expected x) {f : β → δ} {part' : δ → δ'} {expected' : δ'}
    (made : ∀ b, part b = expected → part' (f b) = expected') :
    Read paired part' expected' (do return f (← x)) := by
  cases x with
  | ok b => exact ⟨h.1, made b h.2⟩
  | error fault => exact h

/-- Something is made of two parts, of which the second is read if the first is in order. -/
theorem both {y : Except Fault β'} {part' : β' → γ'} {expected' : γ'} {f : β → β' → δ}
    {whole : δ → δ'} {expectedWhole : δ'} (hx : Read paired part expected x)
    (hy : Read paired' part' expected' y)
    (made : ∀ b c, part b = expected → part' c = expected' → whole (f b c) = expectedWhole) :
    Read (paired ∧ paired') whole expectedWhole (do return f (← x) (← y)) := by
  cases x with
  | error fault => exact ⟨mt And.left hx.1, hx.2⟩
  | ok b =>
    cases y with
    | error fault => exact ⟨mt And.right hy.1, hy.2⟩
    | ok c => exact ⟨⟨hx.1, hy.1⟩, made b c hx.2 hy.2⟩

end Read

mutual

/-- Entries are read if they are in order, and then to what they report. -/
theorem read_ofEntries (entries : List Value) :
    Read (∀ w ∈ entries, w.IsPaired) leavesIn (Value.placesIn entries) (ofEntries entries) := by
  match entries with
  | [] => exact ⟨List.forall_mem_nil _, rfl⟩
  | entry :: rest =>
    refine Read.congr (?_ : Read (entry.IsPaired ∧ ∀ w ∈ rest, w.IsPaired) _ _ _)
      List.forall_mem_cons.symm
    exact (read_ofEntry entry).both (read_ofEntries rest) fun f fs here further => by
      rw [leavesIn, here, further, Value.placesIn]

theorem read_ofEntry (entry : Value) :
    Read entry.IsPaired leaves entry.places (ofEntry entry) := by
  unfold ofEntry
  split
  next key x => exact (read_ofContent key x).congr (Value.isPaired_iff rfl).symm
  next key x => exact (read_ofContent key x).congr (Value.isPaired_iff rfl).symm
  next key x => exact (read_ofContent key x).congr (Value.isPaired_iff rfl).symm
  next noTuple noList noBranch =>
    -- A list or a tuple of another length, or none at all.
    refine ⟨?_, entry, rfl⟩
    rintro ⟨pair, -⟩
    cases entry with
    | tuple items => cases pair; exact noTuple _ _ rfl
    | list id items => cases pair; exact noList _ _ _ rfl
    | branch id items => cases pair; exact noBranch _ _ _ rfl
    | _ => cases pair

theorem read_ofContent (key x : Value) :
    Read (∀ id inner, x = .branch id inner → ∀ w ∈ inner, w.IsPaired) leaves
      (Value.placesAt key x) (ofContent key x) := by
  cases x with
  | branch id inner =>
    have below : Read (∀ w ∈ inner, w.IsPaired) leaves (Value.placesAt key (.branch id inner))
        (ofContent key (.branch id inner)) :=
      (read_ofEntries inner).map fun fs reported => by rw [leaves, reported, Value.placesAt]
    exact below.congr ⟨fun paired _ _ equal => by cases equal; exact paired,
      fun paired => paired id inner rfl⟩
  | _ => exact ⟨nofun, rfl⟩

end

end Finding

/-! ### Rows by place -/

/-- The row of what is reported at a place, below a root. -/
def Row.ofPlace (violation : Violation) (root : String) (place : List Value × Value) : Row :=
  ⟨place.1.foldl extendPath root, violation, place.2⟩

namespace Finding

mutual

/-- The rows of a finding are those of its leaves. -/
theorem rows_eq_map_ofPlace (violation : Violation) (root : String) (f : Finding) :
    f.rows violation root = f.leaves.map (Row.ofPlace violation root) := by
  cases f with
  | value key v => rfl
  | nested key findings =>
    rw [rows, leaves, rowsOf_eq_map_ofPlace, List.map_map]
    rfl

theorem rowsOf_eq_map_ofPlace (violation : Violation) (root : String) (fs : List Finding) :
    rowsOf violation root fs = (leavesIn fs).map (Row.ofPlace violation root) := by
  match fs with
  | [] => rfl
  | f :: fs => rw [rowsOf, leavesIn, List.map_append, rows_eq_map_ofPlace, rowsOf_eq_map_ofPlace]

end

end Finding

namespace Explanation

variable {e : Value} {invalid extra : List Value}

/-- A value with the two lists is read list by list. -/
theorem ofValue_of_hasLists (h : e.HasLists invalid extra) :
    ofValue e = (do return ⟨← Finding.ofEntries invalid, ← Finding.ofEntries extra⟩) := by
  have shaped := Value.isExplanation_iff.mpr ⟨invalid, extra, h⟩
  obtain ⟨entries, found, -, list, list'⟩ := h
  have listed : listOf (e.entries?.getD []) .invalid = invalid := by
    rw [listOf, found]
    exact congrArg (·.getD []) list
  have listed' : listOf (e.entries?.getD []) .extra = extra := by
    rw [listOf, found]
    exact congrArg (·.getD []) list'
  rw [ofValue, shaped]
  exact congrArg₂ (fun xs ys => (do return ⟨← Finding.ofEntries xs, ← Finding.ofEntries ys⟩ :
    Except Fault Explanation)) listed listed'

theorem ofValue_of_not_hasLists
    (answers : ∀ m, e.mapping? = some m → Pack.Answers true shape.rules m)
    (h : ¬ ∃ invalid extra, e.HasLists invalid extra) :
    ofValue e = .error (.notExplanation e) := by
  obtain ⟨b, shaped⟩ := Value.exists_isExplanation answers
  cases b with
  | true => exact absurd (Value.isExplanation_iff.mp shaped) h
  | false =>
    rw [ofValue, shaped]
    rfl

/-- Two lists are read if all their entries are in order, and then to what these report. -/
theorem read_ofValue (h : e.HasLists invalid extra) :
    Finding.Read (∀ w ∈ invalid ++ extra, w.IsPaired)
      (fun found => (Finding.leavesIn found.invalid, Finding.leavesIn found.extra))
      (Value.placesIn invalid, Value.placesIn extra) (ofValue e) := by
  rw [ofValue_of_hasLists h]
  refine Finding.Read.congr ?_ List.forall_mem_append.symm
  exact (Finding.read_ofEntries invalid).both (Finding.read_ofEntries extra)
    fun found found' reported reported' => by rw [reported, reported']

/-- The rows of an explanation are those of its leaves, the invalid ones first. -/
theorem rows_eq_map_ofPlace (root : String) (e : Explanation) :
    e.rows root = (Finding.leavesIn e.invalid).map (Row.ofPlace .invalid root) ++
      (Finding.leavesIn e.extra).map (Row.ofPlace .extra root) := by
  rw [rows, Finding.rowsOf_eq_map_ofPlace, Finding.rowsOf_eq_map_ofPlace]

end Explanation

/-! ### Explanations in order and others -/

namespace Value

variable {e : Value}

/-- An explanation that is in order has the rows of what its entries report. -/
theorem rows_of_isPaired {invalid extra : List Value} (h : e.HasLists invalid extra)
    (paired : ∀ w ∈ invalid ++ extra, w.IsPaired) (root : String) :
    rows (text root) e = .ok ((placesIn invalid).map (Row.ofPlace .invalid root) ++
      (placesIn extra).map (Row.ofPlace .extra root)) := by
  have read := Explanation.read_ofValue h
  cases found : Explanation.ofValue e with
  | error fault =>
    rw [found] at read
    exact absurd paired read.1
  | ok explanation =>
    rw [found] at read
    obtain ⟨reported, reported'⟩ := Prod.mk.inj read.2
    rw [← reported, ← reported', ← Explanation.rows_eq_map_ofPlace, rows, found]
    exact explanation.rowsBelow_text root

/-- Anything else is at fault before it is laid out, unless it refuses to tell what it is. -/
theorem exists_fault_of_not_isPaired
    (answers : ∀ m, e.mapping? = some m → Pack.Answers true Explanation.shape.rules m)
    (h : ¬ ∃ invalid extra, e.HasLists invalid extra ∧ ∀ w ∈ invalid ++ extra, w.IsPaired) :
    ∃ fault, fault.kind = "SchemaError" ∧ Explanation.ofValue e = .error fault := by
  by_cases lists : ∃ invalid extra, e.HasLists invalid extra
  · obtain ⟨invalid, extra, lists⟩ := lists
    have read := Explanation.read_ofValue lists
    cases found : Explanation.ofValue e with
    | ok explanation =>
      rw [found] at read
      exact absurd ⟨invalid, extra, lists, read.1⟩ h
    | error fault =>
      rw [found] at read
      obtain ⟨-, entry, rfl⟩ := read
      exact ⟨_, rfl, rfl⟩
  · exact ⟨_, rfl, Explanation.ofValue_of_not_hasLists answers lists⟩

end Value

namespace Session

variable {e root : Value} {rows : List Row} {fault : Fault}

/-- From a stream of rows that can be had they are taken in turn, and then there is nothing left. -/
theorem nextOf_of_rows (read : Value.rows root e = .ok rows) (id : Nat) (s : Session) :
    nextOf (.rowStream id e root) s =
      match rows[s.takenFrom id]? with
      | some row => (.ok row.toValue, { s with taken := (id, s.takenFrom id + 1) :: s.taken })
      | none => (.ok (.text "<end>"), s) := by
  have opened : (Value.rowStream id e root).stream? = some (id, .ok (rows.map Row.toValue)) := by
    rw [Value.stream?, read]
    rfl
  have kept : left id (.ok (rows.map Row.toValue)) s =
      (.ok ((rows.drop (s.takenFrom id)).map Row.toValue), s) := by
    rw [List.map_drop]
    rfl
  rw [nextOf, opened, ← List.head?_drop]
  dsimp only
  rw [next?, Run.bind_apply, Run.bind_apply_ok kept]
  cases rows.drop (s.takenFrom id) <;> rfl

/-- A stream of rows that cannot be had fails once, and then has nothing left. -/
theorem nextOf_of_no_rows (failed : Value.rows root e = .error fault) (id : Nat) (s : Session) :
    nextOf (.rowStream id e root) s =
      if s.takenFrom id = 0 then (.error fault, { s with taken := (id, 1) :: s.taken })
      else (.ok (.text "<end>"), s) := by
  have opened : (Value.rowStream id e root).stream? = some (id, .error fault) := by
    rw [Value.stream?, failed]
    rfl
  have asked : left id (.error fault) s =
      (if s.takenFrom id == 0 then (do setTaken id 1; Run.raise fault) else pure [] :
        Run Session (List Value)) s := rfl
  rw [nextOf, opened]
  dsimp only
  rw [next?, Run.bind_apply, Run.bind_apply, asked]
  cases s.takenFrom id <;> rfl

/-- What can be had of an explanation from anywhere. If it has its two lists, and in them nothing
but pairs at every depth, all rows can be had, and can be taken one by one: a row for each value
that is listed, the invalid ones first, from left to right. If not, and unless it is a mapping that
refuses to tell its keys or what it has at the two, there is a fault instead of the rows and of the
card, below any root and at any level. A stream of the rows then fails at the first one, and is at
its end from then on. -/
theorem rows_all_or_none (e : Value) :
    (∀ invalid extra, e.HasLists invalid extra → (∀ w ∈ invalid ++ extra, w.IsPaired) →
      ∀ root : String, ∃ rows, Value.rows (.text root) e = .ok rows ∧
        rows = (Value.placesIn invalid).map (Row.ofPlace .invalid root) ++
          (Value.placesIn extra).map (Row.ofPlace .extra root) ∧
        ∀ id s, nextOf (.rowStream id e (.text root)) s =
          match rows[s.takenFrom id]? with
          | some row => (.ok row.toValue, { s with taken := (id, s.takenFrom id + 1) :: s.taken })
          | none => (.ok (.text "<end>"), s)) ∧
      ((∀ m, e.mapping? = some m → Pack.Answers true Explanation.shape.rules m) →
        (¬ ∃ invalid extra, e.HasLists invalid extra ∧ ∀ w ∈ invalid ++ extra, w.IsPaired) →
        ∃ fault, fault.kind = "SchemaError" ∧ (∀ root, Value.rows root e = .error fault) ∧
          (∀ level marks, Row.marks level = .ok marks → Value.card level e = .error fault) ∧
          ∀ id root s, nextOf (.rowStream id e root) s =
            if s.takenFrom id = 0 then (.error fault, { s with taken := (id, 1) :: s.taken })
            else (.ok (.text "<end>"), s)) := by
  constructor
  · intro invalid extra lists paired root
    have read := Value.rows_of_isPaired lists paired root
    exact ⟨_, read, rfl, nextOf_of_rows read⟩
  · intro answers h
    obtain ⟨fault, kind, failed⟩ := Value.exists_fault_of_not_isPaired answers h
    have noRows (root : Value) : Value.rows root e = .error fault := by
      rw [Value.rows, failed]
      rfl
    refine ⟨fault, kind, noRows, fun level marks held => ?_, fun id root => ?_⟩
    · rw [Value.card, held, noRows]
      rfl
    · exact nextOf_of_no_rows (noRows root) id

/-- An explanation whose pairs are lists and tuples of any kind, and the same with a list of one at
the very end: the one has two rows, and the other has none, and no card. -/
theorem rows_all_or_none_last_entry :
    let invalid : List Value := [.list 2 [.text "a", .int 1],
      .branch 3 [.text "b", .branch 4 [.tuple [.text "c", .null]]]]
    let extra : List Value := [.tuple [.text "d", .branch 5 [.list 6 [.text "e"]]]]
    let e : Value := .dict 7 [(.text "extra", .branch 8 []), (.text "invalid", .tuple invalid)]
    let e' : Value := .dict 7 [(.text "extra", .branch 8 extra), (.text "invalid", .tuple invalid)]
    e.HasLists invalid [] ∧ (∀ w ∈ invalid ++ [], w.IsPaired) ∧
      Value.rows (.text "root") e =
        .ok [⟨"root.a", .invalid, .int 1⟩, ⟨"root.b.c", .invalid, .null⟩] ∧
      (¬ ∃ invalid extra, e'.HasLists invalid extra ∧ ∀ w ∈ invalid ++ extra, w.IsPaired) ∧
      ∃ fault, fault.kind = "SchemaError" ∧ Value.rows (.text "root") e' = .error fault ∧
        Value.card (.int 2) e' = .error fault ∧
        (nextOf (.rowStream 9 e' (.text "root")) .initial).1 = .error fault := by
  intro invalid extra e e'
  have lists : e.HasLists invalid [] := by
    refine ⟨_, rfl, fun key => ?_, rfl, rfl⟩
    simp [or_comm]
  have paired : ∀ w ∈ invalid ++ [], w.IsPaired := by
    refine List.forall_mem_cons.mpr ⟨.mk rfl nofun, List.forall_mem_singleton.mpr (.mk rfl ?_)⟩
    intro id inner equal
    cases equal
    exact List.forall_mem_singleton.mpr (.mk rfl nofun)
  have unpaired : ¬ ∃ invalid extra, e'.HasLists invalid extra ∧
      ∀ w ∈ invalid ++ extra, w.IsPaired := by
    rintro ⟨xs, ys, ⟨entries, found, -, -, list⟩, paired⟩
    cases found
    cases list
    obtain ⟨pair, below⟩ := paired (.tuple [.text "d", .branch 5 [.list 6 [.text "e"]]])
      (List.mem_append_right xs List.mem_cons_self)
    cases pair
    obtain ⟨pair, -⟩ := below _ _ rfl _ List.mem_cons_self
    cases pair
  obtain ⟨rows, read, equal, -⟩ := (rows_all_or_none e).1 invalid [] lists paired "root"
  have answers : ∀ m, e'.mapping? = some m → Pack.Answers true Explanation.shape.rules m := by
    rintro _ ⟨⟩
    exact Pack.answers_of_items rfl
  obtain ⟨fault, kind, noRows, noCard, next⟩ := (rows_all_or_none e').2 answers unpaired
  refine ⟨lists, paired, ?_, unpaired, fault, kind, noRows _, noCard _ _ rfl, ?_⟩
  · rw [read, equal]
    rfl
  · rw [next]
    rfl

end Session

end Conformance
