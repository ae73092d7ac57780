import Conformance.Proofs.Flattening
import Conformance.Proofs.Lines
import Conformance.Proofs.SelfCheck

/-!
# The lines of a message

A guard that fails gives its reasons in lines: a heading, and an item for each row that counts. What
stands in an item as a value cannot end its line, since a written form is a line. A path is another
matter, because the keys that lead to a value stand in it as they are. So an item takes one line
more for each line feed in its path.

Whose keys these are depends on the row. An invalid value is reported under keys of the schema, and
whoever has chosen these without line feeds has one line for each row, whatever the value holds. An
extra value is reported under a key of its own. In exact mode such a key can end the line of its
item, and what follows can pass for an item that nothing was found for.

## Main definitions

* `Pack.allKeys` — the keys of a pack, at every depth
* `Pack.MeetsLines` — no key without a rule has a line feed

## Main results

* `Row.length_lines_item` — the lines that the item of a row takes
* `Pack.isLine_rows_iff` — when all paths of an examination are lines
* `Session.lines_of_enforceBy` — the lines of the message of a guard
-/

namespace Conformance

variable {σ κ α : Type}

/-! ### Items of a message -/

theorem Value.IsPlain.isBranch_eq_false {v : Value} (plain : v.IsPlain) : v.isBranch = false := by
  cases v with
  | branch id items => exact plain.isDatum.elim
  | _ => rfl

namespace Row

open Text

/-- A path is a line if its root is one and all keys that it is joined from are. -/
theorem isLine_pathTo_iff {root : String} {path : List Value} :
    IsLine (pathTo root path) ↔ IsLine root ∧ ∀ key ∈ path, IsLine key.display := by
  rw [pathTo, isLine_intercalate_iff (by decide), List.forall_mem_cons, List.forall_mem_map]

variable {r : Row}

/-- The line feeds of an item are those of its path. -/
theorem count_feed_item (plain : r.value.IsPlain) :
    ("  " ++ r.line).toList.count '\n' = r.path.toList.count '\n' := by
  have value : r.value.render.toList.count '\n' = 0 :=
    List.count_eq_zero.mpr (Value.isLine_render r.value plain)
  have word : r.violation.text.toList.count '\n' = 0 := by cases r.violation <;> decide
  have indent : "  ".toList.count '\n' = 0 := by decide
  have colon : ": ".toList.count '\n' = 0 := by decide
  have blank : " ".toList.count '\n' = 0 := by decide
  simp only [line, String.toList_append, List.count_append, value, word, indent, colon, blank,
    Nat.add_zero, Nat.zero_add]

/-- An item takes one line, and one more for each line feed in its path. -/
theorem length_lines_item (plain : r.value.IsPlain) :
    (lines ("  " ++ r.line)).length = 1 + r.path.toList.count '\n' := by
  rw [length_lines, count_feed_item plain]

theorem isLine_item_iff (plain : r.value.IsPlain) : IsLine ("  " ++ r.line) ↔ IsLine r.path := by
  rw [IsLine, ← List.count_eq_zero, count_feed_item plain, List.count_eq_zero, IsLine]

end Row

namespace Fault

variable {rows : List Row}

/-- The message of a guard is its heading and the items of the rows. -/
theorem lines_message (found : rows ≠ []) (e : Explanation) :
    Text.lines (nonconforming rows e).message = "value does not conform to schema:" ::
      rows.flatMap fun r => Text.lines ("  " ++ r.line) := by
  have written : (nonconforming rows e).message = "value does not conform to schema:" ++ "\n" ++
      "\n".intercalate (rows.map fun r => "  " ++ r.line) := rfl
  have heading : Text.IsLine "value does not conform to schema:" := by simp [Text.IsLine]
  rw [written, Text.lines_append_feed, Text.lines_of_isLine heading,
    Text.lines_intercalate (by simpa using found), List.flatMap_map, List.singleton_append]

/-- There is one line for each row only if all paths are lines: no line is lost that could make up
for one that a path adds. -/
theorem lines_message_eq_iff (found : rows ≠ []) (plain : ∀ r ∈ rows, r.value.IsPlain)
    (e : Explanation) :
    Text.lines (nonconforming rows e).message = "value does not conform to schema:" ::
      rows.map (fun r => "  " ++ r.line) ↔ ∀ r ∈ rows, Text.IsLine r.path := by
  have items : (rows.map fun r => "  " ++ r.line).flatMap Text.lines =
      rows.flatMap fun r => Text.lines ("  " ++ r.line) := List.flatMap_map ..
  rw [lines_message found e, ← items, List.cons_inj_right, Text.flatMap_lines_eq_iff,
    List.forall_mem_map]
  exact forall₂_congr fun r member => Row.isLine_item_iff (plain r member)

end Fault

/-! ### Keys of paths -/

mutual

/-- The keys of the pack in a rule, at every depth. -/
def Rule.allKeys : Rule κ α → List κ
  | .leaf .. => []
  | .nested _ p => p.allKeys
termination_by structural a => a

/-- The keys of a pack, at every depth. -/
def Pack.allKeys : Pack κ α → List κ
  | .mk _ rules => Pack.allKeysOf rules
termination_by structural a => a

/-- The keys of rules, at every depth. -/
def Pack.allKeysOf : List (κ × Rule κ α) → List κ
  | [] => []
  | (key, r) :: rest => key :: (r.allKeys ++ Pack.allKeysOf rest)
termination_by structural a => a

end

namespace Pack

theorem mem_allKeysOf {rules : List (κ × Rule κ α)} {key : κ} {r : Rule κ α}
    (rule : (key, r) ∈ rules) : ∀ k ∈ key :: r.allKeys, k ∈ allKeysOf rules := by
  induction rules with
  | nil => cases rule
  | cons entry rest ih =>
    obtain ⟨l, r'⟩ := entry
    intro k member
    rw [allKeysOf, List.mem_cons, List.mem_append]
    rcases List.mem_cons.mp rule with equal | rule
    · cases equal
      exact (List.mem_cons.mp member).imp_right .inl
    · exact .inr (.inr (ih rule k member))

theorem keys_subset_allKeys (p : Pack κ α) : p.keys ⊆ p.allKeys := by
  intro key member
  obtain ⟨entry, rule, rfl⟩ := List.mem_map.mp member
  cases p with
  | mk id rules => exact mem_allKeysOf rule entry.1 List.mem_cons_self

variable {p q : Pack Value α} {v w : Value} {path : List Value}

/-- The keys that lead to a pack, and its own, are keys of the pack that they start from. -/
theorem Reaches.mem_allKeys (reached : p.Reaches v path q w) :
    ∀ key ∈ path ++ q.keys, key ∈ p.allKeys := by
  induction reached with
  | here p v => exact fun key member => p.keys_subset_allKeys member
  | @through id rules v m key n q x path p w mapping rule lookup further ih =>
    intro k member
    refine mem_allKeysOf rule k ?_
    rw [List.cons_append] at member
    exact List.mem_cons.mpr ((List.mem_cons.mp member).imp_right (ih k))

theorem Locates.mem_allKeys (located : p.Locates v .invalid path) :
    ∀ key ∈ path, key ∈ p.allKeys := by
  obtain ⟨above, last, q, w, rfl, reached, blamed⟩ := located
  intro key member
  refine reached.mem_allKeys key (List.mem_append.mpr ((List.mem_append.mp member).imp_right ?_))
  intro member
  obtain rfl := List.mem_singleton.mp member
  exact blamed

/-- Whether the texts that a pack meets as keys without a rule are lines. -/
def MeetsLines (p : Pack Value α) (v : Value) : Prop :=
  ∀ path q w s, p.Reaches v path q w → q.Blames w .extra (.text s) → Text.IsLine s

variable {check : α → Value → Run σ Bool} {s t : σ} {e : Explanation} {r : Row}

/-- The path of an invalid value has keys of the pack only. -/
theorem isLine_path_of_mem_invalid (keys : ∀ key ∈ p.allKeys, Text.IsLine key.display)
    (h : p.examine check v s = (.ok e, t))
    (member : r ∈ Finding.rowsOf .invalid Row.root e.invalid) : Text.IsLine r.path := by
  rw [Finding.rowsOf_eq_map_leavesIn .invalid (by decide)] at member
  obtain ⟨leaf, found, rfl⟩ := List.mem_map.mp member
  have located := locates_of_mem_leavesIn p v s t e h .invalid leaf found
  refine Row.isLine_pathTo_iff.mpr ⟨by decide, fun key inPath => ?_⟩
  exact keys key (located.mem_allKeys key inPath)

/-- The extra rows are those of the entries without a rule, of the mappings that are reached. -/
theorem mem_extraRows_iff (h : p.examine check v s = (.ok e, t)) :
    r ∈ Finding.rowsOf .extra Row.root e.extra ↔
      ∃ path q w entries entry, p.Reaches v path q w ∧ w.entries? = some entries ∧
        entry ∈ entries ∧ q.has entry.1 = false ∧
        r = ⟨Row.pathTo Row.root (path ++ [entry.1]), .extra, entry.2⟩ := by
  rw [← (visits_yield Row.root (by decide) p v s t e h).2, List.mem_flatMap]
  constructor
  · rintro ⟨visit, visited, member⟩
    cases visit with
    | check path c x => cases member
    | pack path q w =>
      obtain ⟨entry, kept, rfl⟩ := List.mem_map.mp member
      obtain ⟨listed, new⟩ := List.mem_filter.mp kept
      cases found : w.entries? with
      | none =>
        rw [found] at listed
        cases listed
      | some entries =>
        rw [found] at listed
        exact ⟨path, q, w, entries, entry, mem_visits_pack_iff.mp visited, found, listed,
          by simpa using new, rfl⟩
  · rintro ⟨path, q, w, entries, entry, reached, found, listed, new, rfl⟩
    refine ⟨.pack path q w, mem_visits_pack_iff.mpr reached, List.mem_map.mpr ⟨entry, ?_, rfl⟩⟩
    rw [found]
    exact List.mem_filter.mpr ⟨listed, by simp [new]⟩

/-- The path of an extra value ends in a key of the value, and has keys of the pack before it. -/
theorem isLine_extra_iff (keys : ∀ key ∈ p.allKeys, Text.IsLine key.display) (plain : v.IsPlain)
    (h : p.examine check v s = (.ok e, t)) :
    (∀ r ∈ Finding.rowsOf .extra Row.root e.extra, Text.IsLine r.path) ↔ p.MeetsLines v := by
  constructor
  · intro each path q w s reached blamed
    obtain ⟨new, entries, found, member⟩ := blamed
    obtain ⟨entry, listed, same⟩ := List.mem_map.mp member
    have row := each _ ((mem_extraRows_iff h).mpr
      ⟨path, q, w, entries, entry, reached, found, listed, same ▸ new, rfl⟩)
    have last : entry.1 ∈ path ++ [entry.1] := List.mem_append_right _ (List.mem_singleton.mpr rfl)
    have line := (Row.isLine_pathTo_iff.mp row).2 entry.1 last
    rwa [same] at line
  · intro lines r member
    obtain ⟨path, q, w, entries, entry, reached, found, listed, new, rfl⟩ :=
      (mem_extraRows_iff h).mp member
    refine Row.isLine_pathTo_iff.mpr ⟨by decide, List.forall_mem_append.mpr ⟨?_, ?_⟩⟩
    · exact fun key inPath => keys key (reached.mem_allKeys key (List.mem_append_left _ inPath))
    · rw [List.forall_mem_singleton]
      have plainHere : w.IsPlain := (Value.Inherited.of_hasPart trivial).of_reaches plain reached
      obtain ⟨m, mapping, equal⟩ := Value.exists_of_entries? found
      have plainKey := (plainHere.entry mapping entry (equal ▸ listed)).1
      refine (Value.isLine_display_iff plainKey).mpr fun s same => ?_
      exact lines path q w s reached
        ⟨same ▸ new, entries, found, List.mem_map.mpr ⟨entry, listed, same⟩⟩

/-- What is reported of plain data is plain. -/
theorem isPlain_of_mem_rows (exact : Bool) (plain : v.IsPlain)
    (h : p.examine check v s = (.ok e, t)) :
    ∀ r ∈ (e.counting exact).rows Row.root, r.value.IsPlain := by
  intro r member
  rw [Explanation.rows_counting] at member
  have value := List.mem_map_of_mem (f := Row.value) (List.mem_filter.mp member).1
  rw [Explanation.rows_map_value] at value
  exact (Value.Inherited.of_hasPart trivial).of_examine p v s t e plain h r.value value

/-- Of a pack whose keys are lines, the rows that count have lines for paths if no extra key counts,
or if all of these are lines too. -/
theorem isLine_rows_iff (exact : Bool) (keys : ∀ key ∈ p.allKeys, Text.IsLine key.display)
    (plain : v.IsPlain) (h : p.examine check v s = (.ok e, t)) :
    (∀ r ∈ (e.counting exact).rows Row.root, Text.IsLine r.path) ↔
      exact = false ∨ p.MeetsLines v := by
  have invalid : ∀ r ∈ Finding.rowsOf .invalid Row.root e.invalid, Text.IsLine r.path :=
    fun r => isLine_path_of_mem_invalid keys h
  cases exact with
  | true =>
    rw [Explanation.counting, if_pos rfl, Explanation.rows, List.forall_mem_append,
      isLine_extra_iff keys plain h, and_iff_right invalid]
    simp
  | false =>
    refine iff_of_true (List.forall_mem_append.mpr ⟨invalid, ?_⟩) (.inl rfl)
    exact List.forall_mem_nil _

end Pack

/-! ### The message of a guard -/

namespace Session

variable {call : Value → Value → Run Session Value} {schema v given : Value} {s t : Session}

/-- Settings have a switch, or are none. -/
theorem switchFor_outcome (given : Value) (s : Session) :
    (∃ enabled, switchFor given s = (.ok enabled, s)) ∨
      ∃ fault, switchFor given s = (.error fault, s) ∧ fault.kind ≠ "ValidationError" := by
  cases given with
  | null => exact .inl ⟨_, rfl⟩
  | settings inForce => exact .inl ⟨_, rfl⟩
  | frame i columns rows cell =>
    rw [switchFor]
    cases Settings.columnType? columns Settings.memberName with
    | some type => exact .inr ⟨.ambiguousTruth type, rfl, by simp [Fault.kind]⟩
    | none => exact .inr ⟨.noAttribute _ _, rfl, by simp [Fault.kind]⟩
  | _ => exact .inr ⟨.noAttribute _ _, rfl, by simp [Fault.kind]⟩

/-- A guard that is on and fails for its value has examined it, has found something that counts, and
rejects the value for that. -/
theorem rejected_of_passing {exact : Bool} {fault : Fault} {p : Pack Value Value}
    (failed : passing (verdictBy call) (.ok p) exact true v s = (.error fault, t))
    (kind : fault.kind = "ValidationError") :
    ∃ e, p.examine (verdictBy call) v s = (.ok e, t) ∧ e.isFree exact = false ∧
      reject exact e t = (.error fault, t) := by
  -- Neither a check nor a look-up ends in such a fault, so the examination has ended in none.
  have asked (c x : Value) : (verdictBy call c x).EndsIn (fun _ => True) fun other =>
      other.kind ≠ "ValidationError" := by
    refine (endsIn_verdictBy_fatal call c x).mono (fun _ given => given) fun other fatal same => ?_
    have kinds := Fault.kind_of_not_ordinary fatal
    rw [same] at kinds
    simp at kinds
  have lookup : (Fault.refused .lookup).kind ≠ "ValidationError" := by simp [Fault.kind]
  obtain ⟨e, u, examined, ended⟩ :=
    (Run.EndsIn.examine asked lookup p v).of_bind_eq_error failed (not_not_intro kind)
  cases free : e.isFree exact with
  | true =>
    rw [free] at ended
    cases ended
  | false =>
    rw [free] at ended
    obtain ⟨other, rejected⟩ := reject_eq_error exact e u
    have same : reject exact e u = (.error fault, t) := ended
    cases rejected.symm.trans same
    exact ⟨e, examined, free, rejected⟩

/-- Such a fault is not one of the settings or of the schema, so the guard is on and has a pack. -/
theorem rejected_of_enforceBy {exact : Bool} {fault : Fault}
    (failed : enforceBy (verdictBy call) v schema (.bool exact) given s = (.error fault, t))
    (kind : fault.kind = "ValidationError") :
    ∃ p e, Pack.ofValue schema = .ok p ∧ p.examine (verdictBy call) v s = (.ok e, t) ∧
      e.isFree exact = false ∧ reject exact e t = (.error fault, t) := by
  rcases switchFor_outcome given s with ⟨enabled, switch⟩ | ⟨other, refused, foreign⟩
  · rw [enforceBy_of_switchFor switch] at failed
    cases enabled with
    | false => cases failed
    | true =>
      cases read : Pack.ofValue schema with
      | error cause =>
        rw [read] at failed
        cases failed
        cases cause <;> simp [Fault.kind] at kind
      | ok p =>
        rw [read] at failed
        obtain ⟨e, rejected⟩ := rejected_of_passing failed kind
        exact ⟨p, e, rfl, rejected⟩
  · have raised : enforceBy (verdictBy call) v schema (.bool exact) given s = (.error other, s) :=
      Run.bind_apply_error refused _
    cases raised.symm.trans failed
    exact absurd kind foreign

/-- The message of a guard that fails for plain data: its heading, and an item for each row that
counts, in their order. What an item says of a value never takes a line of its own, so it is down to
the paths whether there is one line for each row. If the keys of the schema are lines, there is in
permissive mode, and in exact mode as long as the extra keys are lines. -/
theorem lines_of_enforceBy (call : Value → Value → Run Session Value) (schema v given : Value)
    (exact : Bool) (s t : Session) (fault : Fault) (plain : v.IsPlain)
    (failed : enforceBy (verdictBy call) v schema (.bool exact) given s = (.error fault, t))
    (kind : fault.kind = "ValidationError") :
    ∃ p e rows, Pack.ofValue schema = .ok p ∧
      examineBy (verdictBy call) schema v s = (.ok e, t) ∧
      rows = (e.rows Row.root).filter (fun r => exact || r.violation == .invalid) ∧ rows ≠ [] ∧
      Text.lines fault.message = "value does not conform to schema:" ::
        rows.flatMap (fun r => Text.lines ("  " ++ r.line)) ∧
      (∀ r ∈ rows, (Text.lines ("  " ++ r.line)).length = 1 + r.path.toList.count '\n') ∧
      (Text.lines fault.message = "value does not conform to schema:" ::
        rows.map (fun r => "  " ++ r.line) ↔ ∀ r ∈ rows, Text.IsLine r.path) ∧
      ((∀ key ∈ p.allKeys, Text.IsLine key.display) →
        ((∀ r ∈ rows, Text.IsLine r.path) ↔ exact = false ∨ p.MeetsLines v)) := by
  obtain ⟨p, e, read, examined, fails, rejected⟩ := rejected_of_enforceBy failed kind
  have values := (e.counting exact).rows_map_value Row.root
  have plainRows := Pack.isPlain_of_mem_rows exact plain examined
  -- Plain data cannot be taken for findings, so the rejection is one with rows.
  have notBranch : ∀ w ∈ (e.counting exact).reported, w.isBranch = false := by
    rw [← values, List.forall_mem_map]
    exact fun r member => (plainRows r member).isBranch_eq_false
  cases (reject_of_plain exact e t notBranch).symm.trans rejected
  have found : (e.counting exact).rows Row.root ≠ [] := by
    intro none
    rw [none] at values
    exact Pack.reported_ne_nil_of_examine examined fails values.symm
  exact ⟨p, e, _, read, by rw [examineBy_eq read, examined], e.rows_counting exact Row.root, found,
    Fault.lines_message found e, fun r member => Row.length_lines_item (plainRows r member),
    Fault.lines_message_eq_iff found plainRows e,
    fun keys => Pack.isLine_rows_iff exact keys plain examined⟩

/-- Line feeds in an invalid text, where they are spelled out, and in an extra key, which does not
count: the message has one line below its heading. -/
theorem lines_of_enforceBy_permissive :
    let schema : Value := .dict 2 [(.text "a", .dict 3 [(.text "b", .callable 4 (.check .number))])]
    let v : Value := .dict 5 [
      (.text "a", .dict 6 [(.text "b", .text "x\ny"), (.text "c\nd", .int 1)])]
    v.IsPlain ∧ ∃ fault,
      enforceBy (verdictBy Value.apply) v schema (.bool false) .null .initial =
        (.error fault, .initial) ∧
      fault.kind = "ValidationError" ∧
      Text.lines fault.message =
        ["value does not conform to schema:", "  root.a.b: invalid 'x\\ny'"] := by
  intro schema v
  have plain : v.IsPlain := by
    simp [v, Value.isPlain_iff (v := .dict _ _), Value.isPlain_iff (v := .text _),
      Value.isPlain_iff (v := .int _), Value.parts, Value.mapping?, Mapping.entries, Value.IsDatum,
      Value.unhashable?]
    decide
  obtain ⟨fault, failed, kind⟩ : ∃ fault,
      enforceBy (verdictBy Value.apply) v schema (.bool false) .null .initial =
        (.error fault, .initial) ∧ fault.kind = "ValidationError" := ⟨_, rfl, rfl⟩
  refine ⟨plain, fault, failed, kind, ?_⟩
  obtain ⟨p, e, rows, read, examined, counted, -, -, -, single, lined⟩ :=
    lines_of_enforceBy Value.apply schema v .null false _ _ fault plain failed kind
  cases read
  cases examined
  have keys : ∀ key ∈ [Value.text "a", .text "b"], Text.IsLine key.display := by decide
  have quoted : (Value.text "x\ny").render = "'x\\ny'" := by decide +kernel
  have rows_eq : rows = [⟨"root.a.b", .invalid, .text "x\ny"⟩] := counted
  rw [single.mpr ((lined keys).mpr (.inl rfl)), rows_eq, List.map_singleton, Row.line, quoted]
  rfl

/-- A key without a rule, for which one violation is found. Its line feed makes the message that of
two keys without a rule, neither of which the value has. -/
theorem enforce_forged_line :
    let schema : Value := .dict 2 [(.text "age", .callable 3 (.check .number))]
    let key : Value := .text "y: extra 0\n  root.z"
    let v : Value := .dict 4 [(.text "age", .int 1), (key, .int 2)]
    let w : Value := .dict 4 [(.text "age", .int 1), (.text "y", .int 0), (.text "z", .int 2)]
    v.IsPlain ∧ examine schema v .initial = (.ok ⟨[], [.value key (.int 2)]⟩, .initial) ∧
      ∃ fault other, enforce v schema (.bool true) .null .initial = (.error fault, .initial) ∧
        enforce w schema (.bool true) .null .initial = (.error other, .initial) ∧
        fault.kind = "ValidationError" ∧ fault.message = other.message ∧
        Text.lines fault.message =
          ["value does not conform to schema:", "  root.y: extra 0", "  root.z: extra 2"] := by
  intro schema key v w
  have plain : v.IsPlain := by
    simp [v, key, Value.isPlain_iff (v := .dict _ _), Value.isPlain_iff (v := .text _),
      Value.isPlain_iff (v := .int _), Value.parts, Value.mapping?, Mapping.entries, Value.IsDatum,
      Value.unhashable?]
    decide
  refine ⟨plain, rfl, _, _, rfl, rfl, rfl, rfl, ?_⟩
  decide +kernel

end Session

end Conformance
