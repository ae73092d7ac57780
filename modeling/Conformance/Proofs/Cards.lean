import Conformance.Proofs.MalformedExplanations

/-!
# Cards of explanations

A card is trimmed at its end, where a blank line stands below the last section. That this takes away
the blank line and nothing else is up to the last value: the card is trimmed of white space of any
kind, and a bullet ends in the written form of a value. But written forms end in a quote, a bracket,
a digit or a letter, whatever the value holds. Only a table is laid out freely, and so is an object
with a written form of its own.

So the card is its two sections, each with a heading and a bullet for each row, as they are, but for
blanks at the end of such a form in the last bullet.

## Main definitions

* `Text.EndsVisibly` — a text whose last character is no blank
* `Row.sectionBody`, `Row.layout` — what stands below a heading, and a card before it is trimmed
* `Row.ending` — what stands behind the colon of the last bullet

## Main results

* `Value.endsVisibly_render` — the written form of a value ends visibly
* `Row.exists_card_eq` — what trimming takes away from a card
* `Value.card_of_isPaired` — the card of an explanation
-/

namespace Conformance

/-! ### Texts that end visibly -/

namespace Text

/-- The text has a last character, and that is no blank. -/
def EndsVisibly (s : String) : Prop := ∃ c ∈ s.toList.getLast?, isBlank c = false

namespace EndsVisibly

/-- What stands in front of a text does not matter. -/
theorem append {t : String} (h : EndsVisibly t) (s : String) : EndsVisibly (s ++ t) := by
  obtain ⟨c, last, visible⟩ := h
  refine ⟨c, ?_, visible⟩
  rw [String.toList_append, List.getLast?_append, last]
  rfl

/-- Only what follows is trimmed. -/
theorem trimEnd_append {s : String} (h : EndsVisibly s) (cs : List Char) :
    Text.trimEnd (s.toList ++ cs) = s.toList ++ Text.trimEnd cs := by
  obtain ⟨c, last, visible⟩ := h
  obtain ⟨front, equal⟩ := List.getLast?_eq_some_iff.mp last
  have kept : (s.toList.reverse).dropWhile isBlank = s.toList.reverse := by
    simp [equal, visible]
  rw [Text.trimEnd, Text.trimEnd, List.reverse_append, List.dropWhile_append]
  split
  next blank => simp [kept, List.isEmpty_iff.mp blank]
  next => rw [List.reverse_append, List.reverse_reverse]

/-- Nothing is trimmed. -/
theorem trimEnd {s : String} (h : EndsVisibly s) : Text.trimEnd s.toList = s.toList := by
  simpa [Text.trimEnd] using h.trimEnd_append []

end EndsVisibly

theorem endsVisibly_ofList_append (cs : List Char) {c : Char} (visible : isBlank c = false) :
    EndsVisibly (String.ofList (cs ++ [c])) :=
  ⟨c, by simp, visible⟩

theorem endsVisibly_ofList {cs : List Char} (nonempty : cs ≠ [])
    (visible : ∀ c ∈ cs, isBlank c = false) : EndsVisibly (String.ofList cs) := by
  rw [← List.dropLast_append_getLast nonempty]
  exact endsVisibly_ofList_append _ (visible _ (List.getLast_mem nonempty))

/-- Characters that are no blanks may follow, or none at all. -/
theorem EndsVisibly.append_ofList {s : String} (h : EndsVisibly s) {cs : List Char}
    (visible : ∀ c ∈ cs, isBlank c = false) : EndsVisibly (s ++ String.ofList cs) := by
  by_cases nonempty : cs = []
  · simpa [nonempty] using h
  · exact (endsVisibly_ofList nonempty visible).append s

/-- Blanks are trimmed, all that stand at the end. -/
theorem exists_trimEnd_append (s : String) :
    ∃ kept blanks, String.ofList (Text.trimEnd s.toList) = kept ∧ s = kept ++ blanks ∧
      (∀ c ∈ blanks.toList, isBlank c = true) ∧ (kept = "" ∨ EndsVisibly kept) := by
  refine ⟨_, String.ofList (s.toList.reverse.takeWhile isBlank).reverse, rfl, ?_, ?_, ?_⟩
  · apply String.toList_inj.mp
    rw [String.toList_append, String.toList_ofList, String.toList_ofList, Text.trimEnd,
      ← List.reverse_append, List.takeWhile_append_dropWhile, List.reverse_reverse]
  · intro c member
    rw [String.toList_ofList, List.mem_reverse] at member
    exact List.all_eq_true.mp List.all_takeWhile c member
  · rw [Text.trimEnd]
    cases rest : s.toList.reverse.dropWhile isBlank with
    | nil => exact .inl rfl
    | cons c above =>
      have visible : isBlank c = false := by
        have stopped :=
          List.head_dropWhile_not (p := isBlank) (l := s.toList.reverse) (by simp [rest])
        simpa [rest] using stopped
      rw [List.reverse_cons]
      exact .inr (endsVisibly_ofList_append _ visible)

/-- The last of several texts is the end of them all. -/
theorem exists_intercalate_concat (s : String) (ts : List String) (t : String) :
    ∃ front, s.intercalate (ts ++ [t]) = front ++ t := by
  induction ts with
  | nil => exact ⟨"", by simp⟩
  | cons u rest ih =>
    obtain ⟨front, equal⟩ := ih
    obtain ⟨v, below, shape⟩ := List.exists_cons_of_ne_nil (List.concat_ne_nil t rest)
    rw [shape] at equal
    refine ⟨u ++ s ++ front, ?_⟩
    rw [List.cons_append, shape, String.intercalate_cons_cons, equal, ← String.append_assoc]

/-! ### Numbers -/

theorem isBlank_of_isDigit {c : Char} (h : c.isDigit = true) : isBlank c = false := by
  have range : 48 ≤ c.toNat ∧ c.toNat ≤ 57 := Char.isDigit_iff_toNat.mp h
  simp only [isBlank, blanks, List.any_cons, List.any_nil, Bool.or_false, Bool.or_eq_false_iff,
    Bool.and_eq_false_iff, decide_eq_false_iff_not]
  omega

theorem isBlank_of_mem_toDigits {n : Nat} {c : Char} (member : c ∈ Nat.toDigits 10 n) :
    isBlank c = false :=
  isBlank_of_isDigit (Nat.isDigit_of_mem_toDigits (by simp) (by simp) member)

theorem endsVisibly_nat (n : Nat) : EndsVisibly (toString n) :=
  endsVisibly_ofList Nat.toDigits_ne_nil fun _ => isBlank_of_mem_toDigits

theorem endsVisibly_int (n : Int) : EndsVisibly (toString n) := by
  cases n with
  | ofNat n => exact endsVisibly_nat n
  | negSucc n => exact (endsVisibly_nat (n + 1)).append "-"

end Text

namespace Binary64

open Text

theorem endsVisibly_exponentText (e : Int) : EndsVisibly (exponentText e) := by
  rw [exponentText]
  refine EndsVisibly.append ?_ _
  split
  · exact (endsVisibly_nat _).append "0"
  · exact endsVisibly_nat _

theorem mem_of_mem_trimZeros {digits : List Char} {c : Char} (member : c ∈ trimZeros digits) :
    c ∈ digits := by
  rw [trimZeros, List.mem_reverse] at member
  exact List.mem_reverse.mp ((List.dropWhile_sublist _).subset member)

/-- Digits with a point or an exponent. -/
theorem endsVisibly_placed {digits : List Char} (visible : ∀ c ∈ digits, isBlank c = false)
    (lead : Int) : EndsVisibly (placed digits lead) := by
  unfold placed
  split
  · exact (endsVisibly_exponentText lead).append _
  · split
    · refine EndsVisibly.append_ofList ⟨'.', rfl, rfl⟩ fun c member => ?_
      rcases List.mem_append.mp member with zero | digit
      · obtain ⟨-, rfl⟩ := List.mem_replicate.mp zero
        rfl
      · exact visible c digit
    · refine EndsVisibly.append ?_ _
      split
      · exact ⟨'0', rfl, rfl⟩
      next nonempty =>
        exact endsVisibly_ofList (by simpa using nonempty)
          fun c member => visible c (List.mem_of_mem_drop member)

theorem endsVisibly_text (x : Binary64) : EndsVisibly x.text := by
  cases x with
  | infinite negative => cases negative <;> exact ⟨'f', rfl, rfl⟩
  | finite negative m e =>
    rw [text]
    split
    · exact EndsVisibly.append ⟨'0', rfl, rfl⟩ _
    · refine (endsVisibly_placed (fun c member => ?_) _).append _
      exact isBlank_of_mem_toDigits (mem_of_mem_trimZeros member)

end Binary64

/-! ### Values -/

/-- Whether a value is a table. -/
def Value.isFrame : Value → Bool
  | frame .. => true
  | _ => false

namespace Value

open Text

/-- The quote at the end of a text is a quote. -/
theorem isBlank_chooseQuote (single double : Bool) :
    isBlank (chooseQuote single double) = false := by
  cases single <;> cases double <;> rfl

theorem endsVisibly_surroundBytes (single double : Bool) (special : Char) (data : List UInt8) :
    EndsVisibly (surroundBytes (chooseQuote single double) special data) :=
  endsVisibly_ofList_append _ (isBlank_chooseQuote single double)

/-- The written form of a value ends in a letter, a digit, a quote or a bracket, whatever stands in
it. Only a table is laid out freely, and an object may have a written form of its own. -/
theorem endsVisibly_render {v : Value} (noFrame : v.isFrame = false)
    (own : ∀ id type form, v = .probe id (.written type form) → EndsVisibly form) :
    EndsVisibly v.render := by
  cases v with
  | null => exact ⟨'e', rfl, rfl⟩
  | bool b => cases b <;> exact ⟨'e', rfl, rfl⟩
  | int n => exact endsVisibly_int n
  | float x => exact x.endsVisibly_text
  | nan id =>
    rw [render]
    exact ⟨'n', rfl, rfl⟩
  | text s => exact endsVisibly_ofList_append _ (isBlank_chooseQuote _ _)
  | bytes data => exact endsVisibly_surroundBytes _ _ _ data
  | bytearray id data => exact EndsVisibly.append ⟨')', rfl, rfl⟩ _
  | list id items => exact EndsVisibly.append ⟨']', rfl, rfl⟩ _
  | branch id items => exact EndsVisibly.append ⟨']', rfl, rfl⟩ _
  | tuple items =>
    rw [render]
    rcases renderItems items with _ | ⟨first, _ | ⟨second, rest⟩⟩ <;>
      exact EndsVisibly.append ⟨')', rfl, rfl⟩ _
  | set id items =>
    rw [render]
    cases renderItems items with
    | nil => exact ⟨')', rfl, rfl⟩
    | cons first rest => exact EndsVisibly.append ⟨'\x7d', rfl, rfl⟩ _
  | frozenset items =>
    rw [render]
    cases renderItems items with
    | nil => exact ⟨')', rfl, rfl⟩
    | cons first rest => exact EndsVisibly.append ⟨')', rfl, rfl⟩ _
  | dict id entries => exact EndsVisibly.append ⟨'\x7d', rfl, rfl⟩ _
  | view entries => exact EndsVisibly.append ⟨')', rfl, rfl⟩ _
  | range start stop step =>
    rw [render, renderRange]
    split <;> exact EndsVisibly.append ⟨')', rfl, rfl⟩ _
  | stream id items =>
    rw [render]
    exact ⟨'>', rfl, rfl⟩
  | rowStream id explanation root =>
    rw [render]
    exact ⟨'>', rfl, rfl⟩
  | frame => cases noFrame
  | probe id p =>
    cases p with
    | written type form => exact own id type form rfl
    | _ => exact EndsVisibly.append ⟨'>', rfl, rfl⟩ _
  | callable id f =>
    cases f with
    | primitive p =>
      rw [render]
      cases p <;> exact ⟨'>', rfl, rfl⟩
    | _ => exact EndsVisibly.append ⟨'>', rfl, rfl⟩ _
  | rule r =>
    rw [render]
    cases r <;> exact EndsVisibly.append ⟨')', rfl, rfl⟩ _
  | pack p =>
    rw [render]
    cases p
    exact EndsVisibly.append ⟨')', rfl, rfl⟩ _
  | settings s => exact EndsVisibly.append ⟨')', rfl, rfl⟩ _

end Value

/-! ### Cards -/

namespace Row

open Text

theorem endsVisibly_scalar {r : Row} (noFrame : r.value.isFrame = false)
    (own : ∀ id type form, r.value = .probe id (.written type form) → EndsVisibly form) :
    EndsVisibly r.scalar := by
  unfold scalar
  split
  · exact ⟨'e', rfl, rfl⟩
  · exact ⟨'e', rfl, rfl⟩
  · exact ⟨'l', rfl, rfl⟩
  · exact Value.endsVisibly_render noFrame own

/-- What stands below the heading of a section: a bullet for each row of the violation, in order, or
a note that there is none. -/
def sectionBody (rows : List Row) (violation : Violation) : String :=
  match rows.filter fun r => r.violation == violation with
  | [] => "_none_"
  | r :: rest => "\n".intercalate ((r :: rest).map bullet)

theorem sectionLines_eq (marks : String) (rows : List Row) (violation : Violation) :
    sectionLines marks rows violation =
      [marks ++ " " ++ violation.title, sectionBody rows violation, ""] := by
  rw [sectionLines, sectionBody]
  cases rows.filter fun r => r.violation == violation <;> rfl

/-- A card before it is trimmed, without the blank line at its end. -/
def layout (marks : String) (rows : List Row) : String :=
  marks ++ " Invalid\n" ++ sectionBody rows .invalid ++ "\n\n" ++
    marks ++ " Extra\n" ++ sectionBody rows .extra

/-- The row of the last bullet, if a card ends with one. -/
def lastExtra? (rows : List Row) : Option Row :=
  (rows.filter fun r => r.violation == .extra).getLast?

/-- What stands behind the colon of the last bullet, if a card ends with one. -/
def ending (rows : List Row) : String :=
  match lastExtra? rows with
  | none => ""
  | some r => " " ++ r.scalar

/-- In front of the ending of a section stands a colon, or the note that there is no row. -/
theorem exists_sectionBody_extra (rows : List Row) :
    ∃ front, EndsVisibly front ∧ sectionBody rows .extra = front ++ ending rows := by
  rw [sectionBody, ending, lastExtra?]
  rcases List.eq_nil_or_concat (rows.filter fun r => r.violation == .extra) with
    nothing | ⟨above, r, equal⟩
  · rw [nothing]
    exact ⟨"_none_", ⟨'_', rfl, rfl⟩, by simp⟩
  · obtain ⟨front, joined⟩ := exists_intercalate_concat "\n" (above.map bullet) r.bullet
    refine ⟨front ++ ("- **" ++ r.path ++ "**:"),
      (EndsVisibly.append ⟨':', rfl, rfl⟩ _).append _, ?_⟩
    obtain ⟨first, rest, shape⟩ := List.exists_cons_of_ne_nil (List.concat_ne_nil r above)
    have bullets : (first :: rest).map bullet = above.map bullet ++ [r.bullet] := by
      rw [← shape, List.map_append, List.map_singleton]
    rw [equal, List.concat_eq_append, List.getLast?_concat, shape]
    calc "\n".intercalate ((first :: rest).map bullet)
        = front ++ r.bullet := by rw [bullets, joined]
      _ = front ++ ("- **" ++ r.path ++ "**:") ++ (" " ++ r.scalar) := by
        apply String.toList_inj.mp
        simp [bullet]

/-- A card is its layout, of which the ending is trimmed and nothing else. -/
theorem exists_card_eq (marks : String) (rows : List Row) :
    ∃ front, layout marks rows = front ++ ending rows ∧
      card marks rows = front ++ String.ofList (trimEnd (ending rows).toList) := by
  obtain ⟨front, visible, body⟩ := exists_sectionBody_extra rows
  refine ⟨marks ++ " Invalid\n" ++ sectionBody rows .invalid ++ "\n\n" ++ marks ++ " Extra\n" ++
    front, by rw [layout, body, ← String.append_assoc], ?_⟩
  have lines : "\n".intercalate (sectionLines marks rows .invalid ++ sectionLines marks rows .extra)
      = layout marks rows ++ "\n" := by
    apply String.toList_inj.mp
    simp [layout, sectionLines_eq, Violation.title, String.intercalate_cons_cons]
  have feed : "\n".toList = ['\n'] := rfl
  rw [card, lines, String.toList_append, feed, trimEnd_append_of_blank _ rfl, layout, body,
    ← String.append_assoc, String.toList_append, (visible.append _).trimEnd_append]
  apply String.toList_inj.mp
  simp

/-- Nothing is trimmed if the last value ends visibly. -/
theorem card_eq_layout {marks : String} {rows : List Row}
    (visible : ∀ r, lastExtra? rows = some r → EndsVisibly r.scalar) :
    card marks rows = layout marks rows := by
  obtain ⟨front, whole, trimmed⟩ := exists_card_eq marks rows
  have kept : trimEnd (ending rows).toList = (ending rows).toList := by
    rw [ending]
    cases last : lastExtra? rows with
    | none => rfl
    | some r => exact ((visible r last).append " ").trimEnd
  rw [trimmed, kept, String.ofList_toList, whole]

/-- A level that is an index, and of which the marks can be held, has as many marks; a level below
one has none. -/
theorem marks_eq {level : Value} {n : Int} (integer : level.integer? = some n)
    (index : -Value.maxCount - 1 ≤ n) (held : n ≤ Value.maxHeld) :
    marks level = .ok (String.ofList (List.replicate n.toNat '#')) := by
  have bound : (Value.maxHeld : Int) ≤ Value.maxCount := by decide
  have isIndex : ¬ (decide (n < -Value.maxCount - 1) || decide (Value.maxCount < n)) = true := by
    simp only [Bool.or_eq_true, decide_eq_true_eq]
    omega
  simp only [marks, integer, if_neg isIndex, if_neg (Int.not_lt.mpr held)]

/-- What a bullet says of a value: three values have names of their own, and all others appear in
their written form. -/
theorem bullet_eq (r : Row) :
    ∃ scalar, r.bullet = "- **" ++ r.path ++ "**: " ++ scalar ∧
      (r.value = .bool true ∧ scalar = "true" ∨ r.value = .bool false ∧ scalar = "false" ∨
        r.value = .null ∧ scalar = "null" ∨
        r.value ∉ [.bool true, .bool false, .null] ∧ scalar = r.value.render) := by
  refine ⟨r.scalar, rfl, ?_⟩
  unfold scalar
  split <;> simp_all

end Row

namespace Value

/-- The card of an explanation whose lists hold nothing but pairs at every depth. There are two
sections, each with its heading, and the rows of the explanation are the bullets of these, in their
order; below the last bullet nothing is left. The card is these sections as they are, unless the
last bullet is about a table or an object whose own form ends in a blank. In any case it lacks only
the blanks at its end, and these stand behind the colon of the last bullet. The level may be any
index, as long as its marks can be held. -/
theorem card_of_isPaired (e level : Value) (n : Int) (invalid extra : List Value)
    (lists : e.HasLists invalid extra) (paired : ∀ w ∈ invalid ++ extra, w.IsPaired)
    (integer : level.integer? = some n) (index : -maxCount - 1 ≤ n) (held : n ≤ maxHeld) :
    let marks := String.ofList (List.replicate n.toNat '#')
    ∃ rows, Value.rows (.text "root") e = .ok rows ∧
      ((∀ r, Row.lastExtra? rows = some r → r.value.isFrame = false ∧
          ∀ id type form, r.value = .probe id (.written type form) → Text.EndsVisibly form) →
        card level e = .ok (Row.layout marks rows)) ∧
      (∃ front kept blanks, Row.layout marks rows = front ++ kept ++ blanks ∧
        Row.ending rows = kept ++ blanks ∧ (∀ c ∈ blanks.toList, Text.isBlank c = true) ∧
        (kept = "" ∨ Text.EndsVisibly kept) ∧ card level e = .ok (front ++ kept)) ∧
      ∀ r ∈ rows, ∃ scalar, r.bullet = "- **" ++ r.path ++ "**: " ++ scalar ∧
        (r.value = .bool true ∧ scalar = "true" ∨ r.value = .bool false ∧ scalar = "false" ∨
          r.value = .null ∧ scalar = "null" ∨
          r.value ∉ [.bool true, .bool false, .null] ∧ scalar = r.value.render) := by
  intro marks
  have laid := rows_of_isPaired lists paired Row.root
  refine ⟨_, laid, fun last => ?_, ?_, fun r _ => r.bullet_eq⟩
  · rw [card, Row.marks_eq integer index held, laid]
    exact congrArg Except.ok (Row.card_eq_layout fun r isLast =>
      Row.endsVisibly_scalar (last r isLast).1 (last r isLast).2)
  · obtain ⟨front, whole, trimmed⟩ := Row.exists_card_eq marks (_ : List Row)
    obtain ⟨kept, blanks, rfl, equal, blank, visible⟩ := Text.exists_trimEnd_append (Row.ending _)
    refine ⟨front, _, blanks, ?_, equal, blank, visible, ?_⟩
    · rw [whole, String.append_assoc, ← equal]
    · rw [card, Row.marks_eq integer index held, laid]
      exact congrArg Except.ok trimmed

/-- A card with nothing below two keys and, at its very end, a line feed as a value; one without
bullets and marks; and one whose last value is an object with a form of its own that ends in a
blank. -/
theorem card_of_isPaired_line_feed :
    let invalid : List Value := [.list 2 [.text "a", .branch 3 [.tuple [.int 1, .null]]]]
    let extra : List Value := [.tuple [.text "b", .text "\n"]]
    let e : Value := .dict 4 [(.text "extra", .tuple extra), (.text "invalid", .list 5 invalid)]
    let empty := Explanation.empty.toValue
    let own : List Value := [.tuple [.text "c", .probe 6 (.written "TypeVar" "~T ")]]
    let blank : Value := .dict 7 [(.text "invalid", .tuple []), (.text "extra", .tuple own)]
    e.HasLists invalid extra ∧ (∀ w ∈ invalid ++ extra, w.IsPaired) ∧
      card (.bool true) e =
        .ok "# Invalid\n- **root.a.1**: null\n\n# Extra\n- **root.b**: '\\n'" ∧
      empty.HasLists [] [] ∧ card (.int (-1)) empty = .ok " Invalid\n_none_\n\n Extra\n_none_" ∧
      blank.HasLists [] own ∧ (∀ w ∈ own, w.IsPaired) ∧
      ∃ front kept blanks, "# Invalid\n_none_\n\n# Extra\n- **root.c**: ~T " =
          front ++ kept ++ blanks ∧ " ~T " = kept ++ blanks ∧
        (∀ c ∈ blanks.toList, Text.isBlank c = true) ∧ (kept = "" ∨ Text.EndsVisibly kept) ∧
        card (.int 1) blank = .ok (front ++ kept) := by
  intro invalid extra e empty own blank
  have lists : e.HasLists invalid extra := by
    refine ⟨_, rfl, fun key => ?_, rfl, rfl⟩
    simp [or_comm]
  have paired : ∀ w ∈ invalid ++ extra, w.IsPaired := by
    have inner : (Value.tuple [.int 1, .null]).IsPaired := .mk rfl (by simp)
    have first : (Value.list 2 [.text "a", .branch 3 [.tuple [.int 1, .null]]]).IsPaired :=
      .mk rfl (by simp [inner])
    have last : (Value.tuple [.text "b", .text "\n"]).IsPaired := .mk rfl (by simp)
    simp [invalid, extra, first, last]
  have nothing : empty.HasLists [] [] := by
    refine ⟨_, rfl, fun key => ?_, rfl, rfl⟩
    simp [Violation.text]
  have bare : blank.HasLists [] own := by
    refine ⟨_, rfl, fun key => ?_, rfl, rfl⟩
    simp
  have single : ∀ w ∈ own, w.IsPaired := by
    have only : (Value.tuple [.text "c", .probe 6 (.written "TypeVar" "~T ")]).IsPaired :=
      .mk rfl (by simp)
    simp [own, only]
  obtain ⟨rows, laid, carded, -⟩ := card_of_isPaired e (.bool true) 1 invalid extra lists paired
    rfl (by decide) (by decide)
  obtain ⟨rows', laid', carded', -⟩ := card_of_isPaired empty (.int (-1)) (-1) [] [] nothing
    (by simp) rfl (by decide) (by decide)
  obtain ⟨rows'', laid'', -, trimmed, -⟩ := card_of_isPaired blank (.int 1) 1 [] own bare single
    rfl (by decide) (by decide)
  cases laid
  cases laid'
  cases laid''
  have quoted := carded fun r isLast => by
    obtain rfl : ⟨"root.b", .extra, .text "\n"⟩ = r := Option.some.inj isLast
    exact ⟨rfl, by simp⟩
  have noBullet := carded' fun r isLast => by cases isLast
  exact ⟨lists, paired, quoted.trans rfl, nothing, noBullet.trans rfl, bare, single, trimmed⟩

/-- A level that is no index is refused, also where it would have no marks. And an object may have a
form of its own that ends in a blank, which is trimmed from the last bullet. -/
theorem card_refused_or_trimmed :
    let e := Explanation.empty.toValue
    let level : Value := .int (-9223372036854775809)
    let extra : List Value := [.tuple [.text "c", .probe 6 (.written "TypeVar" "~T ")]]
    let blank : Value := .dict 7 [(.text "invalid", .tuple []), (.text "extra", .tuple extra)]
    e.HasLists [] [] ∧ rows (.text "root") e = .ok [] ∧
      card level e = .error (.indexTooLarge "int") ∧
      card level e ≠ .ok " Invalid\n_none_\n\n Extra\n_none_" ∧
      blank.HasLists [] extra ∧ (∀ w ∈ extra, w.IsPaired) ∧
      (∀ place ∈ placesIn extra, place.2.isFrame = false) ∧
      rows (.text "root") blank =
        .ok [⟨"root.c", .extra, .probe 6 (.written "TypeVar" "~T ")⟩] ∧
      card (.int 1) blank = .ok "# Invalid\n_none_\n\n# Extra\n- **root.c**: ~T" ∧
      card (.int 1) blank ≠ .ok "# Invalid\n_none_\n\n# Extra\n- **root.c**: ~T " := by
  intro e level extra blank
  have lists : e.HasLists [] [] := by
    refine ⟨_, rfl, fun key => ?_, rfl, rfl⟩
    simp [Violation.text]
  have bare : blank.HasLists [] extra := by
    refine ⟨_, rfl, fun key => ?_, rfl, rfl⟩
    simp
  have paired : ∀ w ∈ extra, w.IsPaired := by
    have only : (Value.tuple [.text "c", .probe 6 (.written "TypeVar" "~T ")]).IsPaired :=
      .mk rfl (by simp)
    simp [extra, only]
  have noFrame : ∀ place ∈ placesIn extra, place.2.isFrame = false := by
    simp [extra, placesIn, places, placesAt, isFrame]
  have refused : card level e = .error (.indexTooLarge "int") := rfl
  have trimmed : card (.int 1) blank = .ok "# Invalid\n_none_\n\n# Extra\n- **root.c**: ~T" := rfl
  exact ⟨lists, rfl, refused, by simp [refused], bare, paired, noFrame, rfl, trimmed,
    by simp [trimmed]⟩

end Value

end Conformance
