import Conformance.Proofs.Cards
import Conformance.Proofs.PlainData

/-!
# Lines of texts

A text is as many lines as it has line feeds, and one more. The written form of plain data is a
single line, at every depth: numbers have no line feed to begin with, and texts and bytes are
quoted, with what would end the line spelled out. The exception is a key in a path: a text stands
there as it is, without quotes.

## Main definitions

* `Text.lines`, `Text.IsLine` — what stands between line feeds, and texts without any

## Main results

* `Text.lines_intercalate`, `Text.flatMap_lines_eq_iff` — the lines of several texts
* `Value.isLine_render` — the written form of plain data is a line
* `Value.isLine_display_iff` — which keys are lines in a path
-/

namespace Conformance

/-! ### Lines -/

namespace Text

/-- The lines of a text: what stands between its line feeds. -/
def lines (s : String) : List String := (s.toList.splitOn '\n').map String.ofList

/-- Whether a text is a single line. -/
def IsLine (s : String) : Prop := '\n' ∉ s.toList

instance : DecidablePred IsLine := fun s => inferInstanceAs (Decidable ('\n' ∉ s.toList))

theorem lines_of_isLine {s : String} (h : IsLine s) : lines s = [s] := by
  rw [lines, List.splitOn_eq_singleton h, List.map_singleton, String.ofList_toList]

theorem lines_append_feed (s t : String) : lines (s ++ "\n" ++ t) = lines s ++ lines t := by
  have feed : (s ++ "\n" ++ t).toList = s.toList ++ '\n' :: t.toList := by simp
  rw [lines, feed, List.splitOn_append_cons_self, List.map_append, lines, lines]

theorem lines_intercalate {ts : List String} (nonempty : ts ≠ []) :
    lines ("\n".intercalate ts) = ts.flatMap lines := by
  induction ts with
  | nil => exact absurd rfl nonempty
  | cons t rest ih =>
    cases rest with
    | nil => rw [String.intercalate_singleton, List.flatMap_singleton]
    | cons u rest =>
      rw [String.intercalate_cons_cons, lines_append_feed, ih (by simp), List.flatMap_cons (x := t)]

/-- A text has one line more than it has line feeds. -/
theorem length_lines (s : String) : (lines s).length = 1 + s.toList.count '\n' := by
  rw [lines, List.length_map]
  induction s.toList with
  | nil => rfl
  | cons c cs ih =>
    rw [List.splitOn_cons_eq_if_modifyHead, List.count_cons]
    split
    · rw [List.length_cons, ih, Nat.add_assoc]
    · rw [List.length_modifyHead, ih, Nat.add_zero]

theorem isLine_of_mem_lines {s l : String} (h : l ∈ lines s) : IsLine l := by
  obtain ⟨cs, member, rfl⟩ := List.mem_map.mp h
  rw [IsLine, String.toList_ofList]
  clear h
  generalize s.toList = text at member
  -- A line feed starts a new line; any other character goes in front of the first line.
  induction text generalizing cs with
  | nil =>
    rw [List.splitOn_nil, List.mem_singleton] at member
    simp [member]
  | cons c rest ih =>
    obtain ⟨first, others, split⟩ := List.exists_cons_of_ne_nil (List.splitOn_ne_nil '\n' rest)
    rw [List.splitOn_cons_eq_if_modifyHead] at member
    rw [split] at member ih
    by_cases feed : c = '\n'
    · rw [if_pos (beq_iff_eq.mpr feed)] at member
      rcases List.mem_cons.mp member with rfl | member
      · exact List.not_mem_nil
      · exact ih cs member
    · rw [if_neg (by simpa using feed), List.modifyHead_cons] at member
      rcases List.mem_cons.mp member with rfl | member
      · rw [List.mem_cons, not_or]
        exact ⟨Ne.symm feed, ih first List.mem_cons_self⟩
      · exact ih cs (List.mem_cons_of_mem _ member)

/-- Texts are as many lines only if each of them is one. -/
theorem flatMap_lines_eq_iff {ts : List String} : ts.flatMap lines = ts ↔ ∀ t ∈ ts, IsLine t := by
  constructor
  · intro same t member
    rw [← same] at member
    obtain ⟨u, -, inside⟩ := List.mem_flatMap.mp member
    exact isLine_of_mem_lines inside
  · intro each
    induction ts with
    | nil => rfl
    | cons t rest ih =>
      obtain ⟨first, others⟩ := List.forall_mem_cons.mp each
      rw [List.flatMap_cons, lines_of_isLine first, ih others, List.singleton_append]

@[simp] theorem isLine_append_iff {s t : String} : IsLine (s ++ t) ↔ IsLine s ∧ IsLine t := by
  simp [IsLine]

@[simp] theorem isLine_ofList_iff {cs : List Char} : IsLine (String.ofList cs) ↔ '\n' ∉ cs := by
  simp [IsLine]

theorem isLine_intercalate_iff {s : String} (separator : IsLine s) {ts : List String} :
    IsLine (s.intercalate ts) ↔ ∀ t ∈ ts, IsLine t := by
  induction ts with
  | nil => simp [IsLine]
  | cons t rest ih =>
    cases rest with
    | nil => rw [String.intercalate_singleton, List.forall_mem_singleton]
    | cons u rest =>
      rw [String.intercalate_cons_cons, isLine_append_iff, isLine_append_iff, ih,
        List.forall_mem_cons (a := t)]
      simp [separator]

/-! ### Numbers -/

theorem digitChar_ne_feed : ∀ n < 16, Nat.digitChar n ≠ '\n' := by decide

theorem feed_not_mem_toDigits {base : Nat} (least : 1 < base) (greatest : base ≤ 16) (n : Nat) :
    '\n' ∉ Nat.toDigits base n := by
  induction n using Nat.strongRecOn with
  | ind n ih =>
    rcases Nat.lt_or_ge n base with small | large
    · rw [Nat.toDigits_of_lt_base small, List.mem_singleton]
      exact (digitChar_ne_feed n (small.trans_le greatest)).symm
    · rw [Nat.toDigits_of_base_le least large, List.mem_append, List.mem_singleton, not_or]
      have digit : n % base < 16 := (Nat.mod_lt n (by omega)).trans_le greatest
      exact ⟨ih _ (Nat.div_lt_self (by omega) least), (digitChar_ne_feed _ digit).symm⟩

theorem isLine_nat (n : Nat) : IsLine (toString n) :=
  isLine_ofList_iff.mpr (feed_not_mem_toDigits (by decide) (by decide) n)

theorem isLine_int (n : Int) : IsLine (toString n) := by
  cases n with
  | ofNat n => exact isLine_nat n
  | negSucc n => exact isLine_append_iff.mpr ⟨by decide, isLine_nat (n + 1)⟩

theorem feed_not_mem_hex (width n : Nat) : '\n' ∉ hex width n := by
  rw [hex, List.mem_append, not_or]
  refine ⟨fun member => ?_, feed_not_mem_toDigits (by decide) (by decide) n⟩
  cases (List.mem_replicate.mp member).2

/-! ### Quoted texts -/

theorem chooseQuote_ne_feed (single double : Bool) : chooseQuote single double ≠ '\n' := by
  cases single <;> cases double <;> decide

/-- Inside quotes a character stands behind a backslash, or for itself, or is spelled out. -/
theorem feed_not_mem_escapeChar {quote : Char} (h : quote ≠ '\n') (c : Char) :
    '\n' ∉ escapeChar quote c := by
  unfold escapeChar
  by_cases feed : c = '\n'
  · subst feed
    simp [h.symm]
  · have itself : '\n' ≠ c := Ne.symm feed
    split_ifs <;> simp [itself, feed_not_mem_hex]

/-- The same of a byte. -/
theorem feed_not_mem_escapeByte {special : Char} (h : special ≠ '\n') (b : UInt8) :
    '\n' ∉ escapeByte special b := by
  unfold escapeByte
  dsimp only
  by_cases feed : Char.ofNat b.toNat = '\n'
  · rw [feed]
    simp [h.symm]
  · have itself : '\n' ≠ Char.ofNat b.toNat := Ne.symm feed
    split_ifs <;> simp [itself, feed_not_mem_hex]

theorem isLine_quote (s : String) : IsLine (quote s) := by
  have around := chooseQuote_ne_feed (s.toList.contains '\'') (s.toList.contains '"')
  rw [quote, isLine_ofList_iff]
  generalize chooseQuote _ _ = q at around ⊢
  simp [around.symm, feed_not_mem_escapeChar around]

theorem isLine_surroundBytes {quote special : Char} (around : quote ≠ '\n')
    (escaped : special ≠ '\n') (data : List UInt8) :
    IsLine (surroundBytes quote special data) := by
  rw [surroundBytes, isLine_ofList_iff]
  simp [around.symm, feed_not_mem_escapeByte escaped]

end Text

namespace Binary64

open Text

theorem isLine_exponentText (e : Int) : IsLine (exponentText e) := by
  have digits := isLine_nat e.natAbs
  have sign : IsLine (if e < 0 then "e-" else "e+") := by split <;> decide
  rw [exponentText, isLine_append_iff]
  refine ⟨sign, ?_⟩
  split
  · exact isLine_append_iff.mpr ⟨by decide, digits⟩
  · exact digits

/-- Digits with a point or an exponent. -/
theorem isLine_placed {digits : List Char} (h : '\n' ∉ digits) (lead : Int) :
    IsLine (placed digits lead) := by
  unfold placed
  split
  · refine isLine_append_iff.mpr ⟨?_, isLine_exponentText lead⟩
    split
    · rw [isLine_ofList_iff]
      simpa using h
    · exact isLine_ofList_iff.mpr h
  · split
    · refine isLine_append_iff.mpr ⟨by decide, isLine_ofList_iff.mpr ?_⟩
      simp [h]
    · have head : '\n' ∉ digits.take (lead.toNat + 1) := mt List.mem_of_mem_take h
      have tail : '\n' ∉ digits.drop (lead.toNat + 1) := mt List.mem_of_mem_drop h
      simp only [isLine_append_iff, isLine_ofList_iff]
      refine ⟨⟨by simp [head], by decide⟩, ?_⟩
      split
      · decide
      · exact isLine_ofList_iff.mpr tail

theorem isLine_text (x : Binary64) : IsLine x.text := by
  cases x with
  | infinite negative => cases negative <;> decide
  | finite negative m e =>
    have sign : IsLine (if negative then "-" else "") := by split <;> decide
    rw [text]
    split
    · exact isLine_append_iff.mpr ⟨sign, by decide⟩
    · refine isLine_append_iff.mpr ⟨sign, isLine_placed (fun member => ?_) _⟩
      exact feed_not_mem_toDigits (by decide) (by decide) _ (mem_of_mem_trimZeros member)

end Binary64

/-! ### Values -/

namespace Text

variable {ts : List String}

/-- Items with commas between them, inside brackets. -/
theorem isLine_brackets {left right : String} (opening : IsLine left) (closing : IsLine right)
    (h : ∀ t ∈ ts, IsLine t) : IsLine (left ++ ", ".intercalate ts ++ right) := by
  have items : IsLine (", ".intercalate ts) := (isLine_intercalate_iff (by decide)).mpr h
  exact isLine_append_iff.mpr ⟨isLine_append_iff.mpr ⟨opening, items⟩, closing⟩

theorem isLine_renderTuple (h : ∀ t ∈ ts, IsLine t) : IsLine (renderTuple ts) := by
  unfold renderTuple
  split
  next item =>
    simp only [isLine_append_iff]
    exact ⟨⟨by decide, h item List.mem_cons_self⟩, by decide⟩
  next => exact isLine_brackets (by decide) (by decide) h

theorem isLine_renderSet (h : ∀ t ∈ ts, IsLine t) : IsLine (renderSet ts) := by
  unfold renderSet
  split
  · decide
  · exact isLine_brackets (by decide) (by decide) h

theorem isLine_renderFrozenset (h : ∀ t ∈ ts, IsLine t) : IsLine (renderFrozenset ts) := by
  unfold renderFrozenset
  split
  · decide
  · exact isLine_brackets (by decide) (by decide) h

theorem isLine_renderRange (start stop step : Int) : IsLine (renderRange start stop step) := by
  have ends := And.intro (isLine_int start) (isLine_int stop)
  unfold renderRange
  split
  · simp only [isLine_append_iff]
    exact ⟨⟨⟨⟨by decide, ends.1⟩, by decide⟩, ends.2⟩, by decide⟩
  · simp only [isLine_append_iff]
    exact ⟨⟨⟨⟨⟨⟨by decide, ends.1⟩, by decide⟩, ends.2⟩, by decide⟩, isLine_int step⟩, by decide⟩

end Text

namespace Value

open Text

mutual

/-- The written form of plain data is a line, whatever texts are inside. -/
theorem isLine_render (v : Value) (plain : v.IsPlain) : IsLine v.render := by
  cases v with
  | null => decide
  | bool b => cases b <;> decide
  | int n => exact isLine_int n
  | float x => exact x.isLine_text
  | nan id =>
    rw [render]
    decide
  | text s => exact isLine_quote s
  | bytes data =>
    exact isLine_surroundBytes (chooseQuote_ne_feed _ _) (chooseQuote_ne_feed _ _) data
  | bytearray id data =>
    have quoted : IsLine (quoteMutableBytes data) :=
      isLine_surroundBytes (chooseQuote_ne_feed _ _) (by decide) data
    rw [render]
    simp only [isLine_append_iff]
    exact ⟨⟨by decide, quoted⟩, by decide⟩
  | list id items =>
    have inside := isLine_renderItems items fun _ member => plain.part member
    exact isLine_brackets (by decide) (by decide) inside
  | tuple items =>
    have inside := isLine_renderItems items fun _ member => plain.part member
    exact isLine_renderTuple inside
  | set id items =>
    have inside := isLine_renderItems items fun _ member => plain.part member
    exact isLine_renderSet inside
  | frozenset items =>
    have inside := isLine_renderItems items fun _ member => plain.part member
    exact isLine_renderFrozenset inside
  | dict id entries =>
    have inside := isLine_renderPairs entries (plain.entry rfl)
    exact isLine_brackets (by decide) (by decide) inside
  | range start stop step => exact isLine_renderRange start stop step
  | _ => exact plain.isDatum.elim

theorem isLine_renderItems (items : List Value) (plain : ∀ v ∈ items, v.IsPlain) :
    ∀ t ∈ renderItems items, IsLine t := by
  match items with
  | [] => exact List.forall_mem_nil _
  | v :: vs =>
    obtain ⟨first, others⟩ := List.forall_mem_cons.mp plain
    exact List.forall_mem_cons.mpr ⟨isLine_render v first, isLine_renderItems vs others⟩

theorem isLine_renderPairs (entries : List (Value × Value))
    (plain : ∀ entry ∈ entries, entry.1.IsPlain ∧ entry.2.IsPlain) :
    ∀ t ∈ renderPairs entries, IsLine t := by
  match entries with
  | [] => exact List.forall_mem_nil _
  | (k, v) :: rest =>
    obtain ⟨⟨key, value⟩, others⟩ := List.forall_mem_cons.mp plain
    refine List.forall_mem_cons.mpr ⟨?_, isLine_renderPairs rest others⟩
    simp only [isLine_append_iff]
    exact ⟨⟨isLine_render k key, by decide⟩, isLine_render v value⟩

end

/-- Of plain data, only a text can stand in a path with line feeds. -/
theorem isLine_display_iff {key : Value} (plain : key.IsPlain) :
    IsLine key.display ↔ ∀ s, key = .text s → IsLine s := by
  cases key with
  | text s => simp [display]
  | view entries => exact plain.isDatum.elim
  | _ => exact iff_of_true (isLine_render _ plain) nofun

end Value

end Conformance
