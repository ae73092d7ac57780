import Conformance.Proofs.Overlays

/-!
# Which entry prevails

To put an entry where its key is already replaces the value and keeps the key with its place; any
other entry comes last. So if one mapping is put over another, the keys of the lower one come first,
then those that only the upper one has, and a look-up finds what the upper one has, or else what the
lower one has. This rests on keys falling into classes by agreement, whatever their kinds.

Overlaid defaults are a copy of the defaults with the given values put over it. The copy of ordinary
data is the same data, in which every container has a number that was free before. So a given value
is handed on as it is, and a default is renewed. To overlay twice is to overlay once with both, as
the copy of a copy is the same data once more.

## Main definitions

* `Value.WellKeyed` — entries under pairwise different keys
* `Value.SharesNothing` — no container is inside both of two values
* `Value.IsNumberedBelow` — all containers inside a value have smaller numbers
* `Value.Coincide` — two values that are one object or equal

## Main results

* `Value.keys_insertAll`, `Value.lookup?_insertAll` — the keys of merged entries, and what they find
* `Value.isOrdinary_renumber`, `Value.sharesNothing_renumber` — ordinary data with other numbers
* `Session.overlay_precedence` — overlaid defaults, and defaults overlaid twice
-/

namespace Conformance

namespace Value

variable {entries added : List (Value × Value)} {key sought value : Value}

/-! ### Merged entries -/

/-- Entries under keys that are pairwise different, as those of a mapping are. -/
structure WellKeyed (entries : List (Value × Value)) : Prop where
  key : ∀ entry ∈ entries, entry.1.IsKey
  distinct : entries.Pairwise fun earlier later => later.1.same earlier.1 = false

theorem WellKeyed.keyed (h : WellKeyed entries) : Keyed (entries.map (·.1)) := by
  refine ⟨fun k member => ?_, List.pairwise_map.mpr h.distinct⟩
  obtain ⟨entry, listed, rfl⟩ := List.mem_map.mp member
  exact (h.key entry listed).sameLaws.refl

/-- Keys that agree are found by the same keys. -/
theorem same_congr (laws : SameLaws sought) (lawsKey : SameLaws key) {k : Value}
    (alike : key.same k = true) : sought.same k = sought.same key := by
  rw [Bool.eq_iff_iff]
  exact ⟨fun found => laws.trans _ _ found (lawsKey.symm _ alike),
    fun found => laws.trans _ _ found alike⟩

theorem hasKey_eq_any (entries : List (Value × Value)) (key : Value) :
    hasKey entries key = (entries.map (·.1)).any key.same := by
  rw [hasKey, List.any_map]
  rfl

theorem hasKey_eq_isSome_lookup? (entries : List (Value × Value)) (key : Value) :
    hasKey entries key = (lookup? entries key).isSome := by
  rw [hasKey, lookup?, find?, Option.isSome_map, List.isSome_find?]

theorem lookup?_cons (entry : Value × Value) (rest : List (Value × Value)) (sought : Value) :
    lookup? (entry :: rest) sought =
      if sought.same entry.1 then some entry.2 else lookup? rest sought := by
  rw [lookup?, find?, List.find?_cons]
  cases sought.same entry.1 <;> rfl

theorem insertAll_cons (entries rest : List (Value × Value)) (entry : Value × Value) :
    insertAll entries (entry :: rest) = insertAll (insert entry.1 entry.2 entries) rest := rfl

/-- A key that is there keeps its place, and any other comes last. -/
theorem keys_insert (key value : Value) (entries : List (Value × Value)) :
    (insert key value entries).map (·.1) =
      entries.map (·.1) ++ if hasKey entries key then [] else [key] := by
  induction entries with
  | nil => rfl
  | cons entry rest ih =>
    rw [insert, hasKey, List.any_cons]
    cases key.same entry.1 with
    | true => simp
    | false => exact congrArg (entry.1 :: ·) ih

/-- A look-up finds what was put under a key that agrees, or else what it found before. -/
theorem lookup?_insert (laws : SameLaws sought) (lawsKey : SameLaws key) :
    lookup? (insert key value entries) sought =
      if sought.same key then some value else lookup? entries sought := by
  induction entries with
  | nil => exact lookup?_cons _ _ _
  | cons entry rest ih =>
    rw [insert]
    cases replaced : key.same entry.1 with
    | true =>
      have alike := same_congr laws lawsKey replaced
      simp only [if_true, lookup?_cons, alike]
      cases sought.same key <;> rfl
    | false =>
      simp only [Bool.false_eq_true, if_false, lookup?_cons, ih]
      by_cases here : sought.same entry.1 = true
      · -- The first entry is found, so that the key sought is not the one put further on.
        have other : sought.same key = false := by
          by_contra found
          have back := lawsKey.trans _ _ (laws.symm _ (by simpa using found)) here
          rw [replaced] at back
          cases back
        simp [here, other]
      · simp [here]

/-- The keys of merged entries are those of the lower ones, then those that only the upper ones
have. -/
theorem keys_insertAll
    (distinct : added.Pairwise fun earlier later => later.1.same earlier.1 = false) :
    (insertAll entries added).map (·.1) =
      entries.map (·.1) ++ (added.map (·.1)).filter fun key => !hasKey entries key := by
  induction added generalizing entries with
  | nil => exact (List.append_nil _).symm
  | cons entry rest ih =>
    obtain ⟨apart, others⟩ := List.pairwise_cons.mp distinct
    -- That the first key is there now makes no difference to the further ones.
    have further : ∀ k ∈ rest.map (·.1),
        (!hasKey (insert entry.1 entry.2 entries) k) = !hasKey entries k := by
      intro k member
      obtain ⟨later, listed, rfl⟩ := List.mem_map.mp member
      rw [hasKey_eq_any, keys_insert, List.any_append, ← hasKey_eq_any]
      cases hasKey entries entry.1 <;> simp [apart later listed]
    rw [insertAll_cons, ih others, List.filter_congr further, keys_insert, List.map_cons,
      List.filter_cons]
    cases hasKey entries entry.1 <;> simp

/-- A look-up in merged entries finds what the upper ones have, or else what the lower ones have. -/
theorem lookup?_insertAll (laws : SameLaws sought) (merged : WellKeyed added) :
    lookup? (insertAll entries added) sought =
      (lookup? added sought).or (lookup? entries sought) := by
  obtain ⟨keys, distinct⟩ := merged
  induction added generalizing entries with
  | nil => rfl
  | cons entry rest ih =>
    obtain ⟨first, others⟩ := List.forall_mem_cons.mp keys
    obtain ⟨apart, distinctRest⟩ := List.pairwise_cons.mp distinct
    rw [insertAll_cons, ih others distinctRest, lookup?_insert laws first.sameLaws, lookup?_cons]
    by_cases here : sought.same entry.1 = true
    · -- No further key agrees with the one sought, since none agrees with the first.
      have beyond : lookup? rest sought = none := by
        rw [← Option.isNone_iff_eq_none, ← Option.not_isSome, ← hasKey_eq_isSome_lookup?, hasKey,
          Bool.not_eq_true', List.any_eq_false]
        intro later listed found
        have back := (others later listed).sameLaws.trans _ _ (laws.symm _ found) here
        rw [apart later listed] at back
        cases back
      simp [here, beyond]
    · simp [here]

theorem WellKeyed.insertAll (lower : WellKeyed entries) (upper : WellKeyed added) :
    WellKeyed (insertAll entries added) := by
  refine ⟨fun entry member => ?_,
    (List.pairwise_map (R := fun earlier later : Value => later.same earlier = false)).mp ?_⟩
  · have keys := forall_insertAll (Q := fun _ => True) (fun e m => ⟨lower.key e m, trivial⟩)
      fun e m => ⟨upper.key e m, trivial⟩
    exact (keys entry member).1
  · rw [keys_insertAll upper.distinct]
    refine List.pairwise_append.mpr ⟨List.pairwise_map.mpr lower.distinct,
      (List.pairwise_map.mpr upper.distinct).filter _, fun k member k' added => ?_⟩
    -- What is put last agrees with no key that was there.
    have new := (List.mem_filter.mp added).2
    rw [hasKey_eq_any, Bool.not_eq_true', List.any_eq_false] at new
    simpa using new k member

theorem hasKey_insertAll (laws : SameLaws sought) (merged : WellKeyed added) :
    hasKey (Value.insertAll entries added) sought =
      (hasKey added sought || hasKey entries sought) := by
  rw [hasKey_eq_isSome_lookup?, lookup?_insertAll laws merged, Option.isSome_or,
    ← hasKey_eq_isSome_lookup?, ← hasKey_eq_isSome_lookup?]

/-- To merge entries with merged ones leads to the keys that merging them one by one leads to. -/
theorem keys_insertAll_insertAll {between : List (Value × Value)} (middle : WellKeyed between)
    (upper : WellKeyed added) :
    (Value.insertAll (Value.insertAll entries between) added).map (·.1) =
      (Value.insertAll entries (Value.insertAll between added)).map (·.1) := by
  -- What only the upper entries have is what neither the middle ones nor the lower ones have.
  have new : ∀ k ∈ added.map (·.1), (!hasKey (Value.insertAll entries between) k) =
      (!hasKey entries k && !hasKey between k) := by
    intro k member
    obtain ⟨entry, listed, rfl⟩ := List.mem_map.mp member
    rw [hasKey_insertAll (upper.key entry listed).sameLaws middle, Bool.not_or, Bool.and_comm]
  rw [keys_insertAll upper.distinct, keys_insertAll middle.distinct,
    keys_insertAll (middle.insertAll upper).distinct, keys_insertAll upper.distinct,
    List.filter_append, List.filter_filter, List.filter_congr new, List.append_assoc]

theorem exists_of_lookup? (found : lookup? entries sought = some value) :
    ∃ entry ∈ entries, entry.2 = value := by
  obtain ⟨entry, first, rfl⟩ := Option.map_eq_some_iff.mp found
  exact ⟨entry, List.mem_of_find?_eq_some first, rfl⟩

/-- Mappings with the same keys agree entry by entry, if what they find under each key agrees. -/
theorem forall₂_of_lookup? {r : Value → Value → Prop} {left right : List (Value × Value)}
    (keyed : Keyed (left.map (·.1))) (keys : left.map (·.1) = right.map (·.1))
    (related : ∀ k ∈ left.map (·.1), ∀ v w, lookup? left k = some v → lookup? right k = some w →
      r v w) :
    List.Forall₂ (fun l m => l.1 = m.1 ∧ r l.2 m.2) left right := by
  have foundLeft : ∀ l ∈ left, lookup? left l.1 = some l.2 := fun _ => lookup?_of_mem keyed
  have foundRight : ∀ m ∈ right, lookup? right m.1 = some m.2 :=
    fun _ => lookup?_of_mem (keys ▸ keyed)
  have sameKeys : List.Forall₂ (fun l m : Value × Value => l.1 = m.1) left right := by
    rwa [← List.forall₂_eq_eq_eq, List.forall₂_map_left_iff, List.forall₂_map_right_iff] at keys
  refine List.forall₂_iff_zip.mpr ⟨sameKeys.length_eq, fun {l m} paired => ?_⟩
  have key : l.1 = m.1 := List.forall₂_zip sameKeys paired
  obtain ⟨inLeft, inRight⟩ := List.of_mem_zip paired
  exact ⟨key, related l.1 (List.mem_map_of_mem inLeft) _ _ (foundLeft l inLeft)
    (key ▸ foundRight m inRight)⟩

/-! ### Ordinary data with other numbers -/

variable {n : Nat} {v x : Value}

theorem lookup?_renumberEntries (n : Nat) (entries : List (Value × Value)) (sought : Value) :
    lookup? (renumberEntries n entries) sought = (lookup? entries sought).map (renumber n) := by
  induction entries with
  | nil => rfl
  | cons entry rest ih =>
    rw [renumberEntries, lookup?_cons, lookup?_cons, ih]
    cases sought.same entry.1 <;> rfl

theorem same_renumber (n : Nat) (v w : Value) : v.same (w.renumber n) = v.same w := by
  rw [same, agree, agreeAt_renumber]
  rfl

/-- Ordinary data with other numbers agrees with what it was before. -/
theorem renumber_same (n : Nat) (ordinary : v.IsOrdinary) : (v.renumber n).same v = true := by
  have own := same_self (isOrdinary_renumber n ordinary)
  rwa [same_renumber] at own

/-- All containers inside a value have smaller numbers. -/
def IsNumberedBelow (limit : Nat) (v : Value) : Prop :=
  ∀ w, v.HasPart w → ∀ i, w.container? = some i → i < limit

theorem isNumberedBelow_iff {limit : Nat} : v.IsNumberedBelow limit ↔
    (∀ i, v.container? = some i → i < limit) ∧ ∀ x ∈ v.parts, x.IsNumberedBelow limit :=
  forall_hasPart_iff

/-- No container is inside both of two values. -/
def SharesNothing (v w : Value) : Prop :=
  ∀ x, v.HasPart x → ∀ y, w.HasPart y → ∀ i, x.container? = some i → y.container? ≠ some i

/-- With numbers beyond those of another value, ordinary data shares nothing with it. -/
theorem sharesNothing_renumber {w : Value} (ordinary : v.IsOrdinary) (below : w.IsNumberedBelow n) :
    (v.renumber n).SharesNothing w := by
  intro x inside y part i number sameNumber
  obtain ⟨z, -, rfl⟩ := exists_of_hasPart_renumber ordinary inside
  have beyond : n ≤ i := by
    cases z <;> cases number <;> exact Nat.le_add_left n _
  exact absurd (below y part i sameNumber) (Nat.not_lt.mpr beyond)

/-! ### Entries with other numbers -/

theorem keys_renumberEntries (n : Nat) (entries : List (Value × Value)) :
    (renumberEntries n entries).map (·.1) = entries.map (·.1) := by
  rw [renumberEntries_eq_map, List.map_map]
  rfl

theorem WellKeyed.renumberEntries (h : WellKeyed entries) (n : Nat) :
    WellKeyed (renumberEntries n entries) := by
  rw [renumberEntries_eq_map]
  exact ⟨List.forall_mem_map.mpr h.key, List.pairwise_map.mpr h.distinct⟩

theorem keys_insertAll_renumberEntries (n : Nat) (upper : WellKeyed added) :
    (insertAll (renumberEntries n entries) added).map (·.1) =
      (insertAll entries added).map (·.1) := by
  simp only [keys_insertAll upper.distinct, hasKey_eq_any, keys_renumberEntries]

/-- Whether two values are one object or are equal. -/
def Coincide (v w : Value) : Prop := v = w ∨ v.same w = true

/-- Copied entries, merged with others and then copied and merged again, have the items of entries
that are copied once and merged with both. -/
theorem forall₂_insertAll_insertAll {base between : List (Value × Value)} (lower : WellKeyed base)
    (middle : WellKeyed between) (upper : WellKeyed added)
    (ordinary : ∀ entry ∈ base, entry.2.IsOrdinary)
    (ordinaryBetween : ∀ entry ∈ between, entry.2.IsOrdinary) (a b c : Nat) :
    List.Forall₂ (fun l r => l.1 = r.1 ∧ l.2.Coincide r.2)
      (insertAll (renumberEntries b (insertAll (renumberEntries a base) between)) added)
      (insertAll (renumberEntries c base) (insertAll between added)) := by
  have first := (lower.renumberEntries a).insertAll middle
  have left := (first.renumberEntries b).insertAll upper
  have merged := middle.insertAll upper
  refine forall₂_of_lookup? left.keyed ?_ fun k member v w foundLeft foundRight => ?_
  · rw [keys_insertAll_renumberEntries b upper, keys_insertAll_insertAll middle upper,
      keys_insertAll_renumberEntries a merged, keys_insertAll_renumberEntries c merged]
  · obtain ⟨entry, listed, rfl⟩ := List.mem_map.mp member
    have laws := (left.key entry listed).sameLaws
    rw [lookup?_insertAll laws upper, lookup?_renumberEntries, lookup?_insertAll laws middle,
      lookup?_renumberEntries] at foundLeft
    rw [lookup?_insertAll laws merged, lookup?_insertAll laws upper,
      lookup?_renumberEntries] at foundRight
    -- The look-ups end with the same entries, which have been copied a different number of times.
    cases inUpper : lookup? added entry.1 with
    | some x =>
      simp only [inUpper, Option.some_or, Option.some.injEq] at foundLeft foundRight
      exact .inl (foundLeft.symm.trans foundRight)
    | none =>
      cases inMiddle : lookup? between entry.1 with
      | some x =>
        obtain ⟨e, inside, rfl⟩ := exists_of_lookup? inMiddle
        simp only [inUpper, inMiddle, Option.none_or, Option.some_or, Option.map_some,
          Option.some.injEq] at foundLeft foundRight
        subst foundLeft foundRight
        exact .inr (renumber_same b (ordinaryBetween e inside))
      | none =>
        cases inLower : lookup? base entry.1 with
        | none => simp [inUpper, inMiddle, inLower] at foundLeft
        | some x =>
          obtain ⟨e, inside, rfl⟩ := exists_of_lookup? inLower
          simp only [inUpper, inMiddle, inLower, Option.none_or, Option.map_some,
            Option.some.injEq] at foundLeft foundRight
          subst foundLeft foundRight
          have copied := isOrdinary_renumber a (ordinary e inside)
          have back := renumber_same b copied
          rw [same_renumber] at back
          exact .inr ((same_renumber c _ e.2).trans back)

end Value

namespace Session

open Value

/-- What overlaid defaults of ordinary data are. -/
theorem overlay_of_wellKeyed {given defaults : Value} {added base : List (Value × Value)}
    (upper : given.entries? = some added) (lower : defaults.entries? = some base)
    (defaultKeys : WellKeyed base)
    (ordinary : ∀ entry ∈ base, entry.1.IsOrdinary ∧ entry.2.IsOrdinary) (s : Session) :
    overlay given defaults s =
      (.ok (insertAll (renumberEntries s.nextId base) added),
        { s with nextId := 2 * s.nextId }) := by
  have hashable : ∀ entry ∈ base, entry.1.unhashable? = none := fun entry member =>
    (defaultKeys.key entry member _ (.refl _)).1
  exact overlay_of_isOrdinary lower defaultKeys.distinct ordinary hashable upper s

/-- Overlaid defaults have the keys of the defaults and then those that only the given mapping has.
Given values are handed on; a default that none replaces is renewed as an equal one of its type,
which shares no container with what went in. To overlay ordinary data and then the given mapping is
to overlay the given mapping over that data at once. -/
theorem overlay_precedence (given defaults : Value) (added base : List (Value × Value))
    (s : Session) (upper : given.entries? = some added) (lower : defaults.entries? = some base)
    (givenKeys : WellKeyed added) (defaultKeys : WellKeyed base)
    (ordinary : ∀ entry ∈ base, entry.1.IsOrdinary ∧ entry.2.IsOrdinary)
    (givenBelow : given.IsNumberedBelow s.nextId)
    (defaultsBelow : defaults.IsNumberedBelow s.nextId) :
    ∃ out, overlay given defaults s = (.ok out, { s with nextId := 2 * s.nextId }) ∧
      (out.map (·.1) = base.map (·.1) ++ (added.map (·.1)).filter fun key => !hasKey base key) ∧
      (∀ entry ∈ added, lookup? out entry.1 = some entry.2) ∧
      (∀ entry ∈ base, hasKey added entry.1 = false → ∃ v, lookup? out entry.1 = some v ∧
        v.same entry.2 = true ∧ v.typeName = entry.2.typeName ∧
        v.SharesNothing given ∧ v.SharesNothing defaults) ∧
      ∀ (other : Value) (between : List (Value × Value)), other.entries? = some between →
        WellKeyed between → (∀ entry ∈ between, entry.1.IsOrdinary ∧ entry.2.IsOrdinary) →
        ∀ (id id' : Nat) (t t' t'' : Session), ∃ first left right u u' u'',
          overlay other defaults t = (.ok first, u) ∧
          overlay given (.dict id first) t' = (.ok left, u') ∧
          overlay (.dict id' (insertAll (insertAll [] between) added)) defaults t'' =
            (.ok right, u'') ∧
          List.Forall₂ (fun l r => l.1 = r.1 ∧ l.2.Coincide r.2) left right := by
  have defaultValues : ∀ entry ∈ base, entry.2.IsOrdinary := fun entry member =>
    (ordinary entry member).2
  refine ⟨_, overlay_of_wellKeyed upper lower defaultKeys ordinary s, ?_, ?_, ?_, ?_⟩
  · rw [keys_insertAll_renumberEntries _ givenKeys, keys_insertAll givenKeys.distinct]
  · intro entry member
    rw [lookup?_insertAll (givenKeys.key entry member).sameLaws givenKeys,
      lookup?_of_mem givenKeys.keyed member, Option.some_or]
  · intro entry member kept
    have ordinaryHere := defaultValues entry member
    refine ⟨entry.2.renumber s.nextId, ?_, renumber_same _ ordinaryHere, typeName_renumber _ _,
      sharesNothing_renumber ordinaryHere givenBelow,
      sharesNothing_renumber ordinaryHere defaultsBelow⟩
    rw [hasKey_eq_isSome_lookup?, Option.isSome_eq_false_iff, Option.isNone_iff_eq_none] at kept
    rw [lookup?_insertAll (defaultKeys.key entry member).sameLaws givenKeys, kept,
      lookup?_renumberEntries, lookup?_of_mem defaultKeys.keyed member, Option.none_or,
      Option.map_some]
  · intro other between middle betweenKeys ordinaryBetween id id' t t' t''
    have own : insertAll [] between = between := insertAll_eq_append betweenKeys.distinct
    have listed : ∀ i entries, (Value.dict i entries).entries? = some entries := fun _ _ => rfl
    -- What is overlaid first is ordinary data again, so that it can be copied once more.
    have renumbered : ∀ entry ∈ renumberEntries t.nextId base,
        entry.1.IsOrdinary ∧ entry.2.IsOrdinary := by
      rw [renumberEntries_eq_map]
      exact List.forall_mem_map.mpr fun entry member =>
        ⟨(ordinary entry member).1, isOrdinary_renumber _ (ordinary entry member).2⟩
    have firstKeys := (defaultKeys.renumberEntries t.nextId).insertAll betweenKeys
    have first := overlay_of_wellKeyed middle lower defaultKeys ordinary t
    have left := overlay_of_wellKeyed upper (listed id _) firstKeys
      (forall_insertAll renumbered ordinaryBetween) t'
    have right := overlay_of_wellKeyed (listed id' (insertAll between added)) lower defaultKeys
      ordinary t''
    rw [own]
    exact ⟨_, _, _, _, _, _, first, left, right, forall₂_insertAll_insertAll defaultKeys betweenKeys
      givenKeys defaultValues (fun entry member => (ordinaryBetween entry member).2) _ _ _⟩

/-- A truth value and two numbers are one key, a set is another, and a given value refuses to be
compared. -/
theorem overlay_precedence_nested :
    let key : Value := .frozenset [.int 1, .text "b"]
    let given : Value := .dict 2 [(.bool true, .probe 3 .equality), (.text "c", .list 4 [])]
    let defaults : Value := .dict 5 [(.int 1, .list 6 [.nan 7]), (key, .branch 8 [.set 9 [.null]])]
    let other : Value := .dict 2 [(.float (.finite false 1 0), .bytearray 3 []), (key, .tuple [])]
    let copied : Value := .branch 27 [.set 28 [.null]]
    let out : List (Value × Value) :=
      [(.int 1, .probe 3 .equality), (key, copied), (.text "c", .list 4 [])]
    let both : List (Value × Value) :=
      [(.int 1, .probe 3 .equality), (key, .tuple []), (.text "c", .list 4 [])]
    (∃ t, overlay given defaults .initial = (.ok out, t)) ∧
      copied.SharesNothing given ∧ copied.SharesNothing defaults ∧
      ∃ first left u u', overlay other defaults .initial = (.ok first, u) ∧
        overlay given (.dict 5 first) .initial = (.ok left, u') ∧
        List.Forall₂ (fun l r => l.1 = r.1 ∧ l.2.Coincide r.2) left both := by
  intro key given defaults other copied out both
  have isKey : key.IsKey := by
    simp [key, isKey_iff (v := .frozenset _), isKey_iff (v := .int _), isKey_iff (v := .text _),
      unhashable?, set?, parts, mapping?]
    decide
  have ordinaryKey : key.IsOrdinary := by
    simp [key, isOrdinary_iff (v := .frozenset _), isOrdinary_iff (v := .int _),
      isOrdinary_iff (v := .text _), unhashable?, parts, mapping?, IsOrdinaryKind, IsDatum]
  have keyBelow : key.IsNumberedBelow 19 := by
    simp [key, isNumberedBelow_iff (v := .frozenset _), isNumberedBelow_iff (v := .int _),
      isNumberedBelow_iff (v := .text _), parts, mapping?, container?]
  have limit : Session.initial.nextId = 19 := by decide
  obtain ⟨out', ran, -, -, renewed, twice⟩ := overlay_precedence given defaults _ _ .initial rfl rfl
    ⟨by simp [isKey_iff (v := .bool _), isKey_iff (v := .text _), unhashable?, set?, parts,
      mapping?], by decide⟩
    ⟨by simp [isKey, isKey_iff (v := .int _), unhashable?, set?, parts, mapping?], by decide⟩
    (by simp [ordinaryKey, isOrdinary_iff (v := .int _), isOrdinary_iff (v := .list _ _),
      isOrdinary_iff (v := .nan _), isOrdinary_iff (v := .branch _ _),
      isOrdinary_iff (v := .set _ _), isOrdinary_iff (v := .null), unhashable?, parts, mapping?,
      IsOrdinaryKind, IsDatum])
    (by simp [given, limit, isNumberedBelow_iff (v := .dict _ _),
      isNumberedBelow_iff (v := .bool _), isNumberedBelow_iff (v := .probe _ _),
      isNumberedBelow_iff (v := .text _), isNumberedBelow_iff (v := .list _ _), parts, mapping?,
      Mapping.entries, container?])
    (by simp [defaults, keyBelow, limit, isNumberedBelow_iff (v := .dict _ _),
      isNumberedBelow_iff (v := .int _), isNumberedBelow_iff (v := .list _ _),
      isNumberedBelow_iff (v := .nan _), isNumberedBelow_iff (v := .branch _ _),
      isNumberedBelow_iff (v := .set _ _), isNumberedBelow_iff (v := .null), parts, mapping?,
      Mapping.entries, container?])
  have run : ∃ t, overlay given defaults .initial = (.ok out, t) := ⟨_, rfl⟩
  refine ⟨run, ?_⟩
  obtain ⟨t, run⟩ := run
  cases run.symm.trans ran
  obtain ⟨v, found, -, -, apartGiven, apartDefaults⟩ := renewed (key, .branch 8 [.set 9 [.null]])
    (by simp) rfl
  cases found.symm.trans (show lookup? out key = some copied from rfl)
  refine ⟨apartGiven, apartDefaults, ?_⟩
  obtain ⟨first, left, right, u, u', u'', overlaid, overlaidTwice, atOnce, alike⟩ :=
    twice other _ rfl
      ⟨by simp [isKey, isKey_iff (v := .float _), unhashable?, set?, parts, mapping?], by decide⟩
      (by simp [ordinaryKey, isOrdinary_iff (v := .float _), isOrdinary_iff (v := .bytearray _ _),
        isOrdinary_iff (v := .tuple _), parts, mapping?, IsOrdinaryKind, IsDatum])
      5 6 .initial .initial .initial
  have merged : (.ok both : Except Fault (List (Value × Value))) = .ok right :=
    congrArg Prod.fst atOnce
  cases merged
  exact ⟨first, left, u, u', overlaid, overlaidTwice, alike⟩

end Session

end Conformance
