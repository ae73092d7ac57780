import Conformance.Proofs.Containment
import Conformance.Proofs.Parts

/-!
# Which sources give defaults

A source of defaults is a mapping whose entries pair a rule with a default. It is taken apart and
its rules are read before any check is called, so that whatever is wrong in its form is found
first: that it is no mapping, then its first entry that is no pair, then a malformed rule. After
that only conformance is left to fail, and it fails if the defaults are not accepted exactly.

The message about defaults that do not conform is made by examining them. This needs that no mapping
refuses to be read, that checks raise ordinary faults only, and that no default can be taken for
findings.

## Main definitions

* `SourceEntry`, `Value.IsSource` — the entries of a source
* `Session.Built` — what building defaults comes to, by priority

## Main results

* `Session.buildDefaultsBy_built` — building defaults comes to that
-/

namespace Conformance

/-- An entry of a source: a key with its rule and its default. -/
structure SourceEntry where
  key : Value
  rule : Value
  default : Value

/-- A value is a mapping with these entries, in this order, each of them a list or a tuple of a rule
and a default. -/
def Value.IsSource (source : Value) (entries : List SourceEntry) : Prop :=
  ∃ listed, source.mapping? = some (.readable listed) ∧
    listed.map (fun entry => (entry.1, entry.2.sequence?)) =
      entries.map fun entry => (entry.key, some [entry.rule, entry.default])

/-- A source has its entries only once. -/
theorem Value.IsSource.unique {source : Value} {entries entries' : List SourceEntry}
    (h : source.IsSource entries) (h' : source.IsSource entries') : entries = entries' := by
  obtain ⟨listed, mapping, same⟩ := h
  obtain ⟨listed', mapping', same'⟩ := h'
  cases mapping.symm.trans mapping'
  refine (List.map_inj_right ?_).mp (same.symm.trans same')
  rintro ⟨key, rule, default⟩ ⟨key', rule', default'⟩ equal
  simpa using equal

/-- The schema of a source. -/
def SourceEntry.schema (entries : List SourceEntry) : Value :=
  .dict 0 (entries.map fun entry => (entry.key, entry.rule))

/-- The defaults of a source. -/
def SourceEntry.defaults (entries : List SourceEntry) : Value :=
  .dict 0 (entries.map fun entry => (entry.key, entry.default))

namespace Session

/-- What building defaults comes to, by priority. A source that is malformed in its form, at any
depth, leaves the state as it was. -/
inductive Built (check : Value → Value → Run Session Bool) (name : String) (source : Value)
    (s : Session) : Except Fault (Value × Value) × Session → Prop
  | notMapping (mapping : source.isMapping = false) :
      Built check name source s (.error (.sourceNotMapping (.text name) source.typeName), s)
  /-- The first entry that is no list or tuple of two. -/
  | notPair {before after : List (Value × Value)} {key v : Value}
      (mapping : source.mapping? = some (.readable (before ++ (key, v) :: after)))
      (pairs : ∀ entry ∈ before, ∃ raw default, entry.2.sequence? = some [raw, default])
      (notPair : ∀ raw default, v.sequence? ≠ some [raw, default]) :
      Built check name source s (.error (.sourceEntryNotPair (.text name) key v), s)
  | malformed {entries : List SourceEntry} {cause : Malformed} (isSource : source.IsSource entries)
      (read : Pack.ofValue (SourceEntry.schema entries) = .error cause)
      (form : cause ≠ .unreadable) :
      Built check name source s (.error (.malformed cause), s)
  | nonconforming {entries : List SourceEntry} {p : Pack Value Value} {t u : Session}
      {rows : List Row} (isSource : source.IsSource entries)
      (read : Pack.ofValue (SourceEntry.schema entries) = .ok p)
      (refused : acceptsBy check (SourceEntry.schema entries) (SourceEntry.defaults entries)
        (.bool true) s = (.ok false, t)) :
      Built check name source s (.error (.defaultsNonconforming (.text name) rows), u)
  | built {entries : List SourceEntry} {p : Pack Value Value} {t : Session}
      (isSource : source.IsSource entries)
      (read : Pack.ofValue (SourceEntry.schema entries) = .ok p)
      (accepted : acceptsBy check (SourceEntry.schema entries) (SourceEntry.defaults entries)
        (.bool true) s = (.ok true, t)) :
      Built check name source s
        (.ok (SourceEntry.schema entries, SourceEntry.defaults entries),
          { t with records := t.records ++
            [.defaultsBuilt (.text name) (entries.map SourceEntry.key)] })

/-! ### Taking a source apart -/

theorem rulePair?_eq_some {v raw default : Value} (h : v.sequence? = some [raw, default]) :
    v.rulePair? = some (raw, default) := by
  rw [Value.rulePair?, h]

theorem rulePair?_eq_none {v : Value} (h : ∀ raw default, v.sequence? ≠ some [raw, default]) :
    v.rulePair? = none := by
  rw [Value.rulePair?]
  split
  next raw default pair => exact absurd pair (h raw default)
  next => rfl

/-- Entries are all pairs, or there is a first that is none. -/
theorem pairs_or_first (listed : List (Value × Value)) :
    (∃ entries : List SourceEntry, listed.map (fun entry => (entry.1, entry.2.sequence?)) =
      entries.map fun entry => (entry.key, some [entry.rule, entry.default])) ∨
    ∃ before key v after, listed = before ++ (key, v) :: after ∧
      (∀ entry ∈ before, ∃ raw default, entry.2.sequence? = some [raw, default]) ∧
      ∀ raw default, v.sequence? ≠ some [raw, default] := by
  induction listed with
  | nil => exact .inl ⟨[], rfl⟩
  | cons entry rest ih =>
    obtain ⟨key, v⟩ := entry
    by_cases pair : ∃ raw default, v.sequence? = some [raw, default]
    · obtain ⟨raw, default, found⟩ := pair
      rcases ih with ⟨entries, same⟩ | ⟨before, k, w, after, split, pairs, first⟩
      · exact .inl ⟨⟨key, raw, default⟩ :: entries, by simp [found, same]⟩
      · refine .inr ⟨(key, v) :: before, k, w, after, by rw [split]; rfl, ?_, first⟩
        exact List.forall_mem_cons.mpr ⟨⟨raw, default, found⟩, pairs⟩
    · exact .inr ⟨[], key, v, rest, rfl, nofun, fun raw default found => pair ⟨raw, default, found⟩⟩

theorem splitEntries_of_pairs (name : Value) {listed : List (Value × Value)}
    {entries : List SourceEntry}
    (h : listed.map (fun entry => (entry.1, entry.2.sequence?)) =
      entries.map fun entry => (entry.key, some [entry.rule, entry.default])) :
    splitEntries name listed = .ok (entries.map fun entry => (entry.key, entry.rule),
      entries.map fun entry => (entry.key, entry.default)) := by
  induction entries generalizing listed with
  | nil =>
    obtain rfl := List.map_eq_nil_iff.mp h
    rfl
  | cons first rest ih =>
    obtain ⟨⟨key, v⟩, listed, rfl, same, others⟩ := List.map_eq_cons_iff.mp h
    obtain ⟨rfl, pair⟩ := Prod.mk.inj same
    rw [splitEntries, rulePair?_eq_some pair, ih others]
    rfl

theorem splitEntries_of_not_pair (name : Value) {before after : List (Value × Value)}
    {key v : Value}
    (pairs : ∀ entry ∈ before, ∃ raw default, entry.2.sequence? = some [raw, default])
    (notPair : ∀ raw default, v.sequence? ≠ some [raw, default]) :
    splitEntries name (before ++ (key, v) :: after) = .error (.sourceEntryNotPair name key v) := by
  induction before with
  | nil => rw [List.nil_append, splitEntries, rulePair?_eq_none notPair]
  | cons entry before ih =>
    obtain ⟨⟨raw, default, pair⟩, others⟩ := List.forall_mem_cons.mp pairs
    rw [List.cons_append, splitEntries, rulePair?_eq_some pair, ih others]
    rfl

variable {check : Value → Value → Run Session Bool} {call : Value → Value → Run Session Value}
  {name : String} {source : Value} {s : Session} {entries : List SourceEntry}
  {p : Pack Value Value}

theorem splitSource_of_isSource (h : source.IsSource entries) (name : Value) :
    splitSource name source = .ok (entries.map fun entry => (entry.key, entry.rule),
      entries.map fun entry => (entry.key, entry.default)) := by
  obtain ⟨listed, mapping, same⟩ := h
  rw [splitSource, mapping]
  exact splitEntries_of_pairs name same

theorem buildDefaultsBy_of_split {fault : Fault}
    (h : splitSource (.text name) source = .error fault)
    (check : Value → Value → Run Session Bool) :
    buildDefaultsBy check (.text name) source s = (.error fault, s) := by
  rw [buildDefaultsBy, h]
  rfl

theorem buildDefaultsBy_of_malformed {cause : Malformed} (h : source.IsSource entries)
    (read : Pack.ofValue (SourceEntry.schema entries) = .error cause)
    (check : Value → Value → Run Session Bool) :
    buildDefaultsBy check (.text name) source s = (.error (.malformed cause), s) := by
  rw [buildDefaultsBy, splitSource_of_isSource h, Run.lift_ok_bind]
  rw [SourceEntry.schema] at read
  simp only [packOf, read]
  rfl

/-- Once a schema is read, conformance decides. -/
theorem buildDefaultsBy_of_isSource (h : source.IsSource entries)
    (read : Pack.ofValue (SourceEntry.schema entries) = .ok p) :
    buildDefaultsBy check (.text name) source = (do
      if ← p.accepts check true (SourceEntry.defaults entries) then
        log (.defaultsBuilt (.text name) (entries.map SourceEntry.key))
        pure (SourceEntry.schema entries, SourceEntry.defaults entries)
      else
        let e ← p.examine check (SourceEntry.defaults entries)
        let rows ← Run.lift (Value.rows (.text name) e.toValue)
        Run.raise (.defaultsNonconforming (.text name) rows)) := by
  have keys : (entries.map fun entry => (entry.key, entry.rule)).map (·.1) =
      entries.map SourceEntry.key := by simp [Function.comp_def]
  rw [buildDefaultsBy, splitSource_of_isSource h, Run.lift_ok_bind, ← keys]
  rw [SourceEntry.schema] at read
  simp only [packOf, read]
  rfl

/-! ### Defaults that do not conform -/

/-- What holds of nothing and of all that is inside the defaults holds of all that is inside
anything but the defaults as a whole. -/
theorem inherited_defaults {P : Value → Prop} (null : P .null)
    (inside : ∀ entry ∈ entries, ∀ w, entry.default.HasPart w → P w) :
    Value.Inherited fun v => v = SourceEntry.defaults entries ∨ ∀ w, v.HasPart w → P w :=
  .of_entries null (List.forall_mem_map.mpr inside)

/-- Defaults in which no mapping refuses to be read are held against a pack to the end. -/
theorem accepts_defaults_ends (exact : Bool)
    (readable : ∀ entry ∈ entries, ∀ w, entry.default.HasPart w → w.IsListable)
    (ordinary : RaiseOrdinarily call p.leaves) (s : Session) :
    (∃ b t, p.accepts (verdictBy call) exact (SourceEntry.defaults entries) s = (.ok b, t)) ∧
      ∃ e t, p.examine (verdictBy call) (SourceEntry.defaults entries) s = (.ok e, t) := by
  have inherited := inherited_defaults (P := Value.IsListable) nofun readable
  have reads : p.MeetsReadable (SourceEntry.defaults entries) :=
    inherited.meetsReadable (.inl rfl) fun w holds => by
      rcases holds with rfl | all
      · rintro _ ⟨⟩
        exact ⟨_, rfl⟩
      · exact all w (.refl w)
  exact ⟨(uniform_accepts exact p _).ends reads ordinary s,
    (uniform_examine p _).ends reads ordinary s⟩

/-- The explanation of such defaults has rows. -/
theorem rows_of_examine_defaults {e : Explanation} {t u : Session} (name : String)
    (plain : ∀ entry ∈ entries, ∀ w, entry.default.HasPart w → w.isBranch = false)
    (examined : p.examine check (SourceEntry.defaults entries) t = (.ok e, u)) :
    Value.rows (.text name) e.toValue = .ok (e.rows name) := by
  have inherited := inherited_defaults (P := fun w => w.isBranch = false) rfl plain
  refine Value.rows_toValue e name fun w member => ?_
  rcases inherited.of_examine p _ t u e (.inl rfl) examined w member with rfl | all
  · rfl
  · exact all w (.refl w)

/-- Defaults that are refused make the building fail, with the rows of their explanation. -/
theorem buildDefaultsBy_of_refused {t : Session} (name : String) (h : source.IsSource entries)
    (read : Pack.ofValue (SourceEntry.schema entries) = .ok p)
    (readable : ∀ entry ∈ entries, ∀ w, entry.default.HasPart w → w.IsListable)
    (plain : ∀ entry ∈ entries, ∀ w, entry.default.HasPart w → w.isBranch = false)
    (ordinary : RaiseOrdinarily call p.leaves)
    (refused : p.accepts (verdictBy call) true (SourceEntry.defaults entries) s = (.ok false, t)) :
    ∃ rows u, buildDefaultsBy (verdictBy call) (.text name) source s =
      (.error (.defaultsNonconforming (.text name) rows), u) := by
  obtain ⟨-, e, u, examined⟩ := accepts_defaults_ends (p := p) true readable ordinary t
  have rows := rows_of_examine_defaults name plain examined
  refine ⟨e.rows name, u, ?_⟩
  rw [buildDefaultsBy_of_isSource h read, Run.bind_apply_ok refused]
  simp only [Bool.false_eq_true, if_false]
  rw [Run.bind_apply_ok examined, rows]
  rfl

/-! ### Every source -/

/-- The rules and the defaults of a source are inside it. -/
theorem hasPart_of_isSource (h : source.IsSource entries) :
    ∀ entry ∈ entries, source.HasPart entry.rule ∧ source.HasPart entry.default := by
  obtain ⟨listed, mapping, same⟩ := h
  intro entry member
  have image : (entry.key, some [entry.rule, entry.default]) ∈
      listed.map fun entry => (entry.1, entry.2.sequence?) := by
    rw [same]
    exact List.mem_map_of_mem (f := fun entry : SourceEntry =>
      (entry.key, some [entry.rule, entry.default])) member
  obtain ⟨⟨key, v⟩, listed', pair⟩ := List.mem_map.mp image
  have parts := Value.parts_of_sequence? (Prod.mk.inj pair).2
  have inside : source.HasPart v := .value mapping listed'
  exact ⟨inside.trans (.of_mem (by simp [parts])), inside.trans (.of_mem (by simp [parts]))⟩

theorem splitSource_of_not_mapping (mapping : source.mapping? = none) (name : Value) :
    splitSource name source = .error (.sourceNotMapping name source.typeName) := by
  rw [splitSource, mapping]

theorem splitSource_of_not_pair {before after : List (Value × Value)} {key v : Value}
    (mapping : source.mapping? = some (.readable (before ++ (key, v) :: after)))
    (pairs : ∀ entry ∈ before, ∃ raw default, entry.2.sequence? = some [raw, default])
    (notPair : ∀ raw default, v.sequence? ≠ some [raw, default]) (name : Value) :
    splitSource name source = .error (.sourceEntryNotPair name key v) := by
  rw [splitSource, mapping]
  exact splitEntries_of_not_pair name pairs notPair

theorem buildDefaultsBy_of_accepted {t : Session} (h : source.IsSource entries)
    (read : Pack.ofValue (SourceEntry.schema entries) = .ok p)
    (accepted : p.accepts check true (SourceEntry.defaults entries) s = (.ok true, t)) :
    buildDefaultsBy check (.text name) source s =
      (.ok (SourceEntry.schema entries, SourceEntry.defaults entries),
        { t with records := t.records ++
          [.defaultsBuilt (.text name) (entries.map SourceEntry.key)] }) := by
  rw [buildDefaultsBy_of_isSource h read, Run.bind_apply_ok accepted]
  rfl

/-- Building defaults comes to one of the outcomes. -/
theorem built_of_readable (call : Value → Value → Run Session Value) (name : String)
    (source : Value) (s : Session)
    (readable : ∀ w, source.HasPart w → w.IsListable)
    (plain : ∀ entries, source.IsSource entries →
      ∀ entry ∈ entries, ∀ w, entry.default.HasPart w → w.isBranch = false)
    (ordinary : ∀ entries p, source.IsSource entries →
      Pack.ofValue (SourceEntry.schema entries) = .ok p → RaiseOrdinarily call p.leaves) :
    Built (verdictBy call) name source s
      (buildDefaultsBy (verdictBy call) (.text name) source s) := by
  cases mapping : source.mapping? with
  | none =>
    rw [buildDefaultsBy_of_split (splitSource_of_not_mapping mapping _)]
    exact .notMapping (Value.isMapping_eq_false mapping)
  | some m =>
    cases m with
    | unlisted =>
      obtain ⟨entries, listed⟩ := readable source (.refl source) _ mapping
      cases listed
    | readable listed =>
      rcases pairs_or_first listed with ⟨entries, same⟩ | ⟨before, key, v, after, rfl, pairs, first⟩
      · have isSource : source.IsSource entries := ⟨listed, mapping, same⟩
        have inside := hasPart_of_isSource isSource
        cases read : Pack.ofValue (SourceEntry.schema entries) with
        | error cause =>
          rw [buildDefaultsBy_of_malformed isSource read]
          refine .malformed isSource read fun unreadable => ?_
          -- A mapping that refuses to be read would be inside the source.
          refine Pack.ofValue_ne_unreadable (fun entry member w part => ?_) (unreadable ▸ read)
          obtain ⟨e, isEntry, rfl⟩ := List.mem_map.mp member
          exact readable w ((inside e isEntry).1.trans part)
        | ok p =>
          have readable' : ∀ entry ∈ entries, ∀ w, entry.default.HasPart w →
              w.IsListable :=
            fun entry member w part => readable w ((inside entry member).2.trans part)
          have asked := ordinary entries p isSource read
          obtain ⟨⟨b, t, ran⟩, -⟩ := accepts_defaults_ends (p := p) true readable' asked s
          have accepts : acceptsBy (verdictBy call) (SourceEntry.schema entries)
              (SourceEntry.defaults entries) (.bool true) s = (.ok b, t) := by
            rw [acceptsBy_eq read, ran]
          cases b with
          | true =>
            rw [buildDefaultsBy_of_accepted isSource read ran]
            exact .built isSource read accepts
          | false =>
            obtain ⟨rows, u, failed⟩ := buildDefaultsBy_of_refused name isSource read
              readable' (plain entries isSource) asked ran
            rw [failed]
            exact .nonconforming isSource read accepts
      · rw [buildDefaultsBy_of_split (splitSource_of_not_pair mapping pairs first _)]
        exact .notPair mapping pairs first

/-- Defaults are built exactly from sources that conform to themselves, and then hold what the
source holds, in its order. Otherwise the first thing that is wrong decides: with the form of the
source, before any check is called, and whatever the checks are; or else with its conformance. -/
theorem buildDefaultsBy_built (call : Value → Value → Run Session Value) (name : String)
    (source : Value) (s : Session)
    (readable : ∀ w, source.HasPart w → w.IsListable)
    (plain : ∀ entries, source.IsSource entries →
      ∀ entry ∈ entries, ∀ w, entry.default.HasPart w → w.isBranch = false)
    (ordinary : ∀ entries p, source.IsSource entries →
      Pack.ofValue (SourceEntry.schema entries) = .ok p → RaiseOrdinarily call p.leaves) :
    let check := verdictBy call
    let ran := buildDefaultsBy check (.text name) source s
    Built check name source s ran ∧
    (∀ schema defaults, (∃ t, ran = (.ok (schema, defaults), t)) ↔
      ∃ entries p t, source.IsSource entries ∧
        schema = .dict 0 (entries.map fun entry => (entry.key, entry.rule)) ∧
        defaults = .dict 0 (entries.map fun entry => (entry.key, entry.default)) ∧
        Pack.ofValue schema = .ok p ∧
        acceptsBy check schema defaults (.bool true) s = (.ok true, t)) ∧
    ∀ fault t, ran = (.error fault, t) →
      fault.kind = "SchemaError" ∧
        (∀ check', buildDefaultsBy check' (.text name) source s = (.error fault, s)) ∨
      fault.kind = "ConfigurationError" ∧ ∃ entries p u, source.IsSource entries ∧
        Pack.ofValue (SourceEntry.schema entries) = .ok p ∧
        acceptsBy check (SourceEntry.schema entries) (SourceEntry.defaults entries) (.bool true) s =
          (.ok false, u) := by
  intro check ran
  have built : Built check name source s ran :=
    built_of_readable call name source s readable plain ordinary
  refine ⟨built, fun schema defaults => ⟨?_, ?_⟩, ?_⟩
  · rintro ⟨t, done⟩
    rw [done] at built
    cases built with
    | built isSource read accepted => exact ⟨_, _, _, isSource, rfl, rfl, read, accepted⟩
  · rintro ⟨entries, p, t, isSource, rfl, rfl, read, accepted⟩
    rw [acceptsBy_eq read] at accepted
    exact ⟨_, buildDefaultsBy_of_accepted isSource read accepted⟩
  · intro fault t failed
    rw [failed] at built
    -- What is wrong with the form of a source is found without asking any check.
    cases built with
    | notMapping mapping =>
      exact .inl ⟨rfl, buildDefaultsBy_of_split
        (splitSource_of_not_mapping (Value.mapping?_eq_none mapping) _)⟩
    | notPair mapping pairs notPair =>
      exact .inl ⟨rfl, buildDefaultsBy_of_split
        (splitSource_of_not_pair mapping pairs notPair _)⟩
    | malformed isSource read form =>
      refine .inl ⟨?_, buildDefaultsBy_of_malformed isSource read⟩
      rename_i cause
      cases cause with
      | unreadable => exact absurd rfl form
      | _ => rfl
    | nonconforming isSource read refused => exact .inr ⟨rfl, _, _, _, isSource, read, refused⟩

/-- A source that conforms to itself, with a nested pack; and the same source with a check that
raises. -/
theorem buildDefaultsBy_built_nested :
    let number : Value := .callable 2 (.check .number)
    let boom : Value := .callable 3 (.primitive .boom)
    let source (check : Value) : Value := .dict 4 [
      (.text "age", .list 5 [number, .int 0]),
      (.text "toy", .tuple [.dict 6 [(.text "size", check)], .dict 7 [(.text "size", .int 1)]])]
    (∃ t, buildDefaults (.text "pets") (source number) .initial =
      (.ok (.dict 0 [(.text "age", number), (.text "toy", .dict 6 [(.text "size", number)])],
        .dict 0 [(.text "age", .int 0), (.text "toy", .dict 7 [(.text "size", .int 1)])]), t)) ∧
    ∃ fault t, buildDefaults (.text "pets") (source boom) .initial = (.error fault, t) ∧
      fault.kind = "ConfigurationError" := by
  intro number boom source
  let entries (check : Value) : List SourceEntry := [⟨.text "age", number, .int 0⟩,
    ⟨.text "toy", .dict 6 [(.text "size", check)], .dict 7 [(.text "size", .int 1)]⟩]
  have isSource (check : Value) : (source check).IsSource (entries check) := ⟨_, rfl, rfl⟩
  have general (id : Nat) (f : Callable)
      (raises : ∀ x s fault t, f.apply x s = (.error fault, t) → fault.isOrdinary = true) :=
    buildDefaultsBy_built Value.apply "pets" (source (.callable id f)) .initial
      (by
        simp [source, number, Value.forall_hasPart_iff (v := .dict _ _),
          Value.forall_hasPart_iff (v := .list _ _), Value.forall_hasPart_iff (v := .tuple _),
          Value.forall_hasPart_iff (v := .text _), Value.forall_hasPart_iff (v := .int _),
          Value.forall_hasPart_iff (v := .callable _ _), Value.parts, Value.mapping?,
          Mapping.entries, Value.IsListable, Mapping.items])
      (by
        intro _ h
        obtain rfl := h.unique (isSource _)
        simp [entries, Value.forall_hasPart_iff (v := .dict _ _),
          Value.forall_hasPart_iff (v := .text _), Value.forall_hasPart_iff (v := .int _),
          Value.parts, Value.mapping?, Mapping.entries, Value.isBranch])
      (by
        intro _ p h read
        obtain rfl := h.unique (isSource _)
        cases read
        intro f' leaf x s fault t raised
        simp [Pack.leaves, Pack.leavesOf, Rule.leaves] at leaf
        rcases leaf with rfl | rfl
        · cases raised
        · exact raises x s fault t raised)
  constructor
  · have raisesNot : ∀ x s fault t, Callable.apply (.check .number) x s = (.error fault, t) →
        fault.isOrdinary = true := by
      intro x s fault t raised
      cases raised
    exact ((general 2 (.check .number) raisesNot).2.1 _ _).mpr
      ⟨entries number, _, _, isSource number, rfl, rfl, rfl, rfl⟩
  · obtain ⟨t, failed⟩ : ∃ t, buildDefaults (.text "pets") (source boom) .initial =
      (.error (.defaultsNonconforming (.text "pets") [⟨"pets.toy.size", .invalid, .int 1⟩]), t) :=
      ⟨_, rfl⟩
    have raises : ∀ x s fault t, Callable.apply (.primitive .boom) x s = (.error fault, t) →
        fault.isOrdinary = true := by
      intro x s fault t raised
      cases raised
      decide
    rcases (general 3 (.primitive .boom) raises).2.2 _ t failed with ⟨kind, -⟩ | ⟨kind, -⟩
    · exact absurd kind (by decide)
    · exact ⟨_, t, failed, kind⟩

end Session

end Conformance
