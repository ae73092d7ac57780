import Conformance.Proofs.MalformedExplanations
import Conformance.Proofs.Outcomes
import Conformance.Proofs.Repetition
import Conformance.Proofs.Sources

/-!
# What a failed self-check names

Defaults are held against the schema that they came with. Whether they conform is up to acceptance;
what is told about defaults that do not is up to an examination, which walks over the same defaults
once more, after acceptance has stopped. So two walks have to agree, and what is told can be empty
where they do not.

They agree where the examination finds what it would have found at first, but for one case: an empty
pack refuses what is no mapping, and an examination tells of this by the keys of the pack, of which
there is none. The examination finds the same as at first if nothing was taken from a stream in
between.

## Main results

* `Run.EndsIn.accepts`, `Run.EndsIn.examine` — the walks end in no faults but those of their checks
  and refused look-ups
* `Session.nonconforming_of_buildDefaultsBy` — what has come before the fault
* `Session.problems_of_buildDefaultsBy` — what the fault names
-/

namespace Conformance

variable {σ α : Type}

/-! ### Faults of walks -/

namespace Run.EndsIn

variable {check : α → Value → Run σ Bool} {E : Fault → Prop}

/-- A look-up is answered, or it is refused. -/
theorem get (refused : E (.refused .lookup)) (m : Mapping) (key : Value) :
    EndsIn (fun _ => True) E (Run.lift (m.get key) : Run σ Value) := by
  refine lift ?_
  cases answer : m.get key with
  | ok x => exact .answer trivial
  | error fault =>
    rw [Mapping.get_eq_error answer]
    exact .fault refused

/-- The keys of a mapping are told, or they are refused. -/
theorem hasExtra (refused : E (.refused .lookup)) (rules : List (Value × Rule Value α))
    (m : Mapping) : EndsIn (fun _ => True) E (Run.lift (Pack.hasExtra rules m) : Run σ Bool) := by
  refine lift (Outcome.bind (A := fun _ => True) ?_ fun keys _ => .answer trivial)
  cases answer : m.keys with
  | ok keys => exact .answer trivial
  | error fault =>
    rw [Mapping.keys_eq_error answer]
    exact .fault refused

theorem acceptRules {exact : Bool} {m : Mapping} {rules : List (Value × Rule Value α)}
    (refused : E (.refused .lookup))
    (accepts : ∀ entry ∈ rules, ∀ x, EndsIn (fun _ => True) E (entry.2.accepts check exact x)) :
    EndsIn (fun _ => True) E (Pack.acceptRules check exact rules m) := by
  induction rules with
  | nil => exact pure trivial
  | cons entry rest ih =>
    obtain ⟨here, others⟩ := List.forall_mem_cons.mp accepts
    refine (get refused m entry.1).bind fun x _ => (here x).bind fun accepted _ => ?_
    cases accepted with
    | true => exact ih others
    | false => exact pure trivial

theorem accepts (asked : ∀ c x, EndsIn (fun _ => True) E (check c x))
    (refused : E (.refused .lookup)) (exact : Bool) (p : Pack Value α) (v : Value) :
    EndsIn (fun _ => True) E (p.accepts check exact v) := by
  induction p using Pack.induction generalizing v with
  | step id rules ih =>
    rw [Pack.accepts]
    cases v.mapping? with
    | none => exact pure trivial
    | some m =>
      have below : EndsIn (fun _ => True) E (Pack.acceptRules check exact rules m) := by
        refine acceptRules refused fun entry rule x => ?_
        obtain ⟨key, r⟩ := entry
        cases r with
        | leaf n c => exact asked c x
        | nested n q => exact ih key n q rule x
      refine EndsIn.bind (A := fun _ => True) ?_ fun extra _ => ?_
      · cases exact with
        | false => exact lift (.answer trivial)
        | true => exact hasExtra refused rules m
      · cases extra with
        | true => exact pure trivial
        | false => exact below

theorem examineRules {m : Mapping} {rules : List (Value × Rule Value α)}
    (refused : E (.refused .lookup))
    (examine : ∀ entry ∈ rules, ∀ x,
      EndsIn (fun _ => True) E (entry.2.examine check entry.1 x)) :
    EndsIn (fun _ => True) E (Pack.examineRules check rules m) := by
  induction rules with
  | nil => exact pure trivial
  | cons entry rest ih =>
    obtain ⟨here, others⟩ := List.forall_mem_cons.mp examine
    exact (get refused m entry.1).bind fun x _ => (here x).bind fun found _ =>
      (ih others).bind fun further _ => pure trivial

theorem examine (asked : ∀ c x, EndsIn (fun _ => True) E (check c x))
    (refused : E (.refused .lookup)) (p : Pack Value α) (v : Value) :
    EndsIn (fun _ => True) E (p.examine check v) := by
  induction p using Pack.induction generalizing v with
  | step id rules ih =>
    rw [Pack.examine]
    cases v.mapping? with
    | none => exact pure trivial
    | some m =>
      have below : EndsIn (fun _ => True) E (Pack.examineRules check rules m) := by
        refine examineRules refused fun entry rule x => ?_
        obtain ⟨key, r⟩ := entry
        cases r with
        | leaf n c =>
          refine (asked c x).bind fun accepted _ => ?_
          cases accepted <;> exact pure trivial
        | nested n q => exact (ih key n q rule x).bind fun found _ => pure trivial
      refine below.bind fun found _ => EndsIn.bind (A := fun _ => True) ?_ fun _ _ => pure trivial
      cases m with
      | readable entries => exact lift (.answer trivial)
      | unlisted => exact lift (.fault refused)

/-- A fault of two parts that the first does not end in is one of the second. -/
theorem of_bind_eq_error {β γ : Type} {A : β → Prop} {x : Run σ β} {f : β → Run σ γ} {s t : σ}
    {fault : Fault} (h : EndsIn A E x) (failed : (x >>= f) s = (.error fault, t))
    (other : ¬ E fault) : ∃ b u, x s = (.ok b, u) ∧ f b u = (.error fault, t) := by
  have ended := h s
  rw [bind_apply] at failed
  generalize ran : x s = outcome at ended failed
  obtain ⟨answer, u⟩ := outcome
  cases ended with
  | @answer b given => exact ⟨b, u, rfl, failed⟩
  | fault raised =>
    cases failed
    exact absurd raised other

end Run.EndsIn

/-! ### What comes before the fault -/

/-- A fault that is no mistake of whoever set up defaults or settings. -/
def Fault.IsForeign (fault : Fault) : Prop := fault.kind ≠ "ConfigurationError"

/-- Four signals stop the whole program, and no other fault does. -/
theorem Fault.kind_of_not_ordinary {fault : Fault} (h : fault.isOrdinary = false) :
    fault.kind ∈ ["KeyboardInterrupt", "SystemExit", "GeneratorExit", "BaseException"] := by
  cases fault with
  | raised signal => simpa [isOrdinary, Signal.aborts, kind, or_iff_not_imp_left] using h
  | _ => cases h

/-- What stops the whole program is nothing that the builder raises. -/
theorem Fault.isForeign_of_not_ordinary {fault : Fault} (h : fault.isOrdinary = false) :
    fault.IsForeign := by
  intro same
  have kinds := kind_of_not_ordinary h
  rw [same] at kinds
  simp at kinds

/-- Rows cannot be had of what is no explanation, and of nothing else. -/
theorem Explanation.isForeign_of_rows {name : String} {e : Explanation} {fault : Fault}
    (h : Value.rows (.text name) e.toValue = .error fault) : fault.IsForeign := by
  by_cases paired : ∃ invalid extra, e.toValue.HasLists invalid extra ∧
      ∀ w ∈ invalid ++ extra, w.IsPaired
  · obtain ⟨invalid, extra, lists, paired⟩ := paired
    rw [Value.rows_of_isPaired lists paired] at h
    cases h
  · have answers : ∀ m, e.toValue.mapping? = some m → Pack.Answers true shape.rules m := by
      rintro _ ⟨⟩
      exact Pack.answers_of_items rfl
    obtain ⟨other, kind, failed⟩ := Value.exists_fault_of_not_isPaired answers paired
    rw [Value.rows, failed] at h
    cases h
    rw [Fault.IsForeign, kind]
    decide

namespace Session

variable {call : Value → Value → Run Session Value} {name : String} {source : Value}
  {s t : Session}

/-- A check passes on nothing but what stops the whole program. -/
theorem endsIn_verdictBy_fatal (call : Value → Value → Run Session Value)
    (check observed : Value) :
    (verdictBy call check observed).EndsIn (fun _ => True) fun fault =>
      fault.isOrdinary = false := by
  intro s
  cases called : callHolds (call check) observed s with
  | mk answer t =>
    cases answer with
    | ok b =>
      rw [verdictBy_of_ok called]
      exact .answer trivial
    | error fault =>
      rw [verdictBy_of_error called]
      split
      next => exact .answer trivial
      next fatal => exact .fault (Bool.eq_false_iff.mpr fatal)

theorem endsIn_verdictBy (call : Value → Value → Run Session Value) (check observed : Value) :
    (verdictBy call check observed).EndsIn (fun _ => True) Fault.IsForeign :=
  (endsIn_verdictBy_fatal call check observed).mono (fun _ given => given)
    fun _ => Fault.isForeign_of_not_ordinary

/-- Once the schema of a source is read, the fault is that of defaults which were refused, with the
rows of their explanation. -/
theorem nonconforming_of_isSource {entries : List SourceEntry} {p : Pack Value Value}
    {fault : Fault} (isSource : source.IsSource entries)
    (read : Pack.ofValue (SourceEntry.schema entries) = .ok p)
    (failed : buildDefaultsBy (verdictBy call) (.text name) source s = (.error fault, t))
    (kind : fault.kind = "ConfigurationError") :
    ∃ u e rows, p.accepts (verdictBy call) true (SourceEntry.defaults entries) s = (.ok false, u) ∧
      p.examine (verdictBy call) (SourceEntry.defaults entries) u = (.ok e, t) ∧
      Value.rows (.text name) e.toValue = .ok rows ∧
      fault = .defaultsNonconforming (.text name) rows := by
  have lookup : (Fault.refused .lookup).IsForeign := by simp [Fault.IsForeign, Fault.kind]
  have native : ¬ fault.IsForeign := not_not_intro kind
  rw [buildDefaultsBy_of_isSource isSource read] at failed
  obtain ⟨b, u, accepted, failed⟩ :=
    (Run.EndsIn.accepts (endsIn_verdictBy call) lookup true p _).of_bind_eq_error failed native
  cases b with
  | true => cases failed
  | false =>
    obtain ⟨e, w, examined, failed⟩ :=
      (Run.EndsIn.examine (endsIn_verdictBy call) lookup p _).of_bind_eq_error failed native
    rw [Run.bind_apply] at failed
    cases laid : Value.rows (.text name) e.toValue with
    | error other =>
      rw [laid] at failed
      cases failed
      exact absurd (Explanation.isForeign_of_rows laid) native
    | ok rows =>
      rw [laid] at failed
      cases failed
      exact ⟨u, e, rows, accepted, examined, laid, rfl⟩

/-- What comes before the fault: a source that can be read, acceptance, which refuses the defaults,
and an examination, which explains them from where acceptance left the state. -/
theorem nonconforming_of_buildDefaultsBy {fault : Fault}
    (failed : buildDefaultsBy (verdictBy call) (.text name) source s = (.error fault, t))
    (kind : fault.kind = "ConfigurationError") :
    ∃ entries p u e rows, source.IsSource entries ∧
      Pack.ofValue (SourceEntry.schema entries) = .ok p ∧
      p.accepts (verdictBy call) true (SourceEntry.defaults entries) s = (.ok false, u) ∧
      p.examine (verdictBy call) (SourceEntry.defaults entries) u = (.ok e, t) ∧
      Value.rows (.text name) e.toValue = .ok rows ∧
      fault = .defaultsNonconforming (.text name) rows := by
  have split {other : Fault} (h : splitSource (.text name) source = .error other) :
      other.IsForeign → False := by
    rw [buildDefaultsBy_of_split h] at failed
    cases failed
    exact fun foreign => foreign kind
  cases mapping : source.mapping? with
  | none =>
    have foreign : Fault.IsForeign (.sourceNotMapping (.text name) source.typeName) := by
      simp [Fault.IsForeign, Fault.kind]
    exact (split (splitSource_of_not_mapping mapping _) foreign).elim
  | some m =>
    cases m with
    | unlisted =>
      have refused : splitSource (.text name) source = .error (.refused .lookup) := by
        rw [splitSource, mapping]
        rfl
      exact (split refused (by simp [Fault.IsForeign, Fault.kind])).elim
    | readable listed =>
      rcases pairs_or_first listed with ⟨entries, same⟩ | ⟨before, key, v, after, rfl, pairs, first⟩
      · have isSource : source.IsSource entries := ⟨listed, mapping, same⟩
        cases read : Pack.ofValue (SourceEntry.schema entries) with
        | error cause =>
          rw [buildDefaultsBy_of_malformed isSource read] at failed
          cases failed
          cases cause <;> simp [Fault.kind] at kind
        | ok p =>
          obtain ⟨u, e, rows, refused, examined, laid, rfl⟩ :=
            nonconforming_of_isSource isSource read failed kind
          exact ⟨entries, p, u, e, rows, isSource, read, refused, examined, laid, rfl⟩
      · exact (split (splitSource_of_not_pair mapping pairs first _)
          (by simp [Fault.IsForeign, Fault.kind])).elim

end Session

/-! ### What the fault names -/

/-- Where acceptance and an examination start from one state, and acceptance refuses, the
examination has something to report, unless an empty pack is applied to what is no mapping. -/
theorem Pack.reported_of_refused {check : α → Value → Run σ Bool} {p : Pack Value α} {v : Value}
    {s t u : σ} {e : Explanation} (refused : p.accepts check true v s = (.ok false, t))
    (examined : p.examine check v s = (.ok e, u)) :
    e.reported ≠ [] ∨
      ∃ path q w, p.Reaches v path q w ∧ w.isMapping = false ∧ q.rules = [] := by
  obtain ⟨b, t', ran, answer, -⟩ := decided_of_examine true p v s u e examined
  cases refused.symm.trans ran
  cases free : e.isFree true with
  | false => exact .inl (reported_ne_nil_of_examine examined free)
  | true =>
    have meets : ¬ p.MeetsMappings v := fun meets => by
      simpa using answer.mpr ⟨free, fun _ => meets⟩
    obtain ⟨path, q, w, reached, mapping⟩ := exists_reaches_of_not_meetsMappings meets
    refine .inr ⟨path, q, w, reached, mapping, ?_⟩
    exact rules_eq_nil_of_reaches reached examined (Explanation.isFree_iff.mp free).1
      (Value.mapping?_eq_none mapping)

namespace Session

/-- Where acceptance took nothing from a stream, an examination after it finds what one before it
would have found. -/
theorem examine_first_of_accepts {p : Pack Value Value} {v : Value} {s t u : Session} {b : Bool}
    {e : Explanation} (free : v.holdsStream = false)
    (accepted : p.accepts Value.verdict true v s = (.ok b, t))
    (examined : p.examine Value.verdict v t = (.ok e, u)) :
    ∃ w, p.examine Value.verdict v s = (.ok e, w) := by
  have kept := (p.steady_accepts true v).keeps s
  rw [accepted] at kept
  have answer := ((p.steady_examine v).alike s t
    ⟨fun id => (kept.taken free id).symm, kept.settings.symm⟩).1
  rw [examined] at answer
  exact ⟨(p.examine Value.verdict v s).2, Prod.ext answer rfl⟩

/-- A self-check that fails has examined the defaults, and names what that has found. If an
examination that starts where acceptance started finds the same, which it does under the checks
there are if no default holds a stream, the fault names at least one path, unless an empty pack is
applied to a default that is no mapping. Nothing that is reported may be a list that stands for
findings. -/
theorem problems_of_buildDefaultsBy (call : Value → Value → Run Session Value) (name : String)
    (source : Value) (s t : Session) (fault : Fault)
    (failed : buildDefaultsBy (verdictBy call) (.text name) source s = (.error fault, t))
    (kind : fault.kind = "ConfigurationError") :
    ∃ entries p u e rows, source.IsSource entries ∧
      Pack.ofValue (SourceEntry.schema entries) = .ok p ∧
      p.accepts (verdictBy call) true (SourceEntry.defaults entries) s = (.ok false, u) ∧
      p.examine (verdictBy call) (SourceEntry.defaults entries) u = (.ok e, t) ∧
      Value.rows (.text name) e.toValue = .ok rows ∧
      fault = .defaultsNonconforming (.text name) rows ∧
      ((∀ v ∈ e.reported, v.isBranch = false) →
        (p.examine (verdictBy call) (SourceEntry.defaults entries) s).1 = .ok e ∨
          call = Value.apply ∧ (SourceEntry.defaults entries).holdsStream = false →
        rows ≠ [] ∨ ∃ path q w, p.Reaches (SourceEntry.defaults entries) path q w ∧
          w.isMapping = false ∧ q.rules = []) := by
  obtain ⟨entries, p, u, e, rows, isSource, read, refused, examined, laid, equal⟩ :=
    nonconforming_of_buildDefaultsBy failed kind
  refine ⟨entries, p, u, e, rows, isSource, read, refused, examined, laid, equal,
    fun plain alike => ?_⟩
  have first : ∃ w, p.examine (verdictBy call) (SourceEntry.defaults entries) s = (.ok e, w) := by
    rcases alike with same | ⟨rfl, free⟩
    · exact ⟨_, Prod.ext same rfl⟩
    · exact examine_first_of_accepts free refused examined
  obtain ⟨w, first⟩ := first
  refine (Pack.reported_of_refused refused first).imp_left fun reported silent => reported ?_
  rw [Value.rows_toValue e name plain] at laid
  cases laid
  rw [← Explanation.rows_map_value name, silent, List.map_nil]

/-- A default that breaks its rule, below an entry that keeps its own. -/
theorem problems_of_buildDefaultsBy_nested :
    let number : Value := .callable 2 (.check .number)
    let source : Value := .dict 3 [(.text "a", .list 4 [number, .int 1]),
      (.text "b", .tuple [.dict 5 [(.text "c", number)], .dict 6 [(.text "c", .text "one")]])]
    let row : Row := ⟨"pets.b.c", .invalid, .text "one"⟩
    ∃ t, buildDefaultsBy (verdictBy Value.apply) (.text "pets") source .initial =
        (.error (.defaultsNonconforming (.text "pets") [row]), t) ∧
      (Fault.defaultsNonconforming (.text "pets") [row]).kind = "ConfigurationError" ∧
      ∃ (entries : List SourceEntry) (p : Pack Value Value) (e : Explanation),
        source.IsSource entries ∧ Pack.ofValue (SourceEntry.schema entries) = .ok p ∧
        Value.rows (.text "pets") e.toValue = .ok [row] := by
  intro number source row
  have failed : ∃ t, buildDefaultsBy (verdictBy Value.apply) (.text "pets") source .initial =
      (.error (.defaultsNonconforming (.text "pets") [row]), t) := ⟨_, rfl⟩
  obtain ⟨t, failed⟩ := failed
  obtain ⟨entries, p, u, e, rows, isSource, read, -, -, laid, equal, -⟩ :=
    problems_of_buildDefaultsBy Value.apply "pets" source .initial t _ failed rfl
  cases equal
  exact ⟨t, failed, rfl, entries, p, e, isSource, read, laid⟩

/-- An empty pack with a number as its default, a stream that acceptance has used up, and an empty
list that stands for findings: all three are refused, and nothing is named. -/
theorem problems_empty :
    let number : Value := .callable 2 (.check .number)
    let none : Value := .callable 3 (.allCount (.int 0) number)
    let nothing (source : Value) : Prop :=
      (buildDefaults (.text "defaults") source .initial).1 =
        .error (.defaultsNonconforming (.text "defaults") [])
    nothing (.dict 4 [(.text "toy", .list 5 [.dict 6 [], .int 5])]) ∧
      nothing (.dict 4 [(.text "a", .list 5 [none, .stream 6 [.int 1]])]) ∧
      nothing (.dict 4 [(.text "a", .list 5 [number, .branch 6 []])]) ∧
      (Fault.defaultsNonconforming (.text "defaults") []).message =
        "defaults: defaults do not conform to their own schema ()" :=
  ⟨rfl, rfl, rfl, rfl⟩

end Session

end Conformance
