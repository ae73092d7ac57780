import Conformance.Proofs.Streams
import Conformance.Validation

/-!
# Asking again

Who counts the items of a stream has used it up: asked again, a check of the items finds none left.
This is all that can change an answer. Checks put together from those of the library, and the two
walks over a pack that ask them, are steady: how far the streams have been read decides what they
answer. An examination or an acceptance that took nothing from a stream says the same when it is
asked again, and in a value that holds no stream there is nothing to be taken.

## Main results

* `Value.steady_verdict` — what a check says about a value
* `Pack.steady_examine`, `Pack.steady_accepts` — the walks
* `Session.examine_again` — the same answer again
-/

namespace Conformance

variable {β : Type}

/-! ### Checks -/

variable {still : Prop}

theorem Run.truth_bind (x : Run Session β) (f : β → Run Session Value) :
    (x >>= f).truth = x >>= fun b => (f b).truth :=
  bind_assoc ..

/-- A new table is no condition, whatever its number. -/
theorem Session.steady_freshFrame (columns : List Value) (rows : Nat) (cell : Cell) :
    Run.Steady still
      (do return Value.frame (← fresh) columns rows cell : Run Session Value).truth :=
  steady_fresh (.raise (.ambiguousTruth (Value.frame 0 columns rows cell).typeName))

theorem Value.steady_countEquals (count : Option Nat) (n : Value) :
    Run.Steady still (Value.countEquals count n).truth := by
  cases n with
  | frame id columns rows cell => exact Session.steady_freshFrame columns rows _
  | _ => exact ((Run.Steady.lift _).bind fun _ => .pure _).truth

theorem Value.steady_isPicked (v : Value) : Run.Steady still v.isPicked.truth := by
  unfold isPicked
  split
  · exact Run.Steady.truth (.pure _)
  · split
    · exact Session.steady_freshFrame _ _ _
    · exact Run.Steady.truth (.raise _)
    · exact Run.Steady.truth (.raise _)

theorem Primitive.steady_apply (p : Primitive) (v : Value) :
    Run.Steady still (p.apply v).truth := by
  cases p with
  | boom => exact Run.Steady.truth (.raise _)
  | picky => exact v.steady_isPicked
  | identity => exact Run.Steady.truth (.pure v)
  | length =>
    rw [apply]
    split
    · exact Run.Steady.truth (.lift _)
    · exact Run.Steady.truth (.raise _)
  | callable => exact Run.Steady.truth (.pure _)

namespace Session

theorem steady_countIs (n collection : Value) : Run.Steady still (countIs n collection).truth := by
  rw [countIs, Run.truth_bind]
  exact .bind (.lift _) fun count => Value.steady_countEquals count n

theorem steady_orRefuse {x : Run Session Bool} (h : Run.Steady still x) :
    Run.Steady still (orRefuse x) :=
  h.recover fun _ => .pure false

theorem steady_verdict {check : Value} {call : Value → Run Session Value} {observed : Value}
    (h : Run.Steady still (call observed).truth) : Run.Steady still (verdict check call observed) :=
  h.recover fun _ => (steady_log _).bind fun _ => .pure false

theorem steady_itemsAndCount (collection : Value) :
    Run.Steady (collection.holdsStream = false) (itemsAndCount collection) := by
  unfold itemsAndCount
  cases collection.length? with
  | some count => exact .bind (.lift count) fun _ => .pure _
  | none => exact (Value.steady_collect collection).bind fun _ => .pure _

/-- The items that come with their number are those of the collection. They are yet to be read, or
they have been. -/
theorem steady_items {collection : Value} {s t : Session} {count : Nat} {items : Run Session Items}
    (ran : itemsAndCount collection s = (.ok (count, items), t)) :
    Run.Steady (collection.holdsStream = false) items ∧
      ∀ s read t, items s = (.ok read, t) → collection.holdsStream = false →
        ∀ w ∈ read.toList, w.holdsStream = false := by
  unfold itemsAndCount at ran
  cases known : collection.length? with
  | some count =>
    rw [known] at ran
    obtain ⟨counted, u, -, ended⟩ := Run.bind_eq_ok_iff.mp ran
    cases ended
    exact ⟨Value.steady_iterate collection, fun s read t yielded free =>
      Value.holdsStream_of_iterate yielded free⟩
  | none =>
    rw [known] at ran
    obtain ⟨listed, u, collected, ended⟩ := Run.bind_eq_ok_iff.mp ran
    cases ended
    refine ⟨.pure _, fun s read t yielded free => ?_⟩
    cases yielded
    exact Value.holdsStream_of_collect collected free

/-- A check of the items of a collection reads the collection and asks about its items. -/
theorem steady_eachOf (n : Value) {call : Value → Run Session Value} (collection : Value)
    (h : ∀ w, Run.Steady (w.holdsStream = false) (call w).truth) :
    Run.Steady (collection.holdsStream = false) (eachOf n call collection).truth := by
  unfold eachOf
  split
  · exact Value.steady_countEquals (some 0) n
  · split
    · rw [Run.truth_bind]
      refine .bind (steady_orRefuse ?_) fun answer => Run.Steady.truth (.pure _)
      -- A collection that knows its number is read only after that has been compared.
      refine .bind_of_answer (steady_itemsAndCount _) fun s found t ran => ?_
      obtain ⟨reading, free⟩ := steady_items ran
      refine .bind (.lift _) fun agreed => ?_
      cases agreed with
      | false => exact .pure false
      | true =>
        refine .bind_of_answer reading fun s items t ran => .insideIteration ?_
        exact Items.steady_each fun w member =>
          (h w).mono fun still => free s items t ran still w member
    · exact Run.Steady.truth (.pure _)

theorem steady_eachEntry {onKey onValue : Value → Run Session Value}
    {entries : List (Value × Value)}
    (h : ∀ entry ∈ entries, Run.Steady still (onKey entry.1).truth ∧
      Run.Steady still (onValue entry.2).truth) :
    Run.Steady still (eachEntry onKey onValue entries) := by
  induction entries with
  | nil => exact .pure true
  | cons entry rest ih =>
    obtain ⟨onKey, onValue⟩ := h entry List.mem_cons_self
    have others := ih fun entry member => h entry (List.mem_cons_of_mem _ member)
    refine onKey.bind fun held => ?_
    cases held with
    | false => exact .pure false
    | true =>
      refine onValue.bind fun held => ?_
      cases held with
      | false => exact .pure false
      | true => exact others

/-- A check of the entries of a mapping asks about its keys and its values. -/
theorem steady_entriesHold {onKey onValue : Value → Run Session Value} (m : Value)
    (key : ∀ w, Run.Steady (w.holdsStream = false) (onKey w).truth)
    (value : ∀ w, Run.Steady (w.holdsStream = false) (onValue w).truth) :
    Run.Steady (m.holdsStream = false) (entriesHold onKey onValue m).truth := by
  rw [entriesHold]
  cases mapping : m.mapping? with
  | none => exact Run.Steady.truth (.pure _)
  | some read =>
    refine Run.Steady.truth (.bind (steady_orRefuse ?_) fun answer => .pure _)
    refine Run.Steady.bind_of_answer (.lift _) fun s entries t ran => .insideIteration ?_
    obtain ⟨listed, -⟩ := Run.lift_eq_ok_iff.mp ran
    refine steady_eachEntry fun entry member => ?_
    have free (h : m.holdsStream = false) :=
      Mapping.holdsStream_of_items (Value.holdsStream_of_mapping? mapping h) listed entry member
    exact ⟨(key entry.1).mono fun h => (free h).1, (value entry.2).mono fun h => (free h).2⟩

/-- A guard examines a value and then raises, or passes it on. -/
theorem steady_passing {α : Type} {check : α → Value → Run Session Bool}
    {schema : Except Malformed (Pack Value α)} (exact enabled : Bool) (v : Value)
    (examined : ∀ p, schema = .ok p → Run.Steady still (p.examine check v)) :
    Run.Steady still (passing check schema exact enabled v) := by
  unfold passing
  split
  · cases schema with
    | error cause => exact .raise _
    | ok p =>
      refine (examined p rfl).bind fun e => ?_
      split
      · exact .pure v
      · exact .bind (.lift _) fun rows => .raise _
  · exact (steady_log _).bind fun _ => .pure v

/-- A guard that does so only where the settings in force say it. -/
theorem steady_guarded {α : Type} {check : α → Value → Run Session Bool}
    {schema : Except Malformed (Pack Value α)} (exact : Bool) (v : Value)
    (examined : ∀ p, schema = .ok p → Run.Steady still (p.examine check v)) :
    Run.Steady still (do passing check schema exact (← get).settings.enabled v) :=
  steady_get (fun s t related => by rw [related.settings]) fun s =>
    steady_passing exact s.settings.enabled v examined

end Session

/-! ### Calls and walks -/

-- A callable can hold values that are called, and a guard holds a pack of them; so a call and the
-- examination that a guard makes are treated in one recursion on what is called.
mutual

/-- A call takes only from streams that its argument holds. -/
theorem Value.steady_apply (f x : Value) :
    Run.Steady (x.holdsStream = false) (f.apply x).truth := by
  cases f with
  | callable id f => rw [Value.apply]; exact Callable.steady_apply f x
  | _ => exact Run.Steady.truth (.raise _)

theorem Callable.steady_apply (f : Callable) (x : Value) :
    Run.Steady (x.holdsStream = false) (f.apply x).truth := by
  cases f with
  | check c | ofKind k | oneOf options | const v | returning => exact Run.Steady.truth (.pure _)
  | raising signal => exact Run.Steady.truth (.raise _)
  | optional p =>
    unfold Callable.apply
    split
    · exact Run.Steady.truth (.pure _)
    · exact Run.Steady.truth (.map Value.bool (Value.steady_apply p x))
  | both ps =>
    have holding := (Value.steady_allHold ps x).insideIteration
    exact Run.Steady.truth (.map Value.bool holding)
  | either ps =>
    have holding := (Value.steady_anyHolds ps x).insideIteration
    exact Run.Steady.truth (.map Value.bool holding)
  | collective c =>
    cases c with
    | sameSize => exact Run.Steady.truth (.lift _)
    | _ => exact Run.Steady.truth (.raise _)
  | hasCount n => exact Session.steady_countIs n x
  | allCount n p => exact Session.steady_eachOf n x (Value.steady_apply p)
  | sameSize others => exact Run.Steady.truth (.lift _)
  | mapStructure onKey onValue =>
    exact Session.steady_entriesHold x (Value.steady_apply onKey) (Value.steady_apply onValue)
  | primitive p => exact p.steady_apply x
  | spy tag p =>
    rw [Callable.apply, Run.truth_bind]
    exact (Session.steady_note tag x).bind fun _ => Value.steady_apply p x
  | guarded schema exact =>
    cases schema with
    | error cause =>
      rw [Callable.apply]
      exact Run.Steady.truth (Session.steady_guarded exact x fun p equal => by cases equal)
    | ok p =>
      rw [Callable.apply]
      refine Run.Steady.truth (Session.steady_guarded exact x fun q equal => ?_)
      cases equal
      -- A guard holds its checks as functions; they are those of the pack that it was made of.
      rw [Pack.checks_eq_map, Pack.examine_map]
      exact Pack.steady_examine p x

theorem Value.steady_allHold (ps : List Value) (x : Value) :
    Run.Steady (x.holdsStream = false) (Value.allHold ps x) := by
  match ps with
  | [] => exact .pure true
  | p :: ps =>
    refine (Value.steady_apply p x).bind fun held => ?_
    cases held with
    | true => exact Value.steady_allHold ps x
    | false => exact .pure false

theorem Value.steady_anyHolds (ps : List Value) (x : Value) :
    Run.Steady (x.holdsStream = false) (Value.anyHolds ps x) := by
  match ps with
  | [] => exact .pure false
  | p :: ps =>
    refine (Value.steady_apply p x).bind fun held => ?_
    cases held with
    | true => exact .pure true
    | false => exact Value.steady_anyHolds ps x

/-- An examination takes only from streams in the value. -/
theorem Pack.steady_examine (p : Pack Value Value) (v : Value) :
    Run.Steady (v.holdsStream = false) (p.examine Value.verdict v) := by
  cases p with
  | mk id rules =>
    rw [Pack.examine]
    cases mapping : v.mapping? with
    | none => exact .pure _
    | some m =>
      have below := (Pack.steady_examineRules rules m).mono (Value.holdsStream_of_mapping? mapping)
      exact below.bind fun found => .bind (.lift _) fun entries => .pure _

theorem Pack.steady_examineRules (rules : List (Value × Rule Value Value)) (m : Mapping) :
    Run.Steady (m.holdsStream = false) (Pack.examineRules Value.verdict rules m) := by
  match rules with
  | [] => exact .pure Explanation.empty
  | (key, r) :: rest =>
    refine Run.Steady.bind_of_answer (.lift _) fun s observed t ran => ?_
    obtain ⟨lookup, -⟩ := Run.lift_eq_ok_iff.mp ran
    have here := (Rule.steady_examine key r observed).mono (Mapping.holdsStream_of_get · lookup)
    exact here.bind fun e => (Pack.steady_examineRules rest m).bind fun others => .pure _

theorem Rule.steady_examine (key : Value) (r : Rule Value Value) (x : Value) :
    Run.Steady (x.holdsStream = false) (r.examine Value.verdict key x) := by
  cases r with
  | leaf n check =>
    refine (Session.steady_verdict (Value.steady_apply check x)).bind fun holds => ?_
    cases holds with
    | true => exact .pure _
    | false => exact .pure _
  | nested n p =>
    rw [Rule.examine]
    exact (Pack.steady_examine p x).bind fun found => .pure _

end

/-- What a check says about a value depends on the streams and the settings, and only what it takes
from a stream in the value is gone afterwards. -/
theorem Value.steady_verdict (check observed : Value) :
    Run.Steady (observed.holdsStream = false) (check.verdict observed) :=
  Session.steady_verdict (Value.steady_apply check observed)

/-- Rules that each take only from streams in the value at their key do so together. -/
theorem Pack.steady_acceptRules {exact : Bool} {rules : List (Value × Rule Value Value)}
    (h : ∀ entry ∈ rules, ∀ x,
      Run.Steady (x.holdsStream = false) (entry.2.accepts Value.verdict exact x)) (m : Mapping) :
    Run.Steady (m.holdsStream = false) (acceptRules Value.verdict exact rules m) := by
  induction rules with
  | nil => exact .pure true
  | cons entry rest ih =>
    obtain ⟨key, r⟩ := entry
    have others := ih fun entry member => h entry (List.mem_cons_of_mem _ member)
    refine Run.Steady.bind_of_answer (.lift _) fun s observed t ran => ?_
    obtain ⟨lookup, -⟩ := Run.lift_eq_ok_iff.mp ran
    have here := (h _ List.mem_cons_self observed).mono (Mapping.holdsStream_of_get · lookup)
    refine here.bind fun accepted => ?_
    cases accepted with
    | true => exact others
    | false => exact .pure false

/-- An acceptance takes only from streams in the value. -/
theorem Pack.steady_accepts (exact : Bool) (p : Pack Value Value) (v : Value) :
    Run.Steady (v.holdsStream = false) (p.accepts Value.verdict exact v) := by
  induction p using Pack.induction generalizing v with
  | step id rules ih =>
    rw [accepts]
    cases mapping : v.mapping? with
    | none => exact .pure _
    | some m =>
      refine .bind (.lift _) fun extra => ?_
      cases extra with
      | true => exact .pure false
      | false =>
        refine (Pack.steady_acceptRules (fun entry member x => ?_) m).mono
          (Value.holdsStream_of_mapping? mapping)
        obtain ⟨key, r⟩ := entry
        cases r with
        | leaf n check => exact check.steady_verdict x
        | nested n p => exact ih key n p member x

namespace Session

theorem steady_packOf (schema : Value) : Run.Steady still (packOf schema) := by
  unfold packOf
  split
  · exact .pure _
  · exact .raise _

theorem steady_examine (schema v : Value) :
    Run.Steady (v.holdsStream = false) (examine schema v) :=
  (steady_packOf schema).bind fun p => p.steady_examine v

theorem steady_accepts (schema v exact : Value) :
    Run.Steady (v.holdsStream = false) (accepts schema v exact) :=
  .bind (.lift _) fun exact => (steady_packOf schema).bind fun p => p.steady_accepts exact v

/-- Examining a value, or asking whether it is accepted, has the same answer when it is done again
on what the first time has left, if that took nothing from any stream. It takes from none if the
value holds none. -/
theorem examine_again (schema v : Value) (s : Session) :
    (∀ e t, examine schema v s = (.ok e, t) → (∀ id, t.takenFrom id = s.takenFrom id) →
      ∃ u, examine schema v t = (.ok e, u)) ∧
    (∀ exact b t, accepts schema v (.bool exact) s = (.ok b, t) →
      (∀ id, t.takenFrom id = s.takenFrom id) →
      ∃ u, accepts schema v (.bool exact) t = (.ok b, u)) ∧
    (v.holdsStream = false → ∀ id,
      (examine schema v s).2.takenFrom id = s.takenFrom id ∧
      ∀ exact, (accepts schema v (.bool exact) s).2.takenFrom id = s.takenFrom id) := by
  refine ⟨fun e t examined kept => ?_, fun exact b t accepted kept => ?_, fun free id => ⟨?_, ?_⟩⟩
  · exact (steady_examine schema v).again examined kept
  · exact (steady_accepts schema v (.bool exact)).again accepted kept
  · exact ((steady_examine schema v).keeps s).taken free id
  · exact fun exact => ((steady_accepts schema v (.bool exact)).keeps s).taken free id

/-- An object that refuses to be counted, and a list of which one item is no number: the first
answer leaves an entry in the log, and the second is the same. -/
theorem examine_again_refusing :
    let schema : Value := .dict 2 [
      (.text "a", .callable 3 (.hasCount (.int 2))),
      (.text "b", .callable 4 (.allCount (.int 2) (.callable 5 (.check .number))))]
    let v : Value := .dict 6 [
      (.text "a", .probe 7 .length), (.text "b", .list 8 [.int 1, .text "x"])]
    let e : Explanation := ⟨[
      .value (.text "a") (.probe 7 .length),
      .value (.text "b") (.list 8 [.int 1, .text "x"])], []⟩
    v.holdsStream = false ∧
      (∃ t u, examine schema v .initial = (.ok e, t) ∧ t.records.length = 1 ∧
        examine schema v t = (.ok e, u)) ∧
      ∃ t u, accepts schema v (.bool true) .initial = (.ok false, t) ∧ t.records.length = 1 ∧
        accepts schema v (.bool true) t = (.ok false, u) := by
  intro schema v e
  have free : v.holdsStream = false := rfl
  obtain ⟨examineAgain, acceptAgain, kept⟩ := examine_again schema v .initial
  have examined : examine schema v .initial = (.ok e, (examine schema v .initial).2) := rfl
  have accepted : accepts schema v (.bool true) .initial =
      (.ok false, (accepts schema v (.bool true) .initial).2) := rfl
  obtain ⟨u, again⟩ := examineAgain e _ examined fun id => (kept free id).1
  obtain ⟨u', again'⟩ := acceptAgain true false _ accepted fun id => (kept free id).2 true
  exact ⟨free, ⟨_, u, examined, rfl, again⟩, _, u', accepted, rfl, again'⟩

/-- A stream of two numbers, asked for two numbers twice: the first time uses it up, and the second
time it has none. -/
theorem examine_again_stream :
    let schema : Value :=
      .dict 2 [(.text "a", .callable 3 (.allCount (.int 2) (.callable 4 (.check .number))))]
    let v : Value := .dict 5 [(.text "a", .stream 6 [.int 1, .int 2])]
    ∃ t u, examine schema v .initial = (.ok ⟨[], []⟩, t) ∧
      examine schema v t = (.ok ⟨[.value (.text "a") (.stream 6 [.int 1, .int 2])], []⟩, u) ∧
      accepts schema v (.bool true) .initial = (.ok true, t) ∧
      ∃ r, accepts schema v (.bool true) t = (.ok false, r) :=
  ⟨_, _, rfl, rfl, rfl, _, rfl⟩

end Session

end Conformance
