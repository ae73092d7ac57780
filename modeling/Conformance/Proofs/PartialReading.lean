import Conformance.Proofs.Calls

/-!
# Schemas that are read in part

Parts of a schema can be read before the schema is: any mapping in it may be replaced by the pack or
the rule that it stands for, and any callable by its rule, at any depth and in any mixture. What is
a pack or a rule already is taken over by the reading of what it stands in. So the pack of such a
schema has the same keys in the same order, the same packs below them and the same checks. Only the
numbers of packs and rules differ, and no walk looks at these.

## Main definitions

* `Pack.unnumbered`, `Rule.unnumbered` — packs and rules without the numbers of the objects in them
* `Value.PartlyRead` — a value, and the same value with some of its parts read already

## Main results

* `Pack.unnumbered_number` — to number new objects changes nothing else
* `Pack.accepts_unnumbered`, `Pack.examine_unnumbered` — walks do not look at numbers
* `Rule.ofValue_of_partlyRead` — what is read in part stands for the same rule
* `Session.walks_of_partlyRead` — a schema that is read in part can be read, and decides the same
-/

namespace Conformance

variable {κ σ α : Type}

/-! ### Packs without numbers -/

mutual

/-- The same rule without the numbers of the objects in it. -/
def Rule.unnumbered : Rule κ α → Rule κ α
  | .leaf _ c => .leaf 0 c
  | .nested _ p => .nested 0 p.unnumbered
termination_by structural a => a

/-- The same pack without the numbers of the objects in it. -/
def Pack.unnumbered : Pack κ α → Pack κ α
  | .mk _ rules => .mk 0 (Pack.unnumberedRules rules)
termination_by structural a => a

/-- The same rules without the numbers of the objects in them. -/
def Pack.unnumberedRules : List (κ × Rule κ α) → List (κ × Rule κ α)
  | [] => []
  | (key, r) :: rest => (key, r.unnumbered) :: Pack.unnumberedRules rest
termination_by structural a => a

end

mutual

/-- Numbers that are given to new objects are all that changes. -/
theorem Rule.unnumbered_number (r : Rule κ α) (next : Nat) :
    (r.number.run next).1.unnumbered = r.unnumbered := by
  cases r with
  | leaf id c => rfl
  | nested id p => exact congrArg (Rule.nested 0) (Pack.unnumbered_number p _)

theorem Pack.unnumbered_number (p : Pack κ α) (next : Nat) :
    (p.number.run next).1.unnumbered = p.unnumbered := by
  cases p with
  | mk id rules => exact congrArg (Pack.mk 0) (Pack.unnumbered_numberRules rules _)

theorem Pack.unnumbered_numberRules (rules : List (κ × Rule κ α)) (next : Nat) :
    Pack.unnumberedRules ((Pack.numberRules rules).run next).1 = Pack.unnumberedRules rules := by
  match rules with
  | [] => rfl
  | (key, r) :: rest =>
    have here := Rule.unnumbered_number r next
    have others := Pack.unnumbered_numberRules rest (r.number.run next).2
    rw [Pack.unnumberedRules, ← here, ← others]
    rfl

end

/-! ### Walks over packs without numbers -/

/-- Rules keep their keys, in their order. -/
theorem Pack.map_unnumberedRules {β : Type} (f : κ → β) (rules : List (κ × Rule κ α)) :
    (unnumberedRules rules).map (fun entry => f entry.1) = rules.map fun entry => f entry.1 := by
  induction rules with
  | nil => rfl
  | cons entry rest ih => exact congrArg (f entry.1 :: ·) ih

theorem Pack.hasRule_unnumberedRules (rules : List (Value × Rule Value α)) (key : Value) :
    hasRule (unnumberedRules rules) key = hasRule rules key := by
  induction rules with
  | nil => rfl
  | cons entry rest ih => exact congrArg (key.same entry.1 || ·) ih

variable (check : α → Value → Run σ Bool)

mutual

/-- Acceptance does not look at numbers. -/
theorem Pack.accepts_unnumbered (exact : Bool) (p : Pack Value α) (v : Value) :
    p.unnumbered.accepts check exact v = p.accepts check exact v := by
  cases p with
  | mk id rules =>
    have empty : (Pack.unnumberedRules rules).isEmpty = rules.isEmpty := by
      cases rules <;> rfl
    have extra (m : Mapping) :
        Pack.hasExtra (Pack.unnumberedRules rules) m = Pack.hasExtra rules m := by
      simp only [Pack.hasExtra, Pack.hasRule_unnumberedRules]
    rw [Pack.unnumbered, Pack.accepts, Pack.accepts]
    simp only [empty, extra, Pack.acceptRules_unnumberedRules]

theorem Pack.acceptRules_unnumberedRules (exact : Bool) (rules : List (Value × Rule Value α))
    (m : Mapping) :
    Pack.acceptRules check exact (Pack.unnumberedRules rules) m =
      Pack.acceptRules check exact rules m := by
  match rules with
  | [] => rfl
  | (key, r) :: rest =>
    simp only [Pack.unnumberedRules, Pack.acceptRules, Rule.accepts_unnumbered,
      Pack.acceptRules_unnumberedRules]

theorem Rule.accepts_unnumbered (exact : Bool) (r : Rule Value α) (x : Value) :
    r.unnumbered.accepts check exact x = r.accepts check exact x := by
  cases r with
  | leaf id c => rfl
  | nested id p => exact Pack.accepts_unnumbered exact p x

end

mutual

/-- Examination does not look at numbers. -/
theorem Pack.examine_unnumbered (p : Pack Value α) (v : Value) :
    p.unnumbered.examine check v = p.examine check v := by
  cases p with
  | mk id rules =>
    rw [Pack.unnumbered, Pack.examine, Pack.examine]
    cases v.mapping? with
    | none => simp only [Pack.map_unnumberedRules fun key => Finding.value key .null]
    | some m =>
      simp only [Pack.examineRules_unnumberedRules, Pack.extras, Pack.hasRule_unnumberedRules]

theorem Pack.examineRules_unnumberedRules (rules : List (Value × Rule Value α)) (m : Mapping) :
    Pack.examineRules check (Pack.unnumberedRules rules) m =
      Pack.examineRules check rules m := by
  match rules with
  | [] => rfl
  | (key, r) :: rest =>
    simp only [Pack.unnumberedRules, Pack.examineRules, Rule.examine_unnumbered,
      Pack.examineRules_unnumberedRules]

theorem Rule.examine_unnumbered (key : Value) (r : Rule Value α) (x : Value) :
    r.unnumbered.examine check key x = r.examine check key x := by
  cases r with
  | leaf id c => rfl
  | nested id p => simp only [Rule.unnumbered, Rule.examine, Pack.examine_unnumbered]

end

/-- Packs that differ in numbers alone accept alike. -/
theorem Pack.accepts_eq_of_unnumbered {p q : Pack Value α} (h : p.unnumbered = q.unnumbered)
    (exact : Bool) (v : Value) : p.accepts check exact v = q.accepts check exact v := by
  rw [← accepts_unnumbered, h, accepts_unnumbered]

/-- Packs that differ in numbers alone examine alike. -/
theorem Pack.examine_eq_of_unnumbered {p q : Pack Value α} (h : p.unnumbered = q.unnumbered)
    (v : Value) : p.examine check v = q.examine check v := by
  rw [← examine_unnumbered, h, examine_unnumbered]

/-! ### Packs and rules as objects -/

namespace Session

variable {schema raw : Value} {s t : Session}

theorem newPack_of_ofValue {p : Pack Value Value} (read : Pack.ofValue schema = .ok p)
    (s : Session) :
    newPack schema s =
      (.ok (p.number.run s.nextId).1, { s with nextId := (p.number.run s.nextId).2 }) := by
  rw [newPack, packOf, read]
  rfl

theorem newPack_of_malformed {cause : Malformed} (read : Pack.ofValue schema = .error cause)
    (s : Session) : newPack schema s = (.error (.malformed cause), s) := by
  rw [newPack, packOf, read]
  rfl

/-- The pack of a schema, as an object, is what the schema is read as, up to numbers. -/
theorem exists_ofValue_of_newPack {p : Pack Value Value} (h : newPack schema s = (.ok p, t)) :
    ∃ q, Pack.ofValue schema = .ok q ∧ p.unnumbered = q.unnumbered := by
  cases read : Pack.ofValue schema with
  | error cause =>
    rw [newPack_of_malformed read] at h
    cases h
  | ok q =>
    rw [newPack_of_ofValue read] at h
    cases h
    exact ⟨q, rfl, Pack.unnumbered_number q _⟩

/-- The rule of a value, as an object, is what the value is read as, up to numbers. -/
theorem exists_ofValue_of_newRule {r : Rule Value Value} (h : newRule raw s = (.ok r, t)) :
    ∃ r', Rule.ofValue raw = .ok r' ∧ r.unnumbered = r'.unnumbered := by
  cases read : Rule.ofValue raw with
  | error cause =>
    rw [newRule, read] at h
    cases h
  | ok r' =>
    rw [newRule, read] at h
    cases h
    exact ⟨r', rfl, Rule.unnumbered_number r' _⟩

end Session

/-! ### Reading what is read in part -/

/-- `v.PartlyRead w`: `w` is `v` with parts of it read already. Below a mapping the values at its
keys may be read in part. What is then a mapping may be replaced by its pack, and what is then a
mapping or a callable by its rule. -/
inductive Value.PartlyRead : Value → Value → Prop
  | same (v : Value) : PartlyRead v v
  | entries {v w : Value} {entries entries' : List (Value × Value)}
      (found : v.mapping? = some (.readable entries))
      (found' : w.mapping? = some (.readable entries'))
      (keys : entries'.map (·.1) = entries.map (·.1))
      (values : ∀ pair ∈ entries.zip entries', PartlyRead pair.1.2 pair.2.2) : PartlyRead v w
  | packed {v w : Value} {p : Pack Value Value} {s t : Session} (inside : PartlyRead v w)
      (read : Session.newPack w s = (.ok p, t)) : PartlyRead v (.pack p)
  | ruled {v w : Value} {r : Rule Value Value} {s t : Session} (inside : PartlyRead v w)
      (read : Session.newRule w s = (.ok r, t)) : PartlyRead v (.rule r)

/-- Two readings that come to the same in part are both faulty, or both have results with the same
part. -/
theorem cases_of_map_eq {ε β γ : Type} {part : β → γ} {x y : Except ε β}
    (h : x.map part = y.map part) :
    (∃ cause, x = .error cause ∧ y = .error cause) ∨
      ∃ b c, x = .ok b ∧ y = .ok c ∧ part b = part c := by
  cases x with
  | error cause =>
    cases y with
    | error cause' => exact .inl ⟨cause, rfl, congrArg Except.error (Except.error.inj h).symm⟩
    | ok c => cases h
  | ok b =>
    cases y with
    | error cause => cases h
    | ok c => exact .inr ⟨b, c, rfl, rfl, Except.ok.inj h⟩

/-- Only a mapping is read as a pack. -/
theorem Pack.isMapping_of_ofValue {v : Value} {p : Pack Value Value} (read : ofValue v = .ok p) :
    v.isMapping = true := by
  cases v with
  | dict | view | pack => rfl
  | probe id operation => cases operation <;> cases read
  | _ => cases read

namespace Rule

theorem ofEntries_rules (rules : List (Value × Rule Value Value)) :
    ofEntries (rules.map fun entry => (entry.1, .rule entry.2)) = .ok rules := by
  induction rules with
  | nil => rfl
  | cons entry rest ih =>
    rw [List.map_cons, ofEntries, ih]
    rfl

/-- A mapping is read by its entries, whichever kind of mapping it is. -/
theorem ofValue_of_mapping? {v : Value} {entries : List (Value × Value)}
    (found : v.mapping? = some (.readable entries)) :
    (ofValue v).map unnumbered =
      ((ofEntries entries).map Pack.unnumberedRules).map fun rules => .nested 0 (.mk 0 rules) := by
  cases v with
  | dict id listed | view listed =>
    cases found
    rw [ofValue]
    cases ofEntries entries <;> rfl
  | pack p =>
    cases p with
    | mk id rules =>
      cases found
      rw [ofEntries_rules]
      rfl
  | probe id p => cases p <;> cases found
  | _ => cases found

/-- The rule of a mapping holds its pack. -/
theorem ofValue_of_isMapping {v : Value} (mapping : v.isMapping = true) :
    (ofValue v).map unnumbered = ((Pack.ofValue v).map Pack.unnumbered).map (.nested 0) := by
  cases v with
  | dict id entries | view entries =>
    rw [ofValue, Pack.ofValue]
    cases ofEntries entries <;> rfl
  | pack p => rfl
  | probe id operation => cases operation <;> first | rfl | cases mapping
  | _ => cases mapping

/-- Up to numbers, entries are read one after the other. -/
theorem ofEntries_cons (key v : Value) (rest : List (Value × Value)) :
    (ofEntries ((key, v) :: rest)).map Pack.unnumberedRules = (do
      let r ← (ofValue v).map unnumbered
      let rules ← (ofEntries rest).map Pack.unnumberedRules
      .ok ((key, r) :: rules)) := by
  rw [ofEntries]
  cases ofValue v with
  | error cause => rfl
  | ok r => cases ofEntries rest <;> rfl

/-- Entries with the same keys are read alike if their values are. -/
theorem ofEntries_congr {entries entries' : List (Value × Value)}
    (keys : entries'.map (·.1) = entries.map (·.1))
    (values : ∀ pair ∈ entries.zip entries',
      (ofValue pair.2.2).map unnumbered = (ofValue pair.1.2).map unnumbered) :
    (ofEntries entries').map Pack.unnumberedRules =
      (ofEntries entries).map Pack.unnumberedRules := by
  induction entries generalizing entries' with
  | nil =>
    obtain rfl := List.map_eq_nil_iff.mp keys
    rfl
  | cons entry rest ih =>
    obtain ⟨entry', rest', rfl, key, others⟩ := List.map_eq_cons_iff.mp keys
    obtain ⟨here, further⟩ := List.forall_mem_cons.mp values
    obtain ⟨k, v⟩ := entry
    obtain ⟨k', v'⟩ := entry'
    obtain rfl : k' = k := key
    rw [ofEntries_cons, ofEntries_cons, here, ih others further]

/-- What is read in part stands for the same rule, or is malformed for the same reason. -/
theorem ofValue_of_partlyRead {v w : Value} (h : v.PartlyRead w) :
    (ofValue w).map unnumbered = (ofValue v).map unnumbered := by
  -- On the replacements: reading commutes with mappings, and what has been read is taken over.
  induction h with
  | same v => rfl
  | @entries v w entries entries' found found' keys values ih =>
    rw [ofValue_of_mapping? found, ofValue_of_mapping? found', ofEntries_congr keys ih]
  | packed inside read ih =>
    obtain ⟨q, readInside, same⟩ := Session.exists_ofValue_of_newPack read
    rw [← ih, ofValue_of_isMapping (Pack.isMapping_of_ofValue readInside), readInside]
    exact congrArg (fun q => Except.ok (Rule.nested 0 q)) same
  | ruled inside read ih =>
    obtain ⟨r, readInside, same⟩ := Session.exists_ofValue_of_newRule read
    rw [← ih, readInside]
    exact congrArg Except.ok same

end Rule

/-- Only a mapping becomes a mapping by being read in part. -/
theorem Value.PartlyRead.isMapping {v w : Value} (h : v.PartlyRead w)
    (mapping : w.isMapping = true) : v.isMapping = true := by
  induction h with
  | same v => exact mapping
  | entries found found' keys values ih =>
    exact isMapping_of_mapping? found
  | packed inside read ih =>
    obtain ⟨q, readInside, -⟩ := Session.exists_ofValue_of_newPack read
    exact ih (Pack.isMapping_of_ofValue readInside)
  | ruled => cases mapping

/-- A schema that is read in part has the same pack up to numbers, or is malformed for the same
reason. -/
theorem Pack.ofValue_of_partlyRead {v w : Value} (h : v.PartlyRead w)
    (mapping : w.isMapping = true) :
    (ofValue w).map unnumbered = (ofValue v).map unnumbered := by
  have alike := Rule.ofValue_of_partlyRead h
  rw [Rule.ofValue_of_isMapping mapping, Rule.ofValue_of_isMapping (h.isMapping mapping)] at alike
  rcases cases_of_map_eq alike with ⟨cause, left, right⟩ | ⟨p, q, left, right, same⟩
  · rw [left, right]
  · rw [left, right, (Rule.nested.inj same).2]

namespace Session

/-- What goes on from the pack of a schema, and does not look at numbers, goes on alike from the
pack of another that differs in numbers alone. -/
theorem packOf_bind_congr {β : Type} {schema schema' : Value} {f : Pack Value Value → Run σ β}
    (h : (Pack.ofValue schema').map Pack.unnumbered = (Pack.ofValue schema).map Pack.unnumbered)
    (alike : ∀ p q : Pack Value Value, p.unnumbered = q.unnumbered → f p = f q) :
    (packOf schema' >>= f) = packOf schema >>= f := by
  rcases cases_of_map_eq h with ⟨cause, left, right⟩ | ⟨p, q, left, right, same⟩
  · rw [packOf, packOf, left, right]
  · rw [packOf, packOf, left, right]
    exact alike p q same

/-- A schema that is read in part can be read if the schema can. Its pack has the same keys in the
same order, the same packs below them and the same checks, at every depth. Both walks over it are
the same runs as over the schema, on every value, from every state and whatever the checks do: they
end with the same answer or the same fault, and make the same calls. -/
theorem walks_of_partlyRead (schema schema' : Value) (replaced : schema.PartlyRead schema')
    (mapping : schema'.isMapping = true) :
    (∀ s p t, newPack schema s = (.ok p, t) →
      ∀ s', ∃ p' t', newPack schema' s' = (.ok p', t') ∧ p'.unnumbered = p.unnumbered) ∧
      ∀ (σ : Type) (check : Value → Value → Run σ Bool) (v : Value),
        (∀ exact, acceptsBy check schema' v exact = acceptsBy check schema v exact) ∧
        examineBy check schema' v = examineBy check schema v ∧
        ∀ s, (∀ exact, acceptCalls check schema' v exact s = acceptCalls check schema v exact s) ∧
          examineCalls check schema' v s = examineCalls check schema v s := by
  have same := Pack.ofValue_of_partlyRead replaced mapping
  have accepts (τ : Type) (check : Value → Value → Run τ Bool) (v exact : Value) :
      acceptsBy check schema' v exact = acceptsBy check schema v exact := by
    refine congrArg (Run.lift (requireFlag .exactKeys exact) >>= ·) (funext fun flag => ?_)
    exact packOf_bind_congr same fun p q alike => Pack.accepts_eq_of_unnumbered check alike flag v
  have examines (τ : Type) (check : Value → Value → Run τ Bool) (v : Value) :
      examineBy check schema' v = examineBy check schema v :=
    packOf_bind_congr same fun p q alike => Pack.examine_eq_of_unnumbered check alike v
  refine ⟨fun s p t ran s' => ?_, fun σ check v => ⟨accepts σ check v, examines σ check v,
    fun s => ⟨fun exact => ?_, ?_⟩⟩⟩
  · obtain ⟨q, read, numbered⟩ := exists_ofValue_of_newPack ran
    rw [read] at same
    rcases cases_of_map_eq same with ⟨cause, -, impossible⟩ | ⟨p', q', read', equal, alike⟩
    · cases impossible
    · cases equal
      refine ⟨_, _, newPack_of_ofValue read' s', ?_⟩
      rw [Pack.unnumbered_number, alike, numbered]
  · rw [acceptCalls, acceptCalls, accepts]
  · rw [examineCalls, examineCalls, examines]

/-- A dictionary of which a callable is replaced by its rule, a dictionary by its pack after a
callable in it by its rule, and a view by its rule. -/
theorem walks_of_partlyRead_mixed :
    let number : Value := .callable 2 (.check .number)
    let text : Value := .callable 3 (.check .text)
    let schema : Value := .dict 4 [(.text "a", number),
      (.text "b", .dict 5 [(.text "c", text), (.text "d", number)]),
      (.text "e", .view [(.text "f", text)])]
    let schema' : Value := .dict 4 [(.text "a", .rule (.leaf 6 number)),
      (.text "b", .pack (.mk 8 [(.text "c", .leaf 7 text), (.text "d", .leaf 9 number)])),
      (.text "e", .rule (.nested 10 (.mk 11 [(.text "f", .leaf 12 text)])))]
    let v : Value := .dict 13 [(.text "a", .int 1), (.text "b", .dict 14 [(.text "c", .int 2)])]
    schema.PartlyRead schema' ∧ schema'.isMapping = true ∧
      (∃ p' t', newPack schema' .initial = (.ok p', t') ∧
        p'.unnumbered = .mk 0 [(.text "a", .leaf 0 number),
          (.text "b", .nested 0 (.mk 0 [(.text "c", .leaf 0 text), (.text "d", .leaf 0 number)])),
          (.text "e", .nested 0 (.mk 0 [(.text "f", .leaf 0 text)]))]) ∧
      examineBy Value.verdict schema' v .initial = examineBy Value.verdict schema v .initial ∧
      examineCalls Value.verdict schema' v .initial =
        [(number, .int 1), (text, .int 2), (number, .null)] := by
  intro number text schema schema' v
  let from' (next : Nat) : Session := { Session.initial with nextId := next }
  have first : number.PartlyRead (.rule (.leaf 6 number)) :=
    .ruled (s := from' 6) (.same number) rfl
  -- Within the dictionary a callable is replaced first, and then the dictionary that is left.
  have inner : (Value.dict 5 [(.text "c", text), (.text "d", number)]).PartlyRead
      (.dict 5 [(.text "c", .rule (.leaf 7 text)), (.text "d", number)]) := by
    refine .entries rfl rfl rfl (List.forall_mem_cons.mpr ⟨?_, List.forall_mem_singleton.mpr ?_⟩)
    · exact .ruled (s := from' 7) (.same text) rfl
    · exact .same number
  have second : (Value.dict 5 [(.text "c", text), (.text "d", number)]).PartlyRead
      (.pack (.mk 8 [(.text "c", .leaf 7 text), (.text "d", .leaf 9 number)])) :=
    .packed (s := from' 8) inner rfl
  have third : (Value.view [(.text "f", text)]).PartlyRead
      (.rule (.nested 10 (.mk 11 [(.text "f", .leaf 12 text)]))) :=
    .ruled (s := from' 10) (.same _) rfl
  have replaced : schema.PartlyRead schema' := by
    refine .entries rfl rfl rfl (List.forall_mem_cons.mpr ⟨first, ?_⟩)
    exact List.forall_mem_cons.mpr ⟨second, List.forall_mem_singleton.mpr third⟩
  obtain ⟨readable, alike⟩ := walks_of_partlyRead schema schema' replaced rfl
  obtain ⟨p', t', read, same⟩ := readable .initial _ _ rfl .initial
  obtain ⟨-, examined, calls⟩ := alike Session Value.verdict v
  exact ⟨replaced, rfl, ⟨p', t', read, same⟩, congrFun examined _, (calls .initial).2⟩

end Session

end Conformance
