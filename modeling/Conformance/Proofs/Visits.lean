import Conformance.Explanation.Rows
import Conformance.Proofs.Reach

/-!
# What an examination comes by

An examination comes by packs and by checks, in depth-first order, a pack before its rules. Which of
them it comes by, and with which values, depends on the pack and the value alone and not on what the
checks answer. Listed one after the other, they are all that an examination consists of: it asks
each check on the list once, and each pack on the list adds the keys that have no mapping to be
looked up in, or the keys of the mapping that have no rule.

## Main definitions

* `Visit`, `Pack.visits` — the packs and checks that an examination comes by, with the paths to them
* `Row.pathTo` — the text of a path of keys below a root
* `Visit.invalidRows`, `Visit.extraRows` — the rows that one visit adds to a flat explanation
* `Visit.Yield` — what an examination says of its visits: they end in its state, with its rows

## Main results

* `Pack.mem_visits_pack_iff` — the packs that are visited are those that are reached
* `Pack.mem_visits_check_iff` — the checks that are visited are those of the packs that are reached,
  at the mappings to which these are applied
* `Pack.nodup_paths_visits` — no place is visited twice
* `Pack.visits_yield` — the rows of an examination are those of its visits
-/

namespace Conformance

variable {σ α : Type}

/-- A pack or a check that an examination comes by, with the keys that lead there. -/
inductive Visit (α : Type) where
  /-- A pack is applied to a value. -/
  | pack (path : List Value) (p : Pack Value α) (v : Value)
  /-- A check is asked about a value. -/
  | check (path : List Value) (c : α) (observed : Value)

namespace Visit

/-- The keys that lead to a visit. -/
def path : Visit α → List Value
  | pack path .. => path
  | check path .. => path

/-- The same visit below a key. -/
def under (key : Value) : Visit α → Visit α
  | pack path p v => pack (key :: path) p v
  | check path c x => check (key :: path) c x

/-- The call that a visit makes, if it is one to a check. -/
def call? : Visit α → Option (α × Value)
  | pack .. => none
  | check _ c x => some (c, x)

@[simp] theorem path_under (key : Value) (visit : Visit α) :
    (visit.under key).path = key :: visit.path := by
  cases visit <;> rfl

end Visit

/-- The text of a path of keys below a root: all of them, joined by points. -/
def Row.pathTo (root : String) (path : List Value) : String :=
  ".".intercalate (root :: path.map Value.display)

namespace Visit

/-- The invalid rows that a visit adds below a root. A pack that is applied to no mapping adds its
keys; a check adds what it refuses. -/
def invalidRows (check : α → Value → Run σ Bool) (root : String) : Visit α → Run σ (List Row)
  | .pack path p v =>
    pure (if v.isMapping then []
      else p.keys.map fun key => ⟨Row.pathTo root (path ++ [key]), .invalid, .null⟩)
  | .check path c x => do
    if ← check c x then pure [] else pure [⟨Row.pathTo root path, .invalid, x⟩]

/-- The extra rows that a visit adds below a root: the entries without a rule, of a mapping to which
a pack is applied. -/
def extraRows (root : String) : Visit α → List Row
  | .pack path p v =>
    ((v.entries?.getD []).filter fun entry => !p.has entry.1).map fun entry =>
      ⟨Row.pathTo root (path ++ [entry.1]), .extra, entry.2⟩
  | .check .. => []

end Visit

mutual

/-- All that an examination comes by. -/
def Pack.visits : Pack Value α → Value → List (Visit α)
  | .mk id rules, v =>
    .pack [] (.mk id rules) v ::
      match v.mapping? with
      | none => []
      | some m => Pack.visitsOf rules m
termination_by structural a => a

/-- All that an examination comes by below rules. A look-up that is refused leads nowhere. -/
def Pack.visitsOf : List (Value × Rule Value α) → Mapping → List (Visit α)
  | [], _ => []
  | (key, r) :: rest, m =>
    (match m.get key with
      | .ok x => (r.visits x).map (.under key)
      | .error _ => []) ++ Pack.visitsOf rest m
termination_by structural a => a

/-- All that an examination comes by in a rule. -/
def Rule.visits : Rule Value α → Value → List (Visit α)
  | .leaf _ c, x => [.check [] c x]
  | .nested _ p, x => p.visits x
termination_by structural a => a

end

/-! ### The visits by their paths -/

namespace Pack

theorem mem_visitsOf_iff {rules : List (Value × Rule Value α)} {m : Mapping} {visit : Visit α} :
    visit ∈ visitsOf rules m ↔
      ∃ key r x, (key, r) ∈ rules ∧ m.get key = .ok x ∧ ∃ further ∈ r.visits x,
        further.under key = visit := by
  induction rules with
  | nil => simp [visitsOf]
  | cons entry rest ih =>
    obtain ⟨key, r⟩ := entry
    rw [visitsOf, List.mem_append, ih]
    constructor
    · rintro (member | ⟨k, r', x, rule, lookup, further⟩)
      · cases lookup : m.get key with
        | error fault => simp [lookup] at member
        | ok x =>
          rw [lookup] at member
          exact ⟨key, r, x, List.mem_cons_self, lookup, List.mem_map.mp member⟩
      · exact ⟨k, r', x, List.mem_cons_of_mem _ rule, lookup, further⟩
    · rintro ⟨k, r', x, rule, lookup, further⟩
      rcases List.mem_cons.mp rule with equal | rule
      · cases equal
        rw [lookup]
        exact .inl (List.mem_map.mpr further)
      · exact .inr ⟨k, r', x, rule, lookup, further⟩

theorem mem_visits_mk_iff {id : Nat} {rules : List (Value × Rule Value α)} {v : Value}
    {visit : Visit α} :
    visit ∈ (mk id rules).visits v ↔
      visit = .pack [] (mk id rules) v ∨ ∃ m, v.mapping? = some m ∧ visit ∈ visitsOf rules m := by
  rw [visits, List.mem_cons]
  cases v.mapping? <;> simp

/-- The packs that are visited are those that are reached. -/
theorem mem_visits_pack_iff {p q : Pack Value α} {v w : Value} {path : List Value} :
    .pack path q w ∈ p.visits v ↔ p.Reaches v path q w := by
  induction p using Pack.induction generalizing v path with
  | step id rules ih =>
    rw [mem_visits_mk_iff]
    constructor
    · rintro (equal | ⟨m, mapping, member⟩)
      · cases equal
        exact .here _ _
      · obtain ⟨key, r, x, rule, lookup, further, member, equal⟩ := mem_visitsOf_iff.mp member
        cases r with
        | leaf n c =>
          -- Below a check there is no pack.
          rw [Rule.visits, List.mem_singleton] at member
          subst member
          cases equal
        | nested n p' =>
          cases further with
          | check path' c y => cases equal
          | pack path' q' y =>
            cases equal
            exact .through mapping rule lookup ((ih key n p' rule).mp member)
    · intro reached
      cases reached with
      | here => exact .inl rfl
      | through mapping rule lookup further =>
        refine .inr ⟨_, mapping, mem_visitsOf_iff.mpr ⟨_, _, _, rule, lookup, ?_⟩⟩
        exact ⟨_, (ih _ _ _ rule).mpr further, rfl⟩

/-- The checks that are visited are those of the packs that are reached and applied to a mapping,
each with what the mapping has at its key. -/
theorem mem_visits_check_iff {p : Pack Value α} {v x : Value} {path : List Value} {c : α} :
    .check path c x ∈ p.visits v ↔
      ∃ above key q w m n, path = above ++ [key] ∧ p.Reaches v above q w ∧ w.mapping? = some m ∧
        (key, .leaf n c) ∈ q.rules ∧ m.get key = .ok x := by
  induction p using Pack.induction generalizing v path with
  | step id rules ih =>
    rw [mem_visits_mk_iff]
    constructor
    · rintro (equal | ⟨m, mapping, member⟩)
      · cases equal
      · obtain ⟨key, r, y, rule, lookup, further, member, equal⟩ := mem_visitsOf_iff.mp member
        cases r with
        | leaf n c' =>
          rw [Rule.visits, List.mem_singleton] at member
          subst member
          cases equal
          exact ⟨[], key, mk id rules, v, m, n, rfl, .here _ _, mapping, rule, lookup⟩
        | nested n p' =>
          cases further with
          | pack path' q' y' => cases equal
          | check path' c' y' =>
            cases equal
            obtain ⟨above, last, q, w, m', n', rfl, reached, rest⟩ := (ih key n p' rule).mp member
            have further : (mk id rules).Reaches v (key :: above) q w :=
              .through mapping rule lookup reached
            exact ⟨key :: above, last, q, w, m', n', rfl, further, rest⟩
    · rintro ⟨above, key, q, w, m, n, rfl, reached, mapping, rule, lookup⟩
      cases reached with
      | here =>
        refine .inr ⟨m, mapping, mem_visitsOf_iff.mpr ⟨key, _, x, rule, lookup, ?_⟩⟩
        exact ⟨_, List.mem_singleton.mpr rfl, rfl⟩
      | through mapping' rule' lookup' further =>
        refine .inr ⟨_, mapping', mem_visitsOf_iff.mpr ⟨_, _, _, rule', lookup', ?_⟩⟩
        have below := (ih _ _ _ rule').mpr ⟨_, key, q, w, m, n, rfl, further, mapping, rule, lookup⟩
        exact ⟨_, below, rfl⟩

/-- A visit below rules starts with the key of one of them. -/
theorem path_of_mem_visitsOf {rules : List (Value × Rule Value α)} {m : Mapping} {visit : Visit α}
    (h : visit ∈ visitsOf rules m) :
    ∃ key further, key ∈ rules.map (·.1) ∧ visit.path = key :: further := by
  obtain ⟨key, r, x, rule, -, below, -, rfl⟩ := mem_visitsOf_iff.mp h
  exact ⟨key, below.path, List.mem_map.mpr ⟨_, rule, rfl⟩, Visit.path_under key below⟩

theorem nodup_paths_visitsOf {rules : List (Value × Rule Value α)} {m : Mapping}
    (distinct : (rules.map (·.1)).Nodup)
    (nested : ∀ key n q x, (key, .nested n q) ∈ rules → m.get key = .ok x →
      ((q.visits x).map Visit.path).Nodup) :
    ((visitsOf rules m).map Visit.path).Nodup := by
  induction rules with
  | nil => exact List.nodup_nil
  | cons entry rest ih =>
    obtain ⟨key, r⟩ := entry
    obtain ⟨new, distinct⟩ := List.nodup_cons.mp distinct
    have others := ih distinct fun k n q x rule => nested k n q x (List.mem_cons_of_mem _ rule)
    rw [visitsOf]
    cases lookup : m.get key with
    | error fault => exact others
    | ok x =>
      have here : ((r.visits x).map Visit.path).Nodup := by
        cases r with
        | leaf n c => exact List.pairwise_singleton _ _
        | nested n q => exact nested key n q x List.mem_cons_self lookup
      have first : (((r.visits x).map (Visit.under key)).map Visit.path).Nodup := by
        have paths : ((r.visits x).map (Visit.under key)).map Visit.path =
            ((r.visits x).map Visit.path).map (key :: ·) := by
          simp [Function.comp_def]
        rw [paths]
        exact List.Pairwise.map _ (fun _ _ unequal same => unequal (List.cons.inj same).2) here
      rw [List.map_append]
      refine List.nodup_append.mpr ⟨first, others, ?_⟩
      -- A path of the first rule starts with its key, and no later rule has that key.
      intro path member path' member'
      obtain ⟨_, below, rfl⟩ := List.mem_map.mp member
      obtain ⟨visit, -, rfl⟩ := List.mem_map.mp below
      obtain ⟨visit', below', rfl⟩ := List.mem_map.mp member'
      obtain ⟨k, further, later, equal⟩ := path_of_mem_visitsOf below'
      rw [Visit.path_under, equal]
      intro same
      obtain rfl := (List.cons.inj same).1
      exact new later

/-- No place is visited twice, if no pack on the way has a key twice. -/
theorem nodup_paths_visits {p : Pack Value α} {v : Value}
    (distinct : ∀ path q w, p.Reaches v path q w → q.keys.Nodup) :
    ((p.visits v).map Visit.path).Nodup := by
  induction p using Pack.induction generalizing v with
  | step id rules ih =>
    rw [visits, List.map_cons, List.nodup_cons]
    cases mapping : v.mapping? with
    | none => exact ⟨List.not_mem_nil, List.nodup_nil⟩
    | some m =>
      constructor
      · intro member
        obtain ⟨visit, below, top⟩ := List.mem_map.mp member
        obtain ⟨key, further, -, path⟩ := path_of_mem_visitsOf below
        rw [path] at top
        cases top
      · refine nodup_paths_visitsOf (distinct [] _ v (.here _ _)) fun key n q x rule lookup => ?_
        refine ih key n q rule fun path q' w further => ?_
        exact distinct (key :: path) q' w (.through mapping rule lookup further)

end Pack

/-! ### The rows of an examination -/

theorem Row.extendPath_of_ne_empty {root : String} (h : root ≠ "") (key : Value) :
    extendPath root key = root ++ "." ++ key.display := by
  rw [extendPath, if_neg]
  simpa using h

theorem Row.extendPath_ne_empty {root : String} (h : root ≠ "") (key : Value) :
    extendPath root key ≠ "" := by
  rw [extendPath_of_ne_empty h]
  intro empty
  have length := congrArg String.length empty
  simp at length

/-- A path below a root can as well be laid from its first key on. -/
theorem Row.pathTo_cons {root : String} (h : root ≠ "") (key : Value) (path : List Value) :
    pathTo root (key :: path) = pathTo (extendPath root key) path := by
  rw [extendPath_of_ne_empty h]
  rfl

theorem Row.pathTo_singleton {root : String} (h : root ≠ "") (key : Value) :
    pathTo root [key] = extendPath root key :=
  pathTo_cons h key []

theorem Visit.invalidRows_under {root : String} (h : root ≠ "") (check : α → Value → Run σ Bool)
    (key : Value) (visit : Visit α) :
    (visit.under key).invalidRows check root =
      visit.invalidRows check (Row.extendPath root key) := by
  cases visit <;> simp [invalidRows, under, Row.pathTo_cons h]

theorem Visit.extraRows_under {root : String} (h : root ≠ "") (key : Value) (visit : Visit α) :
    (visit.under key).extraRows root = visit.extraRows (Row.extendPath root key) := by
  cases visit <;> simp [extraRows, under, Row.pathTo_cons h]

theorem Finding.rowsOf_append (violation : Violation) (path : String) (fs gs : List Finding) :
    rowsOf violation path (fs ++ gs) = rowsOf violation path fs ++ rowsOf violation path gs := by
  induction fs with
  | nil => rfl
  | cons f fs ih => simp [rowsOf, ih]

theorem Finding.rowsOf_under (violation : Violation) (path : String) (key : Value)
    (fs : List Finding) :
    rowsOf violation path (under key fs) = rowsOf violation (Row.extendPath path key) fs := by
  cases fs <;> simp [under, rowsOf, rows]

theorem Finding.rowsOf_values (violation : Violation) (path : String) {β : Type}
    (key observed : β → Value) (items : List β) :
    rowsOf violation path (items.map fun item => .value (key item) (observed item)) =
      items.map fun item => ⟨Row.extendPath path (key item), violation, observed item⟩ := by
  induction items with
  | nil => rfl
  | cons item items ih => simp [rowsOf, rows, ih]

section Sequencing

variable {m : Type → Type} [Monad m] [LawfulMonad m] {β γ δ : Type}

theorem flatMapM_append (f : β → m (List γ)) (xs ys : List β) :
    (xs ++ ys).flatMapM f = do return (← xs.flatMapM f) ++ (← ys.flatMapM f) := by
  induction xs with
  | nil => simp
  | cons x xs ih =>
    simp only [List.cons_append, List.flatMapM_cons, ih, bind_assoc, pure_bind, List.append_assoc]

theorem flatMapM_map (f : γ → m (List δ)) (g : β → γ) (xs : List β) :
    (xs.map g).flatMapM f = xs.flatMapM fun x => f (g x) := by
  induction xs with
  | nil => rfl
  | cons x xs ih => simp [ih]

end Sequencing

/-- Visits that take the state from `s` to `t` and add the rows of `e` below a root. -/
def Visit.Yield (check : α → Value → Run σ Bool) (root : String) (visits : List (Visit α))
    (s t : σ) (e : Explanation) : Prop :=
  visits.flatMapM (invalidRows check root) s = (.ok (Finding.rowsOf .invalid root e.invalid), t) ∧
    visits.flatMap (extraRows root) = Finding.rowsOf .extra root e.extra

variable {check : α → Value → Run σ Bool}

namespace Visit.Yield

theorem append {root : String} {xs ys : List (Visit α)} {s t u : σ} {d e : Explanation}
    (hx : Yield check root xs s u d) (hy : Yield check root ys u t e) :
    Yield check root (xs ++ ys) s t (d.append e) := by
  constructor
  · rw [flatMapM_append, Run.bind_apply_ok hx.1, Run.bind_apply_ok hy.1, Explanation.append,
      Finding.rowsOf_append, Run.pure_apply]
  · rw [List.flatMap_append, hx.2, hy.2, Explanation.append, Finding.rowsOf_append]

theorem under {root : String} {xs : List (Visit α)} {s t : σ} {e : Explanation} {key : Value}
    (hroot : root ≠ "") (h : Yield check (Row.extendPath root key) xs s t e) :
    Yield check root (xs.map (.under key)) s t (e.under key) := by
  constructor
  · rw [flatMapM_map, Explanation.under, Finding.rowsOf_under]
    simpa only [invalidRows_under hroot] using h.1
  · rw [List.flatMap_map, Explanation.under, Finding.rowsOf_under]
    simpa only [extraRows_under hroot] using h.2

/-- A check that is asked yields nothing, or what it refuses. -/
theorem asked {root : String} (hroot : root ≠ "") (key : Value) {x : Value} {c : α} {s t : σ}
    {b : Bool} (h : check c x s = (.ok b, t)) :
    Yield check root [.check [key] c x] s t (if b then .empty else ⟨[.value key x], []⟩) := by
  -- The row of the check is added or not, whatever the check did to the state.
  have rows : [Visit.check [key] c x].flatMapM (invalidRows check root) s =
      (.ok (if b then [] else [⟨Row.extendPath root key, .invalid, x⟩]), t) := by
    simp only [List.flatMapM_cons, List.flatMapM_nil, invalidRows, Row.pathTo_singleton hroot]
    rw [bind_assoc, Run.bind_apply_ok h]
    cases b <;> rfl
  cases b with
  | true => exact ⟨rows, rfl⟩
  | false => exact ⟨rows, rfl⟩

/-- A pack that is applied to a mapping yields its extra entries. -/
theorem mapped {root : String} (hroot : root ≠ "") {p : Pack Value α} {v : Value} {m : Mapping}
    {entries : List (Value × Value)} (mapping : v.mapping? = some m)
    (listed : m.items = .ok entries) (s : σ) :
    Yield check root [.pack [] p v] s s ⟨[], Pack.extras p.rules entries⟩ := by
  constructor
  · simp [invalidRows, Value.isMapping_of_mapping? mapping, Finding.rowsOf]
  · rw [Pack.extras, Finding.rowsOf_values, List.flatMap_singleton, extraRows,
      Value.entries?_eq_of_items mapping listed]
    simp only [List.nil_append, Row.pathTo_singleton hroot]
    rfl

/-- A pack that is applied to no mapping yields all of its keys. -/
theorem unmapped {root : String} (hroot : root ≠ "") {p : Pack Value α} {v : Value}
    (mapping : v.mapping? = none) (s : σ) :
    Yield check root [.pack [] p v] s s
      ⟨p.rules.map fun entry => .value entry.1 .null, []⟩ := by
  constructor
  · rw [Finding.rowsOf_values]
    simp [invalidRows, Value.isMapping_eq_false mapping, Pack.keys, Row.pathTo_singleton hroot]
  · rw [List.flatMap_singleton, extraRows, Value.entries?_eq_none mapping]
    rfl

end Visit.Yield

/-- The visits of a rule yield what is found in it, if those of the pack in it do. -/
theorem Rule.visits_yield {root : String} (hroot : root ≠ "") {key : Value} {r : Rule Value α}
    {x : Value} {s t : σ} {e : Explanation}
    (nested : ∀ n q, r = .nested n q → ∀ root, root ≠ "" → ∀ s t e,
      q.examine check x s = (.ok e, t) → Visit.Yield check root (q.visits x) s t e)
    (h : r.examine check key x s = (.ok e, t)) :
    Visit.Yield check root ((r.visits x).map (.under key)) s t e := by
  cases r with
  | leaf n c =>
    obtain ⟨b, asked, rfl⟩ := Rule.examine_leaf_eq_ok_iff.mp h
    exact .asked hroot key asked
  | nested n q =>
    obtain ⟨found, examined, rfl⟩ := Rule.examine_nested_eq_ok_iff.mp h
    have below := nested n q rfl _ (Row.extendPath_ne_empty hroot key) s t found examined
    exact .under hroot below

namespace Pack

/-- The visits below rules yield what is found there, if those of the packs in them do. -/
theorem visitsOf_yield {root : String} (hroot : root ≠ "") {rules : List (Value × Rule Value α)}
    {m : Mapping} {s t : σ} {e : Explanation}
    (nested : ∀ key n q, (key, .nested n q) ∈ rules → ∀ root, root ≠ "" → ∀ x s t e,
      q.examine check x s = (.ok e, t) → Visit.Yield check root (q.visits x) s t e)
    (h : examineRules check rules m s = (.ok e, t)) :
    Visit.Yield check root (visitsOf rules m) s t e := by
  induction rules generalizing s e with
  | nil =>
    obtain ⟨rfl, rfl⟩ := Run.pure_eq_ok_iff.mp h
    exact ⟨rfl, rfl⟩
  | cons entry rest ih =>
    obtain ⟨key, r⟩ := entry
    obtain ⟨x, here, others, u, lookup, examined, examinedRest, rfl⟩ :=
      examineRules_cons_eq_ok_iff.mp h
    -- Nothing cuts the walk short, so the rest starts from where the first rule left the state.
    have first := Rule.visits_yield hroot (fun n q equal root hroot =>
      nested key n q (equal ▸ List.mem_cons_self) root hroot x) examined
    have second := ih (fun k n q rule => nested k n q (List.mem_cons_of_mem _ rule)) examinedRest
    rw [visitsOf, lookup]
    exact first.append second

/-- The visits of an examination yield what it finds. They ask the same checks in the same order,
and end in the same state. -/
theorem visits_yield (root : String) (hroot : root ≠ "") (p : Pack Value α) (v : Value) (s t : σ)
    (e : Explanation) (h : p.examine check v s = (.ok e, t)) :
    Visit.Yield check root (p.visits v) s t e := by
  -- The root is part of the induction: a nested pack is laid out below the path to it.
  induction p using Pack.induction generalizing root v s t e with
  | step id rules ih =>
    rw [visits, ← List.singleton_append]
    cases mapping : v.mapping? with
    | none =>
      rw [examine_of_mapping?_eq_none mapping] at h
      obtain ⟨rfl, rfl⟩ := Run.pure_eq_ok_iff.mp h
      rw [List.append_nil]
      exact .unmapped hroot mapping t
    | some m =>
      obtain ⟨found, entries, examined, items, rfl⟩ := (examine_eq_ok_iff mapping).mp h
      have below := visitsOf_yield hroot
        (fun key n q rule root hroot x s t e => ih key n q rule root hroot x s t e) examined
      exact (Visit.Yield.mapped hroot mapping items s).append below

end Pack

end Conformance
