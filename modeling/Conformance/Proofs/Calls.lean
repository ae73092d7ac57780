import Conformance.Proofs.Verdicts
import Conformance.Proofs.Visits

/-!
# The calls of the two walks

To see which checks a walk calls, and about which values, each check is made to note its calls
beside the state. This changes nothing else. Started from the same state, acceptance then makes the
first of the calls that examination makes, and all of them if it accepts: what cuts acceptance short
leaves the examination at the same call, or later.

One thing cuts an examination short and not acceptance. An examination lists each mapping that it
meets, and a mapping can refuse that, although it tells what acceptance asks for: in permissive mode
the values at the keys of the pack, which is nothing at all if the pack is empty, and in exact mode
its keys as well. Acceptance then goes on to calls that the examination never makes.

## Main definitions

* `noting` — a check that notes its calls
* `Session.acceptCalls`, `Session.examineCalls` — the calls of acceptance and of examination
* `Run.Notes` — a run that does what another does and only adds notes
* `Run.Continues` — an examination that goes on where acceptance stops
* `Pack.ListableIn` — a mapping that can be listed, unless acceptance stops at it

## Main results

* `Pack.notes_accepts`, `Pack.notes_examine` — noting calls changes nothing else
* `Pack.continues_examine` — the examination goes on where acceptance stops
* `Session.acceptCalls_isPrefix` — the calls of acceptance come first among those of examination
* `Session.not_acceptCalls_isPrefix` — but not where a mapping refuses to be listed
-/

namespace Conformance

variable {σ α β γ ι : Type}

/-- A check that notes each of its calls, also one that ends in a fault, and else does the same. -/
def noting (check : α → Value → Run σ Bool) : α → Value → Run (σ × List (α × Value)) Bool :=
  fun c x s => ((check c x s.1).1, ((check c x s.1).2, s.2 ++ [(c, x)]))

namespace Session

/-- The calls that acceptance makes, in order. -/
def acceptCalls (check : Value → Value → Run σ Bool) (schema v : Value) (exact : Bool) (s : σ) :
    List (Value × Value) :=
  (acceptsBy (noting check) schema v (.bool exact) (s, [])).2.2

/-- The calls that examination makes, in order. -/
def examineCalls (check : Value → Value → Run σ Bool) (schema v : Value) (s : σ) :
    List (Value × Value) :=
  (examineBy (noting check) schema v (s, [])).2.2

end Session

/-! ### Noting changes nothing else -/

namespace Run

/-- The run `y` does to the state what `x` does, ends like `x`, and only adds notes. -/
def Notes (x : Run σ β) (y : Run (σ × List ι) β) : Prop :=
  ∀ s l, ∃ added, y (s, l) = ((x s).1, ((x s).2, l ++ added))

theorem Notes.pure (a : β) : Notes (pure a : Run σ β) (pure a : Run (σ × List ι) β) :=
  fun _ l => ⟨[], by simp⟩

theorem Notes.lift (a : Except Fault β) : Notes (lift a : Run σ β) (lift a : Run (σ × List ι) β) :=
  fun _ l => ⟨[], by simp⟩

theorem Notes.bind {x : Run σ β} {y : Run (σ × List ι) β} {f : β → Run σ γ}
    {g : β → Run (σ × List ι) γ} (first : Notes x y) (second : ∀ a, Notes (f a) (g a)) :
    Notes (x >>= f) (y >>= g) := by
  intro s l
  obtain ⟨added, ran⟩ := first s l
  cases result : x s with
  | mk answer t =>
    rw [result] at ran
    cases answer with
    | error fault =>
      -- A fault ends both, with the notes made so far.
      exact ⟨added, by rw [bind_apply_error ran, bind_apply_error result]⟩
    | ok a =>
      obtain ⟨added', ran'⟩ := second a t (l ++ added)
      refine ⟨added ++ added', ?_⟩
      rw [bind_apply_ok ran, bind_apply_ok result, ran', List.append_assoc]

/-- Notes are kept. -/
theorem Notes.isPrefix {x : Run σ β} {y : Run (σ × List ι) β} (h : Notes x y)
    (s : σ × List ι) : s.2 <+: (y s).2.2 := by
  obtain ⟨added, ran⟩ := h s.1 s.2
  rw [ran]
  exact List.prefix_append s.2 added

/-- What the first part of a run notes stays, if the second part keeps notes. -/
theorem isPrefix_bind {y : Run (σ × List ι) β} {g : β → Run (σ × List ι) γ}
    (kept : ∀ b s, s.2 <+: (g b s).2.2) (s : σ × List ι) : (y s).2.2 <+: ((y >>= g) s).2.2 := by
  cases result : y s with
  | mk answer t =>
    cases answer with
    | error fault => simp [bind_apply_error result]
    | ok b =>
      rw [bind_apply_ok result]
      exact kept b t

end Run

variable (check : α → Value → Run σ Bool)

theorem notes_noting (c : α) (x : Value) : Run.Notes (check c x) (noting check c x) :=
  fun _ _ => ⟨[(c, x)], rfl⟩

namespace Pack

theorem notes_acceptRules (exact : Bool) (rules : List (Value × Rule Value α)) (m : Mapping)
    (nested : ∀ key n q, (key, .nested n q) ∈ rules → ∀ x,
      Run.Notes (q.accepts check exact x) (q.accepts (noting check) exact x)) :
    Run.Notes (acceptRules check exact rules m) (acceptRules (noting check) exact rules m) := by
  induction rules with
  | nil => exact .pure true
  | cons entry rest ih =>
    obtain ⟨key, r⟩ := entry
    have noted := ih fun k n q rule => nested k n q (List.mem_cons_of_mem _ rule)
    refine .bind (.lift _) fun x => .bind ?_ fun accepted => ?_
    · cases r with
      | leaf n c => exact notes_noting check c x
      | nested n q => exact nested key n q List.mem_cons_self x
    · cases accepted with
      | true => exact noted
      | false => exact .pure false

/-- Acceptance is the same if calls are noted. -/
theorem notes_accepts (exact : Bool) (p : Pack Value α) (v : Value) :
    Run.Notes (p.accepts check exact v) (p.accepts (noting check) exact v) := by
  induction p using Pack.induction generalizing v with
  | step id rules ih =>
    rw [accepts, accepts]
    cases v.mapping? with
    | none => exact .pure _
    | some m =>
      refine .bind (.lift _) fun extra => ?_
      cases extra with
      | true => exact .pure false
      | false => exact notes_acceptRules check exact rules m ih

theorem notes_examineRules (rules : List (Value × Rule Value α)) (m : Mapping)
    (nested : ∀ key n q, (key, .nested n q) ∈ rules → ∀ x,
      Run.Notes (q.examine check x) (q.examine (noting check) x)) :
    Run.Notes (examineRules check rules m) (examineRules (noting check) rules m) := by
  induction rules with
  | nil => exact .pure _
  | cons entry rest ih =>
    obtain ⟨key, r⟩ := entry
    have noted := ih fun k n q rule => nested k n q (List.mem_cons_of_mem _ rule)
    refine .bind (.lift _) fun x => .bind ?_ fun here => .bind noted fun others => .pure _
    cases r with
    | leaf n c =>
      refine .bind (notes_noting check c x) fun accepted => ?_
      cases accepted with
      | true => exact .pure _
      | false => exact .pure _
    | nested n q => exact .bind (nested key n q List.mem_cons_self x) fun found => .pure _

/-- Examination is the same if calls are noted. -/
theorem notes_examine (p : Pack Value α) (v : Value) :
    Run.Notes (p.examine check v) (p.examine (noting check) v) := by
  induction p using Pack.induction generalizing v with
  | step id rules ih =>
    rw [examine, examine]
    cases v.mapping? with
    | none => exact .pure _
    | some m =>
      have noted := notes_examineRules check rules m ih
      exact noted.bind fun found => .bind (.lift _) fun entries => .pure _

end Pack

/-! ### Examination goes on where acceptance stops -/

/-- Started from the same state, `x` stops at a state from which `y` goes on, if it goes on: what
`x` notes, `y` notes first. Where `x` accepts, `y` ends as well, in the same state. -/
def Run.Continues (x : Run (σ × List ι) Bool) (y : Run (σ × List ι) β) : Prop :=
  ∀ s, (∀ t, x s = (.ok true, t) → ∃ b, y s = (.ok b, t)) ∧ (x s).2.2 <+: (y s).2.2

namespace Run.Continues

theorem pure_true (b : β) : Continues (pure true : Run (σ × List ι) Bool) (pure b) :=
  fun s => ⟨fun t ran => ⟨b, by rw [(pure_eq_ok_iff.mp ran).2, pure_apply]⟩, List.prefix_rfl⟩

/-- What stops at a state without accepting, before anything that is noted later. -/
theorem of_stopped {x : Run (σ × List ι) Bool} {y : Run (σ × List ι) β} {s t : σ × List ι}
    {answer : Except Fault Bool} (stopped : x s = (answer, t)) (refused : answer ≠ .ok true)
    (before : t.2 <+: (y s).2.2) :
    (∀ u, x s = (.ok true, u) → ∃ b, y s = (.ok b, u)) ∧ (x s).2.2 <+: (y s).2.2 := by
  rw [stopped]
  constructor
  · intro u ran
    exact absurd (Prod.ext_iff.mp ran).1 refused
  · exact before

/-- What refuses at once notes nothing. -/
theorem pure_false {y : Run (σ × List ι) β} (kept : ∀ s, s.2 <+: (y s).2.2) :
    Continues (pure false) y :=
  fun s => of_stopped rfl (by simp) (kept s)

/-- Examination may go on to something that ends wherever acceptance accepts. -/
theorem bind {x : Run (σ × List ι) Bool} {y : Run (σ × List ι) β} {g : β → Run (σ × List ι) γ}
    (h : Continues x y) (ends : ∀ s t, x s = (.ok true, t) → ∀ b, ∃ c, g b t = (.ok c, t))
    (kept : ∀ b s, s.2 <+: (g b s).2.2) : Continues x (y >>= g) := by
  intro s
  obtain ⟨accepted, before⟩ := h s
  constructor
  · intro t ran
    obtain ⟨b, ended⟩ := accepted t ran
    rw [bind_apply_ok ended]
    exact ends s t ran b
  · exact before.trans (isPrefix_bind kept s)

theorem map {x : Run (σ × List ι) Bool} {y : Run (σ × List ι) β} (f : β → γ)
    (h : Continues x y) : Continues x (do return f (← y)) :=
  h.bind (fun _ t _ b => ⟨f b, pure_apply _ t⟩) fun _ _ => List.prefix_rfl

/-- A look-up comes before both. Where it is refused, both stop. -/
theorem lift_bind {a : Except Fault β} {f : β → Run (σ × List ι) Bool}
    {g : β → Run (σ × List ι) γ} (h : ∀ b, a = .ok b → Continues (f b) (g b)) :
    Continues (lift a >>= f) (lift a >>= g) := by
  cases a with
  | error fault => exact fun s => of_stopped rfl (by simp) List.prefix_rfl
  | ok b => exact h b rfl

/-- Acceptance goes on to its second part only if the first part accepts; examination always goes
on. -/
theorem andThen {x x' : Run (σ × List ι) Bool} {y : Run (σ × List ι) β}
    {y' : β → Run (σ × List ι) γ} (first : Continues x y) (second : ∀ b, Continues x' (y' b))
    (kept : ∀ b s, s.2 <+: (y' b s).2.2) :
    Continues (do if ← x then x' else pure false) (y >>= y') := by
  intro s
  obtain ⟨accepted, before⟩ := first s
  have further := before.trans (isPrefix_bind kept s)
  cases result : x s with
  | mk answer t =>
    rw [result] at further
    -- Unless the first part accepts, acceptance is over with what it has noted so far.
    match answer with
    | .error fault => exact of_stopped (bind_apply_error result _) (by simp) further
    | .ok false => exact of_stopped (bind_apply_ok result _) (by simp) further
    | .ok true =>
      obtain ⟨b, ended⟩ := accepted t result
      rw [bind_apply_ok result, bind_apply_ok ended]
      exact second b t

/-- Both ask the same; examination makes something of either answer. -/
theorem ask {x : Run (σ × List ι) Bool} {accepting refusing : β} :
    Continues x (do if ← x then return accepting else return refusing) := by
  intro s
  constructor
  · intro t ran
    exact ⟨accepting, by rw [bind_apply_ok ran]; rfl⟩
  · refine isPrefix_bind (fun accepted u => ?_) s
    cases accepted <;> exact List.prefix_rfl

end Run.Continues

namespace Pack

/-- A mapping can be listed, or acceptance stops at it: at the look-up for a rule, or in exact mode
at the keys, because they are not told or because one has no rule. -/
def ListableIn (exact : Bool) (rules : List (Value × Rule Value α)) (m : Mapping) : Prop :=
  (∃ entries, m.items = .ok entries) ∨ (∃ entry ∈ rules, ∃ fault, m.get entry.1 = .error fault) ∨
    exact = true ∧ hasExtra rules m ≠ .ok false

/-- If acceptance does not stop at the keys of a mapping, only a look-up keeps it from those that
can be listed. -/
theorem ListableIn.listableFor {exact : Bool} {rules : List (Value × Rule Value α)} {m : Mapping}
    (h : ListableIn exact rules m)
    (keysTold : (if exact then hasExtra rules m else .ok false) = .ok false) :
    ListableFor rules m := by
  rcases h with listed | refused | ⟨rfl, stopped⟩
  · exact .inl listed
  · exact .inr refused
  · exact absurd keysTold stopped

/-- Where all rules accept, no look-up was refused. -/
theorem get_of_acceptRules {check : α → Value → Run σ Bool} {exact : Bool}
    {rules : List (Value × Rule Value α)} {m : Mapping} {s t : σ}
    (h : acceptRules check exact rules m s = (.ok true, t)) :
    ∀ entry ∈ rules, ∃ x, m.get entry.1 = .ok x := by
  induction rules generalizing s with
  | nil => simp
  | cons entry rest ih =>
    obtain ⟨key, r⟩ := entry
    obtain ⟨x, u, lookup, -, further⟩ := acceptRules_cons_eq_true_iff.mp h
    intro entry member
    rcases List.mem_cons.mp member with rfl | member
    · exact ⟨x, lookup⟩
    · exact ih further entry member

theorem ListableFor.items_of_acceptRules {check : α → Value → Run σ Bool} {exact : Bool}
    {rules : List (Value × Rule Value α)} {m : Mapping} (listable : ListableFor rules m) {s t : σ}
    (h : acceptRules check exact rules m s = (.ok true, t)) : ∃ entries, m.items = .ok entries :=
  listable.items (get_of_acceptRules h)

/-- Rules, if examination goes on where acceptance stops in the packs in them. -/
theorem continues_examineRules (exact : Bool) {rules : List (Value × Rule Value α)} {m : Mapping}
    (nested : ∀ key n q, (key, .nested n q) ∈ rules → ∀ x, m.get key = .ok x →
      Run.Continues (q.accepts (noting check) exact x) (q.examine (noting check) x)) :
    Run.Continues (acceptRules (noting check) exact rules m)
      (examineRules (noting check) rules m) := by
  induction rules with
  | nil => exact .pure_true _
  | cons entry rest ih =>
    obtain ⟨key, r⟩ := entry
    have further := ih fun k n q rule => nested k n q (List.mem_cons_of_mem _ rule)
    -- Where acceptance stops, examination goes on to the rest, which only adds notes.
    have noted := notes_examineRules check rest m fun _ _ q _ => notes_examine check q
    refine .lift_bind fun x lookup => .andThen ?_ (fun here => further.map here.append)
      (fun here => (noted.bind fun others => .pure (here.append others)).isPrefix)
    cases r with
    | leaf n c => exact .ask
    | nested n q => exact (nested key n q List.mem_cons_self x lookup).map _

/-- Examination goes on where acceptance stops, unless acceptance goes past a mapping that refuses
to be listed. -/
theorem continues_examine (exact : Bool) (p : Pack Value α) (v : Value)
    (listable : p.Meets (ListableIn exact) v) :
    Run.Continues (p.accepts (noting check) exact v) (p.examine (noting check) v) := by
  induction p using Pack.induction generalizing v with
  | step id rules ih =>
    have kept := (notes_examine check (mk id rules) v).isPrefix
    rw [examine] at kept ⊢
    rw [accepts]
    cases mapping : v.mapping? with
    | none =>
      dsimp only
      cases !exact && rules.isEmpty with
      | true => exact .pure_true _
      | false => exact .pure_false fun _ => List.prefix_rfl
    | some m =>
      simp only [mapping] at kept ⊢
      have below := continues_examineRules check exact (m := m) fun key n q rule x lookup =>
        ih key n q rule x (listable.nested mapping rule lookup)
      cases keysTold : (if exact then hasExtra rules m else .ok false) with
      | error fault => exact fun s => Run.Continues.of_stopped rfl (by simp) (kept s)
      | ok extra =>
        cases extra with
        | true => exact .pure_false kept
        | false =>
          have listableHere := (listable.here mapping).listableFor keysTold
          -- Listing the mapping comes after all its rules and makes no call.
          refine below.bind (fun s t accepted found => ?_) fun found =>
            ((Run.Notes.lift m.items).bind fun entries => .pure _).isPrefix
          obtain ⟨entries, listed⟩ := listableHere.items_of_acceptRules accepted
          rw [listed]
          exact ⟨⟨found.invalid, extras rules entries ++ found.extra⟩, rfl⟩

end Pack

/-! ### The calls of an examination -/

/-- Visits that are gone through to the end make the calls that are listed in them. -/
theorem Visit.calls_of_invalidRows {check : α → Value → Run σ Bool} {root : String}
    {visits : List (Visit α)} {s t : σ} {l l' : List (α × Value)} {rows : List Row}
    (h : visits.flatMapM (invalidRows (noting check) root) (s, l) = (.ok rows, (t, l'))) :
    l' = l ++ visits.filterMap call? := by
  induction visits generalizing s l rows with
  | nil =>
    cases Run.pure_eq_ok_iff.mp h |>.2
    simp
  | cons visit visits ih =>
    rw [List.flatMapM_cons] at h
    obtain ⟨here, u, ran, h⟩ := Run.bind_eq_ok_iff.mp h
    obtain ⟨others, u', ranRest, h⟩ := Run.bind_eq_ok_iff.mp h
    obtain ⟨rfl, rfl⟩ := Run.pure_eq_ok_iff.mp h
    -- One visit notes its own call, if it makes one, and the others follow by induction.
    have noted : u.2 = l ++ visit.call?.toList := by
      cases visit with
      | pack path p v =>
        obtain ⟨-, rfl⟩ := Run.pure_eq_ok_iff.mp ran
        simp [call?]
      | check path c x =>
        obtain ⟨b, w, asked, ran⟩ := Run.bind_eq_ok_iff.mp ran
        obtain rfl : u = w := by cases b <;> exact (Run.pure_eq_ok_iff.mp ran).2
        exact (congrArg (·.2.2) asked).symm
    rw [ih ranRest, noted, List.append_assoc]
    cases call : visit.call? <;> simp [call]

namespace Session

variable {check : Value → Value → Run σ Bool} {schema v : Value} {p : Pack Value Value} {s : σ}

/-- The calls of an examination that ends are those of its visits. -/
theorem examineCalls_eq (read : Pack.ofValue schema = .ok p) {e : Explanation} {t : σ}
    (h : examineBy check schema v s = (.ok e, t)) :
    examineCalls check schema v s = (p.visits v).filterMap Visit.call? := by
  rw [examineBy_eq read] at h
  obtain ⟨added, noted⟩ := Pack.notes_examine check p v s []
  rw [h] at noted
  have rows := (Pack.visits_yield Row.root (by decide) p v _ _ e noted).1
  rw [examineCalls, examineBy_eq read, noted, Visit.calls_of_invalidRows rows]
  rfl

/-- The calls of acceptance come first among those of examination. -/
theorem acceptCalls_isPrefix_of_listable {exact : Bool} (read : Pack.ofValue schema = .ok p)
    (listable : p.Meets (Pack.ListableIn exact) v) :
    acceptCalls check schema v exact s <+: examineCalls check schema v s := by
  rw [acceptCalls, examineCalls, acceptsBy_eq read, examineBy_eq read]
  exact (Pack.continues_examine check exact p v listable (s, [])).2

/-- Acceptance that accepts makes all the calls of examination. -/
theorem acceptCalls_eq_of_accepted {exact : Bool} (read : Pack.ofValue schema = .ok p)
    (listable : p.Meets (Pack.ListableIn exact) v) {u : σ}
    (h : acceptsBy check schema v (.bool exact) s = (.ok true, u)) :
    acceptCalls check schema v exact s = examineCalls check schema v s := by
  rw [acceptsBy_eq read] at h
  obtain ⟨added, noted⟩ := Pack.notes_accepts check exact p v s []
  rw [h] at noted
  obtain ⟨e, ended⟩ := (Pack.continues_examine check exact p v listable (s, [])).1 _ noted
  rw [acceptCalls, examineCalls, acceptsBy_eq read, examineBy_eq read, noted, ended]

/-- The calls of acceptance come first among those of examination, and are all of them if it
accepts. An examination that ends has called each check of a pack that is reached and applied to a
mapping, once and in depth-first order. The mappings on the way must be listable, unless acceptance
stops at them: they refuse a look-up for a rule, or in exact mode do not tell their keys or have one
without a rule. -/
theorem acceptCalls_isPrefix (check : Value → Value → Run σ Bool) (schema v : Value) (s : σ)
    (p : Pack Value Value) (read : Pack.ofValue schema = .ok p) :
    (∀ exact : Bool,
      (∀ path q w m, p.Reaches v path q w → w.mapping? = some m →
        (∃ entries, m.items = .ok entries) ∨
          (∃ entry ∈ q.rules, ∃ fault, m.get entry.1 = .error fault) ∨
          exact = true ∧ Pack.hasExtra q.rules m ≠ .ok false) →
      acceptCalls check schema v exact s <+: examineCalls check schema v s ∧
        ∀ u, acceptsBy check schema v (.bool exact) s = (.ok true, u) →
          acceptCalls check schema v exact s = examineCalls check schema v s) ∧
      (∀ e t, examineBy check schema v s = (.ok e, t) →
        examineCalls check schema v s = (p.visits v).filterMap Visit.call?) ∧
      (∀ path c x, .check path c x ∈ p.visits v ↔
        ∃ above key q w m n, path = above ++ [key] ∧ p.Reaches v above q w ∧
          w.mapping? = some m ∧ (key, .leaf n c) ∈ q.rules ∧ m.get key = .ok x) ∧
      ((∀ path q w, p.Reaches v path q w → q.keys.Nodup) →
        ((p.visits v).map Visit.path).Nodup) := by
  refine ⟨fun exact listable => ⟨?_, fun u accepted => ?_⟩, fun e t ended => ?_, fun path c x => ?_,
    fun distinct => ?_⟩
  · exact acceptCalls_isPrefix_of_listable read listable
  · exact acceptCalls_eq_of_accepted read listable accepted
  · exact examineCalls_eq read ended
  · exact Pack.mem_visits_check_iff
  · exact Pack.nodup_paths_visits distinct

/-- Two mappings, one below the other. In permissive mode the first check refuses, so that
acceptance stops after one of the two calls. In exact mode it stops at the lower mapping, which
cannot be listed but has a key without a rule. -/
theorem acceptCalls_isPrefix_nested :
    let number : Value := .callable 2 (.check .number)
    let text : Value := .callable 3 (.check .text)
    let schema : Value := .dict 4 [(.text "a", number), (.text "b", .dict 5 [(.text "c", text)])]
    let v : Value := .dict 6 [
      (.text "a", .text "one"), (.text "b", .dict 7 [(.text "c", .text "two")])]
    let lower : Value :=
      .probe 8 (.unlisted [(.text "c", .text "two"), (.text "d", .null)] ⟨false, false⟩)
    let w : Value := .dict 9 [(.text "a", .int 1), (.text "b", lower)]
    (acceptCalls Value.verdict schema v false .initial <+:
        examineCalls Value.verdict schema v .initial ∧
      acceptCalls Value.verdict schema v false .initial = [(number, .text "one")] ∧
      examineCalls Value.verdict schema v .initial =
        [(number, .text "one"), (text, .text "two")]) ∧
    acceptCalls Value.verdict schema w true .initial <+:
        examineCalls Value.verdict schema w .initial ∧
      acceptCalls Value.verdict schema w true .initial = [(number, .int 1)] ∧
      examineCalls Value.verdict schema w .initial = [(number, .int 1), (text, .text "two")] := by
  intro number text schema v lower w
  -- Two mappings are reached: the value itself and the one under its second key.
  have meets {exact : Bool} {n : Nat} {x y : Value} {m : Mapping} (mapping : y.mapping? = some m)
      (here : Pack.ListableIn exact [(.text "c", .leaf 0 text)] m) :
      (Pack.mk 0 [(.text "a", .leaf 0 number),
          (.text "b", .nested 0 (.mk 0 [(.text "c", .leaf 0 text)]))]).Meets
        (Pack.ListableIn exact) (.dict n [(.text "a", x), (.text "b", y)]) := by
    refine .mk rfl (.inl ⟨_, rfl⟩) fun key n q x rule lookup => ?_
    rcases List.mem_cons.mp rule with equal | rule
    · cases equal
    · cases List.mem_singleton.mp rule
      cases lookup
      exact .mk mapping here fun key n q x rule => by cases List.mem_singleton.mp rule
  obtain ⟨calls, visited, -⟩ := acceptCalls_isPrefix Value.verdict schema v .initial _ rfl
  obtain ⟨calls', -⟩ := acceptCalls_isPrefix Value.verdict schema w .initial _ rfl
  exact ⟨⟨(calls false (meets rfl (.inl ⟨_, rfl⟩))).1, rfl, visited _ _ rfl⟩,
    (calls' true (meets rfl (.inr (.inr ⟨rfl, nofun⟩)))).1, rfl, rfl⟩

/-- A mapping that refuses to be listed, where acceptance goes on to a call that the examination
never makes: in permissive mode below an empty pack, and in exact mode below one for its key. -/
theorem not_acceptCalls_isPrefix :
    (¬ ∀ (check : Value → Value → Run Session Bool) (schema v : Value) (s : Session)
        (p : Pack Value Value), Pack.ofValue schema = .ok p →
        acceptCalls check schema v false s <+: examineCalls check schema v s) ∧
      ¬ ∀ (check : Value → Value → Run Session Bool) (schema v : Value) (s : Session)
        (p : Pack Value Value), Pack.ofValue schema = .ok p →
        acceptCalls check schema v true s <+: examineCalls check schema v s := by
  let number : Value := .callable 4 (.check .number)
  constructor
  · intro claim
    let schema : Value := .dict 2 [(.text "a", .dict 3 []), (.text "b", number)]
    let v : Value := .dict 5 [(.text "a", .probe 6 .lookup), (.text "b", .int 1)]
    -- The examination ends at the empty pack, before it comes to the second rule.
    have accepting : acceptCalls Value.verdict schema v false .initial = [(number, .int 1)] := rfl
    have examining : examineCalls Value.verdict schema v .initial = [] := rfl
    have before := claim Value.verdict schema v .initial _ rfl
    rw [accepting, examining, List.prefix_nil] at before
    exact absurd before (by simp)
  · intro claim
    let schema : Value :=
      .dict 2 [(.text "a", .dict 3 [(.text "c", number)]), (.text "b", number)]
    let lower : Value := .probe 6 (.unlisted [(.text "c", .int 0)] ⟨false, false⟩)
    let v : Value := .dict 5 [(.text "a", lower), (.text "b", .int 1)]
    -- The examination ends after the rules of the pack below, when it comes to list the mapping.
    have accepting : acceptCalls Value.verdict schema v true .initial =
        [(number, .int 0), (number, .int 1)] := rfl
    have examining : examineCalls Value.verdict schema v .initial = [(number, .int 0)] := rfl
    have before := (claim Value.verdict schema v .initial _ rfl).length_le
    rw [accepting, examining] at before
    exact absurd before (by simp)

end Session

end Conformance
