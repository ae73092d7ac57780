import Conformance.Fault.Message
import Conformance.Proofs.Calls
import Conformance.Proofs.Parallel

/-!
# What checks raise

A check may give anything at all for a value, and may raise. Its result is taken as a condition; an
ordinary fault of the call or of the condition counts as a refusal and leaves one entry in the log.
So nothing that a check raises reaches the walk but its verdict, unless it asks the whole program to
stop.

This is shown once for every walk that treats its checks uniformly, which is to say that the walk is
parallel to itself under any two checks that are parallel. Both walks over a pack are of this kind.

## Main definitions

* `Session.verdictBy` — verdicts, where it is open what a callable gives for a value
* `Session.Attempt`, `Session.attempts` — the calls of a walk, with what each of them came to
* `Session.Uniform` — walks that do nothing with their checks but ask them
* `Session.Contained` — what such a walk makes of faults of its checks

## Main results

* `Session.contained_of_uniform` — a uniform walk contains the faults of its checks
* `Session.verdicts_contained` — acceptance and examination do
-/

namespace Conformance

variable {β : Type}

/-- A condition is refused with ordinary faults only. -/
theorem Value.isOrdinary_of_truth {v : Value} {fault : Fault} (h : v.truth = .error fault) :
    fault.isOrdinary = true := by
  cases v with
  | frame id columns rows cell => cases h; rfl
  | probe id p => cases p <;> cases h <;> rfl
  | _ => cases h

namespace Session

/-- What a callable says about a value, where `call` is what it gives for it. -/
def verdictBy (call : Value → Value → Run Session Value) (check observed : Value) :
    Run Session Bool :=
  verdict check (call check) observed

/-- What the given checks raise by being called are ordinary faults. -/
def RaiseOrdinarily (call : Value → Value → Run Session Value) (checks : List Value) : Prop :=
  ∀ f ∈ checks, ∀ x s fault t, call f x s = (.error fault, t) → fault.isOrdinary = true

/-! ### Calls and what they come to -/

/-- A call of a check. -/
structure Attempt where
  check : Value
  observed : Value
  /-- Its result as a condition, or what the call or the condition raised. -/
  answer : Except Fault Bool
  /-- What the call itself has added to the log. -/
  logged : List Record

/-- The entry of the log about an ordinary fault of a call. -/
def Attempt.record? (a : Attempt) : Option Record :=
  match a.answer with
  | .ok _ => none
  | .error fault =>
    if fault.isOrdinary then some (.checkRaised a.check fault.kind a.observed) else none

/-- What a call leaves in the log: its own entries, and one more if an ordinary fault was raised. -/
def Attempt.records (a : Attempt) : List Record := a.logged ++ a.record?.toList

/-- Whether a call ended without a fault that asks the whole program to stop. -/
def Attempt.Stays (a : Attempt) : Prop :=
  ∀ fault, a.answer = .error fault → fault.isOrdinary = true

/-- A verdict that notes the call that it rests on, and else does the same. -/
def attempting (call : Value → Value → Run Session Value) :
    Value → Value → Run (Session × List Attempt) Bool := fun f x s =>
  let called := callHolds (call f) x s.1
  let judged := verdictBy call f x s.1
  (judged.1,
    (judged.2, s.2 ++ [⟨f, x, called.1, called.2.records.drop s.1.records.length⟩]))

/-- A walk that is led by checks, whatever the state is that these work on. -/
abbrev Walk (β : Type) := ∀ σ : Type, (Value → Value → Run σ Bool) → Run σ β

/-- The calls that a walk makes, in order. -/
def attempts (walk : Walk β)
    (call : Value → Value → Run Session Value) (s : Session) : List Attempt :=
  (walk _ (attempting call) (s, [])).2.2

section Verdict

variable {call : Value → Value → Run Session Value} {f x : Value} {s t : Session}

theorem verdictBy_of_ok {b : Bool} (h : callHolds (call f) x s = (.ok b, t)) :
    verdictBy call f x s = (.ok b, t) := by
  have same : verdictBy call f x s = Run.recover (callHolds (call f) x) _ s := rfl
  rw [same, Run.recover, h]

theorem verdictBy_of_error {fault : Fault} (h : callHolds (call f) x s = (.error fault, t)) :
    verdictBy call f x s =
      if fault.isOrdinary then
        (.ok false, { t with records := t.records ++ [.checkRaised f fault.kind x] })
      else (.error fault, t) := by
  have same : verdictBy call f x s = Run.recover (callHolds (call f) x) _ s := rfl
  rw [same, Run.recover, h]
  dsimp only
  split <;> rfl

theorem callHolds_state (call : Value → Run Session Value) (x : Value) (s : Session) :
    (callHolds call x s).2 = (call x s).2 := by
  rw [callHolds, Run.bind_apply]
  rcases call x s with ⟨_ | _, _⟩ <;> rfl

/-- A check that raises ordinary faults only has a verdict about every value. -/
theorem exists_verdictBy {checks : List Value} (ordinary : RaiseOrdinarily call checks)
    (h : f ∈ checks) (x : Value) (s : Session) : ∃ b t, verdictBy call f x s = (.ok b, t) := by
  cases called : callHolds (call f) x s with
  | mk answer t =>
    cases answer with
    | ok b => exact ⟨b, t, verdictBy_of_ok called⟩
    | error fault =>
      have isOrdinary : fault.isOrdinary = true := by
        rw [callHolds, Run.bind_apply] at called
        cases result : call f x s with
        | mk given u =>
          rw [result] at called
          cases given with
          | error raised =>
            cases called
            exact ordinary f h x s fault t result
          | ok v => exact Value.isOrdinary_of_truth (Prod.mk.inj called).1
      exact ⟨false, _, by rw [verdictBy_of_error called, if_pos isOrdinary]⟩

end Verdict

/-! ### Walks that only ask their checks -/

/-- A walk treats the given checks uniformly if it is parallel to itself under parallel checks. A
refused look-up may end it, unless all mappings that it meets are readable. -/
def Uniform (checks : List Value) (readable : Prop) (walk : Walk β) : Prop :=
  ∀ (σ τ : Type) (R : σ → τ → Prop) (E : Fault → σ → τ → Prop) (check : Value → Value → Run σ Bool)
    (check' : Value → Value → Run τ Bool), Run.ParallelChecks R E check check' checks →
    (readable ∨ ∀ fault s t, R s t → E fault s t) →
    Run.Parallel R E Eq (walk σ check) (walk τ check')

/-- What a walk makes of faults of its checks. -/
structure Contained (call : Value → Value → Run Session Value) (checks : List Value)
    (readable : Prop) (walk : Walk β) : Prop where
  /-- Ordinary faults do not keep it from an answer. -/
  ends : readable → RaiseOrdinarily call checks →
    ∀ s, ∃ b t, walk Session (verdictBy call) s = (.ok b, t)
  /-- Its answer is the same with checks that give, call for call, the verdicts as truth values.
  What these do beside that is theirs: `R` tells which states belong together. -/
  judged : RaiseOrdinarily call checks →
    ∀ (R : Session → Session → Prop) (call' : Value → Value → Run Session Value),
      (∀ f ∈ checks, ∀ x s t, R s t → ∀ b u, verdictBy call f x s = (.ok b, u) →
        ∃ w, call' f x t = (.ok (.bool b), w) ∧ R u w) →
      ∀ s t, R s t → (walk Session (verdictBy call) s).1 = (walk Session (verdictBy call') t).1
  /-- Its attempts are its calls. -/
  called : ∀ s, (attempts walk call s).map (fun a => (a.check, a.observed)) =
    (walk _ (noting (verdictBy call)) (s, [])).2.2
  /-- The log grows by what each call adds by itself, followed by an entry if it raised. -/
  logged : (∀ f ∈ checks, ∀ x s, s.records <+: (call f x s).2.records) →
    ∀ s, (walk Session (verdictBy call) s).2.records =
      s.records ++ (attempts walk call s).flatMap Attempt.records
  /-- Where calls add nothing by themselves, the log grows by one entry for each that raised. -/
  quiet : (∀ f ∈ checks, ∀ x s, (call f x s).2.records = s.records) →
    ∀ s, (walk Session (verdictBy call) s).2.records =
      s.records ++ (attempts walk call s).filterMap Attempt.record?
  /-- A fault that asks the whole program to stop ends it as it is, right after its call. -/
  stopped : ∀ s, ∀ a ∈ attempts walk call s, ∀ fault, a.answer = .error fault →
    fault.isOrdinary = false →
      (walk Session (verdictBy call) s).1 = .error fault ∧ (attempts walk call s).getLast? = some a

/-- The attempts `l` account for the state `s`, which `t` has too. -/
structure Accounts (call : Value → Value → Run Session Value) (checks : List Value)
    (before : List Record) (s : Session) (t : Session × List Attempt) : Prop where
  state : t.1 = s
  records : (∀ f ∈ checks, ∀ x s, s.records <+: (call f x s).2.records) →
    s.records = before ++ t.2.flatMap Attempt.records
  quiet : (∀ f ∈ checks, ∀ x s, (call f x s).2.records = s.records) → ∀ a ∈ t.2, a.logged = []

/-- All calls have stayed, or the last one raised the fault. -/
def StoppedBy (fault : Fault) (l : List Attempt) : Prop :=
  (∀ a ∈ l, a.Stays) ∨
    ∃ earlier a, l = earlier ++ [a] ∧ (∀ b ∈ earlier, b.Stays) ∧ a.answer = .error fault

section Walk

variable {call : Value → Value → Run Session Value} {checks : List Value} {before : List Record}
  {f x : Value}

theorem attempting_eq {s u : Session} {l : List Attempt} {answer : Except Fault Bool}
    (h : callHolds (call f) x s = (answer, u)) :
    attempting call f x (s, l) = ((verdictBy call f x s).1, ((verdictBy call f x s).2,
      l ++ [⟨f, x, answer, u.records.drop s.records.length⟩])) := by
  rw [attempting, h]

/-- One more call is accounted for by its attempt. -/
theorem Accounts.attempt {s u : Session} {t : Session × List Attempt}
    {answer : Except Fault Bool} (h : Accounts call checks before s t) (leaf : f ∈ checks)
    (called : callHolds (call f) x s = (answer, u)) :
    Accounts call checks before (verdictBy call f x s).2
      ((verdictBy call f x s).2, t.2 ++ [⟨f, x, answer, u.records.drop s.records.length⟩]) := by
  have state : (call f x s).2 = u := by rw [← callHolds_state, called]
  refine ⟨rfl, fun adds => ?_, fun quiet a member => ?_⟩
  · obtain ⟨own, added⟩ := adds f leaf x s
    rw [state] at added
    have entry : (verdictBy call f x s).2.records = s.records ++
        (⟨f, x, answer, own⟩ : Attempt).records := by
      cases answer with
      | ok b => simp [verdictBy_of_ok called, Attempt.records, Attempt.record?, added]
      | error fault =>
        rw [verdictBy_of_error called]
        cases ordinary : fault.isOrdinary with
        | true => simp [Attempt.records, Attempt.record?, ordinary, ← added]
        | false => simp [Attempt.records, Attempt.record?, ordinary, ← added]
    rw [entry, List.flatMap_append, List.flatMap_singleton, ← List.append_assoc, ← h.records adds,
      ← added, List.drop_left]
  · rcases List.mem_append.mp member with member | member
    · exact h.quiet quiet a member
    · obtain rfl := List.mem_singleton.mp member
      have same := quiet f leaf x s
      rw [state] at same
      simp [same]

/-- Noting calls with what they came to changes nothing else. -/
theorem parallel_attempting (call : Value → Value → Run Session Value) (checks : List Value)
    (before : List Record) :
    Run.ParallelChecks (fun s t => Accounts call checks before s t ∧ ∀ a ∈ t.2, a.Stays)
      (fun fault s t => Accounts call checks before s t ∧ StoppedBy fault t.2)
      (verdictBy call) (attempting call) checks := by
  rintro f leaf x _ ⟨s, l⟩ ⟨accounts, stayed⟩
  obtain rfl := accounts.state
  cases called : callHolds (call f) x s with
  | mk answer u =>
    have further := accounts.attempt leaf called
    have staying (h : Attempt.Stays ⟨f, x, answer, u.records.drop s.records.length⟩) :
        ∀ a ∈ l ++ [⟨f, x, answer, u.records.drop s.records.length⟩], a.Stays := by
      intro a member
      rcases List.mem_append.mp member with member | member
      · exact stayed a member
      · exact List.mem_singleton.mp member ▸ h
    rw [attempting_eq called]
    cases answer with
    | ok b =>
      rw [verdictBy_of_ok called] at further ⊢
      exact .answer rfl ⟨further, staying fun fault raised => nomatch raised⟩
    | error fault =>
      rw [verdictBy_of_error called] at further ⊢
      cases ordinary : fault.isOrdinary with
      | true =>
        simp only [ordinary, if_true] at further ⊢
        refine .answer rfl ⟨further, staying fun raised equal => ?_⟩
        cases equal
        exact ordinary
      | false =>
        -- The fault ends the walk, and nothing is called after it.
        simp only [ordinary, Bool.false_eq_true, if_false] at further ⊢
        exact .fault ⟨further, .inr ⟨l, _, rfl, stayed, rfl⟩⟩

/-- What is noted of each call are the check and the value. -/
theorem parallel_noting (call : Value → Value → Run Session Value) (checks : List Value) :
    Run.ParallelChecks
      (fun (s : Session × List Attempt) (t : Session × List (Value × Value)) =>
        s.1 = t.1 ∧ s.2.map (fun a => (a.check, a.observed)) = t.2)
      (fun _ s t => s.1 = t.1 ∧ s.2.map (fun a => (a.check, a.observed)) = t.2)
      (attempting call) (noting (verdictBy call)) checks := by
  rintro f - x ⟨s, l⟩ ⟨_, _⟩ ⟨rfl, rfl⟩
  simp only [attempting, noting]
  cases (verdictBy call f x s).1 with
  | ok b => exact .answer rfl ⟨rfl, by simp⟩
  | error fault => exact .fault ⟨rfl, by simp⟩

variable {readable : Prop} {walk : Walk β}

theorem Attempt.flatMap_records {l : List Attempt} (quiet : ∀ a ∈ l, a.logged = []) :
    l.flatMap records = l.filterMap record? := by
  induction l with
  | nil => rfl
  | cons a l ih =>
    obtain ⟨own, others⟩ := List.forall_mem_cons.mp quiet
    rw [List.flatMap_cons, ih others, records, own, List.filterMap_cons]
    cases a.record? <;> rfl

section Uniform

variable (uniform : Uniform checks readable walk)
include uniform

theorem Uniform.ends (reads : readable) (ordinary : RaiseOrdinarily call checks) (s : Session) :
    ∃ b t, walk Session (verdictBy call) s = (.ok b, t) := by
  -- Beside itself, a walk in which nothing is raised has no fault to end with.
  have asked : Run.ParallelChecks Eq (fun _ _ _ => False) (verdictBy call) (verdictBy call)
      checks := by
    rintro f leaf x s _ rfl
    obtain ⟨b, t, judged⟩ := exists_verdictBy ordinary leaf x s
    rw [judged]
    exact .answer rfl rfl
  have same := uniform _ _ Eq (fun _ _ _ => False) _ _ asked (.inl reads) s s rfl
  cases ran : walk Session (verdictBy call) s with
  | mk answer t =>
    rw [ran] at same
    cases same with
    | answer answers states => exact ⟨_, t, rfl⟩
    | fault impossible => exact impossible.elim

theorem Uniform.judged (ordinary : RaiseOrdinarily call checks) (R : Session → Session → Prop)
    (call' : Value → Value → Run Session Value)
    (judging : ∀ f ∈ checks, ∀ x s t, R s t → ∀ b u, verdictBy call f x s = (.ok b, u) →
      ∃ w, call' f x t = (.ok (.bool b), w) ∧ R u w) (s t : Session) (states : R s t) :
    (walk Session (verdictBy call) s).1 = (walk Session (verdictBy call') t).1 := by
  have asked : Run.ParallelChecks R (fun _ _ _ => True) (verdictBy call) (verdictBy call')
      checks := by
    intro f leaf x s t states
    obtain ⟨b, u, judged⟩ := exists_verdictBy ordinary leaf x s
    obtain ⟨w, given, related⟩ := judging f leaf x s t states b u judged
    have holds : callHolds (call' f) x t = (.ok b, w) := Run.bind_apply_ok given _
    rw [judged, verdictBy_of_ok holds]
    exact .answer rfl related
  exact (uniform _ _ R _ _ _ asked (.inr fun _ _ _ _ => trivial) s t states).eq

theorem Uniform.called (call : Value → Value → Run Session Value) (s : Session) :
    (attempts walk call s).map (fun a => (a.check, a.observed)) =
      (walk _ (noting (verdictBy call)) (s, [])).2.2 := by
  have same := uniform _ _ _ _ _ _ (parallel_noting call checks) (.inr fun _ _ _ h => h) (s, [])
    (s, []) ⟨rfl, rfl⟩
  exact same.states (fun _ _ h => h.2) fun _ _ _ h => h.2

/-- The walk beside itself with its attempts noted. -/
theorem Uniform.attempted (call : Value → Value → Run Session Value) (s : Session) :
    Run.Ending (fun t u => Accounts call checks s.records t u ∧ ∀ a ∈ u.2, a.Stays)
      (fun fault t u => Accounts call checks s.records t u ∧ StoppedBy fault u.2) Eq
      (walk Session (verdictBy call) s) (walk _ (attempting call) (s, [])) :=
  uniform _ _ _ _ _ _ (parallel_attempting call checks s.records)
    (.inr fun _ _ _ h => ⟨h.1, .inl h.2⟩) s (s, []) ⟨⟨rfl, by simp, by simp⟩, by simp⟩

theorem Uniform.accounts (call : Value → Value → Run Session Value) (s : Session) :
    Accounts call checks s.records (walk Session (verdictBy call) s).2
      (walk _ (attempting call) (s, [])).2 :=
  (uniform.attempted call s).states (fun _ _ h => h.1) fun _ _ _ h => h.1

theorem Uniform.stopped (s : Session) {a : Attempt} (member : a ∈ attempts walk call s)
    {fault : Fault} (raised : a.answer = .error fault) (stops : fault.isOrdinary = false) :
    (walk Session (verdictBy call) s).1 = .error fault ∧
      (attempts walk call s).getLast? = some a := by
  have strays : ¬ a.Stays := fun stays => by simp [stays fault raised] at stops
  have ended := uniform.attempted call s
  rw [attempts] at member ⊢
  generalize walk Session (verdictBy call) s = left,
    walk _ (attempting call) (s, []) = right at ended member ⊢
  cases ended with
  | answer answers states => exact absurd (states.2 a member) strays
  | fault states =>
    -- Only the last call can be the one that did not stay.
    rcases states.2 with stayed | ⟨earlier, last, equal, stayed, raised'⟩
    · exact absurd (stayed a member) strays
    · rw [equal] at member ⊢
      rcases List.mem_append.mp member with member | member
      · exact absurd (stayed a member) strays
      · obtain rfl := List.mem_singleton.mp member
        cases raised.symm.trans raised'
        exact ⟨rfl, List.getLast?_concat⟩

/-- A walk that treats its checks uniformly contains their faults. -/
theorem contained_of_uniform (call : Value → Value → Run Session Value) :
    Contained call checks readable walk where
  ends := uniform.ends
  judged := uniform.judged
  called := uniform.called call
  logged adds s := (uniform.accounts call s).records adds
  quiet quiet s := by
    have own := (uniform.accounts call s).quiet quiet
    rw [attempts, ← Attempt.flatMap_records own]
    exact (uniform.accounts call s).records fun f leaf x s => by
      simp only [quiet f leaf x s, List.prefix_rfl]
  stopped s _ member _ raised stops := uniform.stopped s member raised stops

end Uniform

end Walk

theorem uniform_accepts (exact : Bool) (p : Pack Value Value) (v : Value) :
    Uniform p.leaves (p.MeetsReadable v) fun _ check => p.accepts check exact v :=
  fun _ _ _ _ _ _ asked readable =>
    Pack.parallel_accepts exact p v asked (readable.imp_left fun meets => meets.answers exact)

theorem uniform_examine (p : Pack Value Value) (v : Value) :
    Uniform p.leaves (p.MeetsReadable v) fun _ check => p.examine check v :=
  fun _ _ _ _ _ _ asked readable => Pack.parallel_examine p v asked readable

/-- Whatever the checks of a schema raise, acceptance and examination contain it, as long as the
mappings that they meet can be listed. -/
theorem verdicts_contained (call : Value → Value → Run Session Value) (schema v : Value)
    (p : Pack Value Value) (read : Pack.ofValue schema = .ok p) :
    (∀ exact, Contained call p.leaves
      (∀ path q w m, p.Reaches v path q w → w.mapping? = some m → ∃ entries, m.items = .ok entries)
      fun _ check => acceptsBy check schema v (.bool exact)) ∧
    Contained call p.leaves
      (∀ path q w m, p.Reaches v path q w → w.mapping? = some m → ∃ entries, m.items = .ok entries)
      fun _ check => examineBy check schema v := by
  constructor
  · intro exact
    refine contained_of_uniform (fun σ τ R E check check' asked readable => ?_) call
    rw [acceptsBy_eq read, acceptsBy_eq read]
    exact uniform_accepts exact p v σ τ R E check check' asked readable
  · refine contained_of_uniform (fun σ τ R E check check' asked readable => ?_) call
    rw [examineBy_eq read, examineBy_eq read]
    exact uniform_examine p v σ τ R E check check' asked readable

/-- A check that raises, one whose result refuses to be a condition, and one that refuses a value:
two entries in the log. And a check that asks the whole program to stop, after one that raises. -/
theorem verdicts_contained_raising :
    let boom : Value := .callable 2 (.primitive .boom)
    let odd : Value := .callable 3 (.const (.probe 4 .truth))
    let number : Value := .callable 5 (.check .number)
    let stop : Signal := ⟨"KeyboardInterrupt", none⟩
    let schema : Value := .dict 6 [
      (.text "a", boom), (.text "b", .dict 7 [(.text "c", odd), (.text "d", number)])]
    let schema' : Value := .dict 8 [
      (.text "a", boom), (.text "b", .callable 9 (.raising stop)), (.text "c", number)]
    let v : Value := .dict 10 [
      (.text "a", .int 1), (.text "b", .dict 11 [(.text "c", .int 2), (.text "d", .text "x")])]
    let e : Explanation := ⟨[
      .value (.text "a") (.int 1),
      .nested (.text "b") [.value (.text "c") (.int 2), .value (.text "d") (.text "x")]], []⟩
    (∃ t, examine schema v .initial = (.ok e, t) ∧ t.records =
      [.checkRaised boom "RuntimeError" (.int 1), .checkRaised odd "RuntimeError" (.int 2)]) ∧
    (examineBy (verdictBy fun f x => .bool <$> f.verdict x) schema v .initial).1 = .ok e ∧
    (∃ b t, accepts schema v (.bool false) .initial = (.ok b, t)) ∧
    (examine schema' v .initial).1 = .error (.raised stop) := by
  intro boom odd number stop schema schema' v e
  let p : Pack Value Value := .mk 0 [
    (.text "a", .leaf 0 boom),
    (.text "b", .nested 0 (.mk 0 [(.text "c", .leaf 0 odd), (.text "d", .leaf 0 number)]))]
  have leaves : p.leaves = [boom, odd, number] := rfl
  have ordinary : RaiseOrdinarily Value.apply p.leaves := by
    intro f leaf x s fault t raised
    simp only [leaves, List.mem_cons, List.not_mem_nil, or_false] at leaf
    rcases leaf with rfl | rfl | rfl <;> cases raised
    decide
  have quiet : ∀ f ∈ p.leaves, ∀ x s, (f.apply x s).2.records = s.records := by
    intro f leaf x s
    simp only [leaves, List.mem_cons, List.not_mem_nil, or_false] at leaf
    rcases leaf with rfl | rfl | rfl <;> rfl
  have readable : p.MeetsReadable v := by
    refine .mk rfl ⟨_, rfl⟩ fun key n q x rule lookup => ?_
    simp at rule
    obtain ⟨rfl, rfl, rfl⟩ := rule
    cases lookup
    exact .mk rfl ⟨_, rfl⟩ fun key n q x rule => by simp at rule
  obtain ⟨accepting, examining⟩ := verdicts_contained Value.apply schema v p rfl
  have examined : examine schema v .initial = (.ok e, (examine schema v .initial).2) := rfl
  have records := examining.quiet quiet .initial
  have judged := examining.judged ordinary Eq (fun f x => .bool <$> f.verdict x)
    (fun f _ x s t states b u verdict => by
      subst states
      exact ⟨u, Run.bind_apply_ok verdict _, rfl⟩) .initial .initial rfl
  -- The last call of the second examination is the one that stops it.
  have stopped := (verdicts_contained Value.apply schema' v _ rfl).2.stopped .initial
    ⟨.callable 9 (.raising stop), .dict 11 [(.text "c", .int 2), (.text "d", .text "x")],
      .error (.raised stop), []⟩ (.tail _ (.head _)) _ rfl (by decide)
  exact ⟨⟨_, examined, records⟩, judged.symm, (accepting false).ends readable ordinary .initial,
    stopped.1⟩

end Session

end Conformance
