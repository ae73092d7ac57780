import Mathlib.Data.List.Nodup
import Conformance.Proofs.Layout

/-!
# What a flat explanation tells

Laid out flat, an explanation becomes a list of rows, in each of which the keys that lead to the
value are joined by points. If all keys are texts without a point, the rows lose nothing. A path can
be taken apart into its keys again, even where a key is empty or the root has points. No two rows
have the same path, since no key is listed twice, and a key at which a value is extra is no key of
the pack. The rows below one key stand together, and there is at least one, so the tree can be told
from them.

## Main definitions

* `Value.isName`, `Pack.MeetsNames` — keys that can be told from a path
* `Finding.leaves` — the values that are reported, with the keys that lead to them
* `Finding.Tidy` — findings that can be told from their leaves
* `Pack.Blames`, `Pack.Locates` — the keys at which a pack finds fault with a value, and where

## Main results

* `Row.keysBelow_pathTo` — a path tells the keys that lead to it
* `Finding.eq_of_leavesIn`, `Finding.nodup_leavesIn` — the leaves tell the findings
* `Pack.locates_of_mem_leavesIn` — each leaf is at fault where a pack is applied
* `Session.rows_injective` — the rows of an examination tell what was found
-/

namespace Conformance

variable {σ α : Type}

/-! ### Names and paths -/

/-- Whether a key is a text without a point, possibly an empty one. -/
def Value.isName : Value → Bool
  | text s => !s.toList.contains '.'
  | _ => false

theorem Value.isName_iff {key : Value} :
    key.isName = true ↔ ∃ s : String, key = .text s ∧ '.' ∉ s.toList := by
  cases key <;> simp [isName]

theorem Value.not_apart_of_isName {key : Value} (h : key.isName) : ¬ key.Apart key := by
  obtain ⟨s, rfl, -⟩ := isName_iff.mp h
  simp [Apart, same, agree, agreeAt, agreeWhere, holds]

/-- Keys that are told apart by look-up are different, if they are names. -/
theorem Value.nodup_of_apart {keys : List Value} (apart : keys.Pairwise Value.Apart)
    (names : ∀ key ∈ keys, key.isName) : keys.Nodup := by
  refine apart.imp_of_mem fun {k k'} member _ apart equal => ?_
  subst equal
  exact not_apart_of_isName (names k member) apart

/-- On the way no pack has a key twice, and no mapping to which one is applied, and each key is a
text without a point. -/
def Pack.MeetsNames (p : Pack Value α) (v : Value) : Prop :=
  p.MeetsKeys (fun keys => keys.Pairwise Value.Apart ∧ ∀ key ∈ keys, key.isName) v

instance (p : Pack Value α) (v : Value) : Decidable (p.MeetsNames v) :=
  inferInstanceAs (Decidable (p.MeetsKeys (fun keys =>
    keys.Pairwise Value.Apart ∧ ∀ key ∈ keys, key.isName) v))

namespace Row

theorem toList_pathTo (root : String) {path : List Value} (h : path ≠ []) :
    (pathTo root path).toList = root.toList ++ ['.'] ++
      ['.'].intercalate ((path.map Value.display).map String.toList) := by
  obtain ⟨key, further, rfl⟩ := List.exists_cons_of_ne_nil h
  rw [pathTo, String.toList_intercalate]
  simp [List.intercalate]

/-- The names in a path below a root. -/
def keysBelow (root path : String) : List Value :=
  ((path.toList.drop (root.toList.length + 1)).splitOn '.').map fun part =>
    .text (String.ofList part)

/-- A path tells the keys that lead to it, if each of them is a name. -/
theorem keysBelow_pathTo (root : String) {path : List Value} (h : path ≠ [])
    (names : ∀ key ∈ path, key.isName) : keysBelow root (pathTo root path) = path := by
  have free : ∀ part ∈ (path.map Value.display).map String.toList, '.' ∉ part := by
    rw [List.map_map]
    intro part member
    obtain ⟨key, listed, rfl⟩ := List.mem_map.mp member
    obtain ⟨s, rfl, free⟩ := Value.isName_iff.mp (names key listed)
    exact free
  have taken : (pathTo root path).toList.drop (root.toList.length + 1) =
      ['.'].intercalate ((path.map Value.display).map String.toList) := by
    rw [toList_pathTo root h]
    exact List.drop_left' (by simp)
  rw [keysBelow, taken, List.splitOn_intercalate '.' free (by simpa using h), List.map_map,
    List.map_map]
  refine (List.map_congr_left fun key member => ?_).trans (List.map_id path)
  obtain ⟨s, rfl, -⟩ := Value.isName_iff.mp (names key member)
  exact congrArg Value.text String.ofList_toList

end Row

/-! ### Leaves -/

namespace Finding

mutual

/-- The values that a finding reports, each with the keys that lead to it. -/
def leaves : Finding → List (List Value × Value)
  | .value key v => [([key], v)]
  | .nested key findings => (leavesIn findings).map fun leaf => (key :: leaf.1, leaf.2)
termination_by structural a => a

/-- The values that findings report, each with the keys that lead to it. -/
def leavesIn : List Finding → List (List Value × Value)
  | [] => []
  | f :: fs => f.leaves ++ leavesIn fs
termination_by structural a => a

end

theorem leavesIn_append (fs gs : List Finding) :
    leavesIn (fs ++ gs) = leavesIn fs ++ leavesIn gs := by
  induction fs with
  | nil => rfl
  | cons f fs ih => rw [List.cons_append, leavesIn, leavesIn, ih, List.append_assoc]

theorem leavesIn_under (key : Value) (fs : List Finding) :
    leavesIn (under key fs) = (leavesIn fs).map fun leaf => (key :: leaf.1, leaf.2) := by
  cases fs with
  | nil => rfl
  | cons f fs => exact List.append_nil _

theorem leavesIn_values {β : Type} (key observed : β → Value) (items : List β) :
    leavesIn (items.map fun item => .value (key item) (observed item)) =
      items.map fun item => ([key item], observed item) := by
  induction items with
  | nil => rfl
  | cons item items ih => simp [leavesIn, leaves, ih]

theorem mem_leavesIn_iff {leaf : List Value × Value} {fs : List Finding} :
    leaf ∈ leavesIn fs ↔ ∃ f ∈ fs, leaf ∈ f.leaves := by
  induction fs with
  | nil => simp [leavesIn]
  | cons f fs ih => simp [leavesIn, ih]

theorem path_of_mem_leaves {leaf : List Value × Value} {f : Finding} (h : leaf ∈ f.leaves) :
    ∃ further, leaf.1 = f.key :: further := by
  cases f with
  | value key v =>
    obtain rfl := List.mem_singleton.mp h
    exact ⟨[], rfl⟩
  | nested key findings =>
    obtain ⟨below, -, rfl⟩ := List.mem_map.mp h
    exact ⟨below.1, rfl⟩

theorem path_of_mem_leavesIn {leaf : List Value × Value} {fs : List Finding}
    (h : leaf ∈ leavesIn fs) : ∃ k further, k ∈ fs.map key ∧ leaf.1 = k :: further := by
  obtain ⟨f, listed, member⟩ := mem_leavesIn_iff.mp h
  obtain ⟨further, path⟩ := path_of_mem_leaves member
  exact ⟨f.key, further, List.mem_map_of_mem listed, path⟩

mutual

/-- The rows of a finding are its leaves, with their keys joined. -/
theorem rows_eq_map_leaves (violation : Violation) {root : String} (h : root ≠ "") (f : Finding) :
    f.rows violation root =
      f.leaves.map fun leaf => ⟨Row.pathTo root leaf.1, violation, leaf.2⟩ := by
  cases f with
  | value key v =>
    rw [rows, leaves, List.map_singleton, Row.pathTo_singleton h]
  | nested key findings =>
    have below := rowsOf_eq_map_leavesIn violation (Row.extendPath_ne_empty h key) findings
    rw [rows, leaves, below, List.map_map]
    exact List.map_congr_left fun leaf _ => by rw [Function.comp_apply, Row.pathTo_cons h]

theorem rowsOf_eq_map_leavesIn (violation : Violation) {root : String} (h : root ≠ "")
    (fs : List Finding) :
    rowsOf violation root fs =
      (leavesIn fs).map fun leaf => ⟨Row.pathTo root leaf.1, violation, leaf.2⟩ := by
  match fs with
  | [] => rfl
  | f :: fs =>
    rw [rowsOf, leavesIn, rows_eq_map_leaves violation h, rowsOf_eq_map_leavesIn violation h,
      List.map_append]

end

/-- Whether below each key something is found, and no key twice, at every depth. -/
inductive Tidy : Finding → Prop
  | value (key observed : Value) : Tidy (.value key observed)
  | nested {key : Value} {findings : List Finding} (found : findings ≠ [])
      (distinct : (findings.map Finding.key).Nodup) (below : ∀ f ∈ findings, Tidy f) :
      Tidy (.nested key findings)

/-- Whether findings are tidy and told apart by their keys. -/
structure TidyIn (fs : List Finding) : Prop where
  distinct : (fs.map key).Nodup
  each : ∀ f ∈ fs, f.Tidy

theorem TidyIn.cons {f : Finding} {fs : List Finding} (h : TidyIn (f :: fs)) :
    f.Tidy ∧ f.key ∉ fs.map key ∧ TidyIn fs := by
  obtain ⟨new, distinct⟩ := List.nodup_cons.mp h.distinct
  obtain ⟨first, others⟩ := List.forall_mem_cons.mp h.each
  exact ⟨first, new, distinct, others⟩

theorem Tidy.inside {key : Value} {findings : List Finding}
    (h : (Finding.nested key findings).Tidy) : TidyIn findings := by
  cases h with
  | nested found distinct below => exact ⟨distinct, below⟩

theorem Tidy.leaves_ne_nil {f : Finding} (h : f.Tidy) : f.leaves ≠ [] := by
  induction h with
  | value key observed => exact nofun
  | @nested key findings found distinct below ih =>
    obtain ⟨f, fs, rfl⟩ := List.exists_cons_of_ne_nil found
    have first := ih f List.mem_cons_self
    simp [leaves, leavesIn, first]

/-- The leaves of a first finding are told from those of the others by the key. -/
theorem leaves_split {f g : Finding} {fs gs : List Finding} (new : f.key ∉ fs.map key)
    (new' : g.key ∉ gs.map key) (equal : f.key = g.key)
    (h : f.leaves ++ leavesIn fs = g.leaves ++ leavesIn gs) :
    f.leaves = g.leaves ∧ leavesIn fs = leavesIn gs := by
  classical
  have first : ∀ {f : Finding} {fs : List Finding}, f.key ∉ fs.map key →
      (f.leaves ++ leavesIn fs).filter (fun leaf => leaf.1.head? = some f.key) = f.leaves := by
    intro f fs new
    have here : f.leaves.filter (fun leaf => leaf.1.head? = some f.key) = f.leaves := by
      refine List.filter_eq_self.mpr fun leaf member => ?_
      obtain ⟨further, path⟩ := path_of_mem_leaves member
      simp [path]
    have others : (leavesIn fs).filter (fun leaf => leaf.1.head? = some f.key) = [] := by
      refine List.filter_eq_nil_iff.mpr fun leaf member => ?_
      obtain ⟨k, further, listed, path⟩ := path_of_mem_leavesIn member
      simp only [path, List.head?_cons, Option.some.injEq, decide_eq_true_eq]
      rintro rfl
      exact new listed
    rw [List.filter_append, here, others, List.append_nil]
  have same : f.leaves = g.leaves := by
    rw [← first new, h, equal, first new']
  exact ⟨same, List.append_cancel_left (same ▸ h)⟩

/-- Whoever has leaves tells its key by the first of them. -/
theorem key_eq_of_leaves {f g : Finding} {ls ms : List (List Value × Value)} (hf : f.Tidy)
    (hg : g.Tidy) (h : f.leaves ++ ls = g.leaves ++ ms) : f.key = g.key := by
  obtain ⟨leaf, ls', first⟩ := List.exists_cons_of_ne_nil hf.leaves_ne_nil
  obtain ⟨leaf', ms', first'⟩ := List.exists_cons_of_ne_nil hg.leaves_ne_nil
  rw [first, first'] at h
  obtain rfl := (List.cons.inj h).1
  obtain ⟨further, path⟩ := path_of_mem_leaves (first ▸ List.mem_cons_self)
  obtain ⟨further', path'⟩ := path_of_mem_leaves (first' ▸ List.mem_cons_self)
  exact (List.cons.inj (path.symm.trans path')).1

/-- A value stands one key below the root, and findings below a key stand further down. -/
theorem leaves_value_ne_nested (key key' v : Value) (findings : List Finding) :
    (value key v).leaves ≠ (nested key' findings).leaves := by
  intro h
  have member : ([key], v) ∈ (nested key' findings).leaves := h ▸ List.mem_singleton.mpr rfl
  obtain ⟨below, inside, equal⟩ := List.mem_map.mp member
  obtain ⟨k, further, -, path⟩ := path_of_mem_leavesIn inside
  rw [path] at equal
  cases equal

mutual

/-- A finding is told by its leaves. -/
theorem eq_of_leaves (f g : Finding) (hf : f.Tidy) (hg : g.Tidy) (h : f.leaves = g.leaves) :
    f = g := by
  match f, g with
  | .value key v, .value key' v' =>
    cases h
    rfl
  | .value key v, .nested key' gs => exact absurd h (leaves_value_ne_nested key key' v gs)
  | .nested key fs, .value key' v => exact absurd h.symm (leaves_value_ne_nested key' key v fs)
  | .nested key fs, .nested key' gs =>
    have keys : key = key' :=
      key_eq_of_leaves hf hg (by rw [List.append_nil, List.append_nil, h])
    subst keys
    have same : leavesIn fs = leavesIn gs := by
      refine (List.map_inj_right fun leaf leaf' equal => ?_).mp h
      obtain ⟨path, v⟩ := leaf
      cases equal
      rfl
    rw [eq_of_leavesIn fs gs hf.inside hg.inside same]

/-- Findings are told by their leaves. -/
theorem eq_of_leavesIn (fs gs : List Finding) (hf : TidyIn fs) (hg : TidyIn gs)
    (h : leavesIn fs = leavesIn gs) : fs = gs := by
  match fs, gs with
  | [], [] => rfl
  | [], g :: gs =>
    have silent : g.leaves ++ leavesIn gs = [] := h.symm
    exact absurd (List.append_eq_nil_iff.mp silent).1 hg.cons.1.leaves_ne_nil
  | f :: fs, [] =>
    have silent : f.leaves ++ leavesIn fs = [] := h
    exact absurd (List.append_eq_nil_iff.mp silent).1 hf.cons.1.leaves_ne_nil
  | f :: fs, g :: gs =>
    obtain ⟨tidy, new, others⟩ := hf.cons
    obtain ⟨tidy', new', others'⟩ := hg.cons
    rw [leavesIn, leavesIn] at h
    obtain ⟨first, further⟩ := leaves_split new new' (key_eq_of_leaves tidy tidy' h) h
    rw [eq_of_leaves f g tidy tidy' first, eq_of_leavesIn fs gs others others' further]

end

theorem nodup_leavesIn_of_forall {fs : List Finding} (distinct : (fs.map key).Nodup)
    (each : ∀ f ∈ fs, (f.leaves.map Prod.fst).Nodup) : ((leavesIn fs).map Prod.fst).Nodup := by
  induction fs with
  | nil => exact List.nodup_nil
  | cons f fs ih =>
    obtain ⟨new, distinct⟩ := List.nodup_cons.mp distinct
    obtain ⟨first, others⟩ := List.forall_mem_cons.mp each
    rw [leavesIn, List.map_append]
    refine List.nodup_append.mpr ⟨first, ih distinct others, ?_⟩
    -- A path of the first finding starts with its key, and no later finding has that key.
    intro path member path' member' same
    obtain ⟨leaf, inside, rfl⟩ := List.mem_map.mp member
    obtain ⟨leaf', inside', rfl⟩ := List.mem_map.mp member'
    obtain ⟨further, starts⟩ := path_of_mem_leaves inside
    obtain ⟨k, further', later, starts'⟩ := path_of_mem_leavesIn inside'
    rw [starts, starts'] at same
    obtain rfl := (List.cons.inj same).1
    exact new later

theorem Tidy.nodup_leaves {f : Finding} (h : f.Tidy) : (f.leaves.map Prod.fst).Nodup := by
  induction h with
  | value key observed => exact List.pairwise_singleton _ _
  | @nested key findings found distinct below ih =>
    have inside := nodup_leavesIn_of_forall distinct ih
    have paths : (Finding.nested key findings).leaves.map Prod.fst =
        ((leavesIn findings).map Prod.fst).map (key :: ·) := by
      simp [leaves, Function.comp_def]
    rw [paths]
    exact List.Pairwise.map _ (fun _ _ unequal same => unequal (List.cons.inj same).2) inside

/-- No two leaves of findings are reached by the same keys. -/
theorem nodup_leavesIn {fs : List Finding} (h : TidyIn fs) :
    ((leavesIn fs).map Prod.fst).Nodup :=
  nodup_leavesIn_of_forall h.distinct fun f member => (h.each f member).nodup_leaves

end Finding

/-! ### Where leaves are at fault -/

namespace Pack

/-- The keys at which a pack can find fault with a value: its own, and those of the value that have
no rule. -/
def Blames (p : Pack Value α) (v : Value) : Violation → Value → Prop
  | .invalid, key => key ∈ p.keys
  | .extra, key => p.has key = false ∧ ∃ entries, v.entries? = some entries ∧
      key ∈ entries.map (·.1)

/-- Where a pack, applied to a value, leads to a pack that finds fault with a key. -/
def Locates (p : Pack Value α) (v : Value) (violation : Violation) (path : List Value) : Prop :=
  ∃ above key q w, path = above ++ [key] ∧ p.Reaches v above q w ∧ q.Blames w violation key

theorem Locates.here {p : Pack Value α} {v key : Value} {violation : Violation}
    (h : p.Blames v violation key) : p.Locates v violation [key] :=
  ⟨[], key, p, v, rfl, .here p v, h⟩

theorem Locates.below {id : Nat} {rules : List (Value × Rule Value α)} {v : Value} {m : Mapping}
    {key : Value} {n : Nat} {q : Pack Value α} {x : Value} {violation : Violation}
    {path : List Value} (mapping : v.mapping? = some m) (rule : (key, .nested n q) ∈ rules)
    (lookup : m.get key = .ok x) (h : q.Locates x violation path) :
    (mk id rules).Locates v violation (key :: path) := by
  obtain ⟨above, last, q', w, rfl, reached, blamed⟩ := h
  exact ⟨key :: above, last, q', w, rfl, .through mapping rule lookup reached, blamed⟩

variable {check : α → Value → Run σ Bool}

/-- A leaf of what a rule of a pack finds is at fault there, if the leaves of a pack in it are. -/
theorem locates_of_examine_rule {id : Nat} {all : List (Value × Rule Value α)} {v key x : Value}
    {m : Mapping} {r : Rule Value α} {s t : σ} {e : Explanation} {violation : Violation}
    {leaf : List Value × Value} (mapping : v.mapping? = some m) (rule : (key, r) ∈ all)
    (lookup : m.get key = .ok x)
    (nested : ∀ n q, r = .nested n q → ∀ s t e, q.examine check x s = (.ok e, t) →
      ∀ leaf ∈ Finding.leavesIn (e.findings violation), q.Locates x violation leaf.1)
    (h : r.examine check key x s = (.ok e, t))
    (member : leaf ∈ Finding.leavesIn (e.findings violation)) :
    (mk id all).Locates v violation leaf.1 := by
  cases r with
  | leaf k c =>
    obtain ⟨b, -, rfl⟩ := Rule.examine_leaf_eq_ok_iff.mp h
    cases b with
    | true => cases violation <;> cases member
    | false =>
      cases violation with
      | invalid =>
        obtain rfl := List.mem_singleton.mp member
        exact .here (List.mem_map_of_mem (f := (·.1)) rule)
      | extra => cases member
  | nested k q =>
    obtain ⟨found, below, rfl⟩ := Rule.examine_nested_eq_ok_iff.mp h
    rw [Explanation.findings_under, Finding.leavesIn_under] at member
    obtain ⟨inner, inside, rfl⟩ := List.mem_map.mp member
    exact .below mapping rule lookup (nested k q rfl s t found below inner inside)

theorem locates_of_examineRules {id : Nat} {all rules : List (Value × Rule Value α)} {v : Value}
    {m : Mapping} {s t : σ} {e : Explanation} {violation : Violation} {leaf : List Value × Value}
    (mapping : v.mapping? = some m) (within : ∀ entry ∈ rules, entry ∈ all)
    (nested : ∀ key n q x, (key, .nested n q) ∈ rules → ∀ s t e,
      q.examine check x s = (.ok e, t) → ∀ leaf ∈ Finding.leavesIn (e.findings violation),
        q.Locates x violation leaf.1)
    (h : examineRules check rules m s = (.ok e, t))
    (member : leaf ∈ Finding.leavesIn (e.findings violation)) :
    (mk id all).Locates v violation leaf.1 := by
  induction rules generalizing s e with
  | nil =>
    obtain ⟨rfl, -⟩ := Run.pure_eq_ok_iff.mp h
    cases violation <;> cases member
  | cons entry rest ih =>
    obtain ⟨key, r⟩ := entry
    obtain ⟨x, here, others, u, lookup, examined, further, rfl⟩ := examineRules_cons_eq_ok_iff.mp h
    rw [Explanation.findings_append, Finding.leavesIn_append] at member
    rcases List.mem_append.mp member with member | member
    · exact locates_of_examine_rule mapping (within _ List.mem_cons_self) lookup
        (fun n q equal => nested key n q x (equal ▸ List.mem_cons_self)) examined member
    · exact ih (fun entry rule => within entry (List.mem_cons_of_mem _ rule))
        (fun k n q y rule => nested k n q y (List.mem_cons_of_mem _ rule)) further member

/-- Each leaf of an examination is at fault where the pack is applied: what is invalid at a key of
the pack that is reached, what is extra at a key of the value there that has no rule. -/
theorem locates_of_mem_leavesIn (p : Pack Value α) (v : Value) (s t : σ) (e : Explanation)
    (h : p.examine check v s = (.ok e, t)) (violation : Violation) (leaf : List Value × Value)
    (member : leaf ∈ Finding.leavesIn (e.findings violation)) : p.Locates v violation leaf.1 := by
  induction p using Pack.induction generalizing v s t e leaf with
  | step id rules ih =>
    cases mapping : v.mapping? with
    | none =>
      rw [examine_of_mapping?_eq_none mapping] at h
      obtain ⟨rfl, -⟩ := Run.pure_eq_ok_iff.mp h
      cases violation with
      | invalid =>
        rw [Explanation.findings, Finding.leavesIn_values] at member
        obtain ⟨entry, rule, rfl⟩ := List.mem_map.mp member
        exact .here (List.mem_map_of_mem (f := (·.1)) rule)
      | extra => cases member
    | some m =>
      obtain ⟨found, entries, examined, items, rfl⟩ := (examine_eq_ok_iff mapping).mp h
      have below : ∀ leaf ∈ Finding.leavesIn (found.findings violation),
          (mk id rules).Locates v violation leaf.1 := fun leaf =>
        locates_of_examineRules mapping (fun _ rule => rule)
          (fun key n q x rule s t e examined => ih key n q rule x s t e examined) examined
      cases violation with
      | invalid => exact below leaf member
      | extra =>
        rw [Explanation.findings, Finding.leavesIn_append, extras, Finding.leavesIn_values]
          at member
        rcases List.mem_append.mp member with member | member
        · obtain ⟨entry, new, rfl⟩ := List.mem_map.mp member
          obtain ⟨listed, new⟩ := List.mem_filter.mp new
          have new : hasRule rules entry.1 = false := by simpa using new
          exact .here ⟨new, entries, Value.entries?_eq_of_items mapping items,
            List.mem_map_of_mem (f := (·.1)) listed⟩
        · exact below leaf member

/-- The keys lead to one place only, if no pack on the way has a key twice. -/
theorem Reaches.unique {p q q' : Pack Value α} {v w w' : Value} {path : List Value}
    (distinct : ∀ path q w, p.Reaches v path q w → q.keys.Nodup) (h : p.Reaches v path q w)
    (h' : p.Reaches v path q' w') : q = q' ∧ w = w' := by
  induction h with
  | here p v =>
    cases h'
    exact ⟨rfl, rfl⟩
  | @through id rules v m key n q x path p w mapping rule lookup further ih =>
    cases h' with
    | @through _ _ _ m' _ n' r y _ _ _ mapping' rule' lookup' further' =>
      obtain rfl := Option.some.inj (mapping.symm.trans mapping')
      obtain rfl := Except.ok.inj (lookup.symm.trans lookup')
      have same := List.inj_on_of_nodup_map (distinct [] _ v (.here _ _)) rule rule' rfl
      obtain ⟨-, rfl⟩ := Rule.nested.inj (Prod.mk.inj same).2
      exact ih (fun path q w reached =>
        distinct (key :: path) q w (.through mapping rule lookup reached)) further'

namespace MeetsNames

theorem distinct {p : Pack Value α} {v : Value} (h : p.MeetsNames v) : p.MeetsDistinct v :=
  MeetsKeys.mono h fun _ known => known.1

theorem nodup_keys {p : Pack Value α} {v : Value} (h : p.MeetsNames v) (path : List Value)
    (q : Pack Value α) (w : Value) (reached : p.Reaches v path q w) : q.keys.Nodup :=
  have known := (h path q w reached).1
  Value.nodup_of_apart known.1 known.2

/-- The keys that lead anywhere are names. -/
theorem isName_of_reaches {p q : Pack Value α} {v w : Value} {path : List Value}
    (h : p.MeetsNames v) (reached : p.Reaches v path q w) : ∀ key ∈ path, key.isName := by
  induction reached with
  | here => exact nofun
  | @through id rules v m key n q x path p w mapping rule lookup further ih =>
    refine List.forall_mem_cons.mpr ⟨?_, ih (MeetsKeys.nested h mapping rule lookup)⟩
    exact (MeetsKeys.keys h).2 key (List.mem_map_of_mem (f := (·.1)) rule)

theorem isName_of_locates {p : Pack Value α} {v : Value} {violation : Violation}
    {path : List Value} (h : p.MeetsNames v) (located : p.Locates v violation path) :
    ∀ key ∈ path, key.isName := by
  obtain ⟨above, last, q, w, rfl, reached, blamed⟩ := located
  have lastName : last.isName := by
    cases violation with
    | invalid => exact (h above q w reached).1.2 last blamed
    | extra =>
      obtain ⟨-, entries, found, member⟩ := blamed
      exact ((h above q w reached).2 entries found).2 last member
  refine List.forall_mem_append.mpr ⟨h.isName_of_reaches reached, fun key member => ?_⟩
  obtain rfl := List.mem_singleton.mp member
  exact lastName

/-- No place is at fault in both ways. -/
theorem not_locates_extra {p : Pack Value α} {v : Value} {path : List Value} (h : p.MeetsNames v)
    (located : p.Locates v .invalid path) : ¬ p.Locates v .extra path := by
  have names := h.isName_of_locates located
  obtain ⟨above, last, q, w, rfl, reached, blamed⟩ := located
  rintro ⟨above', last', q', w', equal, reached', new, -⟩
  obtain ⟨rfl, ends⟩ := List.append_inj' equal rfl
  obtain rfl := (List.cons.inj ends).1
  obtain ⟨rfl, -⟩ := Reaches.unique h.nodup_keys reached reached'
  exact Value.not_apart_of_isName (names last (by simp)) (apart_of_hasRule_eq_false new blamed)

end MeetsNames

end Pack

namespace Finding

theorem isName_of_leavesIn {fs : List Finding} (tidy : ∀ f ∈ fs, f.Tidy)
    (names : ∀ leaf ∈ leavesIn fs, ∀ k ∈ leaf.1, k.isName) : ∀ k ∈ fs.map key, k.isName := by
  intro k member
  obtain ⟨f, listed, rfl⟩ := List.mem_map.mp member
  obtain ⟨leaf, others, first⟩ := List.exists_cons_of_ne_nil (tidy f listed).leaves_ne_nil
  have inside : leaf ∈ f.leaves := first ▸ List.mem_cons_self
  obtain ⟨further, path⟩ := path_of_mem_leaves inside
  exact names leaf (mem_leavesIn_iff.mpr ⟨f, listed, inside⟩) f.key (path ▸ List.mem_cons_self)

/-- What is laid out after a pack is tidy, if its leaves are reached by names. -/
theorem StandsIn.tidy {violation : Violation} {p : Pack Value α} {f : Finding}
    (h : f.StandsIn violation p) (names : ∀ leaf ∈ f.leaves, ∀ k ∈ leaf.1, k.isName) : f.Tidy := by
  induction h with
  | value p key observed => exact .value key observed
  | @nested p q key n findings rule found arranged apart below ih =>
    have inside : ∀ leaf ∈ leavesIn findings, ∀ k ∈ leaf.1, k.isName := fun leaf member k listed =>
      names _ (List.mem_map_of_mem member) k (List.mem_cons_of_mem _ listed)
    have tidy : ∀ f ∈ findings, f.Tidy := fun f listed =>
      ih f listed fun leaf member => inside leaf (mem_leavesIn_iff.mpr ⟨f, listed, member⟩)
    exact .nested found (Value.nodup_of_apart apart (isName_of_leavesIn tidy inside)) tidy

end Finding

theorem Pack.Lists.tidy {violation : Violation} {p : Pack Value α} {fs : List Finding}
    (h : p.Lists violation fs)
    (names : ∀ leaf ∈ Finding.leavesIn fs, ∀ k ∈ leaf.1, k.isName) : Finding.TidyIn fs := by
  have tidy : ∀ f ∈ fs, f.Tidy := fun f listed => (h.stands f listed).tidy fun leaf member =>
    names leaf (Finding.mem_leavesIn_iff.mpr ⟨f, listed, member⟩)
  exact ⟨Value.nodup_of_apart h.apart (Finding.isName_of_leavesIn tidy names), tidy⟩

/-! ### Rows -/

namespace Explanation

theorem filter_rows (root : String) (e : Explanation) (violation : Violation) :
    (e.rows root).filter (fun r => r.violation = violation) =
      Finding.rowsOf violation root (e.findings violation) := by
  have own : ∀ violation fs, (Finding.rowsOf violation root fs).filter
      (fun r => r.violation = violation) = Finding.rowsOf violation root fs := fun violation fs =>
    List.filter_eq_self.mpr fun r member => by simp [Finding.violation_of_mem_rowsOf member]
  have other : ∀ violation violation' fs, violation ≠ violation' →
      (Finding.rowsOf violation root fs).filter (fun r => r.violation = violation') = [] :=
    fun violation violation' fs unequal =>
      List.filter_eq_nil_iff.mpr fun r member => by
        simpa [Finding.violation_of_mem_rowsOf member] using unequal
  rw [rows, List.filter_append]
  cases violation with
  | invalid => rw [own, other _ _ _ (by decide), List.append_nil, findings]
  | extra => rw [own, other _ _ _ (by decide), List.nil_append, findings]

/-- The leaves of each violation are told by the rows, if they are reached by names. -/
theorem leavesIn_eq_map_rows {root : String} (hroot : root ≠ "") {e : Explanation}
    {violation : Violation}
    (names : ∀ leaf ∈ Finding.leavesIn (e.findings violation), ∀ k ∈ leaf.1, k.isName) :
    Finding.leavesIn (e.findings violation) =
      ((e.rows root).filter fun r => r.violation = violation).map fun r =>
        (Row.keysBelow root r.path, r.value) := by
  rw [filter_rows, Finding.rowsOf_eq_map_leavesIn violation hroot, List.map_map]
  refine (List.map_id _).symm.trans (List.map_congr_left fun leaf member => ?_)
  obtain ⟨k, further, -, path⟩ := Finding.path_of_mem_leavesIn member
  have nonempty : leaf.1 ≠ [] := by simp [path]
  rw [Function.comp_apply, Row.keysBelow_pathTo root nonempty (names leaf member)]
  rfl

end Explanation

namespace Pack

variable {check : α → Value → Run σ Bool} {p : Pack Value α} {v : Value} {s t : σ}
  {e : Explanation}

/-- What is known of the leaves of an examination by names: they are reached by names, no two of one
violation by the same, and they tell the findings. -/
theorem leaves_of_examine (names : p.MeetsNames v) (h : p.examine check v s = (.ok e, t))
    (violation : Violation) :
    (∀ leaf ∈ Finding.leavesIn (e.findings violation), ∀ k ∈ leaf.1, k.isName) ∧
      Finding.TidyIn (e.findings violation) := by
  have named : ∀ leaf ∈ Finding.leavesIn (e.findings violation), ∀ k ∈ leaf.1, k.isName :=
    fun leaf member =>
      names.isName_of_locates (locates_of_mem_leavesIn p v s t e h violation leaf member)
  exact ⟨named, (lists_of_examine p v names.distinct s t e h violation).tidy named⟩

/-- No two rows of an examination by names have the same path, not even of two violations. -/
theorem nodup_paths_of_examine (names : p.MeetsNames v) (h : p.examine check v s = (.ok e, t))
    {root : String} (hroot : root ≠ "") : ((e.rows root).map Row.path).Nodup := by
  have known := leaves_of_examine names h
  -- It is enough that the keys which the paths tell are different.
  have keys : ((e.rows root).map Row.path).map (Row.keysBelow root) =
      (Finding.leavesIn e.invalid ++ Finding.leavesIn e.extra).map Prod.fst := by
    have told : ∀ violation, ((Finding.rowsOf violation root (e.findings violation)).map
        Row.path).map (Row.keysBelow root) =
          (Finding.leavesIn (e.findings violation)).map Prod.fst := by
      intro violation
      rw [e.leavesIn_eq_map_rows hroot (known violation).1, e.filter_rows]
      simp [Function.comp_def]
    rw [Explanation.rows, List.map_append, List.map_append, List.map_append]
    exact congrArg₂ (· ++ ·) (told .invalid) (told .extra)
  refine List.Nodup.of_map (Row.keysBelow root) ?_
  rw [keys, List.map_append]
  refine List.nodup_append.mpr ⟨Finding.nodup_leavesIn (known .invalid).2,
    Finding.nodup_leavesIn (known .extra).2, ?_⟩
  intro path member path' member' same
  obtain ⟨leaf, invalid, rfl⟩ := List.mem_map.mp member
  obtain ⟨leaf', extra, rfl⟩ := List.mem_map.mp member'
  have located := locates_of_mem_leavesIn p v s t e h .extra leaf' extra
  rw [← same] at located
  exact names.not_locates_extra (locates_of_mem_leavesIn p v s t e h .invalid leaf invalid) located

/-- Two examinations by names that have the same rows have found the same. -/
theorem eq_of_rows_of_examine {p' : Pack Value α} {v' : Value} {s' t' : σ} {e' : Explanation}
    (names : p.MeetsNames v) (names' : p'.MeetsNames v') (h : p.examine check v s = (.ok e, t))
    (h' : p'.examine check v' s' = (.ok e', t')) {root : String} (hroot : root ≠ "")
    (rows : e.rows root = e'.rows root) : e = e' := by
  have same : ∀ violation, e.findings violation = e'.findings violation := by
    intro violation
    obtain ⟨named, tidy⟩ := leaves_of_examine names h violation
    obtain ⟨named', tidy'⟩ := leaves_of_examine names' h' violation
    refine Finding.eq_of_leavesIn _ _ tidy tidy' ?_
    rw [e.leavesIn_eq_map_rows hroot named, e'.leavesIn_eq_map_rows hroot named', rows]
  obtain ⟨invalid, extra⟩ := e
  obtain ⟨invalid', extra'⟩ := e'
  exact congrArg₂ Explanation.mk (same .invalid) (same .extra)

end Pack

namespace Session

/-- Laid out flat below any root but an empty one, an examination loses nothing if all keys are
texts without a point: no path stands there twice, and from the same rows the same explanation was
made, with the same keys and values in the same order. No value that is reported may be a list that
stands for findings. -/
theorem rows_injective (check : Value → Value → Run Session Bool) (root : String)
    (hroot : root ≠ "") (schema schema' v v' : Value) (s t s' t' : Session)
    (p p' : Pack Value Value) (e e' : Explanation) (read : Pack.ofValue schema = .ok p)
    (read' : Pack.ofValue schema' = .ok p') (names : p.MeetsNames v) (names' : p'.MeetsNames v')
    (h : examineBy check schema v s = (.ok e, t))
    (h' : examineBy check schema' v' s' = (.ok e', t'))
    (plain : ∀ w ∈ e.reported, w.isBranch = false)
    (plain' : ∀ w ∈ e'.reported, w.isBranch = false) :
    ∃ rows rows', Value.rows (.text root) e.toValue = .ok rows ∧
      Value.rows (.text root) e'.toValue = .ok rows' ∧ (rows.map Row.path).Nodup ∧
      (rows = rows' → e = e') := by
  obtain ⟨q, readq, examined⟩ := exists_pack_of_examineBy h
  obtain ⟨q', readq', examined'⟩ := exists_pack_of_examineBy h'
  obtain rfl := Except.ok.inj (read.symm.trans readq)
  obtain rfl := Except.ok.inj (read'.symm.trans readq')
  exact ⟨e.rows root, e'.rows root, Value.rows_toValue e root plain,
    Value.rows_toValue e' root plain', Pack.nodup_paths_of_examine names examined hroot,
    Pack.eq_of_rows_of_examine names names' examined examined' hroot⟩

/-- Empty keys, and a root with a point. Another schema and another value, a read-only one with its
entries in another order, have the same rows. -/
theorem rows_injective_empty_keys :
    let p : Pack Value Value := .mk 0 [
      (.text "", .nested 0 (.mk 0 [(.text "", .leaf 0 (.callable 4 (.check .number)))]))]
    let schema : Value := .dict 2 [(.text "", .dict 3 [(.text "", .callable 4 (.check .number))])]
    let v : Value := .dict 5 [
      (.text "", .dict 6 [(.text "", .text "one"), (.text "b", .int 1)])]
    let p' : Pack Value Value := .mk 0 [
      (.text "c", .leaf 0 (.callable 9 (.check .text))),
      (.text "", .nested 0 (.mk 0 [(.text "", .leaf 0 (.callable 10 (.check .mapping)))]))]
    let schema' : Value := .dict 7 [
      (.text "c", .callable 9 (.check .text)),
      (.text "", .dict 8 [(.text "", .callable 10 (.check .mapping))])]
    let v' : Value := .view [
      (.text "c", .text "two"), (.text "", .view [(.text "b", .int 1), (.text "", .text "one")])]
    ∃ e e', Pack.ofValue schema = .ok p ∧ Pack.ofValue schema' = .ok p' ∧
      p.MeetsNames v ∧ p'.MeetsNames v' ∧
      examineBy Value.verdict schema v .initial = (.ok e, .initial) ∧
      examineBy Value.verdict schema' v' .initial = (.ok e', .initial) ∧
      (∀ w ∈ e.reported, w.isBranch = false) ∧ (∀ w ∈ e'.reported, w.isBranch = false) ∧
      Value.rows (.text "r.s") e.toValue = .ok [
        ⟨"r.s..", .invalid, .text "one"⟩, ⟨"r.s..b", .extra, .int 1⟩] ∧
      Value.rows (.text "r.s") e'.toValue = Value.rows (.text "r.s") e.toValue ∧ e = e' := by
  intro p schema v p' schema' v'
  let e : Explanation := ⟨[.nested (.text "") [.value (.text "") (.text "one")]],
    [.nested (.text "") [.value (.text "b") (.int 1)]]⟩
  have read : Pack.ofValue schema = .ok p := rfl
  have read' : Pack.ofValue schema' = .ok p' := rfl
  have names : p.MeetsNames v := by decide
  have names' : p'.MeetsNames v' := by decide
  have examined : examineBy Value.verdict schema v .initial = (.ok e, .initial) := rfl
  have examined' : ∃ e', examineBy Value.verdict schema' v' .initial = (.ok e', .initial) ∧
      Value.rows (.text "r.s") e'.toValue = Value.rows (.text "r.s") e.toValue ∧
      ∀ w ∈ e'.reported, w.isBranch = false := ⟨_, rfl, rfl, by decide⟩
  obtain ⟨e', examined', laid, plain'⟩ := examined'
  have plain : ∀ w ∈ e.reported, w.isBranch = false := by decide
  obtain ⟨rows, rows', told, told', -, same⟩ := rows_injective Value.verdict "r.s" (by decide)
    schema schema' v v' .initial _ .initial _ p p' e e' read read' names names' examined examined'
    plain plain'
  have equal : rows = rows' := Except.ok.inj (told.symm.trans (laid.symm.trans told'))
  exact ⟨e, e', read, read', names, names', examined, examined', plain, plain', rfl, laid,
    same equal⟩

end Session

end Conformance
