import Conformance.Callable.Checks
import Conformance.Proofs.Streams

/-!
# Values with other numbers

The containers in a value carry numbers, by which they are known to be the same. Nothing that a
value says about itself depends on them: not its shape, its truth, the number of its items or what
it can be found by, nor what it agrees with. Keys are left as they are, as they hold no container
that has a number.

## Main definitions

* `Value.renumber` — the same value with other numbers for its containers, at every depth

## Main results

* `Value.agreeAt_renumber` — agreement does not see the numbers
* `Mapping.get_renumber`, `Value.mapping?_renumber` — reading a mapping
* `Value.iterate_renumber` — reading the items of a collection
-/

namespace Conformance

namespace Value

mutual

/-- The same value with `n` added to the numbers of its containers, those of keys apart. -/
def renumber (n : Nat) : Value → Value
  | bytearray i data => bytearray (i + n) data
  | list i items => list (i + n) (renumberItems n items)
  | branch i items => branch (i + n) (renumberItems n items)
  | tuple items => tuple (renumberItems n items)
  | set i items => set (i + n) (renumberItems n items)
  | frozenset items => frozenset (renumberItems n items)
  | dict i entries => dict (i + n) (renumberEntries n entries)
  | view entries => view (renumberEntries n entries)
  | frame i columns rows cell => frame i (renumberItems n columns) rows cell
  | probe i p => probe i (renumberProbe n p)
  | v => v
termination_by structural a => a

/-- The same object of another class with other numbers for what it holds. -/
def renumberProbe (n : Nat) : Probe → Probe
  | .unlisted entries refusals => .unlisted (renumberEntries n entries) refusals
  | .indexed items => .indexed (renumberItems n items)
  | p => p
termination_by structural a => a

/-- The same items with other numbers. -/
def renumberItems (n : Nat) : List Value → List Value
  | [] => []
  | v :: vs => v.renumber n :: renumberItems n vs
termination_by structural a => a

/-- The same entries with other numbers for their values. -/
def renumberEntries (n : Nat) : List (Value × Value) → List (Value × Value)
  | [] => []
  | (k, v) :: rest => (k, v.renumber n) :: renumberEntries n rest
termination_by structural a => a

end

theorem renumberItems_eq_map (n : Nat) (items : List Value) :
    renumberItems n items = items.map (renumber n) := by
  induction items with
  | nil => rfl
  | cons v vs ih => rw [renumberItems, ih, List.map_cons]

theorem renumberEntries_eq_map (n : Nat) (entries : List (Value × Value)) :
    renumberEntries n entries = entries.map fun entry => (entry.1, entry.2.renumber n) := by
  induction entries with
  | nil => rfl
  | cons entry rest ih => rw [renumberEntries, ih, List.map_cons]

mutual

/-- Adding nothing to the numbers leaves a value as it is. -/
theorem renumber_zero (v : Value) : v.renumber 0 = v := by
  cases v with
  | list i items | branch i items | set i items =>
    rw [renumber, renumberItems_zero, Nat.add_zero]
  | tuple items | frozenset items => rw [renumber, renumberItems_zero]
  | dict i entries => rw [renumber, renumberEntries_zero, Nat.add_zero]
  | view entries => rw [renumber, renumberEntries_zero]
  | frame i columns rows cell => rw [renumber, renumberItems_zero]
  | probe i p => rw [renumber, renumberProbe_zero]
  | _ => rfl

theorem renumberProbe_zero (p : Probe) : renumberProbe 0 p = p := by
  cases p with
  | unlisted entries refusals => rw [renumberProbe, renumberEntries_zero]
  | indexed items => rw [renumberProbe, renumberItems_zero]
  | _ => rfl

theorem renumberItems_zero (items : List Value) : renumberItems 0 items = items := by
  match items with
  | [] => rfl
  | v :: vs => rw [renumberItems, renumber_zero, renumberItems_zero]

theorem renumberEntries_zero (entries : List (Value × Value)) :
    renumberEntries 0 entries = entries := by
  match entries with
  | [] => rfl
  | (k, v) :: rest => rw [renumberEntries, renumber_zero, renumberEntries_zero]

end

/-! ### What a value says about itself -/

variable (n : Nat) (v w : Value)

@[simp] theorem typeName_renumber : (w.renumber n).typeName = w.typeName := by
  cases w with
  | probe i p => cases p <;> rfl
  | _ => rfl

@[simp] theorem number?_renumber : (w.renumber n).number? = w.number? := by
  cases w <;> rfl

@[simp] theorem bytes?_renumber : (w.renumber n).bytes? = w.bytes? := by
  cases w <;> rfl

@[simp] theorem identity?_renumber : (w.renumber n).identity? = w.identity? := by
  cases w <;> rfl

@[simp] theorem isMapping_renumber : (w.renumber n).isMapping = w.isMapping := by
  cases w with
  | probe i p => cases p <;> rfl
  | _ => rfl

@[simp] theorem length?_renumber : (w.renumber n).length? = w.length? := by
  cases w with
  | probe i p =>
    cases p <;>
      simp [renumber, renumberProbe, length?, renumberItems_eq_map, renumberEntries_eq_map]
  | _ => simp [renumber, length?, renumberItems_eq_map, renumberEntries_eq_map]

@[simp] theorem count?_renumber : (w.renumber n).count? = w.count? := by
  have length := length?_renumber n w
  cases w <;> simp_all [renumber, count?]

theorem list?_renumber : (w.renumber n).list? = w.list?.map (List.map (renumber n)) := by
  cases w <;> simp [renumber, list?, renumberItems_eq_map]

theorem tuple?_renumber : (w.renumber n).tuple? = w.tuple?.map (List.map (renumber n)) := by
  cases w <;> simp [renumber, tuple?, renumberItems_eq_map]

theorem set?_renumber : (w.renumber n).set? = w.set?.map (List.map (renumber n)) := by
  cases w <;> simp [renumber, set?, renumberItems_eq_map]

/-- The entries of a mapping. Those of a pack have rules for values, which carry no numbers of
containers. -/
theorem entries?_renumber :
    (w.renumber n).entries? =
      w.entries?.map (List.map fun entry => (entry.1, entry.2.renumber n)) := by
  cases w with
  | probe i p =>
    cases p with
    | unlisted entries refusals =>
      simp only [renumber, renumberProbe, entries?, renumberEntries_eq_map, List.isEmpty_map]
      split <;> rfl
    | _ => rfl
  | _ => simp [renumber, entries?, renumberEntries_eq_map, Function.comp_def]

/-! ### Agreement -/

variable {n v w} {side : Side}

@[simp] theorem defersTo_renumber : v.defersTo (w.renumber n) = v.defersTo w := by
  cases v <;> cases w <;> rfl

@[simp] theorem renumber_defersTo : (w.renumber n).defersTo v = w.defersTo v := by
  cases w <;> cases v <;> rfl

@[simp] theorem sideAgainst_renumber :
    v.sideAgainst side (w.renumber n) = v.sideAgainst side w := by
  cases side <;> simp [sideAgainst]

@[simp] theorem foreign_renumber : foreign (w.renumber n) = foreign w := by
  cases w with
  | probe i p => cases p <;> rfl
  | _ => rfl

theorem agreeWhere_renumber {equal : Value → Bool} (h : equal (w.renumber n) = equal w) :
    agreeWhere equal (w.renumber n) = agreeWhere equal w := by
  rw [agreeWhere, agreeWhere, h, foreign_renumber]

theorem agreeNumber_renumber (m : Number) :
    agreeNumber m (w.renumber n) = agreeNumber m w := by
  simp only [agreeNumber, number?_renumber, foreign_renumber]

theorem agreeObject_renumber (i : Nat) : agreeObject v i (w.renumber n) = agreeObject v i w := by
  simp only [agreeObject, identity?_renumber, typeName_renumber, isMapping_renumber,
    foreign_renumber]

/-- A comparison by parts, if it does not see the numbers in the parts. -/
theorem agreeFamily_renumber {α : Type} {family : Option α} {f : α → α}
    {compare : α → Except Fault Bool} (h : ∀ a, compare (f a) = compare a) :
    agreeFamily (family.map f) compare (w.renumber n) = agreeFamily family compare w := by
  cases family with
  | none => exact foreign_renumber
  | some part => exact h part

namespace Comparand

/-- An entry that does not see the numbers in what it is compared with. -/
def Blind (n : Nat) (c : Comparand) : Prop :=
  ∀ side w, c.compare side (w.renumber n) = c.compare side w

variable {comparands : List Comparand}

theorem inOwnOrder_renumber (blind : ∀ c ∈ comparands, c.Blind n)
    (entries : List (Value × Value)) :
    inOwnOrder comparands (entries.map fun entry => (entry.1, entry.2.renumber n)) =
      inOwnOrder comparands entries := by
  induction comparands with
  | nil => rfl
  | cons c rest ih =>
    obtain ⟨here, others⟩ := List.forall_mem_cons.mp blind
    have found : find? c.isKey (entries.map fun entry => (entry.1, entry.2.renumber n)) =
        (find? c.isKey entries).map (renumber n) := by
      simp [find?, List.find?_map, Function.comp_def]
    rw [inOwnOrder, inOwnOrder, found]
    cases find? c.isKey entries with
    | none => rfl
    | some x =>
      simp only [Option.map_some, here .left x, ih others]

theorem inOrderOf_renumber (blind : ∀ c ∈ comparands, c.Blind n)
    (entries : List (Value × Value)) :
    inOrderOf comparands (entries.map fun entry => (entry.1, entry.2.renumber n)) =
      inOrderOf comparands entries := by
  induction entries with
  | nil => rfl
  | cons entry rest ih =>
    obtain ⟨k, x⟩ := entry
    rw [List.map_cons, inOrderOf, inOrderOf]
    cases found : comparands.find? fun c => c.isKey k with
    | none => rfl
    | some c => simp only [blind c (List.mem_of_find?_eq_some found) .right x, ih]

theorem agree_renumber (blind : ∀ c ∈ comparands, c.Blind n) (side : Side)
    (entries : List (Value × Value)) :
    agree comparands side (entries.map fun entry => (entry.1, entry.2.renumber n)) =
      agree comparands side entries := by
  cases side <;>
    simp only [agree, List.length_map, inOwnOrder_renumber blind, inOrderOf_renumber blind]

end Comparand

theorem agreeMapping_renumber {comparands : List Comparand}
    (blind : ∀ c ∈ comparands, c.Blind n) :
    agreeMapping comparands side (w.renumber n) = agreeMapping comparands side w := by
  have family : agreeFamily (w.renumber n).entries? (Comparand.agree comparands side)
      (w.renumber n) = agreeFamily w.entries? (Comparand.agree comparands side) w := by
    rw [entries?_renumber]
    exact agreeFamily_renumber (Comparand.agree_renumber blind side)
  cases w with
  | probe i p => cases p <;> rfl
  | _ => exact family

mutual

/-- What a value agrees with does not depend on numbers of containers. -/
theorem agreeAt_renumber (n : Nat) (v : Value) (side : Side) (w : Value) :
    agreeAt v side (w.renumber n) = agreeAt v side w := by
  cases v with
  | null | text s | range start stop step =>
    rw [agreeAt, agreeAt]
    exact agreeWhere_renumber (by cases w <;> rfl)
  | bytes data | bytearray i data =>
    rw [agreeAt, agreeAt]
    exact agreeWhere_renumber (by rw [bytes?_renumber])
  | bool b | int m | float x =>
    rw [agreeAt, agreeAt]
    exact agreeNumber_renumber _
  | list i items | branch i items =>
    rw [agreeAt, agreeAt, list?_renumber, sideAgainst_renumber]
    exact agreeFamily_renumber fun items' => by
      rw [List.length_map, agreeItems_renumber]
  | tuple items =>
    rw [agreeAt, agreeAt, tuple?_renumber]
    exact agreeFamily_renumber fun items' => by
      rw [List.length_map, agreeItems_renumber]
  | set i items | frozenset items =>
    rw [agreeAt, agreeAt, set?_renumber]
    exact agreeFamily_renumber fun items' => by
      rw [List.length_map, contained_renumber]
  | dict i entries | view entries =>
    rw [agreeAt, agreeAt, sideAgainst_renumber]
    exact agreeMapping_renumber (comparands_blind n entries)
  | pack p =>
    cases p with
    | mk i rules =>
      rw [agreeAt, agreeAt, sideAgainst_renumber]
      exact agreeMapping_renumber (comparandsOfRules_blind n rules)
  | nan i | stream i items | rowStream i e r | frame i columns rows cell | probe i p
  | callable i f | rule r | settings s =>
    rw [agreeAt, agreeAt]
    exact agreeObject_renumber _

theorem agreeItems_renumber (n : Nat) (vs : List Value) (side : Side) (ws : List Value) :
    agreeItems vs side (ws.map (renumber n)) = agreeItems vs side ws := by
  match vs, ws with
  | [], _ => rw [agreeItems, agreeItems]
  | v :: vs, [] => rfl
  | v :: vs, w :: ws =>
    rw [List.map_cons, agreeItems, agreeItems, agreeAt_renumber, agreeItems_renumber]

theorem contained_renumber (n : Nat) (vs ws : List Value) :
    contained vs (ws.map (renumber n)) = contained vs ws := by
  match vs with
  | [] => rw [contained, contained]
  | v :: vs =>
    rw [contained, contained, contained_renumber, List.any_map]
    simp only [Function.comp_def, agreeAt_renumber]

theorem comparands_blind (n : Nat) (entries : List (Value × Value)) :
    ∀ c ∈ comparands entries, c.Blind n := by
  match entries with
  | [] => nofun
  | (k, v) :: rest =>
    rw [comparands]
    exact List.forall_mem_cons.mpr ⟨agreeAt_renumber n v, comparands_blind n rest⟩

theorem comparandsOfRules_blind (n : Nat) (rules : List (Value × Rule Value Value)) :
    ∀ c ∈ comparandsOfRules rules, c.Blind n := by
  match rules with
  | [] => nofun
  | (k, r) :: rest =>
    rw [comparandsOfRules]
    exact List.forall_mem_cons.mpr
      ⟨fun _ _ => agreeObject_renumber _, comparandsOfRules_blind n rest⟩

end

end Value

/-! ### Reading mappings and collections -/

/-- A mapping with other numbers for its values. -/
def Mapping.renumber (n : Nat) : Mapping → Mapping
  | readable entries => readable (entries.map fun entry => (entry.1, entry.2.renumber n))
  | unlisted entries refusals =>
    unlisted (entries.map fun entry => (entry.1, entry.2.renumber n)) refusals

theorem Mapping.keys_renumber (n : Nat) (m : Mapping) : (m.renumber n).keys = m.keys := by
  cases m <;> simp [renumber, keys, Function.comp_def]

/-- What is found at a key that is present or not. -/
theorem Value.lookup?_renumber (n : Nat) (entries : List (Value × Value)) (key : Value) :
    (lookup? (entries.map fun entry => (entry.1, entry.2.renumber n)) key).getD .null =
      ((lookup? entries key).getD .null).renumber n := by
  rw [lookup?, lookup?, find?, find?, List.find?_map]
  simp only [Function.comp_def]
  cases entries.find? fun entry => key.same entry.1 <;> rfl

theorem Mapping.get_renumber (n : Nat) (m : Mapping) (key : Value) :
    (m.renumber n).get key = (m.get key).map (Value.renumber n) := by
  cases m with
  | readable entries => rw [renumber, get, get, Value.lookup?_renumber]; rfl
  | unlisted entries refusals =>
    rw [renumber, get, get, Value.lookup?_renumber]
    split <;> rfl

theorem Mapping.items_renumber (n : Nat) (m : Mapping) :
    (m.renumber n).items =
      m.items.map (List.map fun entry => (entry.1, entry.2.renumber n)) := by
  cases m <;> rfl

theorem Value.mapping?_renumber (n : Nat) (v : Value) :
    (v.renumber n).mapping? = v.mapping?.map (Mapping.renumber n) := by
  cases v with
  | probe i p =>
    cases p <;> simp [renumber, renumberProbe, mapping?, Mapping.renumber, renumberEntries_eq_map]
  | _ => simp [renumber, mapping?, Mapping.renumber, renumberEntries_eq_map, Function.comp_def]

namespace Items

/-- Items with other numbers. The terms of a range have none. -/
def renumber (n : Nat) : Items → Items
  | listed items => listed (items.map (Value.renumber n))
  | counted start step count => counted start step count

@[simp] theorem size_renumber (n : Nat) (items : Items) : (items.renumber n).size = items.size := by
  cases items <;> simp [renumber, size]

theorem terms_renumber (n : Nat) (start step : Int) (count : Nat) :
    (terms start step count).map (Value.renumber n) = terms start step count := by
  induction count generalizing start with
  | zero => rfl
  | succ count ih =>
    rw [terms, List.map_cons, ih]
    rfl

theorem toList_renumber (n : Nat) (items : Items) :
    (items.renumber n).toList = items.toList.map (Value.renumber n) := by
  cases items with
  | listed items => rfl
  | counted start step count => exact (terms_renumber n start step count).symm

theorem toList?_renumber (n : Nat) (items : Items) :
    (items.renumber n).toList? = items.toList?.map (List.map (Value.renumber n)) := by
  rw [toList?, toList?, heldSize, heldSize, size_renumber, toList_renumber]
  split
  · rfl
  · split <;> rfl

end Items

/-- What iterating over a collection yields, whatever the state: the items of the same collection
with other numbers are the same with other numbers. -/
theorem Value.iterate_renumber (n : Nat) {v : Value} (mapping : v.isMapping = false)
    (free : v.holdsStream = false) :
    ∃ items : Except Fault Items, v.iterate = Run.lift items ∧
      (v.renumber n).iterate = Run.lift (items.map (Items.renumber n)) := by
  cases v with
  | dict | view | pack => cases mapping
  | stream | rowStream => cases free
  | list i items | branch i items | tuple items | set i items | frozenset items
  | frame i items rows cell =>
    exact ⟨.ok (.listed items), rfl, by rw [renumber, iterate, renumberItems_eq_map]; rfl⟩
  | text s =>
    refine ⟨.ok (.listed (s.toList.map fun c => text (String.singleton c))), rfl, ?_⟩
    simp only [Except.map, Items.renumber, List.map_map]
    rfl
  | bytes data | bytearray i data =>
    refine ⟨.ok (.listed (data.map fun b => int b.toNat)), rfl, ?_⟩
    simp only [Except.map, Items.renumber, List.map_map]
    rfl
  | range start stop step =>
    exact ⟨.ok (.counted start step (Range.length start stop step)), rfl, rfl⟩
  | probe i p =>
    cases p with
    | length => exact ⟨.ok (.listed []), rfl, rfl⟩
    | lookup | unlisted => cases mapping
    | indexed items =>
      exact ⟨.ok (.listed items), rfl, by
        rw [renumber, renumberProbe, iterate, renumberItems_eq_map]; rfl⟩
    | iteration => exact ⟨.error (.refused .iteration), rfl, rfl⟩
    | _ => exact ⟨.error (.notIterable _), rfl, rfl⟩
  | _ => exact ⟨.error (.notIterable _), rfl, rfl⟩

end Conformance
