import Conformance.Pack.Acceptance

/-!
# Reading explanations

An explanation can come from anywhere, so its shape is checked before it is used: a mapping with
exactly the two keys of an explanation, each with a list or a tuple. Its entries are read as
findings, all of them before any of them is used.

## Main definitions

* `Explanation.shape` — the pack that explanations conform to exactly
* `Value.isExplanation` — whether a value has that shape
* `Explanation.ofValue` — the explanation that a value is
* `Value.isFreeOf`, `Value.isFree` — whether an explanation lists no violation of a kind, or none
  that counts
-/

namespace Conformance

/-- The pack that every explanation conforms to exactly. -/
def Explanation.shape : Pack Value (Value → Bool) :=
  .mk 0 [(.text Violation.invalid.text, .leaf 0 Value.isSequence),
    (.text Violation.extra.text, .leaf 0 Value.isSequence)]

/-- Whether a value has the shape of an explanation. -/
def Value.isExplanation (v : Value) : Except Fault Bool :=
  (Explanation.shape.accepts (fun f x => pure (f x)) true v).alone

mutual

/-- The findings that entries stand for. Each entry is a list or a tuple of a key and a value. -/
def Finding.ofEntries : List Value → Except Fault (List Finding)
  | [] => .ok []
  | entry :: rest => do
    let finding ← Finding.ofEntry entry
    let findings ← Finding.ofEntries rest
    .ok (finding :: findings)
termination_by structural a => a

/-- The finding that one entry stands for. -/
def Finding.ofEntry : Value → Except Fault Finding
  | .tuple [key, v] => Finding.ofContent key v
  | .list _ [key, v] => Finding.ofContent key v
  | .branch _ [key, v] => Finding.ofContent key v
  | entry => .error (.entryNotPair entry)
termination_by structural a => a

/-- The finding at a key. Only a branch stands for findings of its own; any other list is a value
that was found there. -/
def Finding.ofContent (key : Value) : Value → Except Fault Finding
  | .branch _ entries => do
    let findings ← Finding.ofEntries entries
    .ok (.nested key findings)
  | v => .ok (.value key v)
termination_by structural a => a

end

/-- The items of one list of an explanation. -/
def Explanation.listOf (entries : List (Value × Value)) (violation : Violation) : List Value :=
  ((Value.lookup? entries (.text violation.text)).bind Value.sequence?).getD []

/-- The explanation that a value is, or the first thing that keeps it from being one. -/
def Explanation.ofValue (v : Value) : Except Fault Explanation := do
  if ← v.isExplanation then
    let entries := v.entries?.getD []
    let invalid ← Finding.ofEntries (listOf entries .invalid)
    let extra ← Finding.ofEntries (listOf entries .extra)
    .ok ⟨invalid, extra⟩
  else .error (.notExplanation v)

/-- Whether an explanation lists no violation of a kind. Its entries are not looked at. -/
def Value.isFreeOf (violation : Violation) (v : Value) : Except Fault Bool := do
  if ← v.isExplanation then
    .ok (Explanation.listOf (v.entries?.getD []) violation).isEmpty
  else .error (.explanationExpected v)

/-- Whether an explanation lists no violation that counts: extra keys do so in exact mode only. -/
def Value.isFree (exact : Bool) (v : Value) : Except Fault Bool := do
  if ← v.isFreeOf .invalid then
    if exact then v.isFreeOf .extra else .ok true
  else .ok false

end Conformance
