import Conformance.Value.Basic

/-!
# Reading packs

A schema is written down as a mapping from keys to rules, where a rule is a callable, a further
mapping, or a rule or pack that exists already. Turning it into a pack checks it at every depth
before any check is called. What is a pack or a rule already is taken over as it is.

The rules and packs made here are new objects; they carry `0` until they are numbered.

## Main definitions

* `Pack.ofValue`, `Rule.ofValue` — the pack and the rule that a value stands for, or why it stands
  for none
-/

namespace Conformance

mutual

/-- The rule that a value stands for. -/
def Rule.ofValue : Value → Except Malformed (Rule Value Value)
  | .rule r => .ok r
  | .pack p => .ok (.nested 0 p)
  | .dict _ entries => do .ok (.nested 0 (.mk 0 (← Rule.ofEntries entries)))
  | .view entries => do .ok (.nested 0 (.mk 0 (← Rule.ofEntries entries)))
  | .probe _ .lookup | .probe _ (.unlisted ..) => .error .unreadable
  | .callable id f => .ok (.leaf 0 (.callable id f))
  | v => .error (.rule v.typeName)
termination_by structural a => a

/-- The rules that entries stand for, up to the first that stands for none. -/
def Rule.ofEntries :
    List (Value × Value) → Except Malformed (List (Value × Rule Value Value))
  | [] => .ok []
  | (key, v) :: rest => do
    let r ← Rule.ofValue v
    let rules ← Rule.ofEntries rest
    .ok ((key, r) :: rules)
termination_by structural a => a

end

/-- The pack that a value stands for. -/
def Pack.ofValue : Value → Except Malformed (Pack Value Value)
  | .pack p => .ok p
  | .dict _ entries | .view entries => do .ok (.mk 0 (← Rule.ofEntries entries))
  | .probe _ .lookup | .probe _ (.unlisted ..) => .error .unreadable
  | v => .error (.schema v.typeName)

end Conformance
