import ComputeRelay.Json.Value

/-! Writing JSON: on one line without blanks, or indented by two blanks a level. -/

namespace ComputeRelay.Json

def escape (c : Char) : List Char :=
  match c with
  | '"' => ['\\', '"']
  | '\\' => ['\\', '\\']
  | '\n' => ['\\', 'n']
  | '\r' => ['\\', 'r']
  | '\t' => ['\\', 't']
  | '\x08' => ['\\', 'b']
  | '\x0c' => ['\\', 'f']
  | c =>
    if c.toNat < 0x20 then
      ['\\', 'u', '0', '0', hexDigit (c.toNat / 16), hexDigit (c.toNat % 16)]
    else [c]

def quote (s : String) : String :=
  String.ofList ('"' :: (s.toList.flatMap escape ++ ['"']))

/-- Negative zero is the integer zero; every other number is written as it was spelled. -/
def numberText (literal : String) : String :=
  if literal == "-0" then "0" else literal

/-- The text without blanks, members in their order. -/
def compact : Json → String
  | .null => "null"
  | .bool b => if b then "true" else "false"
  | .number literal => numberText literal
  | .string s => quote s
  | .garbled => "null"
  | .array items =>
    "[" ++ ",".intercalate (items.attach.map fun ⟨v, _⟩ => compact v) ++ "]"
  | .object members =>
    "\x7b" ++ ",".intercalate
      (members.attach.map fun ⟨(name, v), _⟩ => quote name ++ ":" ++ compact v) ++ "\x7d"
termination_by v => sizeOf v
decreasing_by
  all_goals simp_wf
  · have := List.sizeOf_lt_of_mem ‹_ ∈ items›
    omega
  · have := List.sizeOf_lt_of_mem ‹_ ∈ members›
    simp only [Prod.mk.sizeOf_spec] at this
    omega

/-- The same value with the members of every object in the order of their names. -/
def sorted : Json → Json
  | .array items => .array (items.attach.map fun ⟨v, _⟩ => sorted v)
  | .object members =>
    .object (sortedMembers (members.attach.map fun ⟨(name, v), _⟩ => (name, sorted v)))
  | v => v
termination_by v => sizeOf v
decreasing_by
  all_goals simp_wf
  · have := List.sizeOf_lt_of_mem ‹_ ∈ items›
    omega
  · have := List.sizeOf_lt_of_mem ‹_ ∈ members›
    simp only [Prod.mk.sizeOf_spec] at this
    omega

def indent (level : Nat) : String := "\n" ++ "".pushn ' ' (2 * level)

/-- The indented text, members in their order. -/
def pretty (level : Nat) : Json → String
  | .array [] => "[]"
  | .object [] => "\x7b\x7d"
  | .array items =>
    "[" ++ indent (level + 1) ++
      ("," ++ indent (level + 1)).intercalate
        (items.attach.map fun ⟨v, _⟩ => pretty (level + 1) v) ++ indent level ++ "]"
  | .object members =>
    "\x7b" ++ indent (level + 1) ++
      ("," ++ indent (level + 1)).intercalate
        (members.attach.map fun ⟨(name, v), _⟩ => quote name ++ ": " ++ pretty (level + 1) v) ++
      indent level ++ "\x7d"
  | v => compact v
termination_by v => sizeOf v
decreasing_by
  all_goals simp_wf
  · have := List.sizeOf_lt_of_mem ‹_ ∈ items›
    omega
  · have := List.sizeOf_lt_of_mem ‹_ ∈ members›
    simp only [Prod.mk.sizeOf_spec] at this
    omega

end ComputeRelay.Json
