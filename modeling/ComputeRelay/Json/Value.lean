import ComputeRelay.Bytes

/-! JSON values as they are written: members keep their order and their repetitions, numbers keep
their digits. -/

namespace ComputeRelay

inductive Json
  | null
  | bool (b : Bool)
  | number (literal : String)
  | string (s : String)
  | array (items : List Json)
  | object (members : List (String × Json))
  /-- Well-formed text that names no value: a string, or a member's name, with half of a
  surrogate pair. -/
  | garbled
deriving Inhabited, Repr

namespace Json

-- Equality by recursion on the value; a derived one cannot be unfolded for a type nested in lists.
mutual

def beq : Json → Json → Bool
  | .null, .null => true
  | .bool a, .bool b => a == b
  | .number a, .number b => a == b
  | .string a, .string b => a == b
  | .array vs, .array ws => beqItems vs ws
  | .object ms, .object ns => beqMembers ms ns
  | .garbled, .garbled => true
  | _, _ => false

def beqItems : List Json → List Json → Bool
  | [], [] => true
  | v :: vs, w :: ws => beq v w && beqItems vs ws
  | _, _ => false

def beqMembers : List (String × Json) → List (String × Json) → Bool
  | [], [] => true
  | (a, v) :: ms, (b, w) :: ns => a == b && beq v w && beqMembers ms ns
  | _, _ => false

end

instance : BEq Json := ⟨beq⟩

mutual

theorem beq_iff : ∀ v w : Json, beq v w = true ↔ v = w
  | .null, w => by cases w <;> simp [beq]
  | .bool a, w => by cases w <;> simp [beq]
  | .number a, w => by cases w <;> simp [beq]
  | .string a, w => by cases w <;> simp [beq]
  | .array vs, w => by cases w <;> simp [beq, beqItems_iff vs]
  | .object ms, w => by cases w <;> simp [beq, beqMembers_iff ms]
  | .garbled, w => by cases w <;> simp [beq]

theorem beqItems_iff : ∀ vs ws : List Json, beqItems vs ws = true ↔ vs = ws
  | [], ws => by cases ws <;> simp [beqItems]
  | v :: vs, [] => by simp [beqItems]
  | v :: vs, w :: ws => by simp [beqItems, beq_iff v w, beqItems_iff vs ws]

theorem beqMembers_iff :
    ∀ ms ns : List (String × Json), beqMembers ms ns = true ↔ ms = ns
  | [], ns => by cases ns <;> simp [beqMembers]
  | (a, v) :: ms, [] => by simp [beqMembers]
  | (a, v) :: ms, (b, w) :: ns => by
    simp [beqMembers, beq_iff v w, beqMembers_iff ms ns]

end

instance : LawfulBEq Json where
  rfl {v} := (beq_iff v v).mpr rfl
  eq_of_beq {v w} h := (beq_iff v w).mp h

def ofNat (n : Nat) : Json := .number (toString n)

def strings (ss : List String) : Json := .array (ss.map .string)

/-- The members of an object in the order of their names; the last of a repeated name counts. -/
def sortedMembers (members : List (String × Json)) : List (String × Json) :=
  let kept := members.foldr
    (fun m later => if later.any (fun l => l.1 == m.1) then later else m :: later) []
  kept.mergeSort fun a b => decide (a.1 ≤ b.1)

def depth : Json → Nat
  | .array items => 1 + (items.attach.map fun ⟨v, _⟩ => depth v).foldl max 0
  | .object members => 1 + (members.attach.map fun ⟨(_, v), _⟩ => depth v).foldl max 0
  | _ => 0
termination_by v => sizeOf v
decreasing_by
  all_goals simp_wf
  · have := List.sizeOf_lt_of_mem ‹_ ∈ items›
    omega
  · have := List.sizeOf_lt_of_mem ‹_ ∈ members›
    simp only [Prod.mk.sizeOf_spec] at this
    omega

/-- Whether every part of the value names something. -/
def isClean : Json → Bool
  | .array items => items.attach.all fun ⟨v, _⟩ => isClean v
  | .object members => members.attach.all fun ⟨(_, v), _⟩ => isClean v
  | .garbled => false
  | _ => true
termination_by v => sizeOf v
decreasing_by
  all_goals simp_wf
  · have := List.sizeOf_lt_of_mem ‹_ ∈ items›
    omega
  · have := List.sizeOf_lt_of_mem ‹_ ∈ members›
    simp only [Prod.mk.sizeOf_spec] at this
    omega

def member? (name : String) : Json → Option Json
  | .object members => members.lookup name
  | _ => none

end Json

end ComputeRelay
