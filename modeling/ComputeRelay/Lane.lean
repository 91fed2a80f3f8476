import ComputeRelay.Word

/-! A nonce lane: the next unused nonce of one account, and the calls that wait to use it. The
first call in line holds the lane; the others follow in the order in which they came. -/

namespace ComputeRelay

/-- The name under which a call waits and is answered. -/
abbrev CallId := String

structure Lane where
  /-- The next unused nonce, once it is known. -/
  next : Option Word := none
  line : List CallId := []
deriving DecidableEq, Repr, Inhabited

/-- Where a call in line for a nonce stands. -/
inductive Standing
  | waiting
  | reading
  | granted (nonce : Word)
deriving DecidableEq, Repr

namespace Lane

def holder? (l : Lane) : Option CallId := l.line.head?

def isHeldBy (l : Lane) (id : CallId) : Bool := l.holder? == some id

def join (l : Lane) (id : CallId) : Lane := { l with line := l.line ++ [id] }

def leave (l : Lane) (id : CallId) : Lane := { l with line := l.line.erase id }

/-- The holder has the next nonce, or has to read it first; all others wait. -/
def standing (l : Lane) (id : CallId) : Standing :=
  if l.isHeldBy id then
    match l.next with
    | some nonce => .granted nonce
    | none => .reading
  else .waiting

def learn (l : Lane) (nonce : Word) : Lane := { l with next := some nonce }

/-- Uses a nonce up: the one after it is next. -/
def commit (l : Lane) (nonce : Word) : Lane := { l with next := some (nonce + 1) }

/-- Lowers the next nonce to `target`; a nonce that is lower already stays. -/
def rewind (l : Lane) (target : Word) : Lane :=
  { l with next := l.next.map fun next => if target.toNat < next.toNat then target else next }

/-- Drops the known nonce, so that the next holder reads it anew. -/
def forget (l : Lane) : Lane := { l with next := none }

end Lane

end ComputeRelay
