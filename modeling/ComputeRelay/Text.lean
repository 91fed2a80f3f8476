/-! Blank characters, the trimming of text, the search in it, and the numbers it spells. -/

namespace ComputeRelay

/-- The characters with the Unicode property White_Space. -/
def isBlank (c : Char) : Bool :=
  let n := c.toNat
  (9 ≤ n && n ≤ 13) || n == 0x20 || n == 0x85 || n == 0xa0 || n == 0x1680 ||
    (0x2000 ≤ n && n ≤ 0x200a) || n == 0x2028 || n == 0x2029 || n == 0x202f || n == 0x205f ||
    n == 0x3000

/-- The text without the blanks around it. -/
def trimBlanks (cs : List Char) : List Char :=
  ((cs.dropWhile isBlank).reverse.dropWhile isBlank).reverse

/-- The number that decimal digits alone spell. -/
def natural? (s : String) : Option Nat :=
  let cs := s.toList
  if cs.isEmpty then none
  else cs.foldl (fun n c => do
    let n ← n
    if '0' ≤ c ∧ c ≤ '9' then some (n * 10 + (c.toNat - 48)) else none) (some 0)

/-- Whether a text occurs within another one. -/
def occursIn (needle : List Char) : List Char → Bool
  | [] => needle.isEmpty
  | c :: cs => needle.isPrefixOf (c :: cs) || occursIn needle cs

def trimmed (s : String) : String :=
  String.ofList (trimBlanks s.toList)

end ComputeRelay
