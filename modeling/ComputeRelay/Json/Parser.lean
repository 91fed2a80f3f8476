import ComputeRelay.Json.Value

/-! Reading JSON text. The whole text has to be one value, with blanks around it allowed. -/

namespace ComputeRelay.Json

namespace Grammar

def isSpace (c : Char) : Bool :=
  c == ' ' || c == '\n' || c == '\t' || c == '\r'

def skipSpaces (cs : List Char) : List Char := cs.dropWhile isSpace

def isDigit (c : Char) : Bool := decide ('0' ≤ c ∧ c ≤ '9')

/-- The text without a leading run of digits, which may not be empty. -/
def digits? (cs : List Char) : Option (List Char × List Char) :=
  match cs.span isDigit with
  | ([], _) => none
  | run => some run

/-- An integer: one zero, or digits that do not start with a zero. -/
def integer? : List Char → Option (List Char × List Char)
  | '0' :: rest => some (['0'], rest)
  | cs => digits? cs

def fraction? : List Char → Option (List Char × List Char)
  | '.' :: rest => (digits? rest).map fun (ds, rest) => ('.' :: ds, rest)
  | cs => some ([], cs)

def exponent? (cs : List Char) : Option (List Char × List Char) :=
  match cs with
  | e :: sign :: rest =>
    if e == 'e' || e == 'E' then
      if sign == '+' || sign == '-' then
        (digits? rest).map fun (ds, rest) => (e :: sign :: ds, rest)
      else (digits? (sign :: rest)).map fun (ds, rest) => (e :: ds, rest)
    else some ([], cs)
  | [e] => if e == 'e' || e == 'E' then none else some ([], cs)
  | [] => some ([], cs)

/-- A number, as the characters that spell it. -/
def number? (cs : List Char) : Option (List Char × List Char) := do
  let (sign, cs) := match cs with
    | '-' :: rest => (['-'], rest)
    | _ => ([], cs)
  let (whole, cs) ← integer? cs
  let (part, cs) ← fraction? cs
  let (power, cs) ← exponent? cs
  -- a digit cannot follow a number: it would belong to it, or to a leading zero
  if cs.head?.any isDigit then none
  return (sign ++ whole ++ part ++ power, cs)

def hex4? (a b c d : Char) : Option Nat := do
  return (← hexValue? a) * 4096 + (← hexValue? b) * 256 + (← hexValue? c) * 16 + (← hexValue? d)

/-- The code points and escaped 16-bit units of a string, up to its closing quote. -/
def stringUnits? : List Char → Option (List Nat × List Char)
  | [] => none
  | '"' :: rest => some ([], rest)
  | '\\' :: 'u' :: a :: b :: c :: d :: rest => do
    let unit ← hex4? a b c d
    let (units, rest) ← stringUnits? rest
    return (unit :: units, rest)
  | '\\' :: e :: rest => do
    let c ← match e with
      | '"' => some '"'
      | '\\' => some '\\'
      | '/' => some '/'
      | 'b' => some '\x08'
      | 'f' => some '\x0c'
      | 'n' => some '\n'
      | 'r' => some '\r'
      | 't' => some '\t'
      | _ => none
    let (units, rest) ← stringUnits? rest
    return (c.toNat :: units, rest)
  | c :: rest => do
    guard (0x20 ≤ c.toNat ∧ c ≠ '\\')
    let (units, rest) ← stringUnits? rest
    return (c.toNat :: units, rest)

def isHighSurrogate (n : Nat) : Bool := decide (0xd800 ≤ n ∧ n < 0xdc00)

def isLowSurrogate (n : Nat) : Bool := decide (0xdc00 ≤ n ∧ n < 0xe000)

/-- Joins surrogate pairs; `none` when half of a pair stands alone. -/
def joinSurrogates? : List Nat → Option (List Char)
  | [] => some []
  | [u] => if isHighSurrogate u || isLowSurrogate u then none else some [Char.ofNat u]
  | u :: v :: rest =>
    if isHighSurrogate u then
      if isLowSurrogate v then
        (joinSurrogates? rest).map
          (Char.ofNat (0x10000 + (u - 0xd800) * 0x400 + (v - 0xdc00)) :: ·)
      else none
    else if isLowSurrogate u then none
    else (joinSurrogates? (v :: rest)).map (Char.ofNat u :: ·)

/-- A string after its opening quote. The inner `none` stands for half of a surrogate pair. -/
def stringBody? (cs : List Char) : Option (Option String × List Char) :=
  (stringUnits? cs).map fun (units, rest) => ((joinSurrogates? units).map String.ofList, rest)

def literal? (w : String) (v : Json) (cs : List Char) : Option (Json × List Char) :=
  if w.toList.isPrefixOf cs then some (v, cs.drop w.length) else none

mutual

/-- One value and the text after it. `fuel` bounds the number of values and separators. -/
def value? : (fuel : Nat) → List Char → Option (Json × List Char)
  | 0, _ => none
  | fuel + 1, cs =>
    match skipSpaces cs with
    | '{' :: rest =>
      match skipSpaces rest with
      | '}' :: rest => some (.object [], rest)
      | rest => (members? fuel rest).map fun (ms, clean, rest) =>
        (if clean then .object ms else .garbled, rest)
    | '[' :: rest =>
      match skipSpaces rest with
      | ']' :: rest => some (.array [], rest)
      | rest => (items? fuel rest).map fun (vs, rest) => (.array vs, rest)
    | '"' :: rest => (stringBody? rest).map fun (s, rest) =>
        (s.elim .garbled .string, rest)
    | 't' :: rest => literal? "rue" (.bool true) rest
    | 'f' :: rest => literal? "alse" (.bool false) rest
    | 'n' :: rest => literal? "ull" .null rest
    | cs => (number? cs).map fun (ds, rest) => (.number (String.ofList ds), rest)

/-- The items of an array up to its closing bracket. -/
def items? : (fuel : Nat) → List Char → Option (List Json × List Char)
  | 0, _ => none
  | fuel + 1, cs => do
    let (v, rest) ← value? fuel cs
    match skipSpaces rest with
    | ',' :: rest => do
      let (vs, rest) ← items? fuel rest
      return (v :: vs, rest)
    | ']' :: rest => return ([v], rest)
    | _ => none

/-- The members of an object up to its closing brace, and whether all their names are text. -/
def members? : (fuel : Nat) → List Char → Option (List (String × Json) × Bool × List Char)
  | 0, _ => none
  | fuel + 1, cs => do
    let '"' :: rest := skipSpaces cs | none
    let (name, rest) ← stringBody? rest
    let ':' :: rest := skipSpaces rest | none
    let (v, rest) ← value? fuel rest
    match skipSpaces rest with
    | ',' :: rest => do
      let (ms, clean, rest) ← members? fuel rest
      return ((name.getD "", v) :: ms, clean && name.isSome, rest)
    | '}' :: rest => return ([(name.getD "", v)], name.isSome, rest)
    | _ => none

end

end Grammar

open Grammar in
/-- The value that a whole text spells. -/
def parse? (text : String) : Option Json := do
  let cs := text.toList
  let (v, rest) ← value? (2 * cs.length + 2) cs
  guard ((skipSpaces rest).isEmpty)
  return v

end ComputeRelay.Json
