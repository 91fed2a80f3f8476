import ComputeRelay.Text
import ComputeRelay.Bytes

/-! Addresses of the form `scheme://host:number/path`: which texts are addresses, and what a request
to one names. -/

namespace ComputeRelay

structure Url where
  scheme : String
  /-- Empty when the address has no host. -/
  host : String
  /-- `none` when it is not written. -/
  portNumber : Option Nat
  /-- What a request names: the path and what follows a question mark, without the fragment. -/
  path : String
deriving DecidableEq, Repr, Inhabited

namespace Url

def isAlpha (c : Char) : Bool := ('a' ≤ c && c ≤ 'z') || ('A' ≤ c && c ≤ 'Z')

def isDigit (c : Char) : Bool := '0' ≤ c && c ≤ '9'

def isHex (c : Char) : Bool := (hexValue? c).isSome

def isControl (c : Char) : Bool := c.toNat < 0x20

/-- The text without control characters and spaces around it and without line breaks and tabs. -/
def cleaned (s : String) : List Char :=
  let outer (c : Char) : Bool := isControl c || c == ' '
  let cs := ((s.toList.dropWhile outer).reverse.dropWhile outer).reverse
  cs.filter fun c => !(c == '\t' || c == '\n' || c == '\r')

/-- The scheme in lower case, and the text after its colon. -/
def scheme? (cs : List Char) : Option (String × List Char) :=
  let (name, rest) := cs.span fun c => isAlpha c || isDigit c || c == '+' || c == '-' || c == '.'
  match name, rest with
  | first :: _, ':' :: rest =>
    if isAlpha first then some (String.ofList (name.map Char.toLower), rest) else none
  | _, _ => none

/-- The schemes whose addresses always have a host. -/
def hasAuthority (scheme : String) : Bool :=
  ["http", "https", "ws", "wss", "ftp"].contains scheme

/-- Bytes in which a percent sign with two digits stands for one byte. -/
def percentDecode : Bytes → Bytes
  | [] => []
  | 0x25 :: a :: b :: rest =>
    match hexValue? (Char.ofNat a.toNat), hexValue? (Char.ofNat b.toNat) with
    | some hi, some lo => UInt8.ofNat (16 * hi + lo) :: percentDecode rest
    | _, _ => 0x25 :: percentDecode (a :: b :: rest)
  | b :: rest => b :: percentDecode rest

def percentEncode (needed : Char → Bool) (cs : List Char) : String :=
  String.ofList <| cs.flatMap fun c =>
    if needed c then
      (String.singleton c).toUTF8.toList.flatMap fun b =>
        '%' :: (Bytes.hexChars [b]).map Char.toUpper
    else [c]

def escapedInPath (c : Char) : Bool :=
  isControl c || 0x7e < c.toNat ||
    [' ', '"', '#', '<', '>', '?', Char.ofNat 0x60, '\x7b', '\x7d'].contains c

def escapedInQuery (c : Char) : Bool :=
  isControl c || 0x7e < c.toNat || [' ', '"', '#', '<', '>', '\''].contains c

def isForbiddenInHost (c : Char) : Bool :=
  c.toNat == 0 || ['\t', '\n', '\r', ' ', '#', '/', ':', '<', '>', '?', '@', '[', '\\', ']', '^',
    '|'].contains c

def isForbiddenInDomain (c : Char) : Bool :=
  isForbiddenInHost c || isControl c || c == '%' || c.toNat == 0x7f

/-- A number of a dotted address: hexadecimal after `0x`, octal after `0`, otherwise decimal. -/
def dottedPart? (part : List Char) : Option Nat :=
  let read (base : Nat) (cs : List Char) : Option Nat :=
    cs.foldl (fun n c => do
      let n ← n
      let d ← hexValue? c
      if d < base then some (n * base + d) else none) (some 0)
  match part with
  | [] => none
  | '0' :: 'x' :: cs => read 16 cs
  | '0' :: 'X' :: cs => read 16 cs
  | ['0'] => some 0
  | '0' :: cs => read 8 cs
  | cs => read 10 cs

/-- The labels of a domain; a dot at its end ends the last one. -/
def labels (cs : List Char) : List (List Char) :=
  let parts := (String.ofList cs).splitOn "." |>.map String.toList
  if 1 < parts.length && parts.getLast? == some [] then parts.dropLast else parts

/-- Whether a host has to be a dotted address. -/
def endsInNumber (cs : List Char) : Bool :=
  match (labels cs).getLast? with
  | none => false
  | some last => (!last.isEmpty && last.all isDigit) ||
      ((last.take 2 == ['0', 'x'] || last.take 2 == ['0', 'X']) && (dottedPart? last).isSome)

/-- The number of a dotted address of at most four parts, of which the last one fills up. -/
def dotted? (cs : List Char) : Option Nat := do
  let parts := labels cs
  guard (parts.length ≤ 4)
  let numbers ← parts.mapM dottedPart?
  let last ← numbers.getLast?
  let firsts := numbers.dropLast
  guard (firsts.all (· < 256) && last < 1 <<< (8 * (5 - numbers.length)))
  return firsts.zipIdx.foldl (fun n (part, i) => n + part <<< (8 * (3 - i))) last

def dottedText (n : Nat) : String :=
  ".".intercalate ([3, 2, 1, 0].map fun i => toString ((n >>> (8 * i)) % 256))

/-- How many 16-bit groups a run of groups stands for. -/
def groups? (cs : List Char) : Option Nat := do
  if cs.isEmpty then return 0
  let parts := (String.ofList cs).splitOn ":" |>.map String.toList
  let isGroup (part : List Char) : Bool := !part.isEmpty && part.length ≤ 4 && part.all isHex
  let last ← parts.getLast?
  guard (parts.dropLast.all isGroup)
  if isGroup last then return parts.length
  let quads := (String.ofList last).splitOn "." |>.map String.toList
  guard (quads.length = 4 && quads.all fun q =>
    !q.isEmpty && q.all isDigit && (q.length = 1 || q.head? != some '0') &&
      (dottedPart? q).any (· < 256))
  return parts.length + 1

/-- Whether the text between brackets is an address of eight groups, of which one run of zeros may
be left out. -/
def isGroupAddress (cs : List Char) : Bool :=
  match (String.ofList cs).splitOn "::" |>.map String.toList with
  | [all] => groups? all == some 8
  | [left, right] =>
    match groups? left, groups? right with
    | some m, some n => m + n ≤ 7 && !left.contains '.'
    | _, _ => false
  | _ => false

/-- The host of an address whose scheme calls for one. -/
def domain? (cs : List Char) : Option String := do
  match cs with
  | '[' :: rest =>
    guard (rest.getLast? == some ']' && isGroupAddress rest.dropLast)
    return String.ofList (cs.map Char.toLower)
  | _ =>
    let decoded ← String.fromUTF8? ⟨(percentDecode (String.ofList cs).toUTF8.toList).toArray⟩
    let cs := decoded.toList.map Char.toLower
    guard (!cs.isEmpty && !cs.any isForbiddenInDomain)
    if endsInNumber cs then return dottedText (← dotted? cs)
    return String.ofList cs

def opaqueHost? (cs : List Char) : Option String := do
  match cs with
  | '[' :: _ => domain? cs
  | _ =>
    guard (!cs.any isForbiddenInHost)
    return String.ofList cs

/-- The host of an authority and the number after it, behind the name and password that may precede
them. -/
def authority? (host? : List Char → Option String) (cs : List Char) :
    Option (String × Option Nat) := do
  let cs := (cs.reverse.takeWhile (· != '@')).reverse
  let (host, rest) := match cs with
    | '[' :: _ =>
      let (inner, rest) := cs.span (· != ']')
      (inner ++ rest.take 1, rest.drop 1)
    | _ => cs.span (· != ':')
  let host ← host? host
  match rest with
  | [] => return (host, none)
  | ':' :: digits =>
    if digits.isEmpty then return (host, none)
    let number ← natural? (String.ofList digits)
    guard (number < UInt16.size)
    return (host, some number)
  | _ => none

/-- The segments of a path, where one dot names the same place and two dots the one above. -/
def resolveDots : (segments : List String) → (above : List String) → List String
  | [], above => above.reverse
  | segment :: rest, above =>
    let name := (segment.replace "%2e" ".").replace "%2E" "."
    let above := if name == ".." then above.drop 1 else above
    if name == "." || name == ".." then
      match rest with
      | [] => ("" :: above).reverse
      | _ => resolveDots rest above
    else resolveDots rest (segment :: above)

/-- The path and query of what follows the authority. -/
def requestPath (cs : List Char) : String :=
  let cs := cs.takeWhile (· != '#')
  let (path, query) := cs.span (· != '?')
  let segments := ((String.ofList (path.map fun c => if c == '\\' then '/' else c)).splitOn "/").map
    fun segment => percentEncode escapedInPath segment.toList
  let path := "/" ++ "/".intercalate (resolveDots (segments.drop 1) [])
  match query with
  | [] => path
  | _ :: query => path ++ "?" ++ percentEncode escapedInQuery query

def endsAuthority (c : Char) : Bool := c == '/' || c == '?' || c == '#'

def parse? (s : String) : Option Url := do
  let (scheme, rest) ← scheme? (cleaned s)
  if hasAuthority scheme then
    let rest := rest.dropWhile fun c => c == '/' || c == '\\'
    let (authority, rest) := rest.span fun c => !(endsAuthority c || c == '\\')
    let (host, number) ← authority? domain? authority
    return ⟨scheme, host, number, requestPath rest⟩
  else
    match rest with
    | '/' :: '/' :: rest =>
      let (authority, rest) := rest.span fun c => !endsAuthority c
      let (host, number) ← authority? opaqueHost? authority
      return ⟨scheme, host, number, requestPath rest⟩
    | _ => return ⟨scheme, "", none, String.ofList rest⟩

/-- The address as text, without its fragment. -/
def toText (url : Url) : String :=
  url.scheme ++ "://" ++ url.host ++
    (url.portNumber.elim "" fun number => ":" ++ toString number) ++ url.path

def isHttp (url : Url) : Bool := url.scheme == "http" || url.scheme == "https"

end Url

end ComputeRelay
