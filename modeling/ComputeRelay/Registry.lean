import ComputeRelay.Contract
import ComputeRelay.Failure
import ComputeRelay.Text

/-! Checking the row that the helper keeps for an account. -/

namespace ComputeRelay

/-- The text behind `http://` or `https://`. -/
def dropScheme? : List Char → Option (List Char)
  | 'h' :: 't' :: 't' :: 'p' :: ':' :: '/' :: '/' :: rest => some rest
  | 'h' :: 't' :: 't' :: 'p' :: 's' :: ':' :: '/' :: '/' :: rest => some rest
  | _ => none

def endsAuthority (c : Char) : Bool := isBlank c || c == '/' || c == '?' || c == '#'

/-- A scheme, an authority of at least one character, and a path from a slash to the end, which
may be missing. No blank stands anywhere. -/
def isHttpUrl (cs : List Char) : Bool :=
  match dropScheme? cs with
  | none => false
  | some rest =>
    !(rest.takeWhile fun c => !endsAuthority c).isEmpty &&
      match rest.dropWhile fun c => !endsAuthority c with
      | [] => true
      | c :: path => c == '/' && path.all fun c => !isBlank c

/-- The registration that a row stands for. Blanks around its address are dropped. -/
def RegistryRow.check (row : RegistryRow) (account : Address) (block : BlockContext) :
    Except RegistryError Registration :=
  let endpoint := trimBlanks row.url.toList
  if row.signer = 0 then .error (.notRegistered account "no signer registered")
  else if endpoint = [] then .error (.notRegistered account "no endpoint registered")
  else if !isHttpUrl endpoint then
    .error (.notRegistered account "endpoint is not an http(s) url")
  else .ok ⟨account, String.ofList endpoint, row.signer, block⟩

end ComputeRelay
