import ComputeRelay.Json.Parser
import ComputeRelay.Json.Printer
import ComputeRelay.Json.Record
import ComputeRelay.Text

/-! Remote procedure calls to a ledger node, and how its numbers and bytes are written. -/

namespace ComputeRelay

namespace Json

/-- Hexadecimal digits in a string, whose mark `0x` may be missing. -/
def hexText? : Json → Option (List Char)
  | .string s =>
    match s.toList with
    | '0' :: 'x' :: cs => some cs
    | cs => some cs
  | _ => none

/-- A number written with one to `2 * size` hexadecimal digits. -/
def quantity? (size : Nat) (v : Json) : Option Nat := do
  let cs ← v.hexText?
  guard (!cs.isEmpty && cs.length ≤ 2 * size)
  cs.foldlM (fun n c => (hexValue? c).map (16 * n + ·)) 0

/-- Exactly `size` bytes. -/
def fixedBytes? (size : Nat) (v : Json) : Option Bytes := do
  let bs ← Bytes.ofHexChars? (← v.hexText?)
  guard (bs.length = size)
  return bs

/-- Bytes of any number, as a string only. -/
def hexBytes? : Json → Option Bytes
  | .string s => Bytes.ofHex? s
  | _ => none

def int64? : Json → Option Int
  | .number literal =>
    match literal.toList with
    | '-' :: cs =>
      (natural? (String.ofList cs)).bind fun n =>
        if n ≤ UInt64.size / 2 then some (-(n : Int)) else none
    | _ => (natural? literal).bind fun n => if n < UInt64.size / 2 then some (n : Int) else none
  | _ => none

def ofQuantity (n : Nat) : Json := .string (String.ofList ('0' :: 'x' :: Nat.toDigits 16 n))

/-- The first string of hexadecimal digits: the value itself, or one found in the members of an
object, which are searched in the order of their names, each to its end. -/
def firstBytes? : Json → Option Bytes
  | .string s => Bytes.ofHex? s
  | .object members => members.attach.findSome? fun ⟨(_, v), _⟩ => firstBytes? v
  | _ => none
termination_by v => sizeOf v
decreasing_by
  simp_wf
  have := List.sizeOf_lt_of_mem ‹_ ∈ members›
  simp only [Prod.mk.sizeOf_spec] at this
  omega

end Json

structure RpcCall where
  method : String
  params : List Json
deriving Inhabited

structure RpcError where
  code : Int
  message : String
  data : Option Json

inductive RpcReply
  | result (v : Json)
  | refused (e : RpcError)
  | broken (detail : String)

def RpcCall.toJson (call : RpcCall) (id : Nat) : Json :=
  .object [("id", .ofNat id), ("jsonrpc", .string "2.0"), ("method", .string call.method),
    ("params", .array call.params)]

namespace RpcError

def shape : Json.Shape := ⟨["code", "message", "data"], false⟩

def ofJson? (v : Json) : Option RpcError := do
  guard (v.items?.all (·.length = 3))
  let s ← shape.slots? v
  let data ← s.optional? "data" (Json.nullable? some) none
  guard (data.all fun d => d.isClean && d.depth ≤ 125)
  return {
    code := ← s.required? "code" Json.int64?
    message := ← s.required? "message" Json.text?
    data }

def describe (e : RpcError) : String :=
  "(code: " ++ toString e.code ++ ", message: " ++ e.message ++ ")"

/-- What a call that reverted gave back; `none` when the node does not say that it reverted. -/
def revertData? (e : RpcError) : Option Bytes :=
  if occursIn "revert".toList e.message.toList then
    some ((e.data.bind fun d => d.sorted.firstBytes?).getD [])
  else none

end RpcError

namespace RpcReply

/-- A reply holds the version, an id, and either a result or an error. -/
def ofJson? (v : Json) : Option RpcReply := do
  let .object members := v | none
  guard ((members.map (·.1)).Nodup ∧ members.length = 3)
  guard (v.member? "jsonrpc" == some (.string "2.0"))
  guard ((v.member? "id").any fun id => id.nat64?.isSome)
  match v.member? "result", v.member? "error" with
  | some r, none => return .result r
  | none, some e => return .refused (← RpcError.ofJson? e)
  | _, _ => none

def ofBody (body : Bytes) : RpcReply :=
  match (String.fromUTF8? ⟨body.toArray⟩).bind fun text => (Json.parse? text).bind ofJson? with
  | some reply => reply
  | none => .broken "the reply is not a JSON-RPC 2.0 response"

end RpcReply

end ComputeRelay
