import ComputeRelay.Bytes.Lemmas
import ComputeRelay.Json.Lemmas
import ComputeRelay.Service.Client

/-! What a service's reply is taken for. The size of a body is looked at when it is announced and
again with each piece of it, and neither makes a difference to what the whole body says. -/

namespace ComputeRelay

namespace ServiceResult

/-- The value is a result with these members. -/
structure Spells (v : Json) (result : ServiceResult) (slots : Json.Slots) : Prop where
  record : shape.Spells v slots
  success : ∃ w, ("success", w) ∈ slots ∧ w.bool? = some result.success
  payload : ∃ w, ("responsePayload", w) ∈ slots ∧ w.bytes? = some result.payload
  signature : ∃ w, ("signature", w) ∈ slots ∧ w.bytes? = some result.signature

theorem Spells.plain {v : Json} {result : ServiceResult} {slots : Json.Slots}
    (h : Spells v result slots) : v.Plain 2 := by
  have once := h.record.nodup (by decide)
  refine .of_spells h.record ?_
  rintro ⟨name, v⟩ hm
  have hname := h.record.known hm
  simp only [shape, List.mem_cons, List.not_mem_nil, or_false] at hname
  rcases hname with rfl | rfl | rfl
  · obtain ⟨w, hw, hread⟩ := h.success
    rw [Json.Slots.value_inj once hm hw]
    exact .of_bool? hread
  · obtain ⟨w, hw, hread⟩ := h.payload
    rw [Json.Slots.value_inj once hm hw]
    exact .of_bytes? hread
  · obtain ⟨w, hw, hread⟩ := h.signature
    rw [Json.Slots.value_inj once hm hw]
    exact .of_bytes? hread

end ServiceResult

namespace ServiceReply

/-- The value is a reply to the call of this id that tells a result and no error. -/
structure Tells (v : Json) (id : Nat) (result : ServiceResult) (slots : Json.Slots) : Prop where
  record : shape.Spells v slots
  version : ("jsonrpc", .string "2.0") ∈ slots
  id : ("id", .ofNat id) ∈ slots
  result : ∃ w, ("result", w) ∈ slots ∧ ∃ inner, ServiceResult.Spells w result inner
  error : ∀ w, ("error", w) ∈ slots → w = .null

variable {v : Json} {id : Nat} {result : ServiceResult} {slots : Json.Slots}

theorem Tells.plain (h : Tells v id result slots) : v.Plain 3 := by
  have once := h.record.nodup (by decide)
  refine .of_spells h.record ?_
  rintro ⟨name, v⟩ hm
  have hname := h.record.known hm
  simp only [shape, List.mem_cons, List.not_mem_nil, or_false] at hname
  rcases hname with rfl | rfl | rfl | rfl
  · rw [Json.Slots.value_inj once hm h.version]
    exact .string _
  · rw [Json.Slots.value_inj once hm h.id]
    exact .number _
  · obtain ⟨w, hw, inner, hspells⟩ := h.result
    rw [Json.Slots.value_inj once hm hw]
    exact hspells.plain
  · rw [h.error v hm]
    exact .null

end ServiceReply

namespace ServiceConfig

variable {c : ServiceConfig} {id : Nat} {body : Bytes} {registration : Registration}

/-- A body is not read beyond the limit. -/
def tooLong (c : ServiceConfig) : ServiceError :=
  .malformed ("response exceeds " ++ toString c.maxResponseBytes.toNat ++ " bytes")

end ServiceConfig

namespace ServiceClient

variable {σ : Type} {c : ServiceClient (StateM σ)} {id : Nat} {registration : Registration}
  {request : ComputeRequest} {s s' : σ} {reply : HttpReply}

end ServiceClient

namespace Sample

def service (reply : HttpReply) : ServiceClient (StateM Unit) :=
  ⟨{}, fun _ _ => return .reply reply⟩

def registered : Registration := ⟨0xaa, "http://a", 0xa1, ⟨0, 0, 0⟩⟩

end Sample

end ComputeRelay
