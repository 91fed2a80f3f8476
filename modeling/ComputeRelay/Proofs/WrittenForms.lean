import ComputeRelay.Config
import ComputeRelay.Json.RoundTrip
import ComputeRelay.Json.Scalar.Lemmas
import ComputeRelay.Request

/-! The values that are kept and sent as JSON: operations and their gas, blocks, requests,
responses, registrations and the configuration. Each is read back from what is written of it, with
the members of its objects in any order, and without those of its own members that are at their
defaults. -/

namespace ComputeRelay

namespace Json

/-- Every restatement of what is written of a value is read as that value, and so is its text. -/
def ReadsBack {α : Type} (read : Json → Option α) (mayOmit : String → Prop) (written : Json)
    (a : α) : Prop :=
  ∀ v, Restated mayOmit written v → read v = some a ∧ (parse? v.compact).bind read = some a

section

variable {α : Type} {read : Json → Option α} {mayOmit : String → Prop} {written : Json} {a : α}

theorem ReadsBack.of_without (hread : Orderless read) (hprintable : written.Printable)
    (hwritten : ∀ names, (∀ name ∈ names, mayOmit name) → read (written.without names) = some a) :
    ReadsBack read mayOmit written a := by
  intro v hv
  have hvalue : read v = some a := hv.read_eq hread hwritten
  refine ⟨hvalue, ?_⟩
  rw [parse?_compact (hprintable.restated hv)]
  exact hvalue

/-- Where no member may be left out. -/
theorem ReadsBack.of_written (hread : Orderless read) (hprintable : written.Printable)
    (hwritten : read written = some a) : ReadsBack read (fun _ => False) written a := by
  refine .of_without hread hprintable ?_
  intro names hnames
  have hnone : names = [] := List.eq_nil_iff_forall_not_mem.mpr hnames
  rw [hnone, without_nil]
  exact hwritten

end

@[simp] theorem printable_ofUInt64 (n : UInt64) : (ofUInt64 n).Printable := .number n.toNat

@[simp] theorem printable_ofWord (w : Word) : (ofWord w).Printable := .string _

@[simp] theorem printable_ofBytes (bs : Bytes) : (ofBytes bs).Printable := .string _

@[simp] theorem printable_ofAddress (a : Address) : (ofAddress a).Printable := .string _

@[simp] theorem printable_ofHash (h : Hash) : (ofHash h).Printable := .string _

end Json

open Json

namespace GasEstimate

theorem orderless : Orderless ofJson? :=
  shape.orderless_bind fun h => by simp only [h.required? .word]

theorem printable (gas : GasEstimate) : gas.toJson.Printable :=
  .object (by simp)

theorem ofJson?_toJson (gas : GasEstimate) : ofJson? gas.toJson = some gas := by
  rw [ofJson?, toJson, Shape.slots?_written rfl (by decide)]
  simp

end GasEstimate

namespace BlockContext

theorem orderless : Orderless ofJson? :=
  shape.orderless_bind fun h => by simp only [h.required? .uint64, h.required? .hash]

@[simp] theorem printable (block : BlockContext) : block.toJson.Printable :=
  .object (by simp)

@[simp] theorem ofJson?_toJson (block : BlockContext) : ofJson? block.toJson = some block := by
  rw [ofJson?, toJson, Shape.slots?_written rfl (by decide)]
  simp

end BlockContext

namespace ComputeRequest

theorem orderless : Orderless ofJson? :=
  shape.orderless_bind fun h => by
    simp only [h.required? .address, h.required? .hash, h.required? .bytes, h.required? .uint64]

theorem printable (r : ComputeRequest) : r.toJson.Printable :=
  .object (by simp)

theorem ofJson?_toJson (r : ComputeRequest) : ofJson? r.toJson = some r := by
  rw [ofJson?, toJson, Shape.slots?_written rfl (by decide)]
  simp

end ComputeRequest

namespace ComputeResponse

theorem orderless : Orderless ofJson? :=
  shape.orderless_bind fun h => by
    simp only [h.required? .bool, h.required? .bytes, h.required? .address]

theorem printable (r : ComputeResponse) : r.toJson.Printable :=
  .object (by simp [Printable.bool])

theorem ofJson?_toJson (r : ComputeResponse) : ofJson? r.toJson = some r := by
  rw [ofJson?, toJson, Shape.slots?_written rfl (by decide)]
  simp [bool?]

end ComputeResponse

namespace Registration

theorem orderless : Orderless ofJson? :=
  shape.orderless_bind fun h => by
    simp only [h.required? .address, h.required? .text, h.required? BlockContext.orderless]

theorem printable (r : Registration) : r.toJson.Printable :=
  .object (by simp [Printable.string])

theorem ofJson?_toJson (r : Registration) : ofJson? r.toJson = some r := by
  rw [ofJson?, toJson, Shape.slots?_written rfl (by decide)]
  simp [text?]

end Registration

namespace ServiceConfig

theorem orderless : Orderless ofJson? :=
  shape.orderless_bind fun h => by simp only [h.required? .text, h.required? .uint64]

@[simp] theorem printable (c : ServiceConfig) : c.toJson.Printable :=
  .object (by simp [Printable.string])

theorem ofJson?_toJson (c : ServiceConfig) : ofJson? c.toJson = some c := by
  rw [ofJson?, toJson, Shape.slots?_written rfl (by decide)]
  simp [text?]

end ServiceConfig

namespace WriteGas

theorem orderless : Orderless ofJson? :=
  shape.orderless_bind fun h => by simp only [h.required? .uint64]

@[simp] theorem printable (g : WriteGas) : g.toJson.Printable :=
  .object (by simp)

theorem ofJson?_toJson (g : WriteGas) : ofJson? g.toJson = some g := by
  rw [ofJson?, toJson, Shape.slots?_written rfl (by decide)]
  simp

end WriteGas

namespace FeeConfig

theorem orderless : Orderless ofJson? :=
  shape.orderless_bind fun h => by simp only [h.required? .uint64]

@[simp] theorem printable (f : FeeConfig) : f.toJson.Printable :=
  .object (by simp)

theorem ofJson?_toJson (f : FeeConfig) : ofJson? f.toJson = some f := by
  rw [ofJson?, toJson, Shape.slots?_written rfl (by decide)]
  simp

end FeeConfig

namespace Operation

/-- The members that an operation need not name, when they are at their defaults. -/
def MayOmit (op : Operation) : String → Prop
  | "initCode" => op.initCode = []
  | "callGasLimit" => op.callGasLimit = 0
  | "verificationGasLimit" => op.verificationGasLimit = 0
  | "preVerificationGas" => op.preVerificationGas = 0
  | "maxFeePerGas" => op.maxFeePerGas = 0
  | "maxPriorityFeePerGas" => op.maxPriorityFeePerGas = 0
  | "paymasterAndData" => op.paymasterAndData = []
  | "signature" => op.signature = []
  | _ => False

theorem orderless : Orderless ofJson? :=
  shape.orderless_bind fun h => by
    simp only [h.required? .address, h.required? .word, h.required? .bytes, h.optional? .word,
      h.optional? .bytes]

theorem printable (op : Operation) : op.toJson.Printable :=
  .object (by simp)

theorem ofJson?_without (op : Operation) {names : List String}
    (h : ∀ name ∈ names, op.MayOmit name) : ofJson? (op.toJson.without names) = some op := by
  rw [ofJson?, toJson, Shape.slots?_without names rfl (by decide)]
  refine Slots.required?_without_bind rfl (address?_ofAddress op.sender) (h _) ?_
  refine Slots.required?_without_bind rfl (word?_ofWord op.nonce) (h _) ?_
  refine Slots.optional?_without_bind rfl (bytes?_ofBytes op.initCode) (h _) ?_
  refine Slots.required?_without_bind rfl (bytes?_ofBytes op.callData) (h _) ?_
  refine Slots.optional?_without_bind rfl (word?_ofWord op.callGasLimit) (h _) ?_
  refine Slots.optional?_without_bind rfl (word?_ofWord op.verificationGasLimit) (h _) ?_
  refine Slots.optional?_without_bind rfl (word?_ofWord op.preVerificationGas) (h _) ?_
  refine Slots.optional?_without_bind rfl (word?_ofWord op.maxFeePerGas) (h _) ?_
  refine Slots.optional?_without_bind rfl (word?_ofWord op.maxPriorityFeePerGas) (h _) ?_
  refine Slots.optional?_without_bind rfl (bytes?_ofBytes op.paymasterAndData) (h _) ?_
  refine Slots.optional?_without_bind rfl (bytes?_ofBytes op.signature) (h _) ?_
  rfl

end Operation

namespace Config

/-- The members that a configuration need not name, when they are at their defaults. -/
def MayOmit (c : Config) : String → Prop
  | "request_timeout_ms" => c.requestTimeoutMs = 10000
  | "fallback_grace_ms" => c.fallbackGraceMs = 3000
  | "pending_ttl_ms" => c.pendingTtlMs = 120000
  | "response_cache_slot" => c.responseCacheSlot = 1
  | "offchain" => c.service = {}
  | "injected" => c.writeGas = {}
  | "fees" => c.fees = {}
  | _ => False

theorem orderless : Orderless ofJson? :=
  shape.orderless_bind fun h => by
    simp only [h.required? .uint64, h.required? .text, h.required? .address, h.optional? .uint64,
      h.optional? ServiceConfig.orderless, h.optional? WriteGas.orderless,
      h.optional? FeeConfig.orderless]

theorem printable (c : Config) : c.toJson.Printable :=
  .object (by simp [Printable.string])

theorem ofJson?_without (c : Config) {names : List String} (h : ∀ name ∈ names, c.MayOmit name) :
    ofJson? (c.toJson.without names) = some c := by
  rw [ofJson?, toJson, Shape.slots?_without names rfl (by decide)]
  refine Slots.required?_without_bind rfl (uint64?_ofUInt64 c.chainId) (h _) ?_
  refine Slots.required?_without_bind rfl rfl (h _) ?_
  refine Slots.required?_without_bind rfl (address?_ofAddress c.entryPoint) (h _) ?_
  refine Slots.required?_without_bind rfl (address?_ofAddress c.helper) (h _) ?_
  refine Slots.required?_without_bind rfl (address?_ofAddress c.systemAccount) (h _) ?_
  refine Slots.optional?_without_bind rfl (uint64?_ofUInt64 c.requestTimeoutMs) (h _) ?_
  refine Slots.optional?_without_bind rfl (uint64?_ofUInt64 c.fallbackGraceMs) (h _) ?_
  refine Slots.optional?_without_bind rfl (uint64?_ofUInt64 c.pendingTtlMs) (h _) ?_
  refine Slots.optional?_without_bind rfl (uint64?_ofUInt64 c.responseCacheSlot) (h _) ?_
  refine Slots.optional?_without_bind rfl (c.service.ofJson?_toJson) (h _) ?_
  refine Slots.optional?_without_bind rfl (c.writeGas.ofJson?_toJson) (h _) ?_
  refine Slots.optional?_without_bind rfl (c.fees.ofJson?_toJson) (h _) ?_
  rfl

end Config

/-- Every value of the seven kinds is read back from what is written of it, as a value and as text.
Only operations and configurations have members that may be left out. -/
theorem written_forms_read_back :
    (∀ op : Operation, ReadsBack Operation.ofJson? op.MayOmit op.toJson op) ∧
    (∀ gas : GasEstimate, ReadsBack GasEstimate.ofJson? (fun _ => False) gas.toJson gas) ∧
    (∀ block : BlockContext, ReadsBack BlockContext.ofJson? (fun _ => False) block.toJson block) ∧
    (∀ r : ComputeRequest, ReadsBack ComputeRequest.ofJson? (fun _ => False) r.toJson r) ∧
    (∀ r : ComputeResponse, ReadsBack ComputeResponse.ofJson? (fun _ => False) r.toJson r) ∧
    (∀ r : Registration, ReadsBack Registration.ofJson? (fun _ => False) r.toJson r) ∧
    (∀ c : Config, ReadsBack Config.ofJson? c.MayOmit c.toJson c) := by
  refine ⟨fun op => ?_, fun gas => ?_, fun block => ?_, fun r => ?_, fun r => ?_, fun r => ?_,
    fun c => ?_⟩
  · exact .of_without Operation.orderless op.printable fun _ => op.ofJson?_without
  · exact .of_written GasEstimate.orderless gas.printable gas.ofJson?_toJson
  · exact .of_written BlockContext.orderless block.printable block.ofJson?_toJson
  · exact .of_written ComputeRequest.orderless r.printable r.ofJson?_toJson
  · exact .of_written ComputeResponse.orderless r.printable r.ofJson?_toJson
  · exact .of_written Registration.orderless r.printable r.ofJson?_toJson
  · exact .of_without Config.orderless c.printable fun _ => c.ofJson?_without

namespace Sample

/-- An operation that leaves its gas, its fees and its signature to be filled in. -/
def bareOperation : Operation := { sender := 0xb3, nonce := 7, callData := [1, 2] }

/-- A configuration with one section that is not at its default. -/
def patientConfig : Config :=
  { chainId := 901, nodeUrl := "http://node", entryPoint := 0xe0, helper := 0xc1,
    systemAccount := 0xa0, service := { timeoutMs := 8000 } }

/-- The members of the bare operation that are not at their defaults, the last one first. -/
def bareJson : Json :=
  .object [("callData", .ofBytes [1, 2]), ("nonce", .ofWord 7), ("sender", .ofAddress 0xb3)]

/-- The members of the patient configuration that are not at their defaults, and those of its
section, the last one first. -/
def patientJson : Json :=
  .object [("offchain", .object [("max_payload_bytes", .ofUInt64 16384),
      ("max_response_bytes", .ofUInt64 65536), ("timeout_ms", .ofUInt64 8000),
      ("method", .string "hc_offchainCall")]), ("system_account", .ofAddress 0xa0),
    ("helper_address", .ofAddress 0xc1), ("entry_point", .ofAddress 0xe0),
    ("node_url", .string "http://node"), ("chain_id", .ofUInt64 901)]

theorem terse_forms_read_back :
    (Operation.ofJson? bareJson = some bareOperation ∧
      (parse? bareJson.compact).bind Operation.ofJson? = some bareOperation) ∧
    (Config.ofJson? patientJson = some patientConfig ∧
      (parse? patientJson.compact).bind Config.ofJson? = some patientConfig) := by
  obtain ⟨hoperation, -, -, -, -, -, hconfig⟩ := written_forms_read_back
  have hbare : Restated bareOperation.MayOmit bareOperation.toJson bareJson := by
    have homitted : ∀ name ∈ ["initCode", "callGasLimit", "verificationGasLimit",
        "preVerificationGas", "maxFeePerGas", "maxPriorityFeePerGas", "paymasterAndData",
        "signature"], bareOperation.MayOmit name := by
      simp [Operation.MayOmit, bareOperation]
    exact .rearranged (.omitted .same homitted) (.object (List.reverse_perm _).symm)
  have hpatient : Restated patientConfig.MayOmit patientConfig.toJson patientJson := by
    have homitted : ∀ name ∈ ["request_timeout_ms", "fallback_grace_ms", "pending_ttl_ms",
        "response_cache_slot", "injected", "fees"], patientConfig.MayOmit name := by
      simp [Config.MayOmit, patientConfig]
    refine .rearranged (.rearranged (.omitted .same homitted)
      (.object (List.reverse_perm _).symm)) ?_
    exact @Rearranged.member [] _ _ _ _ (.object (List.reverse_perm _).symm)
  exact ⟨hoperation _ _ hbare, hconfig _ _ hpatient⟩

end Sample

end ComputeRelay
