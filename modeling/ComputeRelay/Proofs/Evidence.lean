import ComputeRelay.Proofs.Markers
import ComputeRelay.Proofs.Run

/-! What stands behind the work of a call: everything that it works on comes from something that it
has heard since it began, checked as the relay checks it, or from a signature of the relay's own
signer. Evidence only grows, since nothing that was heard is unheard. -/

namespace ComputeRelay

open Relay

/-- The request was found in a simulation of the operation that the call began with. -/
inductive Detected (id : CallId) (log : List Event) (op : Operation) (request : ComputeRequest)
    (block : BlockContext) : Prop
  | given {outcome : Simulation} (found : detect op outcome = .ok (some request))
      (at_block : outcome.block = block)
      (began : Event.start id (.processSimulated op outcome) ∈ log)
  | simulated {outcome : Simulation} (found : detect op outcome = .ok (some request))
      (at_block : outcome.block = block) (began : Event.start id (.process op) ∈ log)
      (came : Event.reply id (.simulation (.ok outcome)) ∈ log)

/-- The registration is that of the row which the call was given for the request's account. -/
inductive Registered (id : CallId) (log : List Event) (request : ComputeRequest)
    (block : BlockContext) (registration : Registration) : Prop
  | checked {row : RegistryRow} (came : Event.reply id (.row (.ok row)) ∈ log)
      (found : row.check request.account block = .ok registration)

/-- The service answered and its response passed the check against the registration, or the
service gave none and the relay's signer signed the response that says so. The lifecycle is the
one that the request has when its write is drafted. -/
inductive Answered (signer : Signer) (id : CallId) (log : List Event) (request : ComputeRequest)
    (block : BlockContext) : Answer → Lifecycle → Prop
  | given {registration : Registration} {response : ComputeResponse} {payload : Payload}
      (registered : Registered id log request block registration)
      (came : Event.reply id (.response (.ok response)) ∈ log)
      (accepted : response.verify request registration.signer = .ok payload) :
      Answered signer id log request block ⟨response, none⟩
        ⟨request.requestId, [.verifying, .requesting, .resolving, .detected], .populating⟩
  | standIn {registration : Registration} {e : ServiceError} {response : ComputeResponse}
      {payload : Payload} (registered : Registered id log request block registration)
      (failed : Event.reply id (.response (.error e)) ∈ log ∨
        e = .timeout ∧ Event.timeout id ∈ log)
      (signed : signer.respond request.requestId e.code [] = .ok response)
      (accepted : response.verify request signer.address = .ok payload) :
      Answered signer id log request block ⟨response, some e.code⟩
        ⟨request.requestId, [.requesting, .resolving, .detected], .failed e.reason⟩

/-- The write was built and signed for the request and the response. -/
def Written (config : Config) (signer : Signer) (served : Operation) (requestId : Hash)
    (response : ComputeResponse) (write : Operation) : Prop :=
  ∃ nonce, CacheWriter.build { config, signer } served requestId response nonce = .ok write

/-- The lifecycle of a request whose served operation is simulated behind its write. -/
def Lifecycle.repriced (l : Lifecycle) (answer : Answer) : Lifecycle :=
  if answer.fallback.isSome then l
  else { l with past := l.state :: l.past, state := .reestimating }

/-- What a call works on, where it waits, is backed by what it has heard. -/
def Stage.Backed (config : Config) (signer : Signer) (id : CallId) (log : List Event) :
    Stage → Prop
  | .readingBlock op _ => Event.start id (.process op) ∈ log
  | .simulating op _ _ => Event.start id (.process op) ∈ log
  | .clearing _ op request block _ => Detected id log op request block
  | .resolving c =>
    Detected id log c.op c.request c.block ∧
      c.lifecycle = ⟨c.requestId, [.detected], .resolving⟩
  | .asking c registration =>
    Detected id log c.op c.request c.block ∧
      Registered id log c.request c.block registration ∧
      c.lifecycle = ⟨c.requestId, [.resolving, .detected], .requesting⟩
  | .drafting c answer stage =>
    Detected id log c.op c.request c.block ∧
      Answered signer id log c.request c.block answer c.lifecycle ∧
      ∀ write, stage = .simulating write →
        Written config signer c.op c.requestId answer.response write
  | .resimulating c answer prepared =>
    Detected id log c.op c.request c.block ∧
      (∃ l, Answered signer id log c.request c.block answer l ∧
        c.lifecycle = l.repriced answer) ∧
      Written config signer c.op c.requestId answer.response prepared.write
  | _ => True

/-- A pair is backed like the work of the call that finished it. Its served operation is the one
that the call began with, at the estimated gas and under any signature. -/
inductive Pair.Backed (config : Config) (signer : Signer) (id : CallId) (log : List Event)
    (pair : Pair) : Prop
  | intro {op : Operation} {request : ComputeRequest} {block : BlockContext} {answer : Answer}
      {lifecycle : Lifecycle} {signature : Bytes} (detected : Detected id log op request block)
      (answered : Answered signer id log request block answer lifecycle)
      (written : Written config signer op request.requestId answer.response pair.write)
      (requestId : pair.requestId = request.requestId) (fallback : pair.fallback = answer.fallback)
      (served : pair.served = { op.withGas pair.estimate with signature })

theorem Detected.mono {id : CallId} {log log' : List Event} {op : Operation}
    {request : ComputeRequest} {block : BlockContext} (hlog : log ⊆ log')
    (h : Detected id log op request block) : Detected id log' op request block := by
  cases h with
  | given found at_block began => exact .given found at_block (hlog began)
  | simulated found at_block began came => exact .simulated found at_block (hlog began) (hlog came)

theorem Registered.mono {id : CallId} {log log' : List Event} {request : ComputeRequest}
    {block : BlockContext} {registration : Registration} (hlog : log ⊆ log')
    (h : Registered id log request block registration) :
    Registered id log' request block registration := by
  cases h with
  | checked came found => exact .checked (hlog came) found

theorem Answered.mono {signer : Signer} {id : CallId} {log log' : List Event}
    {request : ComputeRequest} {block : BlockContext} {answer : Answer} {l : Lifecycle}
    (hlog : log ⊆ log') (h : Answered signer id log request block answer l) :
    Answered signer id log' request block answer l := by
  cases h with
  | given registered came accepted => exact .given (registered.mono hlog) (hlog came) accepted
  | standIn registered failed signed accepted =>
    exact .standIn (registered.mono hlog) (failed.imp (fun h => hlog h) fun h => ⟨h.1, hlog h.2⟩)
      signed accepted

theorem Answered.populating {signer : Signer} {id : CallId} {log : List Event}
    {request : ComputeRequest} {block : BlockContext} {answer : Answer} {l : Lifecycle}
    (h : Answered signer id log request block answer l) (hf : answer.fallback = none) :
    l = ⟨request.requestId, [.verifying, .requesting, .resolving, .detected], .populating⟩ := by
  cases h with
  | given => rfl
  | standIn => simp at hf

theorem Answered.requestId_eq {signer : Signer} {id : CallId} {log : List Event}
    {request : ComputeRequest} {block : BlockContext} {answer : Answer} {l : Lifecycle}
    (h : Answered signer id log request block answer l) : l.requestId = request.requestId := by
  cases h <;> rfl

theorem Stage.Backed.mono {config : Config} {signer : Signer} {id : CallId}
    {log log' : List Event} {stage : Stage} (hlog : log ⊆ log')
    (h : stage.Backed config signer id log) : stage.Backed config signer id log' := by
  cases stage with
  | readingBlock => exact hlog h
  | simulating => exact hlog h
  | clearing => exact Detected.mono hlog h
  | resolving => exact ⟨h.1.mono hlog, h.2⟩
  | asking => exact ⟨h.1.mono hlog, h.2.1.mono hlog, h.2.2⟩
  | drafting => exact ⟨h.1.mono hlog, h.2.1.mono hlog, h.2.2⟩
  | resimulating =>
    obtain ⟨hd, ⟨l, ha, hl⟩, hw⟩ := h
    exact ⟨hd.mono hlog, ⟨l, ha.mono hlog, hl⟩, hw⟩
  | expiring => trivial
  | dropping => trivial
  | resyncing => trivial

theorem detect_requestId {op : Operation} {outcome : Simulation} {request : ComputeRequest}
    (h : detect op outcome = .ok (some request)) :
    request.requestId = deriveRequestId request.account op.sender op.nonce request.callParams := by
  obtain ⟨m, -, -, names, rfl⟩ := detect_eq_some_iff.mp h
  exact names.derived

theorem Detected.requestId_eq {id : CallId} {log : List Event} {op : Operation}
    {request : ComputeRequest} {block : BlockContext} (h : Detected id log op request block) :
    request.requestId = deriveRequestId request.account op.sender op.nonce request.callParams := by
  cases h with
  | given found => exact detect_requestId found
  | simulated found => exact detect_requestId found

/-- A write before it is signed. -/
def CacheWriter.unsigned (w : CacheWriter) (served : Operation) (requestId : Hash)
    (response : ComputeResponse) (nonce : Word) : Operation where
  sender := w.config.systemAccount
  nonce := nonce
  callData := CacheWrite.encode w.config.helper requestId response.payload response.signature
  callGasLimit := Word.ofUInt64 w.config.writeGas.callGasLimit
  verificationGasLimit := Word.ofUInt64 w.config.writeGas.verificationGasLimit
  preVerificationGas := Word.ofUInt64 w.config.writeGas.preVerificationGas
  maxFeePerGas := served.maxFeePerGas
  maxPriorityFeePerGas := served.maxPriorityFeePerGas

theorem CacheWriter.build_eq_ok {w : CacheWriter} {served : Operation} {requestId : Hash}
    {response : ComputeResponse} {nonce : Word} {write : Operation} :
    w.build served requestId response nonce = .ok write ↔
      ∃ signature, w.signer.sign (messageHash ((w.unsigned served requestId response nonce).hash
          w.config.entryPoint w.config.chainId)) = .ok signature ∧
        write = { w.unsigned served requestId response nonce with signature } := by
  unfold CacheWriter.build
  simp only
  split
  · rename_i signature hs
    have hs' : w.signer.sign (messageHash ((w.unsigned served requestId response nonce).hash
        w.config.entryPoint w.config.chainId)) = .ok signature := hs
    simp only [hs', Except.ok.injEq, exists_eq_left']
    exact eq_comm
  · rename_i err hs
    have hs' : w.signer.sign (messageHash ((w.unsigned served requestId response nonce).hash
        w.config.entryPoint w.config.chainId)) = .error err := hs
    simp [hs']

/-- What a write carries, and who signed it. -/
structure CacheWriter.Built (w : CacheWriter) (requestId : Hash) (response : ComputeResponse)
    (nonce : Word) (write : Operation) : Prop where
  sender : write.sender = w.config.systemAccount
  nonce : write.nonce = nonce
  gas : write.preVerificationGas = Word.ofUInt64 w.config.writeGas.preVerificationGas
  callData : write.callData =
    CacheWrite.encode w.config.helper requestId response.payload response.signature
  signed : w.signer.sign (messageHash (write.hash w.config.entryPoint w.config.chainId)) =
    .ok write.signature

theorem CacheWriter.build_spec {w : CacheWriter} {served : Operation} {requestId : Hash}
    {response : ComputeResponse} {nonce : Word} {write : Operation}
    (h : w.build served requestId response nonce = .ok write) :
    w.Built requestId response nonce write := by
  obtain ⟨signature, hs, rfl⟩ := build_eq_ok.mp h
  exact ⟨rfl, rfl, rfl, rfl, hs⟩

theorem CacheWriter.written_of_build {w : CacheWriter} {served : Operation} {requestId : Hash}
    {response : ComputeResponse} {nonce : Word} {write : Operation}
    (h : w.build served requestId response nonce = .ok write) :
    Written w.config w.signer served requestId response write :=
  ⟨nonce, h⟩

theorem ite_error_eq_ok_iff {ε α : Type} {c : Prop} [Decidable c] {error : ε} {x : Except ε α}
    {value : α} : (if c then .error error else x) = .ok value ↔ ¬ c ∧ x = .ok value := by
  split <;> simp [*]

/-- What a pair is stored with after its served operation was signed anew: nothing but that
operation's signature changes. -/
theorem Pair.withSigned_spec {p q : Pair} {signed : Operation} (h : p.withSigned signed = .ok q) :
    q = { p with served := signed } ∧
      signed = { p.served.withGas p.estimate with signature := signed.signature } := by
  simp only [Pair.withSigned, ite_error_eq_ok_iff, not_or, not_not] at h
  obtain ⟨hid, hgas, hcall, hcode, hfees, -, hq⟩ := h
  refine ⟨(Except.ok.inj hq).symm, ?_⟩
  rw [← hgas]
  clear hgas
  cases signed
  simp_all [Operation.withGas, Operation.gas]

end ComputeRelay
