import ComputeRelay.Proofs.SignedResponses

/-! What every finished pair can be trusted for: its write is the system account's and is signed by
the relay's signer, and what it writes is either a response that passed verification against the
registration of the same call or the signer's own word that there was none. -/

namespace ComputeRelay

open Relay

theorem ComputeResponse.verify_spec {response : ComputeResponse} {request : ComputeRequest}
    {expected : Address} {payload : Payload} (h : response.verify request expected = .ok payload) :
    recoverAddress (responseDigest request.requestId response.payload) response.signature =
        .ok expected ∧
      Payload.decode? response.payload = some payload ∧
      payload.requestId = request.requestId ∧
      ∃ code : ErrorCode, payload.errorCode = code.toUInt32 ∧
        (code = .none → payload.result ≠ [] ∧ payload.result.length % 32 = 0) := by
  obtain ⟨signed, delivers⟩ := ComputeResponse.verify_eq_ok_iff.mp h
  have permitted := delivers.permitted
  obtain ⟨code, hcode⟩ := ErrorCode.exists_of_le permitted.known
  refine ⟨signed, delivers.decoded, permitted.requestId, code, hcode, ?_⟩
  intro hnone
  have hzero : payload.errorCode = 0 := by rw [hcode, ErrorCode.toUInt32_eq_zero_iff, hnone]
  exact permitted.words (permitted.success.mpr hzero)

/-- A payload is accepted: it is for the request and carries a success with a result of whole
words, or another code that is known. -/
def Payload.Acceptable (payload : Payload) (requestId : Hash) : Prop :=
  payload.requestId = requestId ∧
    (payload.errorCode = 0 ∧ payload.result ≠ [] ∧ payload.result.length % 32 = 0 ∨
      ∃ code : ErrorCode, code ≠ .none ∧ payload.errorCode = code.toUInt32)

/-- Where the content of a write comes from. -/
inductive Content (signer : Signer) (id : CallId) (log : List Event) (request : ComputeRequest)
    (block : BlockContext) (payload signature : Bytes) : Option ErrorCode → Prop
  | verified {registration : Registration} {response : ComputeResponse} {decoded : Payload}
      (registered : Registered id log request block registration)
      (came : Event.reply id (.response (.ok response)) ∈ log)
      (content : response.payload = payload ∧ response.signature = signature)
      (accepted : response.verify request registration.signer = .ok decoded)
      (recovers : recoverAddress (responseDigest request.requestId payload) signature =
        .ok registration.signer)
      (decodes : Payload.decode? payload = some decoded)
      (acceptable : decoded.Acceptable request.requestId) :
      Content signer id log request block payload signature none
  | standIn {registration : Registration} {e : ServiceError}
      (registered : Registered id log request block registration)
      (failed : Event.reply id (.response (.error e)) ∈ log ∨
        e = .timeout ∧ Event.timeout id ∈ log)
      (content : payload = (Payload.mk request.requestId e.code.toUInt32 []).encode)
      (signed : signer.sign (responseDigest request.requestId payload) = .ok signature)
      (recovers : recoverAddress (responseDigest request.requestId payload) signature =
        .ok signer.address) :
      Content signer id log request block payload signature (some e.code)

/-- A pair that can be trusted, from what the call that finished it had heard. -/
inductive Pair.Genuine (config : Config) (signer : Signer) (id : CallId) (log : List Event)
    (pair : Pair) : Prop
  | intro {op : Operation} {request : ComputeRequest} {block : BlockContext}
      {payload signature : Bytes} (detected : Detected id log op request block)
      (requestId : pair.requestId = request.requestId)
      (derived : pair.requestId =
        deriveRequestId request.account op.sender op.nonce request.callParams)
      (served : pair.served =
        { op.withGas pair.estimate with signature := pair.served.signature })
      (sender : pair.write.sender = config.systemAccount)
      (signed : recoverAddress (messageHash (pair.write.hash config.entryPoint config.chainId))
        pair.write.signature = .ok signer.address)
      (callData : pair.write.callData =
        CacheWrite.encode config.helper pair.requestId payload signature)
      (content : Content signer id log request block payload signature pair.fallback)

variable {config : Config} {signer : Signer} {id : CallId} {log : List Event}

/-- The stand-in response says what it is for: its request, its code and no result. -/
theorem Answered.content {request : ComputeRequest} {block : BlockContext} {answer : Answer}
    {l : Lifecycle} (h : Answered signer id log request block answer l) :
    Content signer id log request block answer.response.payload answer.response.signature
      answer.fallback := by
  cases h with
  | @given registration response payload registered came accepted =>
    obtain ⟨hrec, hdec, hid, code, hcode, hresult⟩ := ComputeResponse.verify_spec accepted
    refine .verified registered came ⟨rfl, rfl⟩ accepted hrec hdec ⟨hid, ?_⟩
    by_cases hnone : code = .none
    · subst hnone
      exact .inl ⟨hcode, hresult rfl⟩
    · exact .inr ⟨code, hnone, hcode⟩
  | @standIn registration e response payload registered failed signed accepted =>
    obtain ⟨signature, hsign, rfl⟩ := Signer.respond_eq_ok_iff.mp signed
    obtain ⟨hrec, -⟩ := ComputeResponse.verify_spec accepted
    exact .standIn registered failed rfl hsign hrec

theorem Pair.Backed.genuine {pair : Pair} (hb : pair.Backed config signer id log)
    (recovers : ∀ digest signature, signer.sign digest = .ok signature →
      recoverAddress digest signature = .ok signer.address) :
    pair.Genuine config signer id log := by
  obtain @⟨op, request, block, answer, l, signature, hd, ha, hw, hid, hfall, hserved⟩ := hb
  obtain ⟨nonce, hb⟩ := hw
  obtain ⟨hsender, -, -, hcall, hsign⟩ := CacheWriter.build_spec hb
  rw [← hid] at hcall
  have hcontent := ha.content
  rw [← hfall] at hcontent
  exact ⟨hd, hid, hid.trans hd.requestId_eq, by rw [hserved], hsender, recovers _ _ hsign, hcall,
    hcontent⟩

/-- Signing the served operation anew leaves a pair backed. -/
theorem Pair.Backed.withSigned {p q : Pair} {signed : Operation}
    (hb : p.Backed config signer id log) (h : p.withSigned signed = .ok q) :
    q.Backed config signer id log := by
  obtain ⟨hq, hsigned⟩ := Pair.withSigned_spec h
  obtain @⟨op, request, block, answer, l, signature, hd, ha, hw, hid, hfall, hserved⟩ := hb
  have hs : signed = { op.withGas p.estimate with signature := signed.signature } := by
    rw [hserved] at hsigned
    exact hsigned
  subst hq
  exact ⟨hd, ha, hw, hid, hfall, hs⟩

/-- Every pending pair is backed by what a call had heard when it finished the pair. -/
theorem run_pending_backed (config : Config) (signer : Signer) (es : List Event) :
    ∀ e ∈ ((idle config signer).after es).pending, ∃ id before, before <+: es ∧
      e.2.pair.Backed config signer id ((idle config signer).heard before id) := by
  refine run_keeps (P := fun es s _ => ∀ e ∈ s.pending, ∃ id before, before <+: es ∧
    e.2.pair.Backed config signer id ((idle config signer).heard before id)) (by simp) ?_ ?_
    (throughout_trivial (idle config signer) es)
  · intro es e s f hp entry hentry
    obtain ⟨id, before, hbefore, hb⟩ := hp entry hentry
    exact ⟨id, before, hbefore.trans (List.prefix_append es [e]), hb⟩
  · intro es e id _ _ s s' h h' hm hp
    obtain ⟨hconfig, hsigner, -⟩ := run_backed config signer es
    have hsub : ∀ {t : Table Hash PendingPair}, t ⊆ s.pending → ∀ entry ∈ t,
        ∃ id before, before <+: es ++ [e] ∧
          entry.2.pair.Backed config signer id ((idle config signer).heard before id) :=
      fun ht entry hentry => hp entry (ht hentry)
    cases hm with
    | join outside => exact hp
    | leave => exact hp
    | read waiting first => exact hp
    | grant waiting first => exact hp
    | learn reading taught untouched => exact hp
    | rewind waiting first fits => exact hsub (List.filter_subset_self _)
    | resync waiting first => exact hp
    | reserve row free new => exact hp
    | release held => exact hp
    | enroll free new => exact hp
    | record row => exact hp
    | close row free => exact hp
    | forget => exact hsub (List.filter_subset_self _)
    | finish now row held granted before backed =>
      intro entry hentry
      rcases Table.mem_of_mem_insert hentry with rfl | hold
      · rw [hconfig, hsigner] at backed
        exact ⟨id, es ++ [e], List.prefix_refl _, backed⟩
      · exact hp entry hold
    | attach stored accepted =>
      intro entry hentry
      rcases Table.mem_of_mem_insert hentry with rfl | hold
      · obtain ⟨k, before, hbefore, hb⟩ := hp _ stored
        exact ⟨k, before, hbefore, hb.withSigned accepted⟩
      · exact hp entry hold
    | letGo row free gone => exact hp

theorem attach_eq_ok {r : Relay} {signed : Operation} {order : List Hash} {pair : Pair}
    (h : (r.attach signed order).2 = .ok pair) :
    ∃ key entry, (key, entry) ∈ r.pending ∧ entry.pair.withSigned signed = .ok pair := by
  unfold Relay.attach at h
  split at h
  · exact nomatch h
  · rename_i key entry hfind
    split at h
    · exact nomatch h
    · rename_i pair' hpair
      cases h
      exact ⟨key, entry, mem_arranged.mp (List.mem_of_find?_eq_some hfind), hpair⟩

/-- Every pair that a call ends with, that a relay has pending, or that an operation signed anew is
bound to, can be trusted, whatever the ledger and the service answered and however the calls were
interleaved. -/
theorem pairs_genuine (config : Config) (signer : Signer)
    (recovers : ∀ digest signature, signer.sign digest = .ok signature →
      recoverAddress digest signature = .ok signer.address) (es : List Event) :
    (∀ e pair fee l, (((idle config signer).after es).step e).2 = some (.paired pair fee l) →
      ∃ id, pair.Genuine config signer id ((idle config signer).heard (es ++ [e]) id)) ∧
    (∀ e ∈ ((idle config signer).after es).pending, ∃ id before, before <+: es ∧
      e.2.pair.Genuine config signer id ((idle config signer).heard before id)) ∧
    ∀ signed order pair, (((idle config signer).after es).attach signed order).2 = .ok pair →
      ∃ id before, before <+: es ∧
        pair.Genuine config signer id ((idle config signer).heard before id) := by
  refine ⟨?_, ?_, ?_⟩
  · intro e pair fee l hresult
    obtain ⟨hconfig, hsigner, -⟩ := run_backed config signer es
    obtain ⟨id, -, hs⟩ := run_stepped config signer es e
    obtain ⟨hb, -⟩ := hs.result _ hresult
    rw [hconfig, hsigner] at hb
    exact ⟨id, hb.genuine recovers⟩
  · intro e he
    obtain ⟨id, before, hbefore, hb⟩ := run_pending_backed config signer es e he
    exact ⟨id, before, hbefore, hb.genuine recovers⟩
  · intro signed order pair hattach
    obtain ⟨key, entry, hstored, haccepted⟩ := attach_eq_ok hattach
    obtain ⟨id, before, hbefore, hb⟩ := run_pending_backed config signer es _ hstored
    exact ⟨id, before, hbefore, (hb.withSigned haccepted).genuine recovers⟩

def Sample.writeDigest : Hash := 0x9c4ed74912725e89990d220fc1c78e14f19e21209df389e207a730cd84d5e695

/-- A signer of one digest, whose signature is the signer's own. -/
def Sample.ownSigner : Signer where
  address := 0xbed60d18aaba6b95865617de01783615a118c774
  sign digest :=
    if digest = writeDigest then .ok signature else .error (.signing "signature error")

theorem Sample.ownSigner_recovers (digest : Hash) (signature : Bytes)
    (h : ownSigner.sign digest = .ok signature) :
    recoverAddress digest signature = .ok ownSigner.address := by
  have hpoint : recoverPoint? writeDigest 1 1 false =
      some (0x7d016431772bf8617a199964187c7f85094964b252d40b8e07146d6b0c7d2450,
        0x1604bd32296926f1049a327f2d75375eeea489fe2b26f53a34d83bd1dac068c3) := by
    decide +kernel
  simp only [ownSigner] at h
  split at h
  · rename_i hdigest
    rw [← Except.ok.inj h, hdigest, recovers hpoint]
    simp only [addressOfPoint, keccak256_eq]
    decide +kernel
  · cases h

theorem Sample.exists_write : ∃ write, CacheWriter.build
    { config := Sample.config, signer := ownSigner } first.op first.key first.response 0 =
      .ok write := by
  have hdigest : messageHash ((CacheWriter.unsigned
      { config := Sample.config, signer := ownSigner } first.op firstKey (response firstKey)
        0).hash Sample.config.entryPoint Sample.config.chainId) = writeDigest := by
    simp only [messageHash, Operation.hash, Operation.signedWords, keccak256_eq]
    decide +kernel
  refine ⟨_, CacheWriter.build_eq_ok.mpr ⟨signature, ?_, rfl⟩⟩
  exact if_pos hdigest

/-- The pair of a request that is answered well can be trusted. -/
theorem sample_pair_genuine :
    ∃ entry ∈ ((idle Sample.config Sample.ownSigner).after (Sample.first.served "a" 0)).pending,
      ∃ id before, before <+: Sample.first.served "a" 0 ∧
        entry.2.pair.Genuine Sample.config Sample.ownSigner id
          ((idle Sample.config Sample.ownSigner).heard before id) := by
  obtain ⟨write, hb⟩ := Sample.exists_write
  obtain ⟨pair, -, hserved⟩ := Answerable.after_served
    (Answerable.welcome_idle (a := Sample.first) Sample.config Sample.ownSigner "a") rfl hb
    (by decide) (by decide)
  have hpending : (Sample.firstKey, ⟨pair, 0⟩) ∈
      ((idle Sample.config Sample.ownSigner).after (Sample.first.served "a" 0)).pending := by
    rw [hserved]
    exact List.mem_singleton_self _
  exact ⟨_, hpending, (pairs_genuine _ _ Sample.ownSigner_recovers _).2.1 _ hpending⟩

end ComputeRelay
