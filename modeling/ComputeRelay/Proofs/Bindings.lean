import ComputeRelay.Proofs.Answerable
import ComputeRelay.Proofs.Evidence
import ComputeRelay.Word.Lemmas

/-! What is bound by the digests that are signed, and by the ids of requests. Two of them are equal
only when what they are taken of is equal, or when two different byte strings, one digested on the
way to each, have one digest. That such strings cannot be found is never assumed. -/

namespace ComputeRelay

/-- A byte string of one list and a different one of the other have the same digest. -/
def Collide (as bs : List Bytes) : Prop :=
  ∃ a ∈ as, ∃ b ∈ bs, a ≠ b ∧ keccak256 a = keccak256 b

section

variable {as bs : List Bytes}

theorem eq_of_not_collide (hfree : ¬ Collide as bs) {a b : Bytes} (ha : a ∈ as) (hb : b ∈ bs)
    (h : keccak256 a = keccak256 b) : a = b := by
  by_contra hne
  exact hfree ⟨a, ha, b, hb, hne, h⟩

theorem collide_singleton_iff {a b : Bytes} :
    Collide [a] [b] ↔ a ≠ b ∧ keccak256 a = keccak256 b := by
  simp only [Collide, List.mem_singleton, exists_eq_left]

theorem digest_eq_iff {a b : Bytes} : keccak256 a = keccak256 b ↔ a = b ∨ Collide [a] [b] := by
  rw [collide_singleton_iff]
  by_cases h : a = b
  · simp only [h, true_or]
  · simp only [h, false_or, ne_eq, not_false_eq_true, true_and]

/-- Words that are written one after another and digested. -/
theorem words_eq_of_not_collide (hfree : ¬ Collide as bs) {vs ws : List Word}
    (ha : vs.flatMap Word.toBytes ∈ as) (hb : ws.flatMap Word.toBytes ∈ bs)
    (h : keccak256 (vs.flatMap Word.toBytes) = keccak256 (ws.flatMap Word.toBytes)) : vs = ws :=
  Word.flatMap_toBytes_inj.mp (eq_of_not_collide hfree ha hb h)

end

namespace Operation

/-- The words that the hash of an operation is the digest of. -/
def hashedWords (op : Operation) (entryPoint : Address) (chainId : UInt64) : List Word :=
  [keccak256 (op.signedWords.flatMap Word.toBytes), entryPoint.toWord, Word.ofUInt64 chainId]

theorem hash_eq (op : Operation) (entryPoint : Address) (chainId : UInt64) :
    op.hash entryPoint chainId =
      keccak256 ((op.hashedWords entryPoint chainId).flatMap Word.toBytes) := by
  simp only [hash, hashedWords, List.flatMap_cons, List.flatMap_nil, List.append_nil,
    List.append_assoc]

/-- The byte strings that are digested on the way to the hash of an operation. -/
def digested (op : Operation) (entryPoint : Address) (chainId : UInt64) : List Bytes :=
  [op.initCode, op.callData, op.paymasterAndData, op.signedWords.flatMap Word.toBytes,
    (op.hashedWords entryPoint chainId).flatMap Word.toBytes]

variable {op op' : Operation} {entryPoint entryPoint' : Address} {chainId chainId' : UInt64}

/-- The signed words bind every field but the signature. -/
theorem eq_of_signedWords
    (hfree : ¬ Collide (op.digested entryPoint chainId) (op'.digested entryPoint' chainId'))
    (h : op.signedWords = op'.signedWords) : op' = { op with signature := op'.signature } := by
  simp only [signedWords, List.cons.injEq, Address.toWord_inj, and_true] at h
  obtain ⟨hsender, hnonce, hinit, hcall, hcallGas, hverification, hpre, hfee, hpriority,
    hpaymaster⟩ := h
  have hinit := eq_of_not_collide hfree (by simp [digested]) (by simp [digested]) hinit
  have hcall := eq_of_not_collide hfree (by simp [digested]) (by simp [digested]) hcall
  have hpaymaster := eq_of_not_collide hfree (by simp [digested]) (by simp [digested]) hpaymaster
  cases op
  cases op'
  simp_all

theorem eq_of_hash
    (hfree : ¬ Collide (op.digested entryPoint chainId) (op'.digested entryPoint' chainId'))
    (h : op.hash entryPoint chainId = op'.hash entryPoint' chainId') :
    op' = { op with signature := op'.signature } ∧ entryPoint = entryPoint' ∧
      chainId = chainId' := by
  rw [hash_eq, hash_eq] at h
  have hwords := words_eq_of_not_collide hfree (by simp [digested]) (by simp [digested]) h
  simp only [hashedWords, List.cons.injEq, Address.toWord_inj, Word.ofUInt64_inj, and_true]
    at hwords
  obtain ⟨hsigned, hentryPoint, hchainId⟩ := hwords
  have hsigned := words_eq_of_not_collide hfree (by simp [digested]) (by simp [digested]) hsigned
  exact ⟨eq_of_signedWords hfree hsigned, hentryPoint, hchainId⟩

end Operation

/-- The bytes that the digest of a signed message is taken of. -/
def messageBytes (digest : Hash) : Bytes :=
  0x19 :: "Ethereum Signed Message:\n32".toUTF8.toList ++ digest.toBytes

theorem messageHash_eq (digest : Hash) : messageHash digest = keccak256 (messageBytes digest) := rfl

theorem messageBytes_inj {digest digest' : Hash} :
    messageBytes digest = messageBytes digest' ↔ digest = digest' := by
  rw [messageBytes, messageBytes, List.append_cancel_left_eq]
  exact Word.toBytes_inj

/-- The byte strings that are digested on the way to what a signer of operations signs. -/
def Operation.messageDigested (op : Operation) (entryPoint : Address) (chainId : UInt64) :
    List Bytes :=
  messageBytes (op.hash entryPoint chainId) :: op.digested entryPoint chainId

/-- The words that name a response: its request, and the digest of its payload. -/
def responseWords (requestId : Hash) (payload : Bytes) : List Word :=
  [requestId, keccak256 payload]

/-- The byte strings that are digested on the way to what a signer of responses signs. -/
def responseDigested (requestId : Hash) (payload : Bytes) : List Bytes :=
  [payload, (responseWords requestId payload).flatMap Word.toBytes,
    messageBytes (keccak256 ((responseWords requestId payload).flatMap Word.toBytes))]

theorem responseDigest_eq (requestId : Hash) (payload : Bytes) :
    responseDigest requestId payload =
      keccak256 (messageBytes
        (keccak256 ((responseWords requestId payload).flatMap Word.toBytes))) := by
  simp only [responseDigest, messageHash_eq, responseWords, List.flatMap_cons, List.flatMap_nil,
    List.append_nil]
  rfl

theorem responseDigest_binds {requestId requestId' : Hash} {payload payload' : Bytes}
    (hfree : ¬ Collide (responseDigested requestId payload) (responseDigested requestId' payload'))
    (h : responseDigest requestId payload = responseDigest requestId' payload') :
    requestId = requestId' ∧ payload = payload' := by
  rw [responseDigest_eq, responseDigest_eq] at h
  have hmessage := eq_of_not_collide hfree (by simp [responseDigested])
    (by simp [responseDigested]) h
  have hwords := words_eq_of_not_collide hfree (by simp [responseDigested])
    (by simp [responseDigested]) (messageBytes_inj.mp hmessage)
  simp only [responseWords, List.cons.injEq, and_true] at hwords
  obtain ⟨hrequestId, hpayload⟩ := hwords
  exact ⟨hrequestId,
    eq_of_not_collide hfree (by simp [responseDigested]) (by simp [responseDigested]) hpayload⟩

/-- What is signed for an operation is the digest of three words, and for a response of two. -/
theorem operation_ne_response {op : Operation} {entryPoint : Address} {chainId : UInt64}
    {requestId : Hash} {payload : Bytes}
    (hfree : ¬ Collide (op.messageDigested entryPoint chainId)
      (responseDigested requestId payload)) :
    messageHash (op.hash entryPoint chainId) ≠ responseDigest requestId payload := by
  intro h
  rw [messageHash_eq, responseDigest_eq] at h
  have hmessage := eq_of_not_collide hfree (by simp [Operation.messageDigested])
    (by simp [responseDigested]) h
  have hhash := messageBytes_inj.mp hmessage
  rw [Operation.hash_eq] at hhash
  have hwords := words_eq_of_not_collide hfree
    (by simp [Operation.messageDigested, Operation.digested]) (by simp [responseDigested]) hhash
  simp [Operation.hashedWords, responseWords] at hwords

/-- What a signature can stand for. The hash of an operation binds all of it but its signature, and
the entry point and the chain; the signer of a cache write signs the message of the write's hash,
which is no response's digest; and a response's digest binds its request and its payload. In each
case the one way out is a collision between byte strings that the two computations digest. -/
theorem digests_bind :
    (∀ (op op' : Operation) entryPoint entryPoint' chainId chainId',
      op.hash entryPoint chainId = op'.hash entryPoint' chainId' →
        (op' = { op with signature := op'.signature } ∧ entryPoint = entryPoint' ∧
            chainId = chainId') ∨
          Collide (op.digested entryPoint chainId) (op'.digested entryPoint' chainId')) ∧
    (∀ (op : Operation) entryPoint chainId signature,
      ({ op with signature } : Operation).hash entryPoint chainId = op.hash entryPoint chainId) ∧
    (∀ (w : CacheWriter) served requestId response nonce write,
      w.build served requestId response nonce = .ok write →
        w.signer.sign (messageHash (write.hash w.config.entryPoint w.config.chainId)) =
          .ok write.signature) ∧
    (∀ (op : Operation) entryPoint chainId requestId payload,
      messageHash (op.hash entryPoint chainId) ≠ responseDigest requestId payload ∨
        Collide (op.messageDigested entryPoint chainId) (responseDigested requestId payload)) ∧
    ∀ requestId requestId' payload payload',
      responseDigest requestId payload = responseDigest requestId' payload' →
        (requestId = requestId' ∧ payload = payload') ∨
          Collide (responseDigested requestId payload) (responseDigested requestId' payload') := by
  refine ⟨?_, fun _ _ _ _ => rfl, ?_, ?_, ?_⟩
  · intro op op' entryPoint entryPoint' chainId chainId' h
    rw [or_iff_not_imp_right]
    exact fun hfree => Operation.eq_of_hash hfree h
  · intro w served requestId response nonce write hbuild
    exact (CacheWriter.build_spec hbuild).signed
  · intro op entryPoint chainId requestId payload
    rw [or_iff_not_imp_right]
    exact operation_ne_response
  · intro requestId requestId' payload payload' h
    rw [or_iff_not_imp_right]
    exact fun hfree => responseDigest_binds hfree h

/-- An operation signed anew, the write of the first request, and a response given twice. -/
theorem Sample.signed_binds :
    let again : Operation := { op 0xb1 with signature := [1] }
    ((op 0xb1).hash 0xe0 901 = again.hash 0xe0 901 ∧
      ((again = { op 0xb1 with signature := again.signature } ∧ (0xe0 : Address) = 0xe0 ∧
          (901 : UInt64) = 901) ∨
        Collide ((op 0xb1).digested 0xe0 901) (again.digested 0xe0 901))) ∧
    (∃ write, CacheWriter.build { config, signer } first.op first.key first.response 0 =
        .ok write ∧
      signer.sign (messageHash (write.hash config.entryPoint config.chainId)) =
        .ok write.signature) ∧
    responseDigest firstKey [2] = responseDigest firstKey [2] ∧
      ((firstKey = firstKey ∧ ([2] : Bytes) = [2]) ∨
        Collide (responseDigested firstKey [2]) (responseDigested firstKey [2])) := by
  obtain ⟨hoperation, -, hbuilt, -, hresponse⟩ := digests_bind
  obtain ⟨write, hwrite⟩ := CacheWriter.exists_build (w := { config, signer })
    (fun _ => ⟨_, rfl⟩) first.op first.key first.response 0
  exact ⟨⟨rfl, hoperation _ _ _ _ _ _ rfl⟩, ⟨write, hwrite, hbuilt _ _ _ _ _ _ hwrite⟩, rfl,
    hresponse _ _ _ _ rfl⟩

/-- The words that the id of a request is the digest of. -/
def requestIdWords (account sender : Address) (nonce : Word) (callParams : Bytes) : List Word :=
  [account.toWord, sender.toWord, nonce, keccak256 callParams]

def requestIdBytes (account sender : Address) (nonce : Word) (callParams : Bytes) : Bytes :=
  (requestIdWords account sender nonce callParams).flatMap Word.toBytes

section

variable {account account' sender sender' : Address} {nonce nonce' : Word}
  {callParams callParams' : Bytes}

theorem deriveRequestId_eq (account sender : Address) (nonce : Word) (callParams : Bytes) :
    deriveRequestId account sender nonce callParams =
      keccak256 (requestIdBytes account sender nonce callParams) := by
  simp only [deriveRequestId, requestIdBytes, requestIdWords, List.flatMap_cons, List.flatMap_nil,
    List.append_nil, List.append_assoc]

theorem length_requestIdBytes : (requestIdBytes account sender nonce callParams).length = 128 := by
  simp only [requestIdBytes, requestIdWords, List.flatMap_cons, List.flatMap_nil,
    List.length_append, Word.length_toBytes, List.length_nil]

/-- The call parameters stand in the bytes as their digest only. -/
theorem requestIdBytes_inj :
    requestIdBytes account sender nonce callParams =
        requestIdBytes account' sender' nonce' callParams' ↔
      account = account' ∧ sender = sender' ∧ nonce = nonce' ∧
        keccak256 callParams = keccak256 callParams' := by
  rw [requestIdBytes, requestIdBytes, Word.flatMap_toBytes_inj]
  simp only [requestIdWords, List.cons.injEq, Address.toWord_inj, and_true]

theorem deriveRequestId_eq_iff :
    deriveRequestId account sender nonce callParams =
        deriveRequestId account' sender' nonce' callParams' ↔
      (account = account' ∧ sender = sender' ∧ nonce = nonce' ∧
        (callParams = callParams' ∨ Collide [callParams] [callParams'])) ∨
      Collide [requestIdBytes account sender nonce callParams]
        [requestIdBytes account' sender' nonce' callParams'] := by
  rw [deriveRequestId_eq, deriveRequestId_eq, digest_eq_iff, requestIdBytes_inj, digest_eq_iff]

end

/-- What the id of a request binds: all that it is derived from. Two ids agree exactly when all of
it agrees, when nothing but the call parameters differs and these collide, or when the two strings
of 128 bytes that the ids are digests of collide. -/
theorem requestId_binds (account account' sender sender' : Address) (nonce nonce' : Word)
    (callParams callParams' : Bytes) :
    let buffer := requestIdBytes account sender nonce callParams
    let buffer' := requestIdBytes account' sender' nonce' callParams'
    (buffer.length = 128 ∧ deriveRequestId account sender nonce callParams = keccak256 buffer) ∧
    (deriveRequestId account sender nonce callParams =
        deriveRequestId account' sender' nonce' callParams' ↔
      (account = account' ∧ sender = sender' ∧ nonce = nonce' ∧ callParams = callParams') ∨
      (account = account' ∧ sender = sender' ∧ nonce = nonce' ∧
        callParams ≠ callParams' ∧ keccak256 callParams = keccak256 callParams') ∨
      (buffer ≠ buffer' ∧ keccak256 buffer = keccak256 buffer')) := by
  intro buffer buffer'
  refine ⟨⟨length_requestIdBytes, deriveRequestId_eq _ _ _ _⟩, ?_⟩
  rw [deriveRequestId_eq_iff, collide_singleton_iff, collide_singleton_iff]
  simp only [and_or_left, or_assoc, buffer, buffer']

end ComputeRelay
