import ComputeRelay.Proofs.Digests
import ComputeRelay.Proofs.Serving

/-! Requests that are answered well: a call for one gets its pair, whatever else the relay holds, if
nothing is in its way. Two such requests are given for runs on fixed inputs. -/

namespace ComputeRelay

open Relay

/-- A marker that names the request which follows from the operation is detected. -/
theorem detect_eq {op : Operation} {outcome : Simulation} {m : Marker}
    (hfailed : outcome.success = false) (hclaims : Marker.isClaimedBy outcome.revertData = true)
    (hdecodes : Marker.decode? outcome.revertData = some m)
    (hderives : deriveRequestId m.account op.sender op.nonce m.callParams = m.requestId)
    (haccount : m.account ≠ 0) (hselector : 4 ≤ m.callParams.length) :
    detect op outcome =
      .ok (some ⟨m.account, m.requestId, m.callParams, outcome.block.timestamp⟩) := by
  have hselector' : ¬ m.callParams.length < 4 := Nat.not_lt.mpr hselector
  unfold detect
  simp only [hfailed, hclaims, hdecodes, hderives, if_neg haccount, if_neg hselector']
  simp

theorem recoverAddress_eq {digest : Hash} {signature : Bytes} {x y : Nat}
    (hlength : signature.length = 65) (hbyte : signature.getD 64 0 = 27)
    (hpoint : recoverPoint? digest (Bytes.toNat (signature.take 32))
      (Bytes.toNat ((signature.drop 32).take 32)) false = some (x, y)) :
    recoverAddress digest signature = .ok (addressOfPoint x y) := by
  unfold recoverAddress
  simp only [hlength, hbyte, pure_bind, hpoint]
  rfl

theorem ComputeResponse.verify_eq {response : ComputeResponse} {request : ComputeRequest}
    {expected : Address} {payload : Payload}
    (hrecovers : recoverAddress (responseDigest request.requestId response.payload)
      response.signature = .ok expected)
    (hdecodes : Payload.decode? response.payload = some payload)
    (hcheck : response.checkPayload request payload = .ok payload) :
    response.verify request expected = .ok payload := by
  simp [ComputeResponse.verify, hrecovers, hdecodes, hcheck]

variable {r : Relay} {id : CallId}

/-- A request that is answered well: its operation's simulation names it, its account is registered
and the registered signer stands for the response. -/
structure Answerable where
  op : Operation
  outcome : Simulation
  request : ComputeRequest
  row : RegistryRow
  registration : Registration
  response : ComputeResponse
  payload : Payload
  detected : detect op outcome = .ok (some request)
  registered : row.check request.account outcome.block = .ok registration
  verified : response.verify request registration.signer = .ok payload

namespace Answerable

variable (a : Answerable)

def key : Hash := a.request.requestId

/-- The events that take a call for the request to the drafting of its write. -/
def asked (id : CallId) : List Event :=
  [.start id (.processSimulated a.op a.outcome), .reply id (.row (.ok a.row)),
    .reply id (.response (.ok a.response))]

/-- The events that take a call for the request to its pair, in an empty lane. -/
def served (id : CallId) (nonce : Word) : List Event := a.asked id ++ finishing id nonce

/-- The events that take it to its pair, in an empty lane whose nonce is known. -/
def servedNext (id : CallId) : List Event := a.asked id ++ [.clean id, .clean id]

def draft : Draft := ⟨a.op, a.key, a.response, a.outcome.block⟩

def candidate (deadline : Nat) : Candidate :=
  ⟨a.op, a.request, a.outcome.block, deadline,
    ⟨a.key, [.verifying, .requesting, .resolving, .detected], .populating⟩⟩

/-- Nothing but the line in the lane is in the way of a call for the request. -/
structure Welcome (r : Relay) (id : CallId) : Prop where
  unused : Table.get? r.calls id = none
  fresh : (r.pending.any fun e => r.expired r.now e.2) = false
  inactive : Table.get? r.active a.key = none
  unreserved : a.key ∉ r.writer.reserved

variable {a}

theorem welcome_idle (config : Config) (signer : Signer) (id : CallId) :
    a.Welcome (idle config signer) id :=
  ⟨rfl, rfl, rfl, List.not_mem_nil⟩

theorem after_asked_of_start {w : CacheWriter} {stage : Drafting} (hw : a.Welcome r id)
    (hstart : r.writer.start id a.draft = (w, .waiting stage)) : r.after (a.asked id) =
      { r with
        writer := w
        active := Table.insert r.active a.key .populating
        calls := Table.insert r.calls id
          (.drafting (a.candidate (r.now + r.config.requestTimeoutMs.toNat)) ⟨a.response, none⟩
            stage) } := by
  let c : Candidate := ⟨a.op, a.request, a.outcome.block,
    r.now + r.config.requestTimeoutMs.toNat, ⟨a.key, [.resolving, .detected], .requesting⟩⟩
  let r₁ : Relay :=
    { r with
      active := Table.insert r.active a.key .requesting
      calls := Table.insert r.calls id (.asking c a.registration) }
  have h₁ : r.after [.start id (.processSimulated a.op a.outcome), .reply id (.row (.ok a.row))] =
      r₁ :=
    after_row hw.unused hw.fresh hw.inactive a.detected a.registered
  have hs : Table.get? r₁.calls id = some (.asking c a.registration) :=
    Table.get?_insert_self _ _ _
  have hsplit : a.asked id = [.start id (.processSimulated a.op a.outcome),
      .reply id (.row (.ok a.row))] ++ [.reply id (.response (.ok a.response))] := rfl
  rw [hsplit, after_append, h₁, after_cons, after_nil, response_reply hs rfl a.verified hstart]
  simp only [r₁, c, candidate, Candidate.requestId, key, Table.insert_insert]

theorem after_asked (hw : a.Welcome r id) (hlane : r.writer.lane = {}) : r.after (a.asked id) =
    { r with
      writer := { r.writer with reserved := r.writer.reserved ++ [a.key], lane := ⟨none, [id]⟩ }
      active := Table.insert r.active a.key .populating
      calls := Table.insert r.calls id
        (.drafting (a.candidate (r.now + r.config.requestTimeoutMs.toNat)) ⟨a.response, none⟩
          .reading) } :=
  after_asked_of_start hw (CacheWriter.start_reading (d := a.draft) id hw.unreserved hlane)

/-- A call whose nonce is known goes on with its write at once. -/
theorem after_asked_next {nonce : Word} {write : Operation} (hw : a.Welcome r id)
    (hlane : r.writer.lane = ⟨some nonce, []⟩)
    (hb : r.writer.build a.op a.key a.response nonce = .ok write) : r.after (a.asked id) =
      { r with
        writer := { r.writer with
          reserved := r.writer.reserved ++ [a.key], lane := ⟨some nonce, [id]⟩ }
        active := Table.insert r.active a.key .populating
        calls := Table.insert r.calls id
          (.drafting (a.candidate (r.now + r.config.requestTimeoutMs.toNat)) ⟨a.response, none⟩
            (.simulating write)) } :=
  after_asked_of_start hw (CacheWriter.start_granted (d := a.draft) id hw.unreserved hlane hb)

/-- The relay after a call for the request has ended with its pair, of the lane's next nonce. -/
def pairedIn (a : Answerable) (r : Relay) (id : CallId) (nonce : Word) (pair : Pair) : Relay :=
  { r with
    writer := { r.writer with
      reserved := r.writer.reserved ++ [a.key], lane := ⟨some (nonce + 1), []⟩ }
    active := Table.insert r.active a.key .completed
    pending := Table.insert r.pending a.key ⟨pair, r.now⟩
    calls := Table.erase r.calls id }

theorem after_served {nonce : Word} {write : Operation} (hw : a.Welcome r id)
    (hlane : r.writer.lane = {}) (hb : r.writer.build a.op a.key a.response nonce = .ok write)
    (hsender : a.op.sender ≠ r.systemAccount) (hfees : FeesFit r.config a.op) :
    ∃ pair : Pair, (pair.write = write ∧ pair.served = a.op.withGas pair.estimate) ∧
      r.after (a.served id nonce) = a.pairedIn r id nonce pair := by
  let c := a.candidate (r.now + r.config.requestTimeoutMs.toNat)
  let r₁ : Relay :=
    { r with
      writer := { r.writer with reserved := r.writer.reserved ++ [a.key], lane := ⟨none, [id]⟩ }
      active := Table.insert r.active a.key .populating
      calls := Table.insert r.calls id (.drafting c ⟨a.response, none⟩ .reading) }
  have h₁ : r.after (a.asked id) = r₁ := after_asked hw hlane
  have hs : Table.get? r₁.calls id = some (.drafting c ⟨a.response, none⟩ .reading) :=
    Table.get?_insert_self _ _ _
  have hb₁ : r₁.writer.build c.op c.requestId a.response nonce = .ok write := hb
  obtain ⟨-, pair, fee, l, hpair, h₂⟩ :=
    after_finishing hs (fun _ => ⟨_, _, rfl⟩) hb₁ hsender hfees
  refine ⟨pair, hpair, ?_⟩
  have hlast : (((⟨none, [id]⟩ : Lane).learn nonce).commit write.nonce).leave id =
      ⟨some (nonce + 1), []⟩ := by
    simp [Lane.learn, Lane.commit, Lane.leave, (CacheWriter.build_spec hb).nonce]
  have hsplit : finishing id nonce = (finishing id nonce).take 2 ++ [.clean id] := rfl
  rw [served, after_append, h₁, hsplit, after_concat, h₂]
  simp only [pairedIn, r₁, c, candidate, Candidate.requestId, key, Table.insert_insert,
    Table.erase_insert, CacheWriter.keep, hlast, Option.isSome_none, Bool.false_eq_true, if_false]

theorem after_servedNext {nonce : Word} {write : Operation} (hw : a.Welcome r id)
    (hlane : r.writer.lane = ⟨some nonce, []⟩)
    (hb : r.writer.build a.op a.key a.response nonce = .ok write)
    (hsender : a.op.sender ≠ r.systemAccount) (hfees : FeesFit r.config a.op) :
    ∃ pair : Pair, (pair.write = write ∧ pair.served = a.op.withGas pair.estimate) ∧
      r.after (a.servedNext id) = a.pairedIn r id nonce pair := by
  let c := a.candidate (r.now + r.config.requestTimeoutMs.toNat)
  let r₁ : Relay :=
    { r with
      writer := { r.writer with
        reserved := r.writer.reserved ++ [a.key], lane := ⟨some nonce, [id]⟩ }
      active := Table.insert r.active a.key .populating
      calls := Table.insert r.calls id (.drafting c ⟨a.response, none⟩ (.simulating write)) }
  have h₁ : r.after (a.asked id) = r₁ := after_asked_next hw hlane hb
  have hs : Table.get? r₁.calls id = some (.drafting c ⟨a.response, none⟩ (.simulating write)) :=
    Table.get?_insert_self _ _ _
  have hb₁ : r₁.writer.build c.op c.requestId a.response nonce = .ok write := hb
  obtain ⟨-, pair, fee, l, hpair, h₂⟩ :=
    after_simulations hs (fun _ => ⟨_, _, rfl⟩) hb₁ hsender hfees
  refine ⟨pair, hpair, ?_⟩
  have hlast : ((⟨some nonce, [id]⟩ : Lane).commit write.nonce).leave id =
      ⟨some (nonce + 1), []⟩ := by
    simp [Lane.commit, Lane.leave, (CacheWriter.build_spec hb).nonce]
  rw [servedNext, after_append, h₁, after_cons, after_cons, after_nil, h₂]
  simp only [pairedIn, r₁, c, candidate, Candidate.requestId, key, Table.insert_insert,
    Table.erase_insert, CacheWriter.keep, hlast, Option.isSome_none, Bool.false_eq_true, if_false]

end Answerable

namespace Sample

def config : Config :=
  { chainId := 901, nodeUrl := "http://node", entryPoint := 0xe0, helper := 0xc1,
    systemAccount := 0xa0 }

/-- A signature by whoever it recovers to. -/
def signature : Bytes := Bytes.ofNat 32 1 ++ Bytes.ofNat 32 1 ++ [27]

def signer : Signer := ⟨0xa1, fun _ => .ok signature⟩

def op (sender : Address) : Operation := { sender, nonce := 0, callData := [] }

def marker (account : Address) (key : Hash) : Marker := ⟨account, key, [0x12, 0x34, 0x56, 0x78]⟩

def request (account : Address) (key : Hash) : ComputeRequest :=
  ⟨account, key, (marker account key).callParams, 0⟩

def payload (key : Hash) : Payload := ⟨key, 1, []⟩

def response (key : Hash) : ComputeResponse := ⟨false, (payload key).encode, 0, signature⟩

theorem recovers {digest : Hash} {x y : Nat} (h : recoverPoint? digest 1 1 false = some (x, y)) :
    recoverAddress digest signature = .ok (addressOfPoint x y) := by
  have hr : Bytes.toNat (signature.take 32) = 1 := by decide
  have hs : Bytes.toNat ((signature.drop 32).take 32) = 1 := by decide
  refine recoverAddress_eq (by decide) (by decide) ?_
  rw [hr, hs]
  exact h

/-- What the signature of a response recovers to. -/
theorem response_recovers {key digest : Hash} {x y : Nat} {answerer : Address}
    (hdigest : responseDigest key (response key).payload = digest)
    (hpoint : recoverPoint? digest 1 1 false = some (x, y))
    (haddress : addressOfPoint x y = answerer) :
    recoverAddress (responseDigest key (response key).payload) signature = .ok answerer := by
  rw [hdigest, recovers hpoint, haddress]

/-- A request of an account that `answerer` is registered for. -/
def answerable (account sender : Address) (key : Hash) (answerer : Address)
    (detected : detect (op sender) { revertData := (marker account key).encode } =
      .ok (some (request account key)))
    (registered : RegistryRow.check ⟨answerer, "http://a"⟩ account ⟨0, 0, 0⟩ =
      .ok ⟨account, "http://a", answerer, ⟨0, 0, 0⟩⟩)
    (verified : (response key).verify (request account key) answerer = .ok (payload key)) :
    Answerable :=
  ⟨op sender, { revertData := (marker account key).encode }, request account key,
    ⟨answerer, "http://a"⟩, ⟨account, "http://a", answerer, ⟨0, 0, 0⟩⟩, response key, payload key,
    detected, registered, verified⟩

def firstKey : Hash := 0x55cf0a8ea2742ca23858da163c3dcb0bfcee42e42ac7c5b89b1c64cab74a3107

def firstSigner : Address := 0xe5945232143eeac7a8a4bf7add20604273ba8ca5

theorem firstKey_derives :
    deriveRequestId 0xaa 0xb1 0 (marker 0xaa firstKey).callParams = firstKey := by
  simp only [deriveRequestId, keccak256_eq]
  decide +kernel

theorem firstSigner_recovers :
    recoverAddress (responseDigest firstKey (response firstKey).payload) signature =
      .ok firstSigner := by
  have hdigest : responseDigest firstKey (response firstKey).payload =
      0x74c0454d7f3258bb0cf03a7b0319c4ca4714eea4cd059394cfa4273fd892ac62 := by
    simp only [responseDigest, messageHash, keccak256_eq]
    decide +kernel
  have hpoint : recoverPoint? 0x74c0454d7f3258bb0cf03a7b0319c4ca4714eea4cd059394cfa4273fd892ac62
      1 1 false = some (0x5c487855fafde85d2fe6a18dbcfc82bcdfd5736a758b0b36fd3d77c3e24376c9,
        0xe70cf93caeaa240cc44947286f23f712d4997b66d7010c465d87a04a9e1f5a0a) := by
    decide +kernel
  refine response_recovers hdigest hpoint ?_
  simp only [addressOfPoint, keccak256_eq]
  decide +kernel

def first : Answerable :=
  answerable 0xaa 0xb1 firstKey firstSigner
    (detect_eq (m := marker 0xaa firstKey) rfl (by decide +kernel) (by decide +kernel)
      firstKey_derives (by decide) (by decide))
    (by decide +kernel)
    (ComputeResponse.verify_eq firstSigner_recovers (by decide +kernel) (by decide +kernel))

/-- The relay that keeps nothing but the pair of the first request. -/
def holding (pair : Pair) (now : Nat) : Relay where
  writer := { config, signer, reserved := [firstKey], lane := ⟨some 1, []⟩ }
  now
  active := [(firstKey, .completed)]
  pending := [(firstKey, ⟨pair, 0⟩)]

/-- The first request is served in an empty lane, whose nonce the ledger tells as 0. -/
theorem first_paired : ∃ pair : Pair,
    (pair.write.nonce = 0 ∧ pair.served = (op 0xb1).withGas pair.estimate) ∧
      (idle config signer).after (first.served "a" 0) = holding pair 0 := by
  obtain ⟨write, hb⟩ := CacheWriter.exists_build (w := { config, signer }) (fun _ => ⟨_, rfl⟩)
    first.op first.key first.response 0
  obtain ⟨pair, ⟨hwrite, hserved⟩, hafter⟩ := Answerable.after_served
    (Answerable.welcome_idle (a := first) config signer "a") rfl hb (by decide) (by decide)
  exact ⟨pair, ⟨by rw [hwrite, (CacheWriter.build_spec hb).nonce], hserved⟩, hafter⟩

theorem first_aged (ms : Nat) : ∃ pair : Pair, pair.write.nonce = 0 ∧
    (idle config signer).after (first.served "a" 0 ++ [.tick ms]) = holding pair ms := by
  obtain ⟨pair, ⟨hnonce, -⟩, hafter⟩ := first_paired
  refine ⟨pair, hnonce, ?_⟩
  rw [after_concat, hafter, step_tick rfl (Nat.zero_add ms)]
  rfl

/-- Beside the pair of the first request, a call for any other is welcome. -/
theorem welcome_beside {a : Answerable} {r : Relay} {id : CallId} (hkey : a.key ≠ firstKey)
    (unused : Table.get? r.calls id = none)
    (fresh : (r.pending.any fun e => r.expired r.now e.2) = false)
    (hactive : r.active = [(firstKey, .completed)]) (hreserved : r.writer.reserved = [firstKey]) :
    a.Welcome r id where
  unused
  fresh
  inactive := by
    rw [hactive, ← Table.contains_eq_false_iff]
    simp [Table.contains, Table.get?, hkey.symm]
  unreserved := by
    rw [hreserved]
    exact fun hin => hkey (List.mem_singleton.mp hin)

def secondKey : Hash := 0x682d2a3fc6b3e477bfdb2d1e17f0310a61b97213eb6a7499224652bce8ad7586

def secondSigner : Address := 0x592e13e44dda189270df3f9a4302cfd15461ba2c

theorem secondKey_derives :
    deriveRequestId 0xab 0xb2 0 (marker 0xab secondKey).callParams = secondKey := by
  simp only [deriveRequestId, keccak256_eq]
  decide +kernel

theorem secondSigner_recovers :
    recoverAddress (responseDigest secondKey (response secondKey).payload) signature =
      .ok secondSigner := by
  have hdigest : responseDigest secondKey (response secondKey).payload =
      0x34420cf683e441fc29ff99c18203c7138e8d52110b768b57c38e3350193be165 := by
    simp only [responseDigest, messageHash, keccak256_eq]
    decide +kernel
  have hpoint : recoverPoint? 0x34420cf683e441fc29ff99c18203c7138e8d52110b768b57c38e3350193be165
      1 1 false = some (0x7f609131f11f56ba8c402bbf1765e26960b8b15f71db48048372f6fa23f988a4,
        0x4174acacfc2437ec94c31a55a7e92b92a4ab5bd3601f2bcb8efd4ffd803fe7e6) := by
    decide +kernel
  refine response_recovers hdigest hpoint ?_
  simp only [addressOfPoint, keccak256_eq]
  decide +kernel

def second : Answerable :=
  answerable 0xab 0xb2 secondKey secondSigner
    (detect_eq (m := marker 0xab secondKey) rfl (by decide +kernel) (by decide +kernel)
      secondKey_derives (by decide) (by decide))
    (by decide +kernel)
    (ComputeResponse.verify_eq secondSigner_recovers (by decide +kernel) (by decide +kernel))

/-- The second request is served a minute after the first, in the lane whose nonce is known now. -/
def both : List Event := first.served "a" 0 ++ .tick 60000 :: second.servedNext "b"

theorem after_both : ∃ p q : Pair, p.write.nonce = 0 ∧ q.write.nonce = 1 ∧
    (idle config signer).after both =
      { idle config signer with
        writer := { config, signer, reserved := [firstKey, secondKey], lane := ⟨some 2, []⟩ }
        now := 60000
        active := [(firstKey, .completed), (secondKey, .completed)]
        pending := [(firstKey, ⟨p, 0⟩), (secondKey, ⟨q, 60000⟩)] } := by
  obtain ⟨p, hp, hfirst⟩ := first_aged 60000
  have hkey : second.key ≠ firstKey := by decide
  have hwelcome : second.Welcome (holding p 60000) "b" := welcome_beside hkey rfl rfl rfl rfl
  have hsender : second.op.sender ≠ config.systemAccount := by decide
  have hfees : FeesFit config second.op := by decide
  obtain ⟨write, hb⟩ := CacheWriter.exists_build (w := (holding p 60000).writer) (fun _ => ⟨_, rfl⟩)
    second.op second.key second.response 1
  obtain ⟨q, ⟨hq, -⟩, hsecond⟩ :=
    Answerable.after_servedNext hwelcome rfl hb hsender hfees
  refine ⟨p, q, hp, ?_, ?_⟩
  · rw [hq, (CacheWriter.build_spec hb).nonce]
  · rw [both, List.append_cons, after_append, hfirst, hsecond]
    rfl

def rivalKey : Hash := 0x50d3deca14157ffdd0f5dc64e181a51322d42fe567e1d9bbcf14307247147639

def rivalSigner : Address := 0x33d784948f8f87da294940ce4c2a14d305b417e1

def rivalMarker : Marker := ⟨0xaa, rivalKey, [0x12, 0x34, 0x56, 0x79]⟩

theorem rivalKey_derives : deriveRequestId 0xaa 0xb1 0 rivalMarker.callParams = rivalKey := by
  simp only [deriveRequestId, keccak256_eq]
  decide +kernel

theorem rivalSigner_recovers :
    recoverAddress (responseDigest rivalKey (response rivalKey).payload) signature =
      .ok rivalSigner := by
  have hdigest : responseDigest rivalKey (response rivalKey).payload =
      0xd83975fad82c896fc34342fdb92bd5f19e00a4e61cb1628cdb6424151bcc989c := by
    simp only [responseDigest, messageHash, keccak256_eq]
    decide +kernel
  have hpoint : recoverPoint? 0xd83975fad82c896fc34342fdb92bd5f19e00a4e61cb1628cdb6424151bcc989c
      1 1 false = some (0xcfc4fe42386a5ca30713351d64f179dd5694a742f95d3a210fd27826f0f2d8de,
        0xf585bde2e5ebd95fb5161e3177fbbb11d42e05bc77fa9499507d8e9cd52bf7c5) := by
    decide +kernel
  refine response_recovers hdigest hpoint ?_
  simp only [addressOfPoint, keccak256_eq]
  decide +kernel

/-- Another request of the first sender, for another operation of the same nonce. -/
def rival : Answerable where
  op := { op 0xb1 with callData := [1] }
  outcome := { revertData := rivalMarker.encode }
  request := ⟨0xaa, rivalKey, rivalMarker.callParams, 0⟩
  row := ⟨rivalSigner, "http://a"⟩
  registration := ⟨0xaa, "http://a", rivalSigner, ⟨0, 0, 0⟩⟩
  response := response rivalKey
  payload := payload rivalKey
  detected := detect_eq (m := rivalMarker) rfl (by decide +kernel) (by decide +kernel)
    rivalKey_derives (by decide) (by decide)
  registered := by decide +kernel
  verified := ComputeResponse.verify_eq rivalSigner_recovers (by decide +kernel) (by decide +kernel)

def rivalry : List Event :=
  first.served "a" 0 ++ .start "d" (.drop []) :: rival.served "b" 1

theorem after_rivalry : ∃ p q : Pair,
    (p.write.nonce = 0 ∧ p.served = (op 0xb1).withGas p.estimate) ∧
      (q.write.nonce = 1 ∧ q.served = rival.op.withGas q.estimate) ∧
      (idle config signer).after rivalry =
        { idle config signer with
          writer := { config, signer, reserved := [firstKey, rivalKey], lane := ⟨some 2, []⟩ }
          active := [(firstKey, .completed), (rivalKey, .completed)]
          pending := [(firstKey, ⟨p, 0⟩), (rivalKey, ⟨q, 0⟩)] } := by
  obtain ⟨p, hp, hfirst⟩ := first_paired
  let r : Relay := { holding p 0 with writer := { (holding p 0).writer with lane := {} } }
  have hdropped : ((holding p 0).step (.start "d" (.drop []))).1 = r := drop_nothing rfl rfl
  have hkey : rival.key ≠ firstKey := by decide
  have hwelcome : rival.Welcome r "b" := welcome_beside hkey rfl rfl rfl rfl
  have hsender : rival.op.sender ≠ config.systemAccount := by decide
  have hfees : FeesFit config rival.op := by decide
  obtain ⟨write', hb'⟩ := CacheWriter.exists_build (w := r.writer) (fun _ => ⟨_, rfl⟩)
    rival.op rival.key rival.response 1
  obtain ⟨q, ⟨hq, hqserved⟩, hsecond⟩ := Answerable.after_served hwelcome rfl hb' hsender hfees
  refine ⟨p, q, hp, ⟨?_, hqserved⟩, ?_⟩
  · rw [hq, (CacheWriter.build_spec hb').nonce]
  · rw [rivalry, after_append, hfirst, after_cons, hdropped, hsecond]
    rfl

end Sample

end ComputeRelay
