import ComputeRelay.Detection
import ComputeRelay.Proofs.Canonical

/-! Markers as revert data, and what is detected in them. Revert data that starts as a marker but is
not the encoding of one is an error, so nothing that is cut off or continued is taken for a request
or for the revert of an operation that needs none. -/

namespace ComputeRelay

open Abi

namespace Marker

def values (m : Marker) : List Value :=
  [.word m.account.toWord, .word m.requestId, .bytes m.callParams]

/-- The byte string is the encoding of the marker, whose parameters have a length that fits into a
word, as that of every byte string in a memory does. -/
def EncodesTo (m : Marker) (bs : Bytes) : Prop :=
  bs = m.encode ∧ m.callParams.length < 2 ^ 256

theorem encode_eq (m : Marker) : m.encode = selector ++ encodeValues m.values := rfl

theorem fits_values {m : Marker} : Fits m.values ↔ m.callParams.length < 2 ^ 256 := by
  simp [Fits, values]

theorem decode?_eq_some_iff {bs : Bytes} {m : Marker} :
    decode? bs = some m ↔ m.EncodesTo bs := by
  have hselector : ∀ rest, dropSelector? selector bs = some rest ↔ bs = selector ++ rest :=
    fun rest => dropSelector?_eq_some_iff rfl
  simp only [decode?, Option.bind_eq_bind, Option.bind_eq_some_iff, hselector,
    Abi.decode?_eq_some_iff]
  constructor
  · rintro ⟨_, rfl, values, ⟨-, fits, rfl⟩, h⟩
    split at h
    · rename_i word requestId callParams
      obtain ⟨account, haccount, h⟩ := Option.bind_eq_some_iff.mp h
      obtain rfl := Option.some.inj h
      obtain rfl := address?_eq_some_iff.mp haccount
      exact ⟨rfl, fits_values.mp fits⟩
    · cases h
  · rintro ⟨rfl, hparams⟩
    refine ⟨_, rfl, m.values, ⟨rfl, fits_values.mpr hparams, rfl⟩, ?_⟩
    simp only [values, address?_eq_some_iff.mpr rfl, Option.bind_some, Option.pure_def]

theorem isClaimedBy_iff {bs : Bytes} : isClaimedBy bs = true ↔ selector <+: bs := by
  rw [isClaimedBy, beq_iff_eq, List.prefix_iff_eq_take, eq_comm]
  rfl

theorem EncodesTo.claimed {m : Marker} {bs : Bytes} (h : m.EncodesTo bs) : selector <+: bs := by
  rw [h.1, encode_eq]
  exact List.prefix_append _ _

/-- No encoding of a marker begins with another one. -/
theorem EncodesTo.prefix_free {m m' : Marker} {bs bs' : Bytes} (h : m.EncodesTo bs)
    (h' : m'.EncodesTo bs') (hpre : bs <+: bs') : bs = bs' := by
  obtain ⟨rfl, hparams⟩ := h
  obtain ⟨rfl, hparams'⟩ := h'
  rw [encode_eq, encode_eq, List.prefix_append_right_inj] at hpre
  rw [encode_eq, encode_eq, encodeValues_prefix_free (fits_values.mpr hparams)
    (fits_values.mpr hparams') rfl hpre]

/-- The marker names a request that can be served for the operation. -/
structure Names (m : Marker) (op : Operation) : Prop where
  account : m.account ≠ 0
  selector : 4 ≤ m.callParams.length
  derived : m.requestId = deriveRequestId m.account op.sender op.nonce m.callParams

end Marker

variable {op : Operation} {outcome : Simulation} {m : Marker}

theorem detect_unclaimed
    (h : outcome.success = true ∨ ¬ Marker.selector <+: outcome.revertData) :
    detect op outcome = .ok none := by
  have hquiet : (outcome.success || !Marker.isClaimedBy outcome.revertData) = true := by
    rw [← Marker.isClaimedBy_iff] at h
    simpa using h
  rw [detect, if_pos hquiet]

theorem loud_of_claimed (failed : outcome.success = false)
    (claimed : Marker.selector <+: outcome.revertData) :
    ¬ (outcome.success || !Marker.isClaimedBy outcome.revertData) = true := by
  rw [failed, Marker.isClaimedBy_iff.mpr claimed]
  decide

theorem detect_undecodable (failed : outcome.success = false)
    (claimed : Marker.selector <+: outcome.revertData)
    (unencoded : ∀ m : Marker, ¬ m.EncodesTo outcome.revertData) :
    detect op outcome = .error (.undecodable "not the canonical encoding of a marker") := by
  have hnone : Marker.decode? outcome.revertData = none := by
    rw [Option.eq_none_iff_forall_ne_some]
    exact fun m hm => unencoded m (Marker.decode?_eq_some_iff.mp hm)
  rw [detect, if_neg (loud_of_claimed failed claimed), hnone]

theorem detect_encoded (failed : outcome.success = false)
    (encoded : m.EncodesTo outcome.revertData) :
    detect op outcome =
      if m.account = 0 then .error .zeroAccount
      else if m.callParams.length < 4 then .error .missingSelector
      else if deriveRequestId m.account op.sender op.nonce m.callParams ≠ m.requestId then
        .error (.requestIdMismatch m.requestId
          (deriveRequestId m.account op.sender op.nonce m.callParams))
      else .ok (some ⟨m.account, m.requestId, m.callParams, outcome.block.timestamp⟩) := by
  rw [detect, if_neg (loud_of_claimed failed encoded.claimed),
    Marker.decode?_eq_some_iff.mpr encoded]

/-- What a simulated operation asks for. The ways exclude each other. -/
inductive Detects (op : Operation) (outcome : Simulation) :
    Except MarkerError (Option ComputeRequest) → Prop
  | nothing (unclaimed : outcome.success = true ∨ ¬ Marker.selector <+: outcome.revertData) :
      Detects op outcome (.ok none)
  | undecodable (failed : outcome.success = false)
      (claimed : Marker.selector <+: outcome.revertData)
      (unencoded : ∀ m : Marker, ¬ m.EncodesTo outcome.revertData) :
      Detects op outcome (.error (.undecodable "not the canonical encoding of a marker"))
  | zeroAccount {m : Marker} (failed : outcome.success = false)
      (encoded : m.EncodesTo outcome.revertData) (account : m.account = 0) :
      Detects op outcome (.error .zeroAccount)
  | missingSelector {m : Marker} (failed : outcome.success = false)
      (encoded : m.EncodesTo outcome.revertData) (account : m.account ≠ 0)
      (short : m.callParams.length < 4) : Detects op outcome (.error .missingSelector)
  | mismatch {m : Marker} (failed : outcome.success = false)
      (encoded : m.EncodesTo outcome.revertData) (account : m.account ≠ 0)
      (selector : 4 ≤ m.callParams.length)
      (differs : deriveRequestId m.account op.sender op.nonce m.callParams ≠ m.requestId) :
      Detects op outcome (.error (.requestIdMismatch m.requestId
        (deriveRequestId m.account op.sender op.nonce m.callParams)))
  | request {m : Marker} (failed : outcome.success = false)
      (encoded : m.EncodesTo outcome.revertData) (names : m.Names op) :
      Detects op outcome
        (.ok (some ⟨m.account, m.requestId, m.callParams, outcome.block.timestamp⟩))

theorem detect_detects (op : Operation) (outcome : Simulation) :
    Detects op outcome (detect op outcome) := by
  by_cases unclaimed : outcome.success = true ∨ ¬ Marker.selector <+: outcome.revertData
  · rw [detect_unclaimed unclaimed]
    exact .nothing unclaimed
  obtain ⟨failed, claimed⟩ := not_or.mp unclaimed
  rw [Bool.not_eq_true] at failed
  rw [not_not] at claimed
  by_cases hencoded : ∃ m : Marker, m.EncodesTo outcome.revertData
  · obtain ⟨m, encoded⟩ := hencoded
    rw [detect_encoded failed encoded]
    split_ifs with account short differs
    · exact .zeroAccount failed encoded account
    · exact .missingSelector failed encoded account short
    · exact .mismatch failed encoded account (Nat.le_of_not_lt short) differs
    · exact .request failed encoded
        ⟨account, Nat.le_of_not_lt short, (not_not.mp differs).symm⟩
  · have unencoded := not_exists.mp hencoded
    rw [detect_undecodable failed claimed unencoded]
    exact .undecodable failed claimed unencoded

theorem detect_eq_iff {found : Except MarkerError (Option ComputeRequest)} :
    detect op outcome = found ↔ Detects op outcome found := by
  constructor
  · rintro rfl
    exact detect_detects op outcome
  · intro h
    cases h with
    | nothing unclaimed => exact detect_unclaimed unclaimed
    | undecodable failed claimed unencoded => exact detect_undecodable failed claimed unencoded
    | zeroAccount failed encoded account => rw [detect_encoded failed encoded, if_pos account]
    | missingSelector failed encoded account short =>
      rw [detect_encoded failed encoded, if_neg account, if_pos short]
    | mismatch failed encoded account selector differs =>
      rw [detect_encoded failed encoded, if_neg account, if_neg (Nat.not_lt.mpr selector),
        if_pos differs]
    | request failed encoded names =>
      rw [detect_encoded failed encoded, if_neg names.account,
        if_neg (Nat.not_lt.mpr names.selector), if_neg (not_not.mpr names.derived.symm)]

theorem detect_eq_none_iff :
    detect op outcome = .ok none ↔
      outcome.success = true ∨ ¬ Marker.selector <+: outcome.revertData := by
  rw [detect_eq_iff]
  constructor
  · rintro ⟨unclaimed⟩
    exact unclaimed
  · exact .nothing

theorem detect_eq_some_iff {request : ComputeRequest} :
    detect op outcome = .ok (some request) ↔
      ∃ m : Marker, outcome.success = false ∧ m.EncodesTo outcome.revertData ∧ m.Names op ∧
        request = ⟨m.account, m.requestId, m.callParams, outcome.block.timestamp⟩ := by
  rw [detect_eq_iff]
  constructor
  · intro h
    cases h with
    | request failed encoded names => exact ⟨_, failed, encoded, names, rfl⟩
  · rintro ⟨m, failed, encoded, names, rfl⟩
    exact .request failed encoded names

theorem detect_undecodable_iff :
    (∃ detail, detect op outcome = .error (.undecodable detail)) ↔
      outcome.success = false ∧ Marker.selector <+: outcome.revertData ∧
        ∀ m : Marker, ¬ m.EncodesTo outcome.revertData := by
  simp only [detect_eq_iff]
  constructor
  · rintro ⟨detail, h⟩
    cases h with
    | undecodable failed claimed unencoded => exact ⟨failed, claimed, unencoded⟩
  · rintro ⟨failed, claimed, unencoded⟩
    exact ⟨_, .undecodable failed claimed unencoded⟩

theorem detect_zeroAccount_iff :
    detect op outcome = .error .zeroAccount ↔
      ∃ m : Marker, outcome.success = false ∧ m.EncodesTo outcome.revertData ∧ m.account = 0 := by
  rw [detect_eq_iff]
  constructor
  · intro h
    cases h with
    | zeroAccount failed encoded account => exact ⟨_, failed, encoded, account⟩
  · rintro ⟨m, failed, encoded, account⟩
    exact .zeroAccount failed encoded account

theorem detect_missingSelector_iff :
    detect op outcome = .error .missingSelector ↔
      ∃ m : Marker, outcome.success = false ∧ m.EncodesTo outcome.revertData ∧ m.account ≠ 0 ∧
        m.callParams.length < 4 := by
  rw [detect_eq_iff]
  constructor
  · intro h
    cases h with
    | missingSelector failed encoded account short => exact ⟨_, failed, encoded, account, short⟩
  · rintro ⟨m, failed, encoded, account, short⟩
    exact .missingSelector failed encoded account short

theorem detect_mismatch_iff {embedded derived : Hash} :
    detect op outcome = .error (.requestIdMismatch embedded derived) ↔
      ∃ m : Marker, outcome.success = false ∧ m.EncodesTo outcome.revertData ∧ m.account ≠ 0 ∧
        4 ≤ m.callParams.length ∧ embedded = m.requestId ∧
        derived = deriveRequestId m.account op.sender op.nonce m.callParams ∧
        derived ≠ embedded := by
  rw [detect_eq_iff]
  constructor
  · intro h
    cases h with
    | mismatch failed encoded account selector differs =>
      exact ⟨_, failed, encoded, account, selector, rfl, rfl, differs⟩
  · rintro ⟨m, failed, encoded, account, selector, rfl, rfl, differs⟩
    exact .mismatch failed encoded account selector differs

/-- An encoding of a marker that is cut off behind its selector, or continued, is an error. -/
theorem detect_of_comparable {bs : Bytes} (failed : outcome.success = false)
    (encoded : m.EncodesTo bs) (hsize : 4 ≤ outcome.revertData.length)
    (hpre : outcome.revertData <+: bs ∨ bs <+: outcome.revertData)
    (hne : outcome.revertData ≠ bs) :
    ∃ detail, detect op outcome = .error (.undecodable detail) := by
  have claimed : Marker.selector <+: outcome.revertData := by
    rcases hpre with hpre | hpre
    · exact List.prefix_of_prefix_length_le encoded.claimed hpre hsize
    · exact encoded.claimed.trans hpre
  refine ⟨_, detect_undecodable failed claimed ?_⟩
  -- Were this an encoding too, one encoding would begin with another.
  intro m' encoded'
  rcases hpre with hpre | hpre
  · exact hne (encoded'.prefix_free encoded hpre)
  · exact hne (encoded.prefix_free encoded' hpre).symm

/-- What is detected in an outcome, for every operation and every byte string it may revert with. -/
theorem detected_exactly (op : Operation) (outcome : Simulation) :
    (∀ request, detect op outcome = .ok (some request) ↔
      ∃ m : Marker, outcome.success = false ∧ m.EncodesTo outcome.revertData ∧ m.Names op ∧
        request = ⟨m.account, m.requestId, m.callParams, outcome.block.timestamp⟩) ∧
    (detect op outcome = .ok none ↔
      outcome.success = true ∨ ¬ Marker.selector <+: outcome.revertData) ∧
    ((∃ detail, detect op outcome = .error (.undecodable detail)) ↔
      outcome.success = false ∧ Marker.selector <+: outcome.revertData ∧
        ∀ m : Marker, ¬ m.EncodesTo outcome.revertData) ∧
    (detect op outcome = .error .zeroAccount ↔
      ∃ m : Marker, outcome.success = false ∧ m.EncodesTo outcome.revertData ∧ m.account = 0) ∧
    (detect op outcome = .error .missingSelector ↔
      ∃ m : Marker, outcome.success = false ∧ m.EncodesTo outcome.revertData ∧ m.account ≠ 0 ∧
        m.callParams.length < 4) ∧
    (∀ embedded derived, detect op outcome = .error (.requestIdMismatch embedded derived) ↔
      ∃ m : Marker, outcome.success = false ∧ m.EncodesTo outcome.revertData ∧ m.account ≠ 0 ∧
        4 ≤ m.callParams.length ∧ embedded = m.requestId ∧
        derived = deriveRequestId m.account op.sender op.nonce m.callParams ∧
        derived ≠ embedded) ∧
    ∀ m bs, Marker.EncodesTo m bs → outcome.success = false → 4 ≤ outcome.revertData.length →
      outcome.revertData <+: bs ∨ bs <+: outcome.revertData → outcome.revertData ≠ bs →
      ∃ detail, detect op outcome = .error (.undecodable detail) := by
  refine ⟨fun request => detect_eq_some_iff, detect_eq_none_iff, detect_undecodable_iff,
    detect_zeroAccount_iff, detect_missingSelector_iff,
    fun embedded derived => detect_mismatch_iff, ?_⟩
  intro m bs encoded failed hsize hpre hne
  exact detect_of_comparable failed encoded hsize hpre hne

/-- A marker of 164 bytes that is cut off after its first 40 bytes. -/
theorem detected_cut :
    ∃ detail, detect { sender := 0xbb, nonce := 4, callData := [] }
      { revertData := (Marker.mk 0xaa 0x11 [0x97, 0xe0, 0xd7, 0xba]).encode.take 40 } =
        .error (.undecodable detail) := by
  have hcut : (Marker.mk 0xaa 0x11 [0x97, 0xe0, 0xd7, 0xba]).encode.take 40 <+:
      (Marker.mk 0xaa 0x11 [0x97, 0xe0, 0xd7, 0xba]).encode := List.take_prefix 40 _
  obtain ⟨-, -, -, -, -, -, herror⟩ :=
    detected_exactly { sender := 0xbb, nonce := 4, callData := [] }
      { revertData := (Marker.mk 0xaa 0x11 [0x97, 0xe0, 0xd7, 0xba]).encode.take 40 }
  exact herror _ _ ⟨rfl, by decide⟩ rfl (by decide +kernel) (.inl hcut) (by decide +kernel)

end ComputeRelay
