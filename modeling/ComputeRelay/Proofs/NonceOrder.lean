import ComputeRelay.Proofs.Contiguity
import ComputeRelay.Proofs.Nonces

/-! When pending pairs carry pairwise different nonces. The ledger's nonce of the system account is
never above the nonce of a pending pair, so a call that reads it while a pair is pending may be
given a nonce that is taken. -/

namespace ComputeRelay

open Relay

/-- Along a run, with the system account's nonce on the ledger at each event: the nonce never
decreases, is never above the nonce of a pending pair, and is what the relay is told. -/
def LedgerAgrees (r : Relay) (floor : Nat) : List (Word × Event) → Prop
  | [] => True
  | (nonce, e) :: rest =>
    floor ≤ nonce.toNat ∧ (∀ told, r.teaches? e = some told → told = nonce) ∧
      (∀ p ∈ r.pending, nonce.toNat ≤ p.2.pair.write.nonce.toNat) ∧
      (∀ p ∈ (r.step e).1.pending, nonce.toNat ≤ p.2.pair.write.nonce.toNat) ∧
      LedgerAgrees (r.step e).1 nonce.toNat rest

def lastNonce (floor : Nat) (run : List (Word × Event)) : Nat :=
  run.foldl (fun _ p => p.1.toNat) floor

theorem ledgerAgrees_append {r : Relay} {floor : Nat} {run more : List (Word × Event)} :
    LedgerAgrees r floor (run ++ more) ↔ LedgerAgrees r floor run ∧
      LedgerAgrees (r.after (run.map (·.2))) (lastNonce floor run) more := by
  induction run generalizing r floor with
  | nil => simp [LedgerAgrees, lastNonce]
  | cons p run ih =>
    simp only [List.cons_append, LedgerAgrees, ih, List.map_cons, after_cons, lastNonce,
      List.foldl_cons, and_assoc]

/-- The ledger's nonce may stay the same along a run that hears no other, as long as no pending
pair comes to have a lower one. -/
theorem ledgerAgrees_map {r : Relay} {floor : Nat} {nonce : Word} {es : List Event}
    (hfloor : floor ≤ nonce.toNat)
    (htold : ∀ id told, Event.reply id (.nonce (.ok told)) ∈ es → told = nonce)
    (hpending : ∀ n ≤ es.length, ∀ p ∈ (r.after (es.take n)).pending,
      nonce.toNat ≤ p.2.pair.write.nonce.toNat) :
    LedgerAgrees r floor (es.map fun e => (nonce, e)) := by
  induction es generalizing r floor with
  | nil => trivial
  | cons e es ih =>
    refine ⟨hfloor, ?_, hpending 0 (Nat.zero_le _), hpending 1 (by simp), ?_⟩
    · intro told htaught
      obtain ⟨id, rfl⟩ := event_of_teaches htaught
      exact htold id told List.mem_cons_self
    · refine ih (Nat.le_refl _) (fun id told hin => htold id told (List.mem_cons_of_mem _ hin)) ?_
      intro n hn
      exact hpending (n + 1) (Nat.succ_le_succ hn)

theorem LedgerAgrees.lastNonce_le {r : Relay} {floor : Nat} {run : List (Word × Event)}
    (h : LedgerAgrees r floor run)
    (hfloor : ∀ p ∈ r.pending, floor ≤ p.2.pair.write.nonce.toNat) :
    ∀ p ∈ (r.after (run.map (·.2))).pending,
      lastNonce floor run ≤ p.2.pair.write.nonce.toNat := by
  induction run generalizing r floor with
  | nil => exact hfloor
  | cons p run ih =>
    obtain ⟨-, -, -, hafter, hrest⟩ := h
    exact ih hrest hafter

theorem nodup_pendingPairs_iff (r : Relay) :
    (r.pendingPairs.map fun p => p.write.nonce).Nodup ↔
      (r.pending.map fun e => e.2.pair.write.nonce).Nodup := by
  have hperm := (List.mergeSort_perm (r.pending.map fun e => e.2.pair) fun p q =>
    decide (p.write.nonce.toNat ≤ q.write.nonce.toNat)).map fun p => p.write.nonce
  rw [List.map_map] at hperm
  exact hperm.nodup_iff

theorem not_nodup_insert {t : Table Hash PendingPair} {key key' : Hash} {entry entry' : PendingPair}
    (hmem : (key', entry') ∈ t) (hne : key' ≠ key)
    (heq : entry'.pair.write.nonce = entry.pair.write.nonce) :
    ¬ ((Table.insert t key entry).map fun e => e.2.pair.write.nonce).Nodup := by
  intro hnodup
  have hnew : (key, entry) ∈ Table.insert t key entry :=
    Table.mem_of_get? (by simp [Table.get?_insert])
  have hold : (key', entry') ∈ Table.insert t key entry := Table.mem_insert_of_ne hmem hne
  exact hne (congrArg Prod.fst (List.inj_on_of_nodup_map hnodup hold hnew heq))

/-- A call that reads its nonce while pairs are pending can be told the lowest of their nonces, and
finish a second pair of that nonce. -/
theorem exists_reuse {config : Config} {signer : Signer} {run : List (Word × Event)}
    (hrun : LedgerAgrees (idle config signer) 0 run) {r : Relay}
    (hr : r = (idle config signer).after (run.map (·.2))) {id : CallId} {c : Candidate}
    {answer : Answer} (hs : Table.get? r.calls id = some (.drafting c answer .reading))
    (hpending : r.pending ≠ []) (hnew : c.requestId ∉ Table.keys r.pending)
    (hsender : c.op.sender ≠ config.systemAccount) (hfees : FeesFit config c.op)
    (signs : ∀ digest, ∃ signature, signer.sign digest = .ok signature) :
    ∃ more, LedgerAgrees (idle config signer) 0 (run ++ more) ∧
      ¬ (((idle config signer).after ((run ++ more).map (·.2))).pendingPairs.map
        fun p => p.write.nonce).Nodup := by
  obtain ⟨hconfig, hsigner, hbacked⟩ := run_backed config signer (run.map (·.2))
  rw [← hr] at hconfig hsigner hbacked
  obtain ⟨-, ha, -⟩ := hbacked id _ hs
  -- the lowest pending nonce, which the ledger may have come to
  obtain ⟨⟨key, entry⟩, hlow, hleast⟩ := exists_minimalFor_of_wellFoundedLT (· ∈ r.pending)
    (fun e => e.2.pair.write.nonce.toNat) (List.exists_mem_of_ne_nil _ hpending)
  have hmin : ∀ e ∈ r.pending, entry.pair.write.nonce.toNat ≤ e.2.pair.write.nonce.toNat := by
    intro e he
    by_contra hlt
    exact hlt (hleast he (Nat.le_of_not_le hlt))
  obtain ⟨write, hb⟩ := CacheWriter.exists_build (w := r.writer) (hsigner ▸ signs) c.op
    c.requestId answer.response entry.pair.write.nonce
  have hsender' : c.op.sender ≠ r.systemAccount := by
    rw [Relay.systemAccount, hconfig]
    exact hsender
  obtain ⟨hkeeps, pair, fee, l, ⟨hpair, -⟩, hfinished⟩ := after_finishing hs
    (fun hf => ⟨_, _, ha.populating hf⟩) hb hsender' (hconfig ▸ hfees)
  have hnonce : pair.write.nonce = entry.pair.write.nonce := by
    rw [hpair, (CacheWriter.build_spec hb).nonce]
  have hnew' : key ≠ c.requestId := by
    rintro rfl
    exact hnew (List.mem_map.mpr ⟨_, hlow, rfl⟩)
  have hpaired : (r.after (finishing id entry.pair.write.nonce)).pending =
      Table.insert r.pending c.requestId ⟨pair, r.now⟩ := by
    show ((r.after ((finishing id entry.pair.write.nonce).take 2)).step (.clean id)).1.pending = _
    rw [hfinished]
  have hmin' : ∀ e ∈ (r.after (finishing id entry.pair.write.nonce)).pending,
      entry.pair.write.nonce.toNat ≤ e.2.pair.write.nonce.toNat := by
    rw [hpaired]
    intro e he
    rcases Table.mem_of_mem_insert he with rfl | hold
    · exact hnonce ▸ Nat.le_refl _
    · exact hmin e hold
  have hnever : ∀ n ≤ 3, ∀ e ∈ (r.after ((finishing id entry.pair.write.nonce).take n)).pending,
      entry.pair.write.nonce.toNat ≤ e.2.pair.write.nonce.toNat := by
    intro n hn
    rcases Nat.lt_or_eq_of_le hn with hlt | rfl
    · rw [hkeeps n hlt]
      exact hmin
    · exact hmin'
  have hfloor := hrun.lastNonce_le (by simp [idle])
  rw [← hr] at hfloor
  refine ⟨(finishing id entry.pair.write.nonce).map fun e => (entry.pair.write.nonce, e), ?_, ?_⟩
  · rw [ledgerAgrees_append, ← hr]
    exact ⟨hrun, ledgerAgrees_map (hfloor _ hlow) (by simp [finishing]) hnever⟩
  · rw [nodup_pendingPairs_iff, List.map_append, after_append, ← hr, List.map_map]
    show ¬ ((r.after (finishing id entry.pair.write.nonce)).pending.map
      fun e => e.2.pair.write.nonce).Nodup
    rw [hpaired]
    exact not_nodup_insert hlow hnew' hnonce.symm

/-- Pending pairs carry pairwise different nonces as long as the nonce is read while no pair is
pending; and whenever a call reads it while one is, a second pair of a pending nonce can follow. -/
theorem pending_nonces_differ (config : Config) (signer : Signer) :
    (∀ es, Throughout ReadsAlone (idle config signer) es →
      (((idle config signer).after es).pendingPairs.map fun p => p.write.nonce).Nodup) ∧
    ∀ run, LedgerAgrees (idle config signer) 0 run → ∀ id c answer,
      Table.get? ((idle config signer).after (run.map (·.2))).calls id =
        some (.drafting c answer .reading) →
      ((idle config signer).after (run.map (·.2))).pending ≠ [] →
      c.requestId ∉ Table.keys ((idle config signer).after (run.map (·.2))).pending →
      c.op.sender ≠ config.systemAccount → FeesFit config c.op →
      (∀ digest, ∃ signature, signer.sign digest = .ok signature) →
      ∃ more, LedgerAgrees (idle config signer) 0 (run ++ more) ∧
        ¬ (((idle config signer).after ((run ++ more).map (·.2))).pendingPairs.map
          fun p => p.write.nonce).Nodup := by
  constructor
  · intro es halone
    rw [nodup_pendingPairs_iff]
    exact (run_noncesApart halone).apart
  · intro run hrun id c answer hs hpending hnew hsender hfees signs
    exact exists_reuse hrun rfl hs hpending hnew hsender hfees signs

/-- The ledger agrees with every run in which the nonce is zero whenever it is read. -/
theorem ledgerAgrees_zero {es : List Event}
    (hread : ∀ id nonce, Event.reply id (.nonce (.ok nonce)) ∈ es → nonce = 0) (r : Relay) :
    LedgerAgrees r 0 (es.map fun e => (0, e)) :=
  ledgerAgrees_map (Nat.zero_le _) hread fun _ _ _ _ => Nat.zero_le _

/-- One request is served, nothing is dropped, and a second request has a nonce read. -/
def Sample.rereading : List Event :=
  Sample.first.served "a" 0 ++ .start "d" (.drop []) :: Sample.second.asked "b"

theorem Sample.after_rereading :
    ∃ c answer, c.op = Sample.op 0xb2 ∧ c.requestId = Sample.secondKey ∧
      Table.get? ((idle Sample.config Sample.signer).after Sample.rereading).calls "b" =
        some (.drafting c answer .reading) ∧
      Table.keys ((idle Sample.config Sample.signer).after Sample.rereading).pending =
        [Sample.firstKey] := by
  obtain ⟨pair, -, hserved⟩ := first_paired
  let r : Relay := { holding pair 0 with writer := { (holding pair 0).writer with lane := {} } }
  have hdropped : ((holding pair 0).step (.start "d" (.drop []))).1 = r := drop_nothing rfl rfl
  have hkey : Sample.second.key ≠ Sample.firstKey := by decide
  have hwelcome : Sample.second.Welcome r "b" := welcome_beside hkey rfl rfl rfl rfl
  rw [Sample.rereading, after_append, hserved, after_cons, hdropped,
    Answerable.after_asked hwelcome rfl]
  exact ⟨Sample.second.candidate (r.now + r.config.requestTimeoutMs.toNat),
    ⟨Sample.second.response, none⟩, rfl, rfl, Table.get?_insert_self _ _ _, rfl⟩

/-- Nothing but the reading of nonces has to be looked at in a run that is shorter than the nonces
that the ledger tells are far from the last one. -/
theorem throughout_readsAlone {config : Config} {signer : Signer} {es : List Event} (bound : Nat)
    (horder : Throughout InOrder (idle config signer) es)
    (htold : ∀ id nonce, Event.reply id (.nonce (.ok nonce)) ∈ es → nonce.toNat ≤ bound)
    (hroom : bound + es.length < 2 ^ 256 - 1)
    (halone : Throughout (fun r e => r.teaches? e ≠ none → r.pending = []) (idle config signer)
      es) : Throughout ReadsAlone (idle config signer) es := by
  refine (halone.and (throughout_next_le horder htold le_rfl)).imp ?_
  rintro r e ⟨hread, -, hnext⟩
  refine ⟨hread, fun hlast => ?_⟩
  have hbelow := hnext _ hlast
  rw [BitVec.toNat_allOnes] at hbelow
  omega

/-- Where no nonce is told, none is read beside a pending pair. -/
theorem throughout_unread {es : List Event}
    (h : ∀ id nonce, Event.reply id (.nonce (.ok nonce)) ∉ es) (r : Relay) :
    Throughout (fun r e => r.teaches? e ≠ none → r.pending = []) r es := by
  induction es generalizing r with
  | nil => trivial
  | cons e es ih =>
    refine ⟨?_, ih (fun id nonce hin => h id nonce (List.mem_cons_of_mem _ hin)) _⟩
    intro htaught
    obtain ⟨nonce, hnonce⟩ := Option.ne_none_iff_exists'.mp htaught
    obtain ⟨id, rfl⟩ := event_of_teaches hnonce
    exact absurd List.mem_cons_self (h id nonce)

/-- The only nonce that is read for the two requests is read while nothing is pending. -/
theorem Sample.both_readsAlone : Throughout ReadsAlone (idle Sample.config Sample.signer) both := by
  have hsplit : both = first.asked "a" ++ .reply "a" (.nonce (.ok 0)) ::
      ([.clean "a", .clean "a", .tick 60000] ++ second.servedNext "b") := rfl
  refine throughout_readsAlone 0 both_inOrder ?_ (by decide) ?_
  · simp [both, Answerable.served, Answerable.servedNext, Answerable.asked, finishing]
  · rw [hsplit, throughout_append]
    refine ⟨throughout_unread (by simp [Answerable.asked]) _, fun _ => ?_,
      throughout_unread (by simp [Answerable.servedNext, Answerable.asked]) _⟩
    rw [Answerable.after_asked (Answerable.welcome_idle _ _ _) rfl]
    rfl

/-- Nonces are apart while they are read alone; read beside a pending pair, one comes twice. -/
theorem sample_nonces :
    (Table.keys ((idle Sample.config Sample.signer).after Sample.both).pending =
        [Sample.firstKey, Sample.secondKey] ∧
      (((idle Sample.config Sample.signer).after Sample.both).pendingPairs.map
        fun p => p.write.nonce).Nodup) ∧
    ∃ more, LedgerAgrees (idle Sample.config Sample.signer) 0
        (Sample.rereading.map (fun e => (0, e)) ++ more) ∧
      ¬ (((idle Sample.config Sample.signer).after
        ((Sample.rereading.map (fun e => (0, e)) ++ more).map (·.2))).pendingPairs.map
          fun p => p.write.nonce).Nodup := by
  obtain ⟨c, answer, hop, hid, hs, hkeys⟩ := Sample.after_rereading
  have hevents : (Sample.rereading.map fun e => ((0 : Word), e)).map (·.2) = Sample.rereading := by
    simp [Function.comp_def]
  obtain ⟨p, q, -, -, hboth⟩ := Sample.after_both
  have hdiffer := (pending_nonces_differ _ _).1 _ Sample.both_readsAlone
  refine ⟨⟨by rw [hboth]; rfl, hdiffer⟩, ?_⟩
  refine (pending_nonces_differ _ _).2 _ (ledgerAgrees_zero ?_ _) "b" c answer ?_ ?_ ?_ ?_ ?_ ?_
  · simp [Sample.rereading, Answerable.served, Answerable.asked, finishing]
  · rw [hevents]
    exact hs
  · rw [hevents]
    rintro hnil
    simp [hnil, Table.keys] at hkeys
  · rw [hevents, hkeys, hid]
    decide
  · rw [hop]
    decide
  · rw [hop]
    decide
  · exact fun _ => ⟨_, rfl⟩

end ComputeRelay
