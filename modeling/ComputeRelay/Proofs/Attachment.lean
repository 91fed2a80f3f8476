import ComputeRelay.Proofs.Resigning
import ComputeRelay.Proofs.Turnover

/-! Binding operations that were signed anew. The pair that an operation is offered to is the first
one of its sender and nonce in the order in which the pending pairs are gone through; it is the only
one that may change. So the order decides nothing just where all pairs of the operation's sender and
nonce take it or none does. -/

namespace ComputeRelay

open Relay

/-- Whether a pair accepts an operation as its served one signed anew. -/
def Pair.takes (p : Pair) (signed : Operation) : Bool := (p.withSigned signed).isOk

/-- Whether a pair serves the sender and the nonce of an operation. -/
def Pair.answersTo (p : Pair) (signed : Operation) : Bool :=
  p.served.sender == signed.sender && p.served.nonce == signed.nonce

/-- An operation is bound to one pair that accepts it, and nothing else changes, or it is refused
and nothing changes at all. -/
inductive Binding (r : Relay) (signed : Operation) : Relay × Except Rejection Pair → Prop
  | bound {key : Hash} {entry : PendingPair} {pending : Table Hash PendingPair} {pair : Pair}
      (stored : (key, entry) ∈ r.pending) (accepted : entry.pair.withSigned signed = .ok pair)
      (replaced : pair = { entry.pair with served := signed })
      (found : Table.get? pending key = some { entry with pair })
      (others : ∀ k, k ≠ key → Table.get? pending k = Table.get? r.pending k) :
      Binding r signed ({ r with pending }, .ok pair)
  | refused (e : Rejection) : Binding r signed (r, .error e)

variable {r : Relay} {signed : Operation}

theorem Pair.takes_iff {p : Pair} : p.takes signed = true ↔ ∃ q, p.withSigned signed = .ok q := by
  unfold Pair.takes
  cases p.withSigned signed with
  | error e => simp [Except.isOk, Except.toBool]
  | ok q => simp [Except.isOk, Except.toBool]

theorem Pair.answersTo_of_takes {p : Pair} (h : p.takes signed = true) :
    p.answersTo signed = true := by
  obtain ⟨q, hq⟩ := Pair.takes_iff.mp h
  obtain ⟨-, hsigned⟩ := Pair.withSigned_spec hq
  unfold Pair.answersTo
  rw [hsigned]
  simp [Operation.withGas]

theorem attach_binding (r : Relay) (signed : Operation) (order : List Hash) :
    Binding r signed (r.attach signed order) := by
  unfold Relay.attach
  split
  · exact .refused _
  · rename_i key entry hfind
    split
    · exact .refused _
    · rename_i pair haccepted
      have hstored := mem_arranged.mp (List.mem_of_find?_eq_some hfind)
      refine .bound hstored haccepted (Pair.withSigned_spec haccepted).1 ?_ ?_
      · rw [Table.get?_insert, if_pos rfl]
      · intro k hk
        rw [Table.get?_insert, if_neg hk.symm]

/-- The first pair of the sender and the nonce decides. -/
theorem attach_isOk (r : Relay) (signed : Operation) (order : List Hash) :
    (r.attach signed order).2.isOk =
      ((r.arranged order).find? fun e => e.2.pair.answersTo signed).any
        fun e => e.2.pair.takes signed := by
  unfold Relay.attach Pair.answersTo
  split
  · rename_i hfind
    rw [hfind]
    rfl
  · rename_i key entry hfind
    rw [hfind, Option.any_some, Pair.takes]
    cases entry.pair.withSigned signed <;> rfl

/-- The pairs that serve an operation's sender and nonce agree on the operation. -/
def Agreed (pending : Table Hash PendingPair) (signed : Operation) : Prop :=
  ∀ e ∈ pending, ∀ e' ∈ pending, e.2.pair.takes signed = true →
    e'.2.pair.answersTo signed = true → e'.2.pair.takes signed = true

theorem attach_isOk_iff_of_agreed (h : Agreed r.pending signed) (order : List Hash) :
    (r.attach signed order).2.isOk = true ↔ ∃ e ∈ r.pending, e.2.pair.takes signed = true := by
  rw [attach_isOk]
  cases hfind : (r.arranged order).find? fun e => e.2.pair.answersTo signed with
  | none =>
    simp only [Option.any_none, Bool.false_eq_true, false_iff, not_exists, not_and]
    intro e he htakes
    exact List.find?_eq_none.mp hfind e (mem_arranged.mpr he) (Pair.answersTo_of_takes htakes)
  | some found =>
    have hstored := mem_arranged.mp (List.mem_of_find?_eq_some hfind)
    have hanswers : found.2.pair.answersTo signed = true := by
      simpa using List.find?_some hfind
    rw [Option.any_some]
    constructor
    · exact fun htakes => ⟨found, hstored, htakes⟩
    · rintro ⟨e, he, htakes⟩
      exact h e he found hstored htakes hanswers

/-- The order of a table's keys is the order of its pairs. -/
theorem arranged_keys (hkeys : (Table.keys r.pending).Nodup) {table : Table Hash PendingPair}
    (ht : table ⊆ r.pending) : r.arranged (Table.keys table) = table ++ r.pending := by
  unfold Relay.arranged
  congr 1
  induction table with
  | nil => rfl
  | cons e rest ih =>
    have hget : Table.get? r.pending e.1 = some e.2 :=
      Table.get?_of_mem hkeys (ht List.mem_cons_self)
    have hrest := ih fun e' he' => ht (List.mem_cons_of_mem _ he')
    simp only [Table.keys, List.map_cons] at hrest ⊢
    rw [List.filterMap_cons, hget, hrest]
    rfl

/-- A pair that serves the sender and the nonce is the one that is asked, once it comes first. -/
theorem attach_isOk_of_first (hkeys : (Table.keys r.pending).Nodup) {e : Hash × PendingPair}
    {rest : Table Hash PendingPair} (ht : e :: rest ⊆ r.pending)
    (h : e.2.pair.answersTo signed = true) :
    (r.attach signed (Table.keys (e :: rest))).2.isOk = e.2.pair.takes signed := by
  have hfirst : (e :: rest ++ r.pending).find? (fun e => e.2.pair.answersTo signed) = some e :=
    List.find?_cons_of_pos h
  rw [attach_isOk, arranged_keys hkeys ht, hfirst, Option.any_some]

/-- In whichever order the pending pairs of a run are gone through, an operation signed anew is
bound to one pair that accepts it or is refused. It is bound exactly where some pair accepts it,
whatever the order, if and only if no pair of its sender and nonce refuses what another accepts. -/
theorem attach_any_order (config : Config) (signer : Signer) (es : List Event)
    (signed : Operation) :
    let r := (idle config signer).after es
    (∀ order, Binding r signed (r.attach signed order)) ∧
    ((∀ order : List Hash, order.Perm (Table.keys r.pending) →
        ((r.attach signed order).2.isOk = true ↔
          ∃ e ∈ r.pending, e.2.pair.takes signed = true)) ↔
      Agreed r.pending signed) := by
  intro r
  refine ⟨attach_binding r signed, ?_, fun hagreed order _ =>
    attach_isOk_iff_of_agreed hagreed order⟩
  intro h e he e' he' htakes hanswers
  have hperm : (e' :: List.erase r.pending e').Perm r.pending := (List.perm_cons_erase he').symm
  have horder := h (Table.keys (e' :: List.erase r.pending e')) (hperm.map Prod.fst)
  rw [attach_isOk_of_first (run_nodup_keys config signer es) hperm.subset hanswers] at horder
  exact horder.mpr ⟨e, he, htakes⟩

theorem Pair.takes_resigned {p : Pair} {op : Operation} (h : p.served = op.withGas p.estimate)
    {signature : Bytes} (hne : signature ≠ []) (hnew : signature ≠ op.signature) :
    p.takes { p.served with signature } = true := by
  have hestimated : p.Estimated := by
    rw [Pair.Estimated, h]
    rfl
  refine Pair.takes_iff.mpr ⟨_, (Pair.withSigned_eq_ok_iff hestimated).mpr ⟨⟨rfl, hne, ?_⟩, rfl⟩⟩
  rw [h]
  exact hnew

/-- The first request's operation, signed anew, is accepted by its pair; but the pairs can be gone
through so that it is offered to its rival's, and refused. -/
theorem Sample.rivalry_order :
    ∃ signed : Operation,
      (∃ e ∈ ((idle config Sample.signer).after rivalry).pending,
        e.2.pair.takes signed = true) ∧
      Binding ((idle config Sample.signer).after rivalry) signed
        (((idle config Sample.signer).after rivalry).attach signed []) ∧
      ∃ order : List Hash,
        order.Perm (Table.keys ((idle config Sample.signer).after rivalry).pending) ∧
        (((idle config Sample.signer).after rivalry).attach signed order).2.isOk = false := by
  obtain ⟨p, q, ⟨-, hp⟩, ⟨-, hq⟩, hr⟩ := after_rivalry
  let signed : Operation := { p.served with signature := [1] }
  obtain ⟨hbinding, hiff⟩ := attach_any_order config Sample.signer rivalry signed
  have htakes : p.takes signed = true := Pair.takes_resigned hp (by decide) (by decide)
  have hanswers : q.answersTo signed = true := by
    simp only [Pair.answersTo, signed, hp, hq]
    rfl
  have hrefuses : q.takes signed = false := by
    rw [← Bool.not_eq_true, Pair.takes_iff]
    rintro ⟨q', hq'⟩
    have hcall := congrArg Operation.callData (Pair.withSigned_spec hq').2
    simp only [signed, hp, hq] at hcall
    cases hcall
  have hfirst : (firstKey, (⟨p, 0⟩ : PendingPair)) ∈
      ((idle config Sample.signer).after rivalry).pending := by
    rw [hr]
    exact List.mem_cons_self
  have hsecond : (rivalKey, (⟨q, 0⟩ : PendingPair)) ∈
      ((idle config Sample.signer).after rivalry).pending := by
    rw [hr]
    exact List.mem_cons_of_mem _ List.mem_cons_self
  have hdisagreed : ¬ Agreed ((idle config Sample.signer).after rivalry).pending signed := by
    intro hagreed
    cases hrefuses.symm.trans (hagreed _ hfirst _ hsecond htakes hanswers)
  refine ⟨signed, ⟨_, hfirst, htakes⟩, hbinding [], ?_⟩
  by_contra! hall
  refine hdisagreed (hiff.mp fun order horder => ?_)
  simp only [Bool.not_eq_false] at hall
  exact ⟨fun _ => ⟨_, hfirst, htakes⟩, fun _ => hall order horder⟩

end ComputeRelay
