import ComputeRelay.Proofs.WriteOrder

/-! Filling a bundle. What an assembly has placed so far is a list of items, and its bundle is that
list laid out; so a bundle that is assembled passes the check of its own positions. -/

namespace ComputeRelay

/-- The operations of items, one item behind the other. -/
def layOut (items : List BundleItem) : List Operation := items.flatMap BundleItem.operations

def pairsOf (items : List BundleItem) : List Pair := items.filterMap BundleItem.pair?

/-- Where the pairs of items stand that are laid out behind `n` operations. -/
def pairPositions : (n : Nat) → List BundleItem → List Nat
  | _, [] => []
  | n, .single _ :: items => pairPositions (n + 1) items
  | n, .pair _ :: items => n :: pairPositions (n + 2) items

@[simp] theorem layOut_nil : layOut [] = [] := rfl

@[simp] theorem layOut_single (op : Operation) (items : List BundleItem) :
    layOut (.single op :: items) = op :: layOut items := rfl

@[simp] theorem layOut_pair (p : Pair) (items : List BundleItem) :
    layOut (.pair p :: items) = p.write :: p.served :: layOut items := rfl

theorem layOut_append (items more : List BundleItem) :
    layOut (items ++ more) = layOut items ++ layOut more := List.flatMap_append

@[simp] theorem pairsOf_nil : pairsOf [] = [] := rfl

@[simp] theorem pairsOf_single (op : Operation) (items : List BundleItem) :
    pairsOf (.single op :: items) = pairsOf items := rfl

@[simp] theorem pairsOf_pair (p : Pair) (items : List BundleItem) :
    pairsOf (.pair p :: items) = p :: pairsOf items := rfl

theorem pairsOf_append (items more : List BundleItem) :
    pairsOf (items ++ more) = pairsOf items ++ pairsOf more := List.filterMap_append

theorem mem_pairsOf {items : List BundleItem} {p : Pair} :
    p ∈ pairsOf items ↔ .pair p ∈ items := by
  induction items with
  | nil => simp
  | cons item items ih => cases item <;> simp [ih]

theorem pairPositions_append (n : Nat) (items more : List BundleItem) :
    pairPositions n (items ++ more) =
      pairPositions n items ++ pairPositions (n + (layOut items).length) more := by
  induction items generalizing n with
  | nil => simp [pairPositions]
  | cons item items ih =>
    cases item with
    | single op =>
      have hn : n + (layOut (.single op :: items)).length = n + 1 + (layOut items).length := by
        simp only [layOut_single, List.length_cons]
        omega
      rw [hn]
      exact ih (n + 1)
    | pair p =>
      have hn : n + (layOut (.pair p :: items)).length = n + 2 + (layOut items).length := by
        simp only [layOut_pair, List.length_cons]
        omega
      rw [hn]
      exact congrArg (n :: ·) (ih (n + 2))

theorem map_pairPositions (before : List Operation) (items : List BundleItem) :
    (pairPositions before.length items).map (fun i =>
        ((before ++ layOut items)[i]?, (before ++ layOut items)[i + 1]?)) =
      (pairsOf items).map fun p => (some p.write, some p.served) := by
  induction items generalizing before with
  | nil => simp [pairPositions]
  | cons item items ih =>
    cases item with
    | single op =>
      have h := ih (before ++ [op])
      simpa [pairPositions] using h
    | pair p =>
      have h := ih (before ++ [p.write, p.served])
      simpa [pairPositions] using h

/-- Items as a relay bundles them: the write of a pair is a cache write of the system account and
serves another account, and no operation without a pair is such a write. -/
structure BundleItem.Fits (systemAccount helper : Address) (item : BundleItem) : Prop where
  write : ∀ p, item = .pair p → p.write.isCacheWrite systemAccount helper = true
  served : ∀ p, item = .pair p → p.served.sender ≠ systemAccount
  single : ∀ op, item = .single op → op.isCacheWrite systemAccount helper = false

variable {systemAccount helper : Address} {items : List BundleItem}

theorem Operation.isCacheWrite_eq_false {op : Operation} (h : op.sender ≠ systemAccount) :
    op.isCacheWrite systemAccount helper = false := by
  simp [isCacheWrite, h]

/-- Behind other operations, the only cache writes of items that fit are those of the pairs. -/
theorem mem_pairPositions_of_write (fits : ∀ item ∈ items, item.Fits systemAccount helper)
    (before : List Operation) {i : Nat} {op : Operation} (behind : before.length ≤ i)
    (hop : (before ++ layOut items)[i]? = some op)
    (hwrite : op.isCacheWrite systemAccount helper = true) :
    i ∈ pairPositions before.length items := by
  induction items generalizing before with
  | nil => simp [behind] at hop
  | cons item items ih =>
    obtain ⟨hitem, hitems⟩ := List.forall_mem_cons.mp fits
    cases item with
    | single o =>
      have hne : i ≠ before.length := by
        rintro rfl
        have ho : o = op := by simpa using hop
        simp [← ho, hitem.single o rfl] at hwrite
      have hin := ih hitems (before ++ [o]) (by simp; omega) (by simpa using hop)
      simpa [pairPositions] using hin
    | pair p =>
      by_cases hfirst : i = before.length
      · simp [pairPositions, hfirst]
      have hne : i ≠ before.length + 1 := by
        rintro rfl
        have ho : p.served = op := by simpa using hop
        simp [← ho, Operation.isCacheWrite_eq_false (hitem.served p rfl)] at hwrite
      have hin := ih hitems (before ++ [p.write, p.served]) (by simp; omega) (by simpa using hop)
      simpa [pairPositions] using Or.inr hin

/-- Items that fit pass the check where they are laid out, if the nonces of their pairs count up. -/
theorem checkOrdering_layOut {next : Word} (fits : ∀ item ∈ items, item.Fits systemAccount helper)
    (hnonces : (pairsOf items).map (·.write.nonce) = noncesFrom next (pairsOf items).length) :
    checkOrdering (layOut items) (pairPositions 0 items) systemAccount helper next = .ok () := by
  have hmap := map_pairPositions [] items
  simp only [List.length_nil, List.nil_append] at hmap
  have hlength : (pairPositions 0 items).length = (pairsOf items).length := by
    simpa using congrArg List.length hmap
  refine checkOrdering_eq_ok_iff.mpr ⟨checkPositions_eq_ok_iff.mpr ⟨?_, ?_⟩, ?_⟩
  · intro i hi
    have hin := List.mem_map_of_mem (f := fun i => ((layOut items)[i]?, (layOut items)[i + 1]?)) hi
    rw [hmap] at hin
    obtain ⟨p, hp, heq⟩ := List.mem_map.mp hin
    simp only [Prod.mk.injEq] at heq
    have hfit := fits _ (mem_pairsOf.mp hp)
    exact ⟨p.write, p.served, heq.1.symm, hfit.write p rfl, heq.2.symm, hfit.served p rfl⟩
  · have hfirst := congrArg (List.map fun e => e.1.map Operation.nonce) hmap
    simp only [List.map_map] at hfirst
    rw [hlength, ← hnonces, List.map_map]
    exact hfirst
  · intro i hi
    obtain ⟨op, hop, hwrite⟩ := mem_writePositions.mp hi
    exact mem_pairPositions_of_write fits [] (Nat.zero_le i) hop hwrite

/-- The bundle is the placed items laid out, and the nonces of their pairs count up to the one that
the next pair has to carry. -/
structure Assembly.Holds (a : Assembly) (first : Word) (placed : List BundleItem) : Prop where
  ops : a.bundle.ops = layOut placed
  positions : a.bundle.pairPositions = pairPositions 0 placed
  requestIds : a.bundle.requestIds = (pairsOf placed).map (·.requestId)
  nonces : (pairsOf placed).map (·.write.nonce) = noncesFrom first (pairsOf placed).length
  next : a.nextNonce = first + BitVec.ofNat 256 (pairsOf placed).length

namespace Assembly

variable {a : Assembly} {first : Word} {placed : List BundleItem}

theorem start_holds (maxOps : Nat) (first : Word) : (start maxOps first).Holds first [] :=
  ⟨rfl, rfl, rfl, rfl, (BitVec.add_zero first).symm⟩

theorem push_holds (h : a.Holds first placed) (item : BundleItem) :
    (a.push item).Holds first (if a.accepts item then placed ++ [item] else placed) := by
  unfold push
  split
  · rename_i haccepts
    cases item with
    | single op =>
      refine ⟨?_, ?_, ?_, ?_, ?_⟩
      · simp [h.ops, layOut_append]
      · simp [h.positions, pairPositions_append, pairPositions]
      · simp [h.requestIds, pairsOf_append]
      · simpa [pairsOf_append] using h.nonces
      · simpa [pairsOf_append] using h.next
    | pair p =>
      have hnonce : p.write.nonce = a.nextNonce := by
        simp only [accepts, Bool.and_eq_true, beq_iff_eq] at haccepts
        exact haccepts.2.2
      refine ⟨?_, ?_, ?_, ?_, ?_⟩
      · simp [h.ops, layOut_append, Pair.operations]
      · simp [h.positions, h.ops, pairPositions_append, pairPositions]
      · simp [h.requestIds, pairsOf_append]
      · simp [pairsOf_append, h.nonces, hnonce, h.next, noncesFrom_concat]
      · simp only [pairsOf_append, pairsOf_pair, pairsOf_nil, List.length_append,
          List.length_singleton, h.next, BitVec.ofNat_add, BitVec.add_assoc]
        rfl
  · exact ⟨h.ops, h.positions, h.requestIds, h.nonces, h.next⟩

theorem foldl_push_holds (h : a.Holds first placed) (items : List BundleItem) :
    ∃ placed', (items.foldl push a).Holds first placed' ∧ placed' ⊆ placed ++ items := by
  induction items generalizing a placed with
  | nil => exact ⟨placed, h, by simp⟩
  | cons item items ih =>
    obtain ⟨placed', hholds, hsub⟩ := ih (push_holds h item)
    refine ⟨placed', hholds, List.Subset.trans hsub ?_⟩
    split <;> simp

end Assembly

theorem mem_refillPairs {pairs : List Pair} {item : BundleItem}
    (h : item ∈ refillPairs items pairs) : item ∈ items ∨ ∃ p ∈ pairs, item = .pair p := by
  induction items, pairs using refillPairs.induct with
  | case1 pairs => simp [refillPairs] at h
  | case2 op items pairs ih =>
    rcases List.mem_cons.mp h with rfl | h
    · exact .inl List.mem_cons_self
    · exact (ih h).imp_left (List.mem_cons_of_mem _)
  | case3 p items q pairs ih =>
    rcases List.mem_cons.mp h with rfl | h
    · exact .inr ⟨q, List.mem_cons_self, rfl⟩
    · rcases ih h with hitem | ⟨p', hp', rfl⟩
      · exact .inl (List.mem_cons_of_mem _ hitem)
      · exact .inr ⟨p', List.mem_cons_of_mem _ hp', rfl⟩
  | case4 p items ih =>
    rcases List.mem_cons.mp h with rfl | h
    · exact .inl List.mem_cons_self
    · exact (ih h).imp_left (List.mem_cons_of_mem _)

theorem orderPairs_subset (items : List BundleItem) : orderPairs items ⊆ items := by
  intro item h
  rcases mem_refillPairs h with hitem | ⟨p, hp, rfl⟩
  · exact hitem
  · exact mem_pairsOf.mp (List.mem_mergeSort.mp hp)

theorem assemble_holds (maxOps : Nat) (first : Word) (items : List BundleItem) :
    ∃ placed ⊆ items, ∃ a : Assembly,
      a.bundle = Bundle.assemble maxOps first items ∧ a.Holds first placed := by
  obtain ⟨placed, hholds, hsub⟩ :=
    Assembly.foldl_push_holds (Assembly.start_holds maxOps first) (orderPairs items)
  exact ⟨placed, List.Subset.trans hsub (orderPairs_subset items), _, rfl, hholds⟩

/-- A pair as a relay creates it: by the check of its operations, for a call that writes to the
helper. -/
def Pair.CreatedFor (systemAccount helper : Address) (p : Pair) : Prop :=
  (∃ requestId write served estimate fallback,
    Pair.create requestId write served estimate systemAccount fallback = .ok p) ∧
  (CacheWrite.decode? p.write.callData helper).isSome = true

theorem Pair.CreatedFor.fits {p : Pair} (h : p.CreatedFor systemAccount helper) :
    (BundleItem.pair p).Fits systemAccount helper := by
  obtain ⟨⟨requestId, write, served, estimate, fallback, hcreate⟩, hdecodes⟩ := h
  obtain ⟨hwrite, hserved, rfl⟩ := Pair.create_eq_ok_iff.mp hcreate
  refine ⟨?_, ?_, ?_⟩
  · rintro p ⟨⟩
    simpa [Operation.isCacheWrite, hwrite] using hdecodes
  · rintro p ⟨⟩
    exact hserved
  · rintro op ⟨⟩

/-- A bundle assembled from pairs as a relay creates them, and from operations that are no cache
writes, passes the check; and each recorded position is that of a given pair, whose request is
recorded in the same place. -/
theorem assemble_ordered (maxOps : Nat) (next : Word)
    (pairs : ∀ p, .pair p ∈ items → p.CreatedFor systemAccount helper)
    (singles : ∀ op, .single op ∈ items → op.isCacheWrite systemAccount helper = false) :
    checkOrdering (Bundle.assemble maxOps next items).ops
        (Bundle.assemble maxOps next items).pairPositions systemAccount helper next = .ok () ∧
      (Bundle.assemble maxOps next items).requestIds.length =
        (Bundle.assemble maxOps next items).pairPositions.length ∧
      ∀ k i : Nat, (Bundle.assemble maxOps next items).pairPositions[k]? = some i →
        ∃ p : Pair, .pair p ∈ items ∧
          (Bundle.assemble maxOps next items).requestIds[k]? = some p.requestId ∧
          (Bundle.assemble maxOps next items).ops[i]? = some p.write ∧
          (Bundle.assemble maxOps next items).ops[i + 1]? = some p.served := by
  obtain ⟨placed, hsub, a, hbundle, hholds⟩ := assemble_holds maxOps next items
  rw [← hbundle, hholds.ops, hholds.positions, hholds.requestIds]
  have hfits : ∀ item ∈ placed, item.Fits systemAccount helper := by
    intro item hitem
    cases item with
    | pair p => exact (pairs p (hsub hitem)).fits
    | single op =>
      refine ⟨by rintro p ⟨⟩, by rintro p ⟨⟩, ?_⟩
      rintro op ⟨⟩
      exact singles _ (hsub hitem)
  have hmap := map_pairPositions [] placed
  simp only [List.length_nil, List.nil_append] at hmap
  refine ⟨checkOrdering_layOut hfits hholds.nonces, ?_, ?_⟩
  · simpa using (congrArg List.length hmap).symm
  · intro k i hi
    have hk := congrArg (·[k]?) hmap
    simp only [List.getElem?_map, hi, Option.map_some] at hk
    obtain ⟨p, hp, heq⟩ := Option.map_eq_some_iff.mp hk.symm
    simp only [Prod.mk.injEq] at heq
    have hin : .pair p ∈ placed := mem_pairsOf.mp (List.mem_of_getElem? hp)
    exact ⟨p, hsub hin, by simp [hp], heq.1.symm, heq.2.symm⟩

namespace Sample

def cachePair (nonce : Word) : Pair :=
  { requestId := 1, write := cacheWrite nonce, served := bystander, estimate := ⟨0, 0, 0⟩,
    fallback := none }

theorem cachePair_created (nonce : Word) : (cachePair nonce).CreatedFor 0x5a 0xc1 := by
  refine ⟨⟨1, cacheWrite nonce, bystander, ⟨0, 0, 0⟩, none, ?_⟩, ?_⟩
  · exact Pair.create_eq_ok_iff.mpr ⟨rfl, by decide, rfl⟩
  · show (CacheWrite.decode? (CacheWrite.encode 0xc1 1 [] []) 0xc1).isSome = true
    decide +kernel

/-- Out of order, and the last one behind a gap. -/
def unsorted : List BundleItem :=
  [.pair (cachePair 8), .single bystander, .pair (cachePair 7), .pair (cachePair 10)]

theorem unsorted_ordered :
    (∀ p, .pair p ∈ unsorted → p.CreatedFor 0x5a 0xc1) ∧
      (∀ op, .single op ∈ unsorted → op.isCacheWrite 0x5a 0xc1 = false) ∧
      (Bundle.assemble 9 7 unsorted).pairPositions = [0, 3] ∧
      checkOrdering (Bundle.assemble 9 7 unsorted).ops (Bundle.assemble 9 7 unsorted).pairPositions
        0x5a 0xc1 7 = .ok () := by
  have hpairs : ∀ p, .pair p ∈ unsorted → p.CreatedFor 0x5a 0xc1 := by
    intro p hp
    simp only [unsorted, List.mem_cons, BundleItem.pair.injEq, reduceCtorEq, List.not_mem_nil,
      false_or, or_false] at hp
    rcases hp with rfl | rfl | rfl <;> exact cachePair_created _
  have hsingles : ∀ op, .single op ∈ unsorted → op.isCacheWrite 0x5a 0xc1 = false := by
    intro op hop
    have hbystander : op = bystander := by simpa [unsorted] using hop
    subst hbystander
    exact Operation.isCacheWrite_eq_false (by decide)
  have hsorted : (pairsOf unsorted).mergeSort (fun p q =>
      decide (p.write.nonce.toNat ≤ q.write.nonce.toNat)) =
        [cachePair 7, cachePair 8, cachePair 10] := by
    have hnonce : ∀ n, (cachePair n).write.nonce = n := fun _ => rfl
    simp [unsorted, List.mergeSort, hnonce]
  have hplaced : (Bundle.assemble 9 7 unsorted).pairPositions = [0, 3] := by
    rw [Bundle.assemble, show orderPairs unsorted = _ from congrArg (refillPairs unsorted) hsorted]
    decide +kernel
  exact ⟨hpairs, hsingles, hplaced, (assemble_ordered 9 7 hpairs hsingles).1⟩

end Sample

end ComputeRelay
