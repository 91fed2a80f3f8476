import ComputeRelay.Proofs.Placement

/-! The order that pairs are bundled in. Pairs are sorted by the nonces of their writes among the
places that pairs hold, and nothing else moves. A list of items is known from its places and its
pairs, and a stable sort from what it sorts; so ordering twice changes nothing, and where no nonce
comes twice it does not matter how the pairs stood before. -/

namespace ComputeRelay

/-- The operation that stands in a place by itself; a place that a pair holds has none. -/
def BundleItem.single? : BundleItem → Option Operation
  | .single op => some op
  | .pair _ => none

/-- Pairs in the order of their nonces, in which those of one nonce stand as they stood before. -/
structure StablySorted (sorted pairs : List Pair) : Prop where
  perm : sorted.Perm pairs
  ascend : sorted.Pairwise fun p q => p.write.nonce.toNat ≤ q.write.nonce.toNat
  stable : ∀ nonce : Word,
    sorted.filter (·.write.nonce == nonce) = pairs.filter (·.write.nonce == nonce)

variable {items items' : List BundleItem} {pairs sorted sorted' : List Pair}

theorem eq_of_places (hplaces : items.map BundleItem.single? = items'.map BundleItem.single?)
    (hpairs : pairsOf items = pairsOf items') : items = items' := by
  induction items generalizing items' with
  | nil =>
    have hnil : items' = [] := by simpa using hplaces.symm
    rw [hnil]
  | cons item items ih =>
    cases items' with
    | nil => simp at hplaces
    | cons item' items' =>
      obtain ⟨hplace, hothers⟩ := List.cons.inj hplaces
      cases item with
      | single op =>
        cases item' with
        | single op' =>
          obtain rfl := Option.some.inj hplace
          rw [ih hothers hpairs]
        | pair p' => cases hplace
      | pair p =>
        cases item' with
        | single op' => cases hplace
        | pair p' =>
          obtain ⟨rfl, hrest⟩ := List.cons.inj hpairs
          rw [ih hothers hrest]

theorem perm_singles_pairs (items : List BundleItem) :
    items.Perm ((items.filterMap BundleItem.single?).map .single ++ (pairsOf items).map .pair) := by
  induction items with
  | nil => exact .nil
  | cons item items ih =>
    cases item with
    | single op => exact ih.cons (.single op)
    | pair p => exact (ih.cons (.pair p)).trans List.perm_middle.symm

theorem perm_of_places (hplaces : items.map BundleItem.single? = items'.map BundleItem.single?)
    (hperm : (pairsOf items).Perm (pairsOf items')) : items.Perm items' := by
  have hsingles : items.filterMap BundleItem.single? = items'.filterMap BundleItem.single? := by
    simpa [List.filterMap_map] using congrArg (List.filterMap id) hplaces
  have hsplit := perm_singles_pairs items
  rw [hsingles] at hsplit
  exact (hsplit.trans ((hperm.map _).append_left _)).trans (perm_singles_pairs items').symm

theorem getElem?_single_iff {i : Nat} {op : Operation} :
    items[i]? = some (.single op) ↔
      (items.map BundleItem.single?)[i]? = some (some op) := by
  rw [List.getElem?_map]
  cases items[i]? with
  | none => simp
  | some item => cases item <;> simp [BundleItem.single?]

theorem getElem?_pair_iff {i : Nat} :
    (∃ p, items[i]? = some (.pair p)) ↔ (items.map BundleItem.single?)[i]? = some none := by
  rw [List.getElem?_map]
  cases items[i]? with
  | none => simp
  | some item => cases item <;> simp [BundleItem.single?]

theorem map_single?_refillPairs (items : List BundleItem) (pairs : List Pair) :
    (refillPairs items pairs).map BundleItem.single? = items.map BundleItem.single? := by
  induction items, pairs using refillPairs.induct with
  | case1 pairs => rfl
  | case2 op items pairs ih => exact congrArg (some op :: ·) ih
  | case3 q items p pairs ih => exact congrArg (none :: ·) ih
  | case4 p items ih => exact congrArg (none :: ·) ih

theorem pairsOf_refillPairs (h : pairs.length = (pairsOf items).length) :
    pairsOf (refillPairs items pairs) = pairs := by
  induction items, pairs using refillPairs.induct with
  | case1 pairs => exact (List.eq_nil_of_length_eq_zero h).symm
  | case2 op items pairs ih => exact ih h
  | case3 q items p pairs ih => exact congrArg (p :: ·) (ih (by simpa using h))
  | case4 p items ih => cases h

/-- Two lists in the order of their nonces are equal if they hold the same pairs, those of each
nonce in the same order: they begin with the same pair, the first of the least nonce. -/
theorem eq_of_ascend (hperm : sorted.Perm sorted')
    (hascend : sorted.Pairwise fun p q => p.write.nonce.toNat ≤ q.write.nonce.toNat)
    (hascend' : sorted'.Pairwise fun p q => p.write.nonce.toNat ≤ q.write.nonce.toNat)
    (hsame : ∀ nonce : Word,
      sorted.filter (·.write.nonce == nonce) = sorted'.filter (·.write.nonce == nonce)) :
    sorted = sorted' := by
  induction sorted generalizing sorted' with
  | nil => exact hperm.symm.eq_nil.symm
  | cons p ps ih =>
    cases sorted' with
    | nil => exact hperm.eq_nil
    | cons q qs =>
      have hle : p.write.nonce.toNat ≤ q.write.nonce.toNat := by
        rcases List.mem_cons.mp (hperm.mem_iff.mpr List.mem_cons_self) with heq | hin
        · rw [heq]
        · exact (List.pairwise_cons.mp hascend).1 q hin
      have hge : q.write.nonce.toNat ≤ p.write.nonce.toNat := by
        rcases List.mem_cons.mp (hperm.mem_iff.mp List.mem_cons_self) with heq | hin
        · rw [heq]
        · exact (List.pairwise_cons.mp hascend').1 p hin
      have hnonce : q.write.nonce = p.write.nonce := BitVec.eq_of_toNat_eq (by omega)
      have hfirst : p = q := by
        have hleast := hsame p.write.nonce
        simp only [List.filter_cons, hnonce, beq_self_eq_true, if_true] at hleast
        exact (List.cons.inj hleast).1
      subst hfirst
      have hrest : ∀ nonce : Word,
          ps.filter (·.write.nonce == nonce) = qs.filter (·.write.nonce == nonce) := by
        intro nonce
        have hfilter := hsame nonce
        by_cases hn : p.write.nonce = nonce <;> simpa [List.filter_cons, hn] using hfilter
      rw [ih hperm.cons_inv hascend.of_cons hascend'.of_cons hrest]

namespace StablySorted

theorem unique (h : StablySorted sorted pairs) (h' : StablySorted sorted' pairs) :
    sorted = sorted' :=
  eq_of_ascend (h.perm.trans h'.perm.symm) h.ascend h'.ascend fun nonce =>
    (h.stable nonce).trans (h'.stable nonce).symm

theorem mergeSort (pairs : List Pair) :
    StablySorted
      (pairs.mergeSort fun p q => decide (p.write.nonce.toNat ≤ q.write.nonce.toNat)) pairs := by
  let le : Pair → Pair → Bool := fun p q => decide (p.write.nonce.toNat ≤ q.write.nonce.toNat)
  have htrans : ∀ p q t, le p q = true → le q t = true → le p t = true := by grind
  have htotal : ∀ p q, (le p q || le q p) = true := by grind
  have hperm : (pairs.mergeSort le).Perm pairs := List.mergeSort_perm pairs le
  refine ⟨hperm, (List.pairwise_mergeSort htrans htotal pairs).imp of_decide_eq_true, ?_⟩
  intro nonce
  -- The pairs of one nonce are in order as they stand, so sorting keeps them as they stand.
  have hequal : (pairs.filter (·.write.nonce == nonce)).Pairwise fun p q => le p q = true := by
    refine List.pairwise_of_forall_mem_list fun p hp q hq => ?_
    simp only [List.mem_filter, beq_iff_eq] at hp hq
    simp [le, hp.2, hq.2]
  have hkept : (pairs.filter (·.write.nonce == nonce)).Sublist
      ((pairs.mergeSort le).filter (·.write.nonce == nonce)) := by
    simpa using (List.sublist_mergeSort htrans htotal hequal List.filter_sublist).filter
      (·.write.nonce == nonce)
  exact (hkept.eq_of_length (hperm.filter _).length_eq.symm).symm

/-- Pairs of different nonces are sorted alike, however they stood. -/
theorem eq_of_perm (h : StablySorted sorted pairs) (hperm : sorted'.Perm pairs)
    (hascend : sorted'.Pairwise fun p q => p.write.nonce.toNat ≤ q.write.nonce.toNat)
    (hdiffer : (pairs.map (·.write.nonce)).Nodup) : sorted' = sorted := by
  refine (hperm.trans h.perm.symm).eq_of_pairwise ?_ hascend h.ascend
  intro p q hp hq hle hge
  have hnonce : p.write.nonce = q.write.nonce := BitVec.eq_of_toNat_eq (by omega)
  exact List.inj_on_of_nodup_map hdiffer (hperm.subset hp) (h.perm.subset hq) hnonce

end StablySorted

theorem places_orderPairs (items : List BundleItem) :
    (orderPairs items).map BundleItem.single? = items.map BundleItem.single? :=
  map_single?_refillPairs _ _

theorem stablySorted_orderPairs (items : List BundleItem) :
    StablySorted (pairsOf (orderPairs items)) (pairsOf items) := by
  have hpairs : pairsOf (orderPairs items) = (pairsOf items).mergeSort fun p q =>
      decide (p.write.nonce.toNat ≤ q.write.nonce.toNat) :=
    pairsOf_refillPairs (List.length_mergeSort _)
  rw [hpairs]
  exact .mergeSort (pairsOf items)

theorem orderPairs_perm (items : List BundleItem) : (orderPairs items).Perm items :=
  perm_of_places (places_orderPairs items) (stablySorted_orderPairs items).perm

theorem orderPairs_idem (items : List BundleItem) :
    orderPairs (orderPairs items) = orderPairs items := by
  have hsorted := stablySorted_orderPairs items
  have hself : StablySorted (pairsOf (orderPairs items)) (pairsOf (orderPairs items)) :=
    ⟨.refl _, hsorted.ascend, fun _ => rfl⟩
  exact eq_of_places (places_orderPairs _)
    ((stablySorted_orderPairs (orderPairs items)).unique hself)

theorem orderPairs_eq_of_differ
    (hplaces : items'.map BundleItem.single? = items.map BundleItem.single?)
    (hperm : (pairsOf items').Perm (pairsOf items))
    (hdiffer : ((pairsOf items).map (·.write.nonce)).Nodup) :
    orderPairs items' = orderPairs items := by
  have hsorted' := stablySorted_orderPairs items'
  refine eq_of_places ?_ ?_
  · rw [places_orderPairs, places_orderPairs, hplaces]
  · exact (stablySorted_orderPairs items).eq_of_perm (hsorted'.perm.trans hperm) hsorted'.ascend
      hdiffer

/-- Ordering keeps every place: operations by themselves stay where they are, and pairs take the
places of pairs. There they stand, from left to right, in the one order that a stable sort by nonce
gives them. Ordering again changes nothing; and pairs of different nonces end up alike from
whichever of their places they come. -/
theorem orderPairs_exactly (items : List BundleItem) :
    (orderPairs items).length = items.length ∧
    (∀ (i : Nat) (op : Operation),
      (orderPairs items)[i]? = some (.single op) ↔ items[i]? = some (.single op)) ∧
    (∀ i : Nat,
      (∃ p, (orderPairs items)[i]? = some (.pair p)) ↔ ∃ p, items[i]? = some (.pair p)) ∧
    (∀ sorted, StablySorted sorted (pairsOf items) ↔ pairsOf (orderPairs items) = sorted) ∧
    orderPairs (orderPairs items) = orderPairs items ∧
    ∀ items' : List BundleItem,
      items'.map BundleItem.single? = items.map BundleItem.single? →
      (pairsOf items').Perm (pairsOf items) → ((pairsOf items).map (·.write.nonce)).Nodup →
      orderPairs items' = orderPairs items := by
  have hsorted := stablySorted_orderPairs items
  refine ⟨(orderPairs_perm items).length_eq, ?_, ?_, ?_, orderPairs_idem items, ?_⟩
  · intro i op
    rw [getElem?_single_iff, getElem?_single_iff, places_orderPairs]
  · intro i
    rw [getElem?_pair_iff, getElem?_pair_iff, places_orderPairs]
  · intro sorted
    constructor
    · exact hsorted.unique
    · rintro rfl
      exact hsorted
  · intro items' hplaces hperm hdiffer
    exact orderPairs_eq_of_differ hplaces hperm hdiffer

/-- The pairs of a list in other places of pairs, and in the end in the same ones. -/
theorem Sample.rearranged_alike :
    let rearranged : List BundleItem :=
      [.pair (cachePair 10), .single bystander, .pair (cachePair 8), .pair (cachePair 7)]
    rearranged.map BundleItem.single? = unsorted.map BundleItem.single? ∧
      (pairsOf rearranged).Perm (pairsOf unsorted) ∧
      ((pairsOf unsorted).map (·.write.nonce)).Nodup ∧
      orderPairs rearranged = orderPairs unsorted := by
  intro rearranged
  have hplaces : rearranged.map BundleItem.single? = unsorted.map BundleItem.single? := rfl
  have hperm : (pairsOf rearranged).Perm (pairsOf unsorted) := by decide +kernel
  have hdiffer : ((pairsOf unsorted).map (·.write.nonce)).Nodup := by decide
  obtain ⟨-, -, -, -, -, harrival⟩ := orderPairs_exactly unsorted
  exact ⟨hplaces, hperm, hdiffer, harrival rearranged hplaces hperm hdiffer⟩

end ComputeRelay
