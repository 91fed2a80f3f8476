import ComputeRelay.Proofs.PairOrder

/-! What becomes of every item when a bundle is filled. Each item is placed or deferred as its turn
comes, and which of the two depends on the items before it alone: on the operations they left, on
the pairs among them that were placed, and on whether one of these was deferred. -/

namespace ComputeRelay

/-- An item whose turn came, and whether it was placed. -/
structure Choice where
  item : BundleItem
  placed : Bool

def placedOf (choices : List Choice) : List BundleItem :=
  (choices.filter fun c => c.placed).map Choice.item

def deferredOf (choices : List Choice) : List BundleItem :=
  (choices.filter fun c => !c.placed).map Choice.item

/-- The items in turn, each with what an assembly does with it. -/
def Assembly.judge (a : Assembly) : List BundleItem → List Choice
  | [] => []
  | item :: items => ⟨item, a.accepts item⟩ :: (a.push item).judge items

/-- Behind the choices so far, an item has room for all its operations, and a pair carries the next
nonce with no pair deferred before it. -/
structure Choice.Fits (limit : Nat) (first : Word) (before : List Choice) (item : BundleItem) :
    Prop where
  room : (layOut (placedOf before)).length + item.size ≤ limit
  follows : ∀ p, item = .pair p → pairsOf (deferredOf before) = [] ∧
    p.write.nonce = first + BitVec.ofNat 256 (pairsOf (placedOf before)).length

variable {limit : Nat} {first : Word} {choices : List Choice} {items : List BundleItem}

@[simp] theorem placedOf_concat (choices : List Choice) (item : BundleItem) (placed : Bool) :
    placedOf (choices ++ [⟨item, placed⟩]) =
      if placed then placedOf choices ++ [item] else placedOf choices := by
  cases placed <;> simp [placedOf]

@[simp] theorem deferredOf_concat (choices : List Choice) (item : BundleItem) (placed : Bool) :
    deferredOf (choices ++ [⟨item, placed⟩]) =
      if placed then deferredOf choices else deferredOf choices ++ [item] := by
  cases placed <;> simp [deferredOf]

theorem length_layOut_singleton (item : BundleItem) : (layOut [item]).length = item.size := by
  cases item <;> rfl

theorem length_layOut_placedOf_le {before : List Choice} (h : before <+: choices) :
    (layOut (placedOf before)).length ≤ (layOut (placedOf choices)).length := by
  obtain ⟨rest, rfl⟩ := h
  simp [placedOf, layOut_append]

theorem Assembly.map_judge (a : Assembly) (items : List BundleItem) :
    (a.judge items).map Choice.item = items := by
  induction items generalizing a with
  | nil => rfl
  | cons item items ih => exact congrArg (item :: ·) (ih (a.push item))

/-- The bundle accounts for every choice: what was placed is laid out and fits, the rest is
deferred, all pairs behind a deferred one among them. -/
structure Assembly.Accounts (a : Assembly) (limit : Nat) (first : Word) (choices : List Choice) :
    Prop extends a.Holds first (placedOf choices) where
  maxOps : a.maxOps = limit
  room : a.bundle.ops.length ≤ limit
  deferred : a.bundle.deferred = deferredOf choices
  flagged : a.pairDeferred = !(pairsOf (deferredOf choices)).isEmpty
  pairs : pairsOf (choices.map Choice.item) =
    pairsOf (placedOf choices) ++ pairsOf (deferredOf choices)
  chosen : ∀ before item placed, before ++ [⟨item, placed⟩] <+: choices →
    (placed = true ↔ Choice.Fits limit first before item)

namespace Assembly

variable {a : Assembly}

theorem start_accounts (limit : Nat) (first : Word) :
    (start limit first).Accounts limit first [] :=
  { start_holds limit first with
    maxOps := rfl
    room := Nat.zero_le _
    deferred := rfl
    flagged := rfl
    pairs := rfl
    chosen := by simp }

theorem Accounts.accepts_iff (h : a.Accounts limit first choices) (item : BundleItem) :
    a.accepts item = true ↔ Choice.Fits limit first choices item := by
  have hroom : item.size ≤ a.remaining ↔
      (layOut (placedOf choices)).length + item.size ≤ limit := by
    have hfilled := h.room
    rw [remaining, h.maxOps, ← h.ops]
    omega
  cases item with
  | single op =>
    simp only [accepts, Bool.and_true, decide_eq_true_eq, hroom]
    exact ⟨fun room => ⟨room, by rintro p ⟨⟩⟩, fun fits => fits.room⟩
  | pair p =>
    simp only [accepts, Bool.and_eq_true, decide_eq_true_eq, beq_iff_eq, hroom, h.flagged, h.next,
      Bool.not_not, List.isEmpty_iff]
    constructor
    · rintro ⟨room, follows⟩
      exact ⟨room, by rintro _ ⟨⟩; exact follows⟩
    · exact fun fits => ⟨fits.room, fits.follows p rfl⟩

theorem Accounts.chosen_concat (h : a.Accounts limit first choices) (item : BundleItem) :
    ∀ before item' placed,
      before ++ [⟨item', placed⟩] <+: choices ++ [⟨item, a.accepts item⟩] →
        (placed = true ↔ Choice.Fits limit first before item') := by
  intro before item' placed hturn
  rcases List.prefix_concat_iff.mp hturn with hlast | hearlier
  · obtain ⟨rfl, hc⟩ := List.append_inj' hlast rfl
    obtain ⟨rfl, rfl⟩ : item' = item ∧ placed = a.accepts item := by simpa using hc
    exact h.accepts_iff item'
  · exact h.chosen before item' placed hearlier

theorem push_accounts (h : a.Accounts limit first choices) (item : BundleItem) :
    (a.push item).Accounts limit first (choices ++ [⟨item, a.accepts item⟩]) := by
  have hholds := push_holds h.toHolds item
  rw [← placedOf_concat] at hholds
  have hchosen := h.chosen_concat item
  have hfits := h.accepts_iff item
  cases haccepts : a.accepts item with
  | true =>
    rw [haccepts] at hholds hchosen
    obtain ⟨room, follows⟩ := hfits.mp haccepts
    have hops : (a.push item).bundle.ops.length ≤ limit := by
      rw [hholds.ops, placedOf_concat, if_pos rfl, layOut_append, List.length_append,
        length_layOut_singleton]
      exact room
    refine { hholds with
      maxOps := ?_, room := hops, deferred := ?_, flagged := ?_, pairs := ?_, chosen := hchosen }
    · cases item <;> simp [push, haccepts, h.maxOps]
    · cases item <;> simp [push, haccepts, h.deferred]
    · cases item <;> simp [push, haccepts, h.flagged]
    · cases item with
      | single op => simp [pairsOf_append, h.pairs]
      | pair p =>
        have hnone := (follows p rfl).1
        simp [pairsOf_append, h.pairs, hnone]
  | false =>
    rw [haccepts] at hholds hchosen
    refine { hholds with
      maxOps := ?_, room := ?_, deferred := ?_, flagged := ?_, pairs := ?_, chosen := hchosen }
    · simp [push, haccepts, h.maxOps]
    · simpa [push, haccepts] using h.room
    · simp [push, haccepts, h.deferred]
    · cases item <;> simp [push, haccepts, h.flagged, pairsOf_append, BundleItem.pair?]
    · simp [pairsOf_append, h.pairs]

theorem Accounts.pair_deferred (h : a.Accounts limit first choices) {before : List Choice}
    {p : Pair} (hturn : before ++ [⟨.pair p, false⟩] <+: choices)
    (hnone : pairsOf (deferredOf before) = []) :
    p.write.nonce ≠ first + BitVec.ofNat 256 (pairsOf (placedOf before)).length ∨
      limit < (layOut (placedOf before)).length + 2 := by
  by_contra! hfits
  have hplaced := (h.chosen before (.pair p) false hturn).mpr
    ⟨hfits.2, by rintro _ ⟨⟩; exact ⟨hnone, hfits.1⟩⟩
  cases hplaced

theorem Accounts.single_deferred (h : a.Accounts limit first choices) {before : List Choice}
    {op : Operation} (hturn : before ++ [⟨.single op, false⟩] <+: choices) :
    (layOut (placedOf before)).length = limit := by
  have hroom := h.room
  have hearlier := length_layOut_placedOf_le ((List.prefix_append _ _).trans hturn)
  rw [h.ops] at hroom
  by_contra hfree
  have hfits : Choice.Fits limit first before (.single op) :=
    ⟨show _ + 1 ≤ limit by omega, by rintro p ⟨⟩⟩
  cases (h.chosen before (.single op) false hturn).mpr hfits

theorem foldl_push_accounts (h : a.Accounts limit first choices) (items : List BundleItem) :
    (items.foldl push a).Accounts limit first (choices ++ a.judge items) := by
  induction items generalizing a choices with
  | nil => simpa [judge] using h
  | cons item items ih =>
    have hrest := ih (push_accounts h item)
    rwa [List.append_assoc] at hrest

end Assembly

/-- Filling a bundle loses no item and duplicates none. The items, with their pairs put in order,
take their turns; the placed ones are laid out in the bundle, no more of them than it may hold, and
all others are deferred. The placed pairs come first among the pairs and their nonces count up; the
first pair deferred carries another nonce or found less than two free places, and a single operation
is deferred only where none is free. -/
theorem assemble_accounts (maxOps : Nat) (next : Word) (items : List BundleItem) :
    let bundle := Bundle.assemble maxOps next items
    let choices := (Assembly.start maxOps next).judge (orderPairs items)
    let pairs := pairsOf (placedOf choices)
    (orderPairs items).Perm items ∧
      (pairsOf (orderPairs items)).Pairwise
        (fun p q => p.write.nonce.toNat ≤ q.write.nonce.toNat) ∧
      choices.map Choice.item = orderPairs items ∧
      bundle.ops = layOut (placedOf choices) ∧
      bundle.deferred = deferredOf choices ∧
      bundle.ops.length ≤ maxOps ∧
      pairsOf (orderPairs items) = pairs ++ pairsOf (deferredOf choices) ∧
      pairs.map (·.write.nonce) = noncesFrom next pairs.length ∧
      (∀ before p, before ++ [⟨.pair p, false⟩] <+: choices → pairsOf (deferredOf before) = [] →
        p.write.nonce ≠ next + BitVec.ofNat 256 (pairsOf (placedOf before)).length ∨
          maxOps < (layOut (placedOf before)).length + 2) ∧
      (∀ before op, before ++ [⟨.single op, false⟩] <+: choices →
        (layOut (placedOf before)).length = maxOps) ∧
      bundle.pairPositions = pairPositions 0 (placedOf choices) ∧
      bundle.pairPositions.map (fun i => (bundle.ops[i]?, bundle.ops[i + 1]?)) =
        pairs.map (fun p => (some p.write, some p.served)) ∧
      bundle.requestIds = pairs.map (·.requestId) := by
  have hrun := Assembly.foldl_push_accounts (Assembly.start_accounts maxOps next) (orderPairs items)
  rw [List.nil_append] at hrun
  intro bundle choices pairs
  have hitems : choices.map Choice.item = orderPairs items := Assembly.map_judge _ _
  have hmap := map_pairPositions [] (placedOf choices)
  rw [List.nil_append, ← hrun.ops] at hmap
  refine ⟨orderPairs_perm items, (stablySorted_orderPairs items).ascend, hitems, hrun.ops,
    hrun.deferred, hrun.room, ?_, hrun.nonces, fun _ _ => hrun.pair_deferred,
    fun _ _ => hrun.single_deferred, hrun.positions, ?_, hrun.requestIds⟩
  · rw [← hitems]
    exact hrun.pairs
  · exact (congrArg (List.map _) hrun.positions).trans hmap

end ComputeRelay
