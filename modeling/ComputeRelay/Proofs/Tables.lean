import ComputeRelay.Table
import Mathlib

/-! Laws of tables: what a look-up finds after rows are dropped, and that a table whose keys are
pairwise different stays one. -/

namespace ComputeRelay.Table

variable {κ : Type u} {ν : Type v} [DecidableEq κ]

theorem mem_keys_iff {t : Table κ ν} {k : κ} : k ∈ keys t ↔ ∃ v, get? t k = some v := by
  induction t with
  | nil => simp [keys, get?]
  | cons e rest ih =>
    obtain ⟨a, b⟩ := e
    simp only [keys, List.map_cons, List.mem_cons] at ih ⊢
    by_cases ha : a = k
    · simp [get?, ha]
    · simp [get?, ha, Ne.symm ha, ih]

theorem contains_eq_false_iff {t : Table κ ν} {k : κ} : contains t k = false ↔ get? t k = none := by
  simp [contains]

theorem get?_of_mem {t : Table κ ν} (hk : (keys t).Nodup) {k : κ} {v : ν} (h : (k, v) ∈ t) :
    get? t k = some v := by
  induction t with
  | nil => simp at h
  | cons e rest ih =>
    obtain ⟨a, b⟩ := e
    obtain ⟨ha, hr⟩ := List.nodup_cons.mp hk
    rcases List.mem_cons.mp h with he | hm
    · simp only [Prod.mk.injEq] at he
      simp [get?, he.1, he.2]
    · have hne : a ≠ k := fun he => ha (List.mem_map.mpr ⟨_, hm, he.symm⟩)
      simp [get?, hne, ih hr hm]

theorem get?_filter_keys (t : Table κ ν) (p : κ → Bool) (k : κ) :
    get? (t.filter fun e => p e.1) k = if p k then get? t k else none := by
  induction t with
  | nil => simp [get?]
  | cons e rest ih =>
    obtain ⟨a, b⟩ := e
    by_cases ha : a = k
    · subst a
      cases hp : p k
      · simpa [hp] using ih
      · simp [hp, get?]
    · cases hp : p a <;> simp [hp, get?, ha, ih]

omit [DecidableEq κ] in
theorem mem_keys_filter {t : Table κ ν} {p : κ → Bool} {k : κ} :
    k ∈ keys (t.filter fun e => p e.1) ↔ k ∈ keys t ∧ p k = true := by
  simp only [keys, List.mem_map, List.mem_filter]
  constructor
  · rintro ⟨e, ⟨he, hp⟩, rfl⟩
    exact ⟨⟨e, he, rfl⟩, hp⟩
  · rintro ⟨⟨e, he, rfl⟩, hp⟩
    exact ⟨e, ⟨he, hp⟩, rfl⟩

omit [DecidableEq κ] in
theorem nodup_keys_filter {t : Table κ ν} (p : κ × ν → Bool) (hk : (keys t).Nodup) :
    (keys (t.filter p)).Nodup :=
  hk.sublist (List.filter_sublist.map Prod.fst)

theorem keys_insert (t : Table κ ν) (k : κ) (v : ν) :
    keys (insert t k v) = if k ∈ keys t then keys t else keys t ++ [k] := by
  induction t with
  | nil => simp [insert, keys]
  | cons e rest ih =>
    obtain ⟨a, b⟩ := e
    by_cases ha : a = k
    · simp [insert, keys, ha]
    · simp only [keys] at ih
      by_cases hm : k ∈ rest.map Prod.fst
      · simp only [hm, if_true] at ih
        simp [insert, keys, ha, Ne.symm ha, ih, hm]
      · simp only [hm, if_false] at ih
        simp [insert, keys, ha, Ne.symm ha, ih, hm]

theorem insert_of_not_mem {t : Table κ ν} {k : κ} (hk : k ∉ keys t) (v : ν) :
    insert t k v = t ++ [(k, v)] := by
  induction t with
  | nil => rfl
  | cons e rest ih =>
    obtain ⟨a, b⟩ := e
    have hne : a ≠ k := fun he => hk (List.mem_map.mpr ⟨_, List.mem_cons_self, he⟩)
    have hrest : k ∉ keys rest := fun hm => hk (List.mem_cons_of_mem _ hm)
    simp [insert, hne, ih hrest]

theorem mem_keys_insert {t : Table κ ν} {k k' : κ} {v : ν} :
    k' ∈ keys (insert t k v) ↔ k' = k ∨ k' ∈ keys t := by
  rw [keys_insert]
  split
  · rename_i hm
    exact ⟨.inr, fun h => h.elim (fun he => he ▸ hm) id⟩
  · simp [or_comm]

theorem nodup_keys_insert {t : Table κ ν} (k : κ) (v : ν) (hk : (keys t).Nodup) :
    (keys (insert t k v)).Nodup := by
  rw [keys_insert]
  split
  · exact hk
  · rename_i hm
    exact List.nodup_append.mpr ⟨hk, List.nodup_singleton _, by
      intro a ha b hb
      rw [List.mem_singleton.mp hb]
      exact fun he => hm (he ▸ ha)⟩

theorem insert_insert (t : Table κ ν) (k : κ) (v v' : ν) :
    insert (insert t k v) k v' = insert t k v' := by
  induction t with
  | nil => simp [insert]
  | cons e rest ih =>
    obtain ⟨a, b⟩ := e
    by_cases h : a = k <;> simp [insert, h, ih]

theorem insert_of_get? {t : Table κ ν} {k : κ} {v : ν} (h : get? t k = some v) :
    insert t k v = t := by
  induction t with
  | nil => cases h
  | cons e rest ih =>
    obtain ⟨k', v'⟩ := e
    by_cases heq : k' = k
    · simp only [get?, if_pos heq, Option.some.injEq] at h
      simp [insert, heq, h]
    · simp only [get?, if_neg heq] at h
      simp [insert, heq, ih h]

theorem erase_insert (t : Table κ ν) (k : κ) (v : ν) : erase (insert t k v) k = erase t k := by
  induction t with
  | nil => simp [insert, erase]
  | cons e rest ih =>
    obtain ⟨a, b⟩ := e
    simp only [erase] at ih ⊢
    by_cases h : a = k <;> simp [insert, h, ih]

theorem mem_of_mem_insert {t : Table κ ν} {k : κ} {v : ν} {e : κ × ν} (h : e ∈ insert t k v) :
    e = (k, v) ∨ e ∈ t := by
  induction t with
  | nil => simpa [insert] using h
  | cons e' rest ih =>
    obtain ⟨a, b⟩ := e'
    by_cases ha : a = k
    · simp only [insert, ha, if_true, List.mem_cons] at h
      exact h.imp_right (List.mem_cons_of_mem _)
    · simp only [insert, ha, if_false, List.mem_cons] at h
      rcases h with he | hm
      · exact .inr (List.mem_cons.mpr (.inl he))
      · exact (ih hm).imp_right (List.mem_cons_of_mem _)

theorem mem_insert_of_ne {t : Table κ ν} {k k' : κ} {v v' : ν} (h : (k', v') ∈ t) (hne : k' ≠ k) :
    (k', v') ∈ insert t k v := by
  induction t with
  | nil => simp at h
  | cons e rest ih =>
    obtain ⟨a, b⟩ := e
    by_cases ha : a = k
    · rcases List.mem_cons.mp h with he | hm
      · exact absurd ((Prod.mk.inj he).1.trans ha) hne
      · simp [insert, ha, hm]
    · rcases List.mem_cons.mp h with he | hm
      · simp [insert, ha, he]
      · simp [insert, ha, ih hm]

/-- Rows that are related pairwise, and each to a new row, stay related when it is put in. -/
theorem pairwise_insert {R : κ × ν → κ × ν → Prop} (hsymm : ∀ a b, R a b → R b a)
    {t : Table κ ν} {k : κ} {v : ν} (hnew : ∀ e ∈ t, R e (k, v)) (h : t.Pairwise R) :
    (insert t k v).Pairwise R := by
  induction t with
  | nil => simp [insert]
  | cons e rest ih =>
    obtain ⟨a, b⟩ := e
    obtain ⟨hhead, htail⟩ := List.pairwise_cons.mp h
    have hrest : ∀ e ∈ rest, R e (k, v) := fun e he => hnew e (List.mem_cons_of_mem _ he)
    by_cases ha : a = k
    · simp only [insert, ha, if_true]
      exact List.pairwise_cons.mpr ⟨fun e he => hsymm _ _ (hrest e he), htail⟩
    · simp only [insert, ha, if_false]
      refine List.pairwise_cons.mpr ⟨?_, ih hrest htail⟩
      intro e he
      rcases mem_of_mem_insert he with rfl | hm
      · exact hnew _ (List.mem_cons.mpr (.inl rfl))
      · exact hhead e hm

/-- What two rows of one key agree on stays the same when one replaces the other. -/
theorem map_insert {β : Type w} (g : κ × ν → β) {t : Table κ ν} (hk : (keys t).Nodup) {k : κ}
    {v v' : ν} (hmem : (k, v) ∈ t) (hg : g (k, v') = g (k, v)) :
    (insert t k v').map g = t.map g := by
  induction t with
  | nil => simp at hmem
  | cons e rest ih =>
    obtain ⟨a, b⟩ := e
    obtain ⟨ha, hr⟩ := List.nodup_cons.mp hk
    rcases List.mem_cons.mp hmem with he | hm
    · obtain ⟨rfl, rfl⟩ := Prod.mk.inj he
      simp [insert, hg]
    · have hne : a ≠ k := fun he => ha (List.mem_map.mpr ⟨_, hm, he.symm⟩)
      simp [insert, hne, ih hr hm]

end ComputeRelay.Table
