/-! Tables: keys with one value each, in the order in which the keys came. -/

namespace ComputeRelay

abbrev Table (κ : Type u) (ν : Type v) := List (κ × ν)

namespace Table

variable {κ : Type u} {ν : Type v} [DecidableEq κ]

def get? (t : Table κ ν) (k : κ) : Option ν :=
  match t with
  | [] => none
  | (k', v) :: rest => if k' = k then some v else get? rest k

def contains (t : Table κ ν) (k : κ) : Bool := (get? t k).isSome

/-- Puts a value at its key's place, or at the end when the key is new. -/
def insert (t : Table κ ν) (k : κ) (v : ν) : Table κ ν :=
  match t with
  | [] => [(k, v)]
  | (k', v') :: rest => if k' = k then (k, v) :: rest else (k', v') :: insert rest k v

def erase (t : Table κ ν) (k : κ) : Table κ ν := t.filter fun e => !decide (e.1 = k)

def keys (t : Table κ ν) : List κ := t.map (·.1)

theorem mem_of_get? {t : Table κ ν} {k : κ} {v : ν} (h : get? t k = some v) : (k, v) ∈ t := by
  induction t with
  | nil => simp [get?] at h
  | cons e rest ih =>
    obtain ⟨a, b⟩ := e
    by_cases ha : a = k
    · simp only [get?, ha, if_true, Option.some.injEq] at h
      simp [ha, h]
    · simp only [get?, ha, if_false] at h
      exact List.mem_cons_of_mem _ (ih h)

theorem get?_insert (t : Table κ ν) (k k' : κ) (v : ν) :
    get? (insert t k v) k' = if k = k' then some v else get? t k' := by
  induction t with
  | nil => simp [insert, get?]
  | cons e rest ih =>
    obtain ⟨a, b⟩ := e
    by_cases h : a = k
    · subst h
      by_cases h' : a = k' <;> simp [insert, get?, h']
    · by_cases h' : a = k'
      · subst h'
        simp [insert, get?, h, Ne.symm h]
      · simp [insert, get?, h, h', ih]

theorem get?_insert_self (t : Table κ ν) (k : κ) (v : ν) : get? (insert t k v) k = some v := by
  rw [get?_insert, if_pos rfl]

theorem get?_erase (t : Table κ ν) (k k' : κ) :
    get? (erase t k) k' = if k = k' then none else get? t k' := by
  induction t with
  | nil => simp [erase, get?]
  | cons e rest ih =>
    obtain ⟨a, b⟩ := e
    simp only [erase] at ih
    by_cases h : a = k
    · subst h
      by_cases h' : a = k'
      · subst h'
        simpa [erase] using ih
      · simp [erase, get?, ih, h']
    · by_cases h' : a = k'
      · subst h'
        simp [erase, get?, h, Ne.symm h]
      · simp [erase, get?, h, h', ih]

end Table

end ComputeRelay
