import ComputeRelay.Json.Record
import Mathlib

/-! Records in JSON. What a closed record may be written as is said once, for objects and arrays,
and its members are then known by their names; how deep a record is nested follows from them. -/

namespace ComputeRelay.Json

/-- A closed record with these values: an object with its members and no other, each once and in
any order, or an array of its first values. -/
inductive Shape.Spells (shape : Shape) : Json → Slots → Prop
  | named {members : Slots} (known : ∀ m ∈ members, m.1 ∈ shape.fields)
      (once : (members.map Prod.fst).Nodup) : shape.Spells (.object members) members
  | listed {items : List Json} (fits : items.length ≤ shape.fields.length) :
      shape.Spells (.array items) (shape.fields.zip items)

namespace Shape

variable {shape : Shape} {v : Json} {slots : Slots}

theorem Spells.nodup (distinct : shape.fields.Nodup) (h : shape.Spells v slots) :
    (slots.map Prod.fst).Nodup := by
  cases h with
  | named _ once => exact once
  | listed fits =>
    rename_i items
    rw [List.zip_eq_zip_take_min, Nat.min_eq_right fits,
      List.map_fst_zip (by rw [List.length_take, List.length_take]; omega)]
    exact distinct.sublist (List.take_sublist _ _)

theorem Spells.known (h : shape.Spells v slots) {m : String × Json} (hm : m ∈ slots) :
    m.1 ∈ shape.fields := by
  cases h with
  | named known _ => exact known m hm
  | listed _ => exact (List.of_mem_zip hm).1

end Shape

namespace Slots

variable {slots : Slots} {name : String} {α : Type}

theorem lookup_eq_some_iff (once : (slots.map Prod.fst).Nodup) {v : Json} :
    slots.lookup name = some v ↔ (name, v) ∈ slots := by
  rw [List.lookup_eq_some_iff]
  constructor
  · rintro ⟨before, after, rfl, -⟩
    exact List.mem_append_right _ List.mem_cons_self
  · intro h
    obtain ⟨before, after, rfl⟩ := List.append_of_mem h
    refine ⟨before, after, rfl, ?_⟩
    intro m hm
    rw [List.map_append, List.map_cons, List.nodup_append] at once
    exact bne_iff_ne.mpr (Ne.symm (once.2.2 _ (List.mem_map_of_mem hm) _ List.mem_cons_self))

theorem lookup_eq_none_iff : slots.lookup name = none ↔ ∀ v, (name, v) ∉ slots := by
  rw [List.lookup_eq_none_iff]
  constructor
  · intro h v hv
    simpa using h _ hv
  · rintro h ⟨name', v⟩ hm
    refine bne_iff_ne.mpr ?_
    rintro rfl
    exact h v hm

/-- A member has one value. -/
theorem value_inj (once : (slots.map Prod.fst).Nodup) {v w : Json} (hv : (name, v) ∈ slots)
    (hw : (name, w) ∈ slots) : v = w :=
  Option.some.inj <| calc
    some v = slots.lookup name := ((lookup_eq_some_iff once).mpr hv).symm
    _ = some w := (lookup_eq_some_iff once).mpr hw

end Slots

/-- Every part of the value names something, and the parts are not nested deeper than this. -/
structure Plain (n : Nat) (v : Json) : Prop where
  clean : v.isClean = true
  shallow : v.depth ≤ n

namespace Plain

variable {n : Nat}

theorem foldl_max_le {depths : List Nat} {m : Nat} (hm : m ≤ n) (h : ∀ d ∈ depths, d ≤ n) :
    depths.foldl max m ≤ n := by
  induction depths generalizing m with
  | nil => exact hm
  | cons d depths ih =>
    obtain ⟨hd, hrest⟩ := List.forall_mem_cons.mp h
    exact ih (Nat.max_le.mpr ⟨hm, hd⟩) hrest

theorem array {items : List Json} (h : ∀ v ∈ items, v.Plain n) :
    (Json.array items).Plain (n + 1) where
  clean := by
    rw [isClean, List.all_eq_true]
    exact fun v _ => (h v.1 v.2).clean
  shallow := by
    rw [depth, Nat.add_comm]
    refine Nat.add_le_add_right (foldl_max_le (Nat.zero_le n) ?_) 1
    intro d hd
    obtain ⟨v, -, rfl⟩ := List.mem_map.mp hd
    exact (h v.1 v.2).shallow

theorem object {members : List (String × Json)} (h : ∀ m ∈ members, m.2.Plain n) :
    (Json.object members).Plain (n + 1) where
  clean := by
    rw [isClean, List.all_eq_true]
    exact fun m _ => (h m.1 m.2).clean
  shallow := by
    rw [depth, Nat.add_comm]
    refine Nat.add_le_add_right (foldl_max_le (Nat.zero_le n) ?_) 1
    intro d hd
    obtain ⟨m, -, rfl⟩ := List.mem_map.mp hd
    exact (h m.1 m.2).shallow

theorem of_spells {shape : Shape} {v : Json} {slots : Slots} (hv : shape.Spells v slots)
    (h : ∀ m ∈ slots, m.2.Plain n) : v.Plain (n + 1) := by
  cases hv with
  | named _ _ => exact object h
  | listed fits =>
    rename_i items
    refine array ?_
    intro v hv
    rw [← List.map_snd_zip fits] at hv
    obtain ⟨m, hm, rfl⟩ := List.mem_map.mp hv
    exact h m hm

theorem null : Json.null.Plain n := ⟨by simp [isClean], by simp [depth]⟩

theorem number (literal : String) : (Json.number literal).Plain n :=
  ⟨by simp [isClean], by simp [depth]⟩

theorem string (s : String) : (Json.string s).Plain n := ⟨by simp [isClean], by simp [depth]⟩

theorem of_bool? {v : Json} {b : Bool} (h : v.bool? = some b) : v.Plain n := by
  cases v with
  | bool b => exact ⟨by simp [isClean], by simp [depth]⟩
  | _ => cases h

theorem of_bytes? {v : Json} {bs : Bytes} (h : v.bytes? = some bs) : v.Plain (n + 1) := by
  cases v with
  | string s => exact string s
  | array items =>
    refine array ?_
    rw [bytes?] at h
    induction items generalizing bs with
    | nil => exact List.forall_mem_nil _
    | cons v items ih =>
      rw [List.mapM_cons, Option.bind_eq_bind, Option.bind_eq_some_iff] at h
      obtain ⟨b, hb, h⟩ := h
      obtain ⟨rest, hrest, -⟩ := Option.bind_eq_some_iff.mp h
      refine List.forall_mem_cons.mpr ⟨?_, ih hrest⟩
      cases v with
      | number literal => exact number literal
      | _ => cases hb
  | _ => cases h

end Plain

end ComputeRelay.Json
