import ComputeRelay.Json.Lemmas

/-! The order of members does not count. Two values are rearranged when they differ in the order of
members only, in any of their objects; a reader of records gives the same result for both if the
readers of its members do. A written record may also leave out members that have a default. -/

namespace ComputeRelay.Json

/-- The members of any objects in the value stand in another order. -/
inductive Rearranged : Json → Json → Prop
  | refl (v : Json) : Rearranged v v
  | trans {u v w : Json} : Rearranged u v → Rearranged v w → Rearranged u w
  | object {ms ns : List (String × Json)} : ms.Perm ns → Rearranged (.object ms) (.object ns)
  | member {before after : List (String × Json)} {name : String} {v w : Json} : Rearranged v w →
      Rearranged (.object (before ++ (name, v) :: after)) (.object (before ++ (name, w) :: after))
  | item {before after : List Json} {v w : Json} : Rearranged v w →
      Rearranged (.array (before ++ v :: after)) (.array (before ++ w :: after))

/-- The reader does not look at the order of members. -/
def Orderless {α : Type} (read : Json → Option α) : Prop :=
  ∀ ⦃v w : Json⦄, Rearranged v w → read v = read w

namespace Orderless

variable {α β : Type} {read : Json → Option α}

theorem of_flat (harray : ∀ items, read (.array items) = none)
    (hobject : ∀ members, read (.object members) = none) : Orderless read := by
  intro v w h
  induction h with
  | refl v => rfl
  | trans _ _ ih ih' => exact ih.trans ih'
  | object _ => rw [hobject, hobject]
  | member _ _ => rw [hobject, hobject]
  | item _ _ => rw [harray, harray]

theorem comp (h : Orderless read) (f : Option α → Option β) : Orderless fun v => f (read v) :=
  fun _ _ hvw => congrArg f (h hvw)

theorem bool : Orderless bool? := of_flat (fun _ => rfl) fun _ => rfl

theorem text : Orderless text? := of_flat (fun _ => rfl) fun _ => rfl

theorem nat64 : Orderless nat64? := of_flat (fun _ => rfl) fun _ => rfl

theorem uint64 : Orderless uint64? := nat64.comp _

theorem word : Orderless word? := of_flat (fun _ => rfl) fun _ => rfl

theorem byte : Orderless byte? := nat64.comp fun n => (n.filter _).map _

theorem bytes : Orderless bytes? := by
  intro v w h
  induction h with
  | refl v => rfl
  | trans _ _ ih ih' => exact ih.trans ih'
  | object _ => rfl
  | member _ _ => rfl
  | item h _ =>
    simp only [bytes?, List.mapM_append, List.mapM_cons, byte h]

theorem sizedBytes (size : Nat) : Orderless (sizedBytes? size) := bytes.comp _

theorem address : Orderless address? := (sizedBytes 20).comp _

theorem hash : Orderless hash? := (sizedBytes 32).comp _

end Orderless

theorem rel_refl {α : Type} {r : α → α → Prop} (hr : ∀ a, r a a) (x : Option α) : x.Rel r x := by
  cases x with
  | none => exact .none
  | some a => exact .some (hr a)

theorem rel_trans {α : Type} {r : α → α → Prop} (hr : ∀ {a b c}, r a b → r b c → r a c)
    {x y z : Option α} (h : x.Rel r y) (h' : y.Rel r z) : x.Rel r z := by
  cases h with
  | none => exact h'
  | some hab =>
    cases h' with
    | some hbc => exact .some (hr hab hbc)

namespace Slots

/-- Each member has the same value in both, up to a rearrangement. -/
def Alike (s t : Slots) : Prop :=
  ∀ name, (s.lookup name).Rel Rearranged (t.lookup name)

namespace Alike

variable {s t u : Slots} {v w : Json}

theorem refl (s : Slots) : Alike s s := fun _ => rel_refl .refl _

theorem trans (h : Alike s t) (h' : Alike t u) : Alike s u :=
  fun name => rel_trans .trans (h name) (h' name)

theorem cons (name : String) (hvw : Rearranged v w) (h : Alike s t) :
    Alike ((name, v) :: s) ((name, w) :: t) := by
  intro asked
  by_cases hname : asked = name
  · subst hname
    rw [List.lookup_cons_self, List.lookup_cons_self]
    exact .some hvw
  · rw [List.lookup_cons, List.lookup_cons, beq_false_of_ne hname]
    exact h asked

theorem append_left (before : Slots) (h : Alike s t) : Alike (before ++ s) (before ++ t) := by
  induction before with
  | nil => exact h
  | cons m before ih => exact cons m.1 (.refl m.2) ih

theorem of_perm (once : (s.map Prod.fst).Nodup) (h : s.Perm t) : Alike s t := by
  have once' : (t.map Prod.fst).Nodup := (h.map Prod.fst).nodup_iff.mp once
  intro name
  have hlookup : s.lookup name = t.lookup name := by
    ext v
    rw [lookup_eq_some_iff once, lookup_eq_some_iff once', h.mem_iff]
  rw [hlookup]
  exact refl t name

theorem zip (fields : List String) {before after : List Json} (h : Rearranged v w) :
    Alike (fields.zip (before ++ v :: after)) (fields.zip (before ++ w :: after)) := by
  induction before generalizing fields with
  | nil =>
    cases fields with
    | nil => exact refl _
    | cons name fields => exact cons name h (refl _)
  | cons u before ih =>
    cases fields with
    | nil => exact refl _
    | cons name fields => exact cons name (.refl u) (ih fields)

variable {α : Type} {read : Json → Option α}

theorem required? (h : Alike s t) (hread : Orderless read) (name : String) :
    s.required? name read = t.required? name read := by
  have hname := h name
  rw [Slots.required?, Slots.required?]
  generalize s.lookup name = v at hname
  generalize t.lookup name = w at hname
  cases hname with
  | none => rfl
  | some hvw => exact hread hvw

theorem optional? (h : Alike s t) (hread : Orderless read) (name : String) (default : α) :
    s.optional? name read default = t.optional? name read default := by
  have hname := h name
  rw [Slots.optional?, Slots.optional?]
  generalize s.lookup name = v at hname
  generalize t.lookup name = w at hname
  cases hname with
  | none => rfl
  | some hvw => exact hread hvw

end Alike

end Slots

namespace Shape

variable {shape : Shape}

/-- The members of an object that the shape declares. -/
def known (shape : Shape) (members : Slots) : Slots :=
  members.filter fun m => shape.fields.contains m.1

theorem known_append (shape : Shape) (ms ns : Slots) :
    shape.known (ms ++ ns) = shape.known ms ++ shape.known ns :=
  List.filter_append ..

theorem known_cons (shape : Shape) (name : String) (v : Json) (ms : Slots) :
    shape.known ((name, v) :: ms) =
      if shape.fields.contains name then (name, v) :: shape.known ms else shape.known ms :=
  List.filter_cons

theorem slots?_object (shape : Shape) (members : Slots) : shape.slots? (.object members) =
    if (shape.closed && (shape.known members).length != members.length) ||
      !((shape.known members).map Prod.fst).Nodup then none else some (shape.known members) :=
  rfl

theorem slots?_object_alike {ms ns : Slots} (hlength : ms.length = ns.length)
    (hnames : ((shape.known ms).map Prod.fst).Perm ((shape.known ns).map Prod.fst))
    (halike : ((shape.known ms).map Prod.fst).Nodup → (shape.known ms).Alike (shape.known ns)) :
    (shape.slots? (.object ms)).Rel Slots.Alike (shape.slots? (.object ns)) := by
  have hcount : (shape.known ms).length = (shape.known ns).length := by
    simpa only [List.length_map] using hnames.length_eq
  have honce : decide ((shape.known ms).map Prod.fst).Nodup =
      decide ((shape.known ns).map Prod.fst).Nodup := decide_eq_decide.mpr hnames.nodup_iff
  rw [slots?_object, slots?_object, hlength, hcount, honce]
  split
  · exact .none
  · rename_i haccepted
    simp only [Bool.or_eq_true, Bool.not_eq_true', decide_eq_false_iff_not, not_or, not_not]
      at haccepted
    exact .some (halike (hnames.nodup_iff.mpr haccepted.2))

theorem slots?_alike (shape : Shape) {v w : Json} (h : Rearranged v w) :
    (shape.slots? v).Rel Slots.Alike (shape.slots? w) := by
  induction h with
  | refl v => exact rel_refl .refl _
  | trans _ _ ih ih' => exact rel_trans .trans ih ih'
  | object hperm =>
    have hknown := hperm.filter fun m => shape.fields.contains m.1
    exact slots?_object_alike hperm.length_eq (hknown.map Prod.fst)
      fun once => .of_perm once hknown
  | @member before after name v w h _ =>
    by_cases hname : shape.fields.contains name
    · refine slots?_object_alike (by simp) ?_ fun _ => ?_ <;>
        rw [known_append, known_append, known_cons, known_cons, if_pos hname, if_pos hname]
      · rw [List.map_append, List.map_append, List.map_cons, List.map_cons]
      · exact .append_left _ (.cons name h (.refl _))
    · have hsame : shape.known (before ++ (name, v) :: after) =
          shape.known (before ++ (name, w) :: after) := by
        rw [known_append, known_append, known_cons, known_cons, if_neg hname, if_neg hname]
      refine slots?_object_alike (by simp) ?_ fun _ => ?_
      · rw [hsame]
      · rw [hsame]
        exact .refl _
  | @item before after v w h _ =>
    have hlength : (before ++ v :: after).length = (before ++ w :: after).length := by simp
    rw [slots?, slots?, hlength]
    split
    · exact .some (.zip shape.fields h)
    · exact .none

/-- A reader of a record that looks up members by their names does not look at their order. -/
theorem orderless_bind {α : Type} (shape : Shape) {build : Slots → Option α}
    (h : ∀ {s t : Slots}, s.Alike t → build s = build t) :
    Orderless fun v => (shape.slots? v).bind build := by
  intro v w hvw
  show (shape.slots? v).bind build = (shape.slots? w).bind build
  have halike := shape.slots?_alike hvw
  generalize shape.slots? v = s at halike
  generalize shape.slots? w = t at halike
  cases halike with
  | none => rfl
  | some hst => exact h hst

end Shape

namespace Slots

variable {s : Slots} {names : List String} {name : String} {v : Json} {α β : Type}
  {read : Json → Option α} {build : α → Option β} {a : α} {b : β}

def without (s : Slots) (names : List String) : Slots := s.filter fun m => !names.contains m.1

theorem without_nil (s : Slots) : s.without [] = s := List.filter_eq_self.mpr fun _ _ => rfl

theorem without_without (s : Slots) (names more : List String) :
    (s.without names).without more = s.without (names ++ more) := by
  rw [without, without, without, List.filter_filter]
  refine List.filter_congr fun m _ => ?_
  rw [List.contains_append, Bool.not_or, Bool.and_comm]

theorem without_sublist (s : Slots) (names : List String) : (s.without names).Sublist s :=
  List.filter_sublist

theorem lookup_without_of_mem (h : name ∈ names) : (s.without names).lookup name = none := by
  rw [lookup_eq_none_iff]
  intro v hv
  have hkept := (List.mem_filter.mp hv).2
  simp [h] at hkept

theorem lookup_without_of_not_mem (h : name ∉ names) :
    (s.without names).lookup name = s.lookup name := by
  induction s with
  | nil => rfl
  | cons m s ih =>
    obtain ⟨other, v⟩ := m
    by_cases hname : name = other
    · subst hname
      have hkept : Slots.without ((name, v) :: s) names = (name, v) :: Slots.without s names :=
        List.filter_cons_of_pos (by simpa using h)
      rw [hkept, List.lookup_cons_self, List.lookup_cons_self]
    · rw [List.lookup_cons, beq_false_of_ne hname, ← ih, without, List.filter_cons]
      split
      · rw [List.lookup_cons, beq_false_of_ne hname, without]
      · rfl

@[simp] theorem required?_cons (name other : String) (v : Json) (s : Slots) :
    Slots.required? ((other, v) :: s) name read =
      if name = other then read v else s.required? name read := by
  rw [required?, required?, List.lookup_cons]
  by_cases h : name = other
  · rw [if_pos h, h, beq_self_eq_true]
    rfl
  · rw [if_neg h, beq_false_of_ne h]

theorem required?_without (hmember : s.lookup name = some v) (hread : read v = some a)
    (hkept : name ∉ names) : (s.without names).required? name read = some a := by
  rw [required?, lookup_without_of_not_mem hkept, hmember]
  exact hread

/-- A member may be left out when its value is the default. -/
theorem optional?_without {default : α} (hmember : s.lookup name = some v)
    (hread : read v = some a) (homitted : name ∈ names → a = default) :
    (s.without names).optional? name read default = some a := by
  rw [optional?]
  by_cases h : name ∈ names
  · rw [lookup_without_of_mem h, homitted h]
  · rw [lookup_without_of_not_mem h, hmember]
    exact hread

theorem required?_without_bind (hmember : s.lookup name = some v) (hread : read v = some a)
    (hkept : name ∉ names) (hbuild : build a = some b) :
    ((s.without names).required? name read).bind build = some b := by
  rw [required?_without hmember hread hkept]
  exact hbuild

theorem optional?_without_bind {default : α} (hmember : s.lookup name = some v)
    (hread : read v = some a) (homitted : name ∈ names → a = default) (hbuild : build a = some b) :
    ((s.without names).optional? name read default).bind build = some b := by
  rw [optional?_without hmember hread homitted]
  exact hbuild

end Slots

def without (names : List String) : Json → Json
  | .object members => .object (Slots.without members names)
  | v => v

theorem without_nil (v : Json) : v.without [] = v := by
  cases v with
  | object members => rw [without, Slots.without_nil]
  | _ => rfl

theorem without_without (v : Json) (names more : List String) :
    (v.without names).without more = v.without (names ++ more) := by
  cases v with
  | object members => rw [without, without, without, Slots.without_without]
  | _ => rfl

theorem Rearranged.without (names : List String) {v w : Json} (h : Rearranged v w) :
    Rearranged (v.without names) (w.without names) := by
  induction h with
  | refl v => exact .refl _
  | trans _ _ ih ih' => exact ih.trans ih'
  | object hperm => exact .object (hperm.filter _)
  | @member before after name v w h _ =>
    rw [Json.without, Json.without, Slots.without, Slots.without, List.filter_append,
      List.filter_append, List.filter_cons, List.filter_cons]
    by_cases hname : (!names.contains name) = true
    · rw [if_pos hname, if_pos hname]
      exact .member h
    · rw [if_neg hname, if_neg hname]
      exact .refl _
  | item h _ => exact .item h

/-- What a written value may be restated as: the members of any of its objects may be rearranged,
and those of its own members left out that may be, in any number of steps. -/
inductive Restated (mayOmit : String → Prop) (written : Json) : Json → Prop
  | same : Restated mayOmit written written
  | rearranged {v w : Json} : Restated mayOmit written v → Rearranged v w →
      Restated mayOmit written w
  | omitted {v : Json} {names : List String} : Restated mayOmit written v →
      (∀ name ∈ names, mayOmit name) → Restated mayOmit written (v.without names)

namespace Restated

variable {mayOmit : String → Prop} {written v : Json}

theorem exists_names (h : Restated mayOmit written v) :
    ∃ names, (∀ name ∈ names, mayOmit name) ∧ Rearranged (written.without names) v := by
  induction h with
  | same => exact ⟨[], List.forall_mem_nil _, by rw [without_nil]; exact .refl _⟩
  | rearranged _ hvw ih =>
    obtain ⟨names, hnames, hv⟩ := ih
    exact ⟨names, hnames, hv.trans hvw⟩
  | @omitted v more _ hmore ih =>
    obtain ⟨names, hnames, hv⟩ := ih
    refine ⟨names ++ more, List.forall_mem_append.mpr ⟨hnames, hmore⟩, ?_⟩
    rw [← without_without]
    exact hv.without more

/-- A reader that does not look at the order of members, and takes the defaults for those that may
be left out, reads every restatement like the written value. -/
theorem read_eq {α : Type} {read : Json → Option α} {a : α} (hread : Orderless read)
    (hwritten : ∀ names, (∀ name ∈ names, mayOmit name) → read (written.without names) = some a)
    (h : Restated mayOmit written v) : read v = some a := by
  obtain ⟨names, hnames, hv⟩ := h.exists_names
  rw [← hread hv]
  exact hwritten names hnames

end Restated

theorem Shape.slots?_without {shape : Shape} {members : Slots} (names : List String)
    (hfields : members.map Prod.fst = shape.fields) (once : shape.fields.Nodup) :
    shape.slots? ((Json.object members).without names) = some (members.without names) := by
  have hsub : ((members.without names).map Prod.fst).Sublist shape.fields := by
    rw [← hfields]
    exact (members.without_sublist names).map _
  have hknown : shape.known (members.without names) = members.without names :=
    List.filter_eq_self.mpr fun m hm => by
      simpa using hsub.subset (List.mem_map_of_mem hm)
  rw [Json.without, slots?_object, hknown, bne_self_eq_false, Bool.and_false, Bool.false_or,
    decide_eq_true (once.sublist hsub)]
  rfl

theorem Shape.slots?_written {shape : Shape} {members : Slots}
    (hfields : members.map Prod.fst = shape.fields) (once : shape.fields.Nodup) :
    shape.slots? (.object members) = some members := by
  have h := slots?_without [] hfields once
  rwa [without_nil, Slots.without_nil] at h

end ComputeRelay.Json
