import ComputeRelay.Json.Parser
import ComputeRelay.Json.Printer
import ComputeRelay.Json.Rearranged
import Mathlib

/-! The text of a value is read back as that value. Characters are escaped and read one by one;
digits end where the text of a value ends; and an array or an object is read item by item, with fuel
for every character of its text. -/

namespace ComputeRelay.Json

open Grammar

theorem hex4?_control {n : Nat} (h : n < 0x20) :
    hex4? '0' '0' (hexDigit (n / 16)) (hexDigit (n % 16)) = some n := by
  revert n
  decide

/-- One unit in front of those that are read from the rest. -/
theorem units_cons (unit : Nat) (x : Option (List Nat × List Char)) :
    (do let (units, rest) ← x; return (unit :: units, rest)) =
      x.map fun p => (unit :: p.1, p.2) := by
  cases x with
  | none => rfl
  | some p => rfl

theorem stringUnits?_escape (c : Char) (rest : List Char) :
    stringUnits? (escape c ++ rest) =
      (stringUnits? rest).map fun p => (c.toNat :: p.1, p.2) := by
  rw [← units_cons]
  unfold escape
  split
  · rfl
  · rfl
  · rfl
  · rfl
  · rfl
  · rfl
  · rfl
  · rename_i hquote hslash _ _ _ _ _
    split
    · rename_i hcontrol
      rw [List.cons_append, List.cons_append, List.cons_append, List.cons_append, List.cons_append,
        List.cons_append, List.nil_append, stringUnits?, hex4?_control hcontrol]
      rfl
    · rename_i hplain
      rw [List.singleton_append, stringUnits?]
      · rw [guard, if_pos ⟨by omega, hslash⟩]
        rfl
      · exact hquote
      · intro a b c' d rest' h
        exact absurd h hslash
      · intro e rest' h
        exact absurd h hslash

theorem stringUnits?_text (cs rest : List Char) :
    stringUnits? (cs.flatMap escape ++ '"' :: rest) = some (cs.map Char.toNat, rest) := by
  induction cs with
  | nil => rfl
  | cons c cs ih =>
    rw [List.flatMap_cons, List.append_assoc, stringUnits?_escape, ih]
    rfl

theorem joinSurrogates?_text (cs : List Char) : joinSurrogates? (cs.map Char.toNat) = some cs := by
  have halone (c : Char) : isHighSurrogate c.toNat = false ∧ isLowSurrogate c.toNat = false := by
    have hvalid : c.toNat < 0xd800 ∨ 0xdfff < c.toNat ∧ c.toNat < 0x110000 := c.valid
    simp only [isHighSurrogate, isLowSurrogate, decide_eq_false_iff_not]
    omega
  induction cs with
  | nil => rfl
  | cons c cs ih =>
    obtain ⟨hhigh, hlow⟩ := halone c
    cases cs with
    | nil =>
      rw [List.map_singleton, joinSurrogates?, hhigh, hlow, Char.ofNat_toNat]
      rfl
    | cons d cs =>
      rw [List.map_cons] at ih
      rw [List.map_cons, List.map_cons, joinSurrogates?, hhigh, hlow, ih, Char.ofNat_toNat]
      rfl

theorem stringBody?_text (s : String) (rest : List Char) :
    stringBody? (s.toList.flatMap escape ++ '"' :: rest) = some (some s, rest) := by
  simp only [stringBody?, stringUnits?_text, Option.map_some, joinSurrogates?_text,
    String.ofList_toList]

/-- What may stand behind a value. -/
def Ends (rest : List Char) : Prop := ∀ c ∈ rest.head?, c = ',' ∨ c = ']' ∨ c = '}'

theorem ends_nil : Ends [] := by
  intro c hc
  cases hc

theorem ends_cons {c : Char} (rest : List Char) (h : c = ',' ∨ c = ']' ∨ c = '}') :
    Ends (c :: rest) := by
  intro d hd
  obtain rfl := Option.some.inj hd
  exact h

theorem isDigit_toDigits {n : Nat} {c : Char} (hc : c ∈ Nat.toDigits 10 n) : isDigit c = true := by
  have h := Nat.isDigit_of_mem_toDigits (by decide) (by decide) hc
  simpa [isDigit, Char.isDigit, Char.le_def] using h

theorem isSpace_of_isDigit {c : Char} (h : isDigit c = true) : isSpace c = false := by
  by_contra hspace
  simp only [isSpace, Bool.not_eq_false, Bool.or_eq_true, beq_iff_eq] at hspace
  rcases hspace with ((rfl | rfl) | rfl) | rfl <;> cases h

theorem exists_digits (n : Nat) : ∃ d ds, Nat.toDigits 10 n = d :: ds ∧ isDigit d = true := by
  obtain ⟨d, ds, hds⟩ := List.exists_cons_of_ne_nil (Nat.toDigits_ne_nil (n := n) (b := 10))
  have hmem : d ∈ Nat.toDigits 10 n := by
    rw [hds]
    exact List.mem_cons_self
  exact ⟨d, ds, hds, isDigit_toDigits hmem⟩

theorem Ends.not_digit {rest : List Char} (h : Ends rest) :
    ∀ c ∈ rest.head?, isDigit c = false := by
  intro c hc
  rcases h c hc with rfl | rfl | rfl <;> rfl

theorem span_digits {ds rest : List Char} (hds : ∀ c ∈ ds, isDigit c = true) (hrest : Ends rest) :
    (ds ++ rest).span isDigit = (ds, rest) := by
  have hstop : rest.takeWhile isDigit = [] ∧ rest.dropWhile isDigit = rest := by
    cases rest with
    | nil => exact ⟨rfl, rfl⟩
    | cons c rest =>
      have hc := hrest.not_digit c rfl
      exact ⟨List.takeWhile_cons_of_neg (by simp [hc]), List.dropWhile_cons_of_neg (by simp [hc])⟩
  rw [List.span_eq_takeWhile_dropWhile, List.takeWhile_append_of_pos hds,
    List.dropWhile_append_of_pos hds, hstop.1, hstop.2, List.append_nil]

/-- The digits of a number other than zero do not start with a zero. -/
theorem head_toDigits {n : Nat} (hn : 0 < n) : ∀ c ∈ (Nat.toDigits 10 n).head?, c ≠ '0' := by
  induction n using Nat.strong_induction_on with
  | _ n ih =>
    by_cases hsmall : n < 10
    · have hdigit : ∀ d < 10, 0 < d → d.digitChar ≠ '0' := by decide
      rw [Nat.toDigits_of_lt_base hsmall]
      intro c hc
      obtain rfl := Option.some.inj hc
      exact hdigit n hsmall hn
    · have hrest := ih (n / 10) (by omega) (by omega)
      rw [Nat.toDigits_of_base_le (by decide) (by omega),
        List.head?_append_of_ne_nil _ Nat.toDigits_ne_nil]
      exact hrest

theorem integer?_toDigits (n : Nat) {rest : List Char} (hrest : Ends rest) :
    integer? (Nat.toDigits 10 n ++ rest) = some (Nat.toDigits 10 n, rest) := by
  rcases Nat.eq_zero_or_pos n with rfl | hn
  · rfl
  · have hspan : (Nat.toDigits 10 n ++ rest).span isDigit = (Nat.toDigits 10 n, rest) :=
      span_digits (fun c hc => isDigit_toDigits hc) hrest
    have hhead := head_toDigits hn
    obtain ⟨d, ds, hds, -⟩ := exists_digits n
    rw [hds] at hspan hhead ⊢
    rw [List.cons_append] at hspan ⊢
    rw [integer?, digits?, hspan]
    exact fun _ h => hhead d rfl (List.cons.inj h).1

theorem fraction?_ends {rest : List Char} (h : Ends rest) : fraction? rest = some ([], rest) := by
  cases rest with
  | nil => rfl
  | cons c rest => rcases h c rfl with rfl | rfl | rfl <;> rfl

theorem exponent?_ends {rest : List Char} (h : Ends rest) : exponent? rest = some ([], rest) := by
  match rest, h with
  | [], _ => rfl
  | [c], h => rcases h c rfl with rfl | rfl | rfl <;> rfl
  | c :: d :: rest, h => rcases h c rfl with rfl | rfl | rfl <;> rfl

theorem number?_toDigits (n : Nat) {rest : List Char} (hrest : Ends rest) :
    number? (Nat.toDigits 10 n ++ rest) = some (Nat.toDigits 10 n, rest) := by
  obtain ⟨d, ds, hds, hdigit⟩ := exists_digits n
  have hsign : d ≠ '-' := by
    rintro rfl
    cases hdigit
  have hinteger := integer?_toDigits n hrest
  have hstop : rest.head?.any isDigit = false := by
    cases rest with
    | nil => rfl
    | cons c rest => exact hrest.not_digit c rfl
  rw [hds, List.cons_append] at hinteger ⊢
  rw [number?]
  · simp [hinteger, fraction?_ends hrest, exponent?_ends hrest, hstop]
  · exact fun _ h => hsign (List.cons.inj h).1

/-- A value without garbled parts, whose numbers are natural ones in decimal digits. -/
inductive Printable : Json → Prop
  | null : Printable .null
  | bool (b : Bool) : Printable (.bool b)
  | number (n : Nat) : Printable (.number (toString n))
  | string (s : String) : Printable (.string s)
  | array {items : List Json} : (∀ v ∈ items, Printable v) → Printable (.array items)
  | object {members : List (String × Json)} : (∀ m ∈ members, Printable m.2) →
      Printable (.object members)

/-- The text of a value, as characters. -/
def chars (v : Json) : List Char := v.compact.toList

def memberChars (m : String × Json) : List Char := (quote m.1).toList ++ ':' :: m.2.chars

theorem toList_quote (s : String) :
    (quote s).toList = '"' :: (s.toList.flatMap escape ++ ['"']) := by
  rw [quote, String.toList_ofList]

theorem chars_number (n : Nat) : chars (.number (toString n)) = Nat.toDigits 10 n := by
  have htext : (toString n).toList = Nat.toDigits 10 n := Nat.toList_repr
  have hsign : (toString n == "-0") = false := by
    rw [beq_eq_false_iff_ne]
    intro h
    have hmem : '-' ∈ Nat.toDigits 10 n := by
      rw [← htext, h]
      decide
    cases isDigit_toDigits hmem
  rw [chars, compact, numberText, hsign]
  exact htext

theorem chars_array (items : List Json) :
    chars (.array items) = '[' :: ([','].intercalate (items.map chars) ++ [']']) := by
  have hitems : (items.attach.map fun x => compact x.1) = items.map compact :=
    List.attach_map_val
  have htext : (Json.array items).compact = "[" ++ ",".intercalate (items.map compact) ++ "]" := by
    rw [compact, ← hitems]
  rw [chars, htext, String.toList_append, String.toList_append, String.toList_intercalate,
    List.map_map]
  rfl

theorem chars_object (members : List (String × Json)) :
    chars (.object members) = '{' :: ([','].intercalate (members.map memberChars) ++ ['}']) := by
  have hmembers : (members.attach.map fun x => quote x.1.1 ++ ":" ++ compact x.1.2) =
      members.map fun m => quote m.1 ++ ":" ++ compact m.2 :=
    List.attach_map_val (f := fun m : String × Json => quote m.1 ++ ":" ++ compact m.2)
  have htext : (Json.object members).compact =
      "\x7b" ++ ",".intercalate (members.map fun m => quote m.1 ++ ":" ++ compact m.2) ++
        "\x7d" := by
    rw [compact, ← hmembers]
  have hmember : (members.map fun m => quote m.1 ++ ":" ++ compact m.2).map String.toList =
      members.map memberChars := by
    rw [List.map_map]
    refine List.map_congr_left fun m _ => ?_
    simp [memberChars, chars]
  rw [chars, htext, String.toList_append, String.toList_append, String.toList_intercalate, hmember]
  rfl

theorem skipSpaces_cons {c : Char} (h : isSpace c = false) (cs : List Char) :
    skipSpaces (c :: cs) = c :: cs :=
  List.dropWhile_cons_of_neg (by simp [h])

/-- The text of a value starts with a character of its own. -/
theorem Printable.head_chars {v : Json} (h : v.Printable) :
    ∃ c cs, v.chars = c :: cs ∧ isSpace c = false ∧ c ≠ ']' := by
  cases h with
  | null => exact ⟨'n', "ull".toList, by rw [chars, compact]; rfl, rfl, by decide⟩
  | bool b =>
    cases b with
    | false => exact ⟨'f', "alse".toList, by rw [chars, compact]; rfl, rfl, by decide⟩
    | true => exact ⟨'t', "rue".toList, by rw [chars, compact]; rfl, rfl, by decide⟩
  | number n =>
    obtain ⟨d, ds, hds, hdigit⟩ := exists_digits n
    refine ⟨d, ds, by rw [chars_number, hds], isSpace_of_isDigit hdigit, ?_⟩
    rintro rfl
    cases hdigit
  | string s => exact ⟨'"', _, by rw [chars, compact, toList_quote], rfl, by decide⟩
  | array _ => exact ⟨'[', _, chars_array _, rfl, by decide⟩
  | object _ => exact ⟨'{', _, chars_object _, rfl, by decide⟩

/-- The text of the value is read as the value, given enough fuel, up to what stands behind it. -/
def ReadsFromText (v : Json) : Prop :=
  ∀ (fuel : Nat) (rest : List Char), v.chars.length ≤ fuel → Ends rest →
    value? fuel (v.chars ++ rest) = some (v, rest)

theorem readsFromText_number (n : Nat) : ReadsFromText (.number (toString n)) := by
  intro fuel rest hfuel hrest
  rw [chars_number] at hfuel ⊢
  obtain ⟨d, ds, hds, hdigit⟩ := exists_digits n
  have hnumber := number?_toDigits n hrest
  have htext : String.ofList (d :: ds) = toString n := by
    rw [← hds, ← String.toList_inj, String.toList_ofList]
    exact Nat.toList_repr.symm
  rw [hds] at hfuel hnumber ⊢
  rw [List.cons_append] at hnumber ⊢
  cases fuel with
  | zero => cases hfuel
  | succ fuel =>
    rw [value?, skipSpaces_cons (isSpace_of_isDigit hdigit)]
    split
    case h_7 => simp only [hnumber, Option.map_some, htext]
    -- in the other cases the text would start with a character that is no digit
    all_goals
      rename_i h
      obtain ⟨rfl, -⟩ := List.cons.inj h
      cases hdigit

section

variable {v : Json} {m : String × Json} {fuel : Nat}

theorem items?_last (hv : ReadsFromText v) (hfuel : v.chars.length ≤ fuel) (rest : List Char) :
    Grammar.items? (fuel + 1) (v.chars ++ ']' :: rest) = some ([v], rest) := by
  have hvalue := hv fuel (']' :: rest) hfuel (ends_cons rest (.inr (.inl rfl)))
  simp (disch := decide) only [Grammar.items?, hvalue, Option.bind_eq_bind, Option.bind_some,
    skipSpaces_cons]
  rfl

theorem items?_more (hv : ReadsFromText v) (hfuel : v.chars.length ≤ fuel) (rest : List Char) :
    Grammar.items? (fuel + 1) (v.chars ++ ',' :: rest) =
      (Grammar.items? fuel rest).map fun p => (v :: p.1, p.2) := by
  have hvalue := hv fuel (',' :: rest) hfuel (ends_cons rest (.inl rfl))
  simp (disch := decide) only [Grammar.items?, hvalue, Option.bind_eq_bind, Option.bind_some,
    skipSpaces_cons]
  cases Grammar.items? fuel rest with
  | none => rfl
  | some p => rfl

theorem memberChars_append (m : String × Json) (rest : List Char) :
    memberChars m ++ rest =
      '"' :: (m.1.toList.flatMap escape ++ '"' :: ':' :: (m.2.chars ++ rest)) := by
  simp only [memberChars, toList_quote, List.cons_append, List.append_assoc, List.nil_append]

theorem length_chars_lt_memberChars (m : String × Json) :
    m.2.chars.length < (memberChars m).length := by
  rw [memberChars, List.length_append, List.length_cons]
  omega

theorem members?_last (hm : ReadsFromText m.2) (hfuel : (memberChars m).length ≤ fuel)
    (rest : List Char) :
    members? (fuel + 1) (memberChars m ++ '}' :: rest) = some ([m], true, rest) := by
  have hlength := length_chars_lt_memberChars m
  have hvalue := hm fuel ('}' :: rest) (by omega) (ends_cons rest (.inr (.inr rfl)))
  rw [memberChars_append]
  simp (disch := decide) only [members?, skipSpaces_cons, stringBody?_text, hvalue,
    Option.bind_eq_bind, Option.bind_some]
  rfl

theorem members?_more (hm : ReadsFromText m.2) (hfuel : (memberChars m).length ≤ fuel)
    (rest : List Char) :
    members? (fuel + 1) (memberChars m ++ ',' :: rest) =
      (members? fuel rest).map fun p => (m :: p.1, p.2.1, p.2.2) := by
  have hlength := length_chars_lt_memberChars m
  have hvalue := hm fuel (',' :: rest) (by omega) (ends_cons rest (.inl rfl))
  rw [memberChars_append]
  simp (disch := decide) only [members?, skipSpaces_cons, stringBody?_text, hvalue,
    Option.bind_eq_bind, Option.bind_some]
  cases members? fuel rest with
  | none => rfl
  | some p =>
    obtain ⟨ms, clean, rest⟩ := p
    cases clean <;> rfl

end

theorem items?_text {items : List Json} (hne : items ≠ []) (h : ∀ v ∈ items, ReadsFromText v)
    (fuel : Nat) (rest : List Char)
    (hfuel : ([','].intercalate (items.map chars)).length < fuel) :
    Grammar.items? fuel ([','].intercalate (items.map chars) ++ ']' :: rest) =
      some (items, rest) := by
  induction items generalizing fuel with
  | nil => exact absurd rfl hne
  | cons v items ih =>
    obtain ⟨hv, hitems⟩ := List.forall_mem_cons.mp h
    obtain ⟨fuel, rfl⟩ := Nat.exists_eq_add_one.mpr (Nat.zero_lt_of_lt hfuel)
    cases items with
    | nil =>
      rw [List.map_singleton, List.intercalate_singleton] at hfuel ⊢
      exact items?_last hv (by omega) rest
    | cons w items =>
      rw [List.map_cons, List.map_cons, List.intercalate_cons_cons, ← List.map_cons] at hfuel ⊢
      simp only [List.length_append, List.length_singleton] at hfuel
      rw [List.append_assoc, List.append_assoc, List.singleton_append, items?_more hv (by omega),
        ih (by simp) hitems fuel (by omega)]
      rfl

theorem members?_text {members : List (String × Json)} (hne : members ≠ [])
    (h : ∀ m ∈ members, ReadsFromText m.2) (fuel : Nat) (rest : List Char)
    (hfuel : ([','].intercalate (members.map memberChars)).length < fuel) :
    members? fuel ([','].intercalate (members.map memberChars) ++ '}' :: rest) =
      some (members, true, rest) := by
  induction members generalizing fuel with
  | nil => exact absurd rfl hne
  | cons m members ih =>
    obtain ⟨hm, hmembers⟩ := List.forall_mem_cons.mp h
    obtain ⟨fuel, rfl⟩ := Nat.exists_eq_add_one.mpr (Nat.zero_lt_of_lt hfuel)
    cases members with
    | nil =>
      rw [List.map_singleton, List.intercalate_singleton] at hfuel ⊢
      exact members?_last hm (by omega) rest
    | cons n members =>
      rw [List.map_cons, List.map_cons, List.intercalate_cons_cons, ← List.map_cons] at hfuel ⊢
      simp only [List.length_append, List.length_singleton] at hfuel
      rw [List.append_assoc, List.append_assoc, List.singleton_append, members?_more hm (by omega),
        ih (by simp) hmembers fuel (by omega)]
      rfl

theorem exists_intercalate_eq (sep x : List Char) (xs : List (List Char)) :
    ∃ tail, sep.intercalate (x :: xs) = x ++ tail := by
  cases xs with
  | nil => exact ⟨[], by rw [List.intercalate_singleton, List.append_nil]⟩
  | cons y ys => exact ⟨_, by rw [List.intercalate_cons_cons, List.append_assoc]⟩

theorem readsFromText_array {items : List Json} (hprintable : ∀ v ∈ items, v.Printable)
    (h : ∀ v ∈ items, ReadsFromText v) : ReadsFromText (.array items) := by
  intro fuel rest hfuel _
  rw [chars_array] at hfuel ⊢
  rw [List.length_cons, List.length_append, List.length_singleton] at hfuel
  obtain ⟨fuel, rfl⟩ := Nat.exists_eq_add_one.mpr (Nat.zero_lt_of_lt hfuel)
  rw [List.cons_append, List.append_assoc, List.singleton_append, value?, skipSpaces_cons rfl]
  cases items with
  | nil => rfl
  | cons v items =>
    have hitems := items?_text (List.cons_ne_nil v items) h fuel rest (by omega)
    obtain ⟨c, cs, hchars, hspace, hclose⟩ := (hprintable v List.mem_cons_self).head_chars
    obtain ⟨tail, htail⟩ := exists_intercalate_eq [','] v.chars (items.map chars)
    rw [List.map_cons, htail, hchars, List.cons_append, List.cons_append] at hitems ⊢
    simp only [skipSpaces_cons hspace]
    -- the first item does not start like the end of the array
    split
    · rename_i h
      exact absurd (List.cons.inj h).1 hclose
    · rw [hitems]
      rfl

theorem readsFromText_object {members : List (String × Json)}
    (h : ∀ m ∈ members, ReadsFromText m.2) : ReadsFromText (.object members) := by
  intro fuel rest hfuel _
  rw [chars_object] at hfuel ⊢
  rw [List.length_cons, List.length_append, List.length_singleton] at hfuel
  obtain ⟨fuel, rfl⟩ := Nat.exists_eq_add_one.mpr (Nat.zero_lt_of_lt hfuel)
  rw [List.cons_append, List.append_assoc, List.singleton_append, value?, skipSpaces_cons rfl]
  cases members with
  | nil => rfl
  | cons m members =>
    have hmembers := members?_text (List.cons_ne_nil m members) h fuel rest (by omega)
    obtain ⟨tail, htail⟩ := exists_intercalate_eq [','] (memberChars m) (members.map memberChars)
    rw [List.map_cons, htail, List.append_assoc, memberChars_append] at hmembers ⊢
    simp (disch := decide) only [skipSpaces_cons]
    split
    · rename_i h
      cases h
    · rw [hmembers]
      rfl

theorem readsFromText_string (s : String) : ReadsFromText (.string s) := by
  intro fuel rest hfuel _
  have hchars : chars (.string s) = '"' :: (s.toList.flatMap escape ++ ['"']) := by
    rw [chars, compact, toList_quote]
  rw [hchars] at hfuel ⊢
  obtain ⟨fuel, rfl⟩ := Nat.exists_eq_add_one.mpr (Nat.zero_lt_of_lt hfuel)
  rw [List.cons_append, List.append_assoc, List.singleton_append, value?, skipSpaces_cons rfl]
  simp only [stringBody?_text]
  rfl

theorem Printable.readsFromText {v : Json} (h : v.Printable) : ReadsFromText v := by
  induction h with
  | null =>
    intro fuel rest hfuel _
    have hchars : chars .null = "null".toList := by rw [chars, compact]
    rw [hchars] at hfuel ⊢
    obtain ⟨fuel, rfl⟩ := Nat.exists_eq_add_one.mpr (Nat.zero_lt_of_lt hfuel)
    rfl
  | bool b =>
    intro fuel rest hfuel _
    have hchars : chars (.bool b) = (if b then "true" else "false").toList := by rw [chars, compact]
    rw [hchars] at hfuel ⊢
    cases b with
    | false =>
      obtain ⟨fuel, rfl⟩ := Nat.exists_eq_add_one.mpr (Nat.zero_lt_of_lt hfuel)
      rfl
    | true =>
      obtain ⟨fuel, rfl⟩ := Nat.exists_eq_add_one.mpr (Nat.zero_lt_of_lt hfuel)
      rfl
  | number n => exact readsFromText_number n
  | string s => exact readsFromText_string s
  | array hprintable ih => exact readsFromText_array hprintable ih
  | object _ ih => exact readsFromText_object ih

theorem parse?_compact {v : Json} (h : v.Printable) : parse? v.compact = some v := by
  have hread := h.readsFromText (2 * v.chars.length + 2) [] (by omega) ends_nil
  rw [List.append_nil] at hread
  have hend : skipSpaces [] = [] := rfl
  rw [parse?, ← chars]
  simp only [hread, Option.bind_eq_bind, Option.bind_some, hend]
  rfl

namespace Printable

variable {v w : Json}

theorem rearranged (h : v.Printable) (hvw : Rearranged v w) : w.Printable := by
  induction hvw with
  | refl v => exact h
  | trans _ _ ih ih' => exact ih' (ih h)
  | object hperm =>
    cases h with
    | object hmembers => exact .object fun m hm => hmembers m (hperm.mem_iff.mpr hm)
  | @member before after name v w _ ih =>
    cases h with
    | object hmembers =>
      rw [List.forall_mem_append, List.forall_mem_cons] at hmembers
      obtain ⟨hbefore, hv, hafter⟩ := hmembers
      refine .object ?_
      rw [List.forall_mem_append, List.forall_mem_cons]
      exact ⟨hbefore, ih hv, hafter⟩
  | @item before after v w _ ih =>
    cases h with
    | array hitems =>
      rw [List.forall_mem_append, List.forall_mem_cons] at hitems
      obtain ⟨hbefore, hv, hafter⟩ := hitems
      refine .array ?_
      rw [List.forall_mem_append, List.forall_mem_cons]
      exact ⟨hbefore, ih hv, hafter⟩

theorem without (h : v.Printable) (names : List String) : (v.without names).Printable := by
  cases h with
  | object hmembers => exact .object fun m hm => hmembers m (List.mem_filter.mp hm).1
  | null => exact .null
  | bool b => exact .bool b
  | number n => exact .number n
  | string s => exact .string s
  | array hitems => exact .array hitems

theorem restated {mayOmit : String → Prop} {written : Json} (hwritten : written.Printable)
    (h : Restated mayOmit written v) : v.Printable := by
  induction h with
  | same => exact hwritten
  | rearranged _ hvw ih => exact ih.rearranged hvw
  | omitted _ _ ih => exact ih.without _

end Printable

end ComputeRelay.Json
