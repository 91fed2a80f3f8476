import ComputeRelay.Registry
import Mathlib

/-! Which rows of the registry stand for a registration. What an address of a service looks like is
said as a language, and the trimming of its text as a relation between the text and its core. A row
is accepted exactly when it has a signer and its core is such an address; every other row is turned
away for the first of three reasons. -/

namespace ComputeRelay

/-- A text with nothing but blanks around a core that has none at its ends. -/
structure Trims (cs core : List Char) : Prop where
  around : ∃ before after, cs = before ++ core ++ after ∧
    (∀ c ∈ before, isBlank c = true) ∧ ∀ c ∈ after, isBlank c = true
  first : ∀ c ∈ core.head?, isBlank c = false
  last : ∀ c ∈ core.getLast?, isBlank c = false

section

variable {cs core : List Char} {p : Char → Bool}

theorem dropWhile_of_head (h : ∀ c ∈ cs.head?, p c = false) : cs.dropWhile p = cs := by
  cases cs with
  | nil => rfl
  | cons c cs => exact List.dropWhile_cons_of_neg (by simp [h c rfl])

theorem head_dropWhile : ∀ c ∈ (cs.dropWhile p).head?, p c = false := by
  intro c hc
  have h := List.head?_dropWhile_not p cs
  rw [Option.mem_def.mp hc] at h
  exact h

theorem trims_trimBlanks (cs : List Char) : Trims cs (trimBlanks cs) := by
  let rest := cs.dropWhile isBlank
  have hfront : cs.takeWhile isBlank ++ rest = cs := List.takeWhile_append_dropWhile
  have hback : trimBlanks cs ++ (rest.reverse.takeWhile isBlank).reverse = rest := by
    have h := congrArg List.reverse
      (List.takeWhile_append_dropWhile (p := isBlank) (l := rest.reverse))
    rwa [List.reverse_append, List.reverse_reverse] at h
  refine ⟨⟨cs.takeWhile isBlank, (rest.reverse.takeWhile isBlank).reverse, ?_,
    fun c => List.mem_takeWhile_imp, ?_⟩, ?_, ?_⟩
  · rw [List.append_assoc, hback, hfront]
  · intro c hc
    exact List.mem_takeWhile_imp (List.mem_reverse.mp hc)
  · intro c hc
    have hrest : c ∈ rest.head? := by
      rw [← hback, List.head?_append, Option.mem_def.mp hc]
      rfl
    exact head_dropWhile c hrest
  · intro c hc
    rw [trimBlanks, List.getLast?_reverse] at hc
    exact head_dropWhile c hc

theorem trims_iff : Trims cs core ↔ core = trimBlanks cs := by
  constructor
  · rintro ⟨⟨before, after, rfl, hbefore, hafter⟩, hfirst, hlast⟩
    have hend : (after.reverse ++ core.reverse).dropWhile isBlank = core.reverse := by
      rw [List.dropWhile_append_of_pos fun c hc => hafter c (List.mem_reverse.mp hc)]
      refine dropWhile_of_head ?_
      rwa [List.head?_reverse]
    rw [trimBlanks, List.append_assoc, List.dropWhile_append_of_pos hbefore]
    cases core with
    | nil =>
      rw [List.nil_append, List.dropWhile_eq_nil_iff.mpr hafter]
      rfl
    | cons c core =>
      have hstart : (c :: core ++ after).dropWhile isBlank = c :: core ++ after :=
        dropWhile_of_head hfirst
      rw [hstart, List.reverse_append, hend, List.reverse_reverse]
  · rintro rfl
    exact trims_trimBlanks cs

end

/-- A scheme, at least one character of an authority, and then nothing or a slash and a path. -/
inductive HttpAddress : List Char → Prop
  | intro {scheme authority path : List Char}
      (known : scheme = "http://".toList ∨ scheme = "https://".toList)
      (named : authority ≠ [])
      (plain : ∀ c ∈ authority, isBlank c = false ∧ c ≠ '/' ∧ c ≠ '?' ∧ c ≠ '#')
      (rooted : path = [] ∨ ∃ rest, path = '/' :: rest ∧ ∀ c ∈ rest, isBlank c = false) :
      HttpAddress (scheme ++ authority ++ path)

section

variable {cs rest : List Char}

theorem dropScheme?_eq_some_iff : dropScheme? cs = some rest ↔
    cs = "http://".toList ++ rest ∨ cs = "https://".toList ++ rest := by
  constructor
  · intro h
    unfold dropScheme? at h
    split at h
    · obtain rfl := Option.some.inj h
      exact .inl rfl
    · obtain rfl := Option.some.inj h
      exact .inr rfl
    · cases h
  · rintro (rfl | rfl) <;> rfl

theorem endsAuthority_eq_false_iff {c : Char} :
    endsAuthority c = false ↔ isBlank c = false ∧ c ≠ '/' ∧ c ≠ '?' ∧ c ≠ '#' := by
  simp only [endsAuthority, Bool.or_eq_false_iff, beq_eq_false_iff_ne, and_assoc]

theorem HttpAddress.accepted (h : HttpAddress cs) : isHttpUrl cs = true := by
  obtain ⟨known, named, plain, rooted⟩ := h
  rename_i scheme authority path
  have hscheme : dropScheme? (scheme ++ authority ++ path) = some (authority ++ path) := by
    rw [List.append_assoc]
    rcases known with rfl | rfl
    · exact dropScheme?_eq_some_iff.mpr (.inl rfl)
    · exact dropScheme?_eq_some_iff.mpr (.inr rfl)
  have hauthority : ∀ c ∈ authority, (!endsAuthority c) = true := by
    intro c hc
    rw [endsAuthority_eq_false_iff.mpr (plain c hc)]
    rfl
  rw [isHttpUrl, hscheme]
  simp only [List.takeWhile_append_of_pos hauthority, List.dropWhile_append_of_pos hauthority]
  rcases rooted with rfl | ⟨rest, rfl, hrest⟩
  · simpa using named
  · have hslash : endsAuthority '/' = true := by decide
    simpa [hslash, named] using hrest

theorem HttpAddress.of_accepted (h : isHttpUrl cs = true) : HttpAddress cs := by
  unfold isHttpUrl at h
  split at h
  · cases h
  · rename_i rest hscheme
    have hsplit : rest.takeWhile (fun c => !endsAuthority c) ++
        rest.dropWhile (fun c => !endsAuthority c) = rest := List.takeWhile_append_dropWhile
    rw [Bool.and_eq_true] at h
    obtain ⟨hnamed, hpath⟩ := h
    have named : rest.takeWhile (fun c => !endsAuthority c) ≠ [] := by simpa using hnamed
    have plain : ∀ c ∈ rest.takeWhile (fun c => !endsAuthority c),
        isBlank c = false ∧ c ≠ '/' ∧ c ≠ '?' ∧ c ≠ '#' := by
      intro c hc
      rw [← endsAuthority_eq_false_iff]
      simpa using List.mem_takeWhile_imp hc
    have rooted : rest.dropWhile (fun c => !endsAuthority c) = [] ∨
        ∃ path, rest.dropWhile (fun c => !endsAuthority c) = '/' :: path ∧
          ∀ c ∈ path, isBlank c = false := by
      split at hpath
      · rename_i hnil
        exact .inl hnil
      · rename_i c path hcons
        rw [Bool.and_eq_true, beq_iff_eq, List.all_eq_true] at hpath
        obtain ⟨rfl, hblank⟩ := hpath
        exact .inr ⟨path, hcons, fun c hc => by simpa using hblank c hc⟩
    rcases dropScheme?_eq_some_iff.mp hscheme with rfl | rfl
    · have h := HttpAddress.intro (.inl rfl) named plain rooted
      rwa [List.append_assoc, hsplit] at h
    · have h := HttpAddress.intro (.inr rfl) named plain rooted
      rwa [List.append_assoc, hsplit] at h

theorem isHttpUrl_iff : isHttpUrl cs = true ↔ HttpAddress cs :=
  ⟨HttpAddress.of_accepted, HttpAddress.accepted⟩

theorem HttpAddress.unbroken (h : HttpAddress cs) : ∀ c ∈ cs, isBlank c = false := by
  obtain ⟨known, -, plain, rooted⟩ := h
  rename_i scheme authority path
  have hscheme : ∀ c ∈ scheme, isBlank c = false := by
    rcases known with rfl | rfl <;> simp [isBlank]
  have hpath : ∀ c ∈ path, isBlank c = false := by
    rcases rooted with rfl | ⟨rest, rfl, hrest⟩
    · exact List.forall_mem_nil _
    · exact List.forall_mem_cons.mpr ⟨by decide, hrest⟩
  intro c hc
  rcases List.mem_append.mp hc with hc | hc
  · rcases List.mem_append.mp hc with hc | hc
    · exact hscheme c hc
    · exact (plain c hc).1
  · exact hpath c hc

end

namespace RegistryRow

/-- The reason for which a row stands for no registration: the first that applies. -/
inductive Refused (row : RegistryRow) : String → Prop
  | unsigned (signer : row.signer = 0) : Refused row "no signer registered"
  | unplaced (signer : row.signer ≠ 0) (empty : Trims row.url.toList []) :
      Refused row "no endpoint registered"
  | unreachable {endpoint : List Char} (signer : row.signer ≠ 0)
      (trims : Trims row.url.toList endpoint) (nonempty : endpoint ≠ [])
      (foreign : ¬ HttpAddress endpoint) : Refused row "endpoint is not an http(s) url"

section

variable {row : RegistryRow} {account : Address} {block : BlockContext} {endpoint : List Char}

theorem check_of_address (signer : row.signer ≠ 0) (trims : Trims row.url.toList endpoint)
    (address : HttpAddress endpoint) :
    row.check account block = .ok ⟨account, String.ofList endpoint, row.signer, block⟩ := by
  obtain rfl := trims_iff.mp trims
  have hurl := isHttpUrl_iff.mpr address
  have hnonempty : trimBlanks row.url.toList ≠ [] := by
    intro hempty
    rw [hempty] at hurl
    cases hurl
  rw [check, if_neg signer, if_neg hnonempty, hurl]
  rfl

theorem check_of_refused {reason : String} (h : row.Refused reason) :
    row.check account block = .error (.notRegistered account reason) := by
  cases h with
  | unsigned signer => rw [check, if_pos signer]
  | unplaced signer empty => rw [check, if_neg signer, if_pos (trims_iff.mp empty).symm]
  | unreachable signer trims nonempty foreign =>
    obtain rfl := trims_iff.mp trims
    rw [← isHttpUrl_iff, Bool.not_eq_true] at foreign
    rw [check, if_neg signer, if_neg nonempty, foreign]
    rfl

theorem address_or_refused (row : RegistryRow) :
    (row.signer ≠ 0 ∧ ∃ endpoint, Trims row.url.toList endpoint ∧ HttpAddress endpoint) ∨
      ∃ reason, row.Refused reason := by
  have trims := trims_trimBlanks row.url.toList
  by_cases signer : row.signer = 0
  · exact .inr ⟨_, .unsigned signer⟩
  · by_cases empty : trimBlanks row.url.toList = []
    · rw [empty] at trims
      exact .inr ⟨_, .unplaced signer trims⟩
    · by_cases address : HttpAddress (trimBlanks row.url.toList)
      · exact .inl ⟨signer, _, trims, address⟩
      · exact .inr ⟨_, .unreachable signer trims empty address⟩

theorem check_eq_ok_iff {registration : Registration} :
    row.check account block = .ok registration ↔
      row.signer ≠ 0 ∧ ∃ endpoint, Trims row.url.toList endpoint ∧ HttpAddress endpoint ∧
        registration = ⟨account, String.ofList endpoint, row.signer, block⟩ := by
  constructor
  · intro h
    rcases row.address_or_refused with ⟨signer, endpoint, trims, address⟩ | ⟨reason, refused⟩
    · rw [check_of_address signer trims address] at h
      exact ⟨signer, endpoint, trims, address, (Except.ok.inj h).symm⟩
    · rw [check_of_refused refused] at h
      cases h
  · rintro ⟨signer, endpoint, trims, address, rfl⟩
    exact check_of_address signer trims address

theorem check_eq_error_iff {error : RegistryError} : row.check account block = .error error ↔
    ∃ reason, row.Refused reason ∧ error = .notRegistered account reason := by
  constructor
  · intro h
    rcases row.address_or_refused with ⟨signer, endpoint, trims, address⟩ | ⟨reason, refused⟩
    · rw [check_of_address signer trims address] at h
      cases h
    · rw [check_of_refused refused] at h
      exact ⟨reason, refused, (Except.error.inj h).symm⟩
  · rintro ⟨reason, refused, rfl⟩
    exact check_of_refused refused

end

end RegistryRow

/-- What a row of the registry stands for. It is accepted exactly when it has a signer and its text
trims to an address; the registration then holds this address, which has no blank anywhere, next to
the account, the signer and the block. Every other row is not registered, and the reason is the
first that applies. -/
theorem registrations_exact (row : RegistryRow) (account : Address) (block : BlockContext) :
    (∀ registration, row.check account block = .ok registration ↔
      row.signer ≠ 0 ∧ ∃ endpoint, Trims row.url.toList endpoint ∧ HttpAddress endpoint ∧
        registration = ⟨account, String.ofList endpoint, row.signer, block⟩) ∧
    (∀ registration, row.check account block = .ok registration →
      ∀ c ∈ registration.endpoint.toList, isBlank c = false) ∧
    ∀ error, row.check account block = .error error ↔
      ∃ reason, row.Refused reason ∧ error = .notRegistered account reason := by
  refine ⟨fun _ => RegistryRow.check_eq_ok_iff, ?_, fun _ => RegistryRow.check_eq_error_iff⟩
  intro registration h
  obtain ⟨-, endpoint, -, address, rfl⟩ := RegistryRow.check_eq_ok_iff.mp h
  rw [String.toList_ofList]
  exact address.unbroken

namespace Sample

/-- A row with blanks around its address, one of them beyond the basic ones. -/
def paddedRow : RegistryRow := ⟨0x51, "\u3000\thttps://svc:8080/hc?x=1#y\n"⟩

def rootlessRow : RegistryRow := ⟨0x51, " http:///hc"⟩

theorem padded_registered :
    (paddedRow.check 0xaa ⟨7, 0, 0⟩ = .ok ⟨0xaa, "https://svc:8080/hc?x=1#y", 0x51, ⟨7, 0, 0⟩⟩ ∧
      ∀ c ∈ "https://svc:8080/hc?x=1#y".toList, isBlank c = false) ∧
    rootlessRow.check 0xaa ⟨7, 0, 0⟩ =
      .error (.notRegistered 0xaa "endpoint is not an http(s) url") := by
  obtain ⟨haccepts, hunbroken, -⟩ := registrations_exact paddedRow 0xaa ⟨7, 0, 0⟩
  obtain ⟨-, -, hrefuses⟩ := registrations_exact rootlessRow 0xaa ⟨7, 0, 0⟩
  have hpadded : Trims paddedRow.url.toList "https://svc:8080/hc?x=1#y".toList :=
    trims_iff.mpr (by decide +kernel)
  have hrootless : Trims rootlessRow.url.toList "http:///hc".toList :=
    trims_iff.mpr (by decide +kernel)
  have hforeign : ¬ HttpAddress "http:///hc".toList := by
    rw [← isHttpUrl_iff]
    decide +kernel
  have hregistered : paddedRow.check 0xaa ⟨7, 0, 0⟩ =
      .ok ⟨0xaa, "https://svc:8080/hc?x=1#y", 0x51, ⟨7, 0, 0⟩⟩ :=
    (haccepts _).mpr ⟨by decide, _, hpadded, isHttpUrl_iff.mp (by decide +kernel),
      by rw [String.ofList_toList]; rfl⟩
  exact ⟨⟨hregistered, hunbroken _ hregistered⟩, (hrefuses _).mpr
    ⟨_, .unreachable (by decide) hrootless (by decide +kernel) hforeign, rfl⟩⟩

end Sample

end ComputeRelay
