import Orgistry.Model.OrganizationNames
import Mathlib.Data.Bool.AllAny

/-!
# Generated names and slugs

Every slug that is generated has the shape of the contract, and the team's are short
enough.  A personal workspace has a token in its base already, and a suffix behind it may
go over the maximum.
-/

namespace Orgistry.Model.OrganizationNames

open Text

variable {unicode : UnicodeStrings} {taken : CodeUnits → Bool} {base token slug input : CodeUnits}
  {displayName : CodeUnits} {bytes : Fin 26 → Byte}

theorem isSlugUnit_hyphen : isSlugUnit hyphen = false := by decide

theorem tidy_slugText (unicode : UnicodeStrings) (input : CodeUnits) :
    Tidy isSlugUnit hyphen (slugText unicode input) :=
  tidy_trimEnds_collapse isSlugUnit_hyphen _

theorem tidy_fallback : Tidy isSlugUnit hyphen (codeUnits "workspace") := by
  have htidy := tidy_trimEnds_collapse isSlugUnit_hyphen (codeUnits "workspace")
  have heq : trimEnds hyphen (collapse isSlugUnit hyphen false (codeUnits "workspace")) =
      codeUnits "workspace" := by decide +kernel
  rwa [heq] at htidy

/-- A slug of a name is a tidy text within the cut. -/
theorem tidy_slugify (unicode : UnicodeStrings) (input : CodeUnits) :
    Tidy isSlugUnit hyphen (slugify unicode input) ∧ slugify unicode input ≠ [] ∧
      (slugify unicode input).length ≤ maxSlugBaseLength := by
  have hcut : Tidy isSlugUnit hyphen
      (((slugText unicode input).take maxSlugBaseLength).rdropWhile (· = hyphen)) :=
    ((tidy_slugText unicode input).toBegun.of_front (List.take_prefix _ _)).rdropWhile
  unfold slugify
  dsimp only
  split
  · next hlength =>
      refine ⟨hcut, List.length_pos_iff.mp hlength, ?_⟩
      exact (List.rdropWhile_prefix _ _).length_le.trans (List.length_take_le _ _)
  · exact ⟨tidy_fallback, by decide +kernel, by decide +kernel⟩

theorem matches_slugify (unicode : UnicodeStrings) (input : CodeUnits) :
    matchesSlugPattern (slugify unicode input) = true :=
  (tidy_slugify unicode input).1.isSlug (tidy_slugify unicode input).2.1

theorem lower_of_isSlugUnit {unit : UInt16} (h : isSlugUnit unit = true ∨ unit = hyphen) :
    unit < 128 ∧ asciiLower unit = unit := by
  rcases h with h | rfl
  · rw [isSlugUnit, Bool.or_eq_true, Bool.and_eq_true, Bool.and_eq_true] at h
    simp only [decide_eq_true_eq, UInt16.le_iff_toNat_le] at h
    change 97 ≤ unit.toNat ∧ unit.toNat ≤ 122 ∨ 48 ≤ unit.toNat ∧ unit.toNat ≤ 57 at h
    constructor
    · rw [UInt16.lt_iff_toNat_lt]
      change unit.toNat < 128
      omega
    · refine if_neg fun hupper => ?_
      rw [UInt16.le_iff_toNat_le, UInt16.le_iff_toNat_le] at hupper
      change 65 ≤ unit.toNat ∧ unit.toNat ≤ 90 at hupper
      omega
  · decide

/-- A tidy text is ASCII and has no capitals. -/
theorem lower_of_tidy (h : Tidy isSlugUnit hyphen input) :
    (∀ unit ∈ input, unit < 128) ∧ input.map asciiLower = input :=
  ⟨fun unit hunit => (lower_of_isSlugUnit (h.chars unit hunit)).1,
    (List.map_congr_left fun unit hunit => (lower_of_isSlugUnit (h.chars unit hunit)).2).trans
      (List.map_id _)⟩

theorem slugify_slugify (unicode : UnicodeStrings) (input : CodeUnits) :
    slugify unicode (slugify unicode input) = slugify unicode input := by
  obtain ⟨htidy, hne, hlength⟩ := tidy_slugify unicode input
  generalize slugify unicode input = slug at *
  obtain ⟨hascii, hlower⟩ := lower_of_tidy htidy
  have htext : slugText unicode slug = slug := by
    rw [slugText, unicode.toLowerCase_ascii slug hascii, hlower, unicode.nfkd_ascii slug hascii,
      htidy.trimEnds_collapse]
  have hcut : (slug.take maxSlugBaseLength).rdropWhile (· = hyphen) = slug := by
    rw [List.take_of_length_le hlength, htidy.rdropWhile_eq]
  rw [slugify, htext, hcut]
  exact if_pos (List.length_pos_iff.mpr hne)

/-- Six digits or small letters. -/
theorem shortSlugToken_slug (unicode : UnicodeStrings) (bytes : Fin 26 → Byte) :
    matchesSlugPattern (shortSlugToken unicode bytes) = true ∧
      (shortSlugToken unicode bytes).length = 6 := by
  have hdigits : ∀ c ∈ idAlphabet, codeUnit c < 128 ∧ isSlugUnit (asciiLower (codeUnit c)) = true :=
    List.all_iff_forall_prop.mp (by decide +kernel)
  have htail : ∀ unit ∈ ((randomAlphabetString idAlphabet (List.ofFn bytes)).map codeUnit).take 6,
      unit < 128 ∧ isSlugUnit (asciiLower unit) = true := by
    intro unit hunit
    obtain ⟨c, hc, rfl⟩ := List.mem_map.mp (List.mem_of_mem_take hunit)
    exact hdigits c (mem_randomAlphabetString hc)
  have hlength :
      (((randomAlphabetString idAlphabet (List.ofFn bytes)).map codeUnit).take 6).length = 6 := by
    rw [List.length_take, List.length_map, length_randomAlphabetString (by decide +kernel),
      List.length_ofFn]
    rfl
  have htoken : shortSlugToken unicode bytes =
      (((randomAlphabetString idAlphabet (List.ofFn bytes)).map codeUnit).take 6).map asciiLower :=
    unicode.toLowerCase_ascii _ fun unit hunit => (htail unit hunit).1
  have hsix : (shortSlugToken unicode bytes).length = 6 := by
    rw [htoken, List.length_map, hlength]
  refine ⟨isSlug_of_all ?_ isSlugUnit_hyphen (List.length_pos_iff.mp (by omega)), hsix⟩
  rw [htoken, List.all_map, List.all_eq_true]
  exact fun unit hunit => (htail unit hunit).2

/-- The suffixes that are tried have one or two digits. -/
theorem suffix_slug {n : ℕ} (h : n ≤ 50) :
    matchesSlugPattern (codeUnits (toString n)) = true ∧
      (codeUnits (toString n)).length = if n < 10 then 1 else 2 := by
  have hall : ∀ n ∈ List.range 51, matchesSlugPattern (codeUnits (toString n)) = true ∧
      (codeUnits (toString n)).length = if n < 10 then 1 else 2 := by decide +kernel
  exact hall n (List.mem_range.mpr (by omega))

/-- The base, and behind it the base with each suffix. -/
def candidate (base : CodeUnits) (n : ℕ) : CodeUnits := if n = 1 then base else numbered base n

/-- The candidates from number `first` to number `last` are taken. -/
def AllTaken (taken : CodeUnits → Bool) (base : CodeUnits) (first last : ℕ) : Prop :=
  ∀ n, first ≤ n → n ≤ last → taken (candidate base n) = true

theorem allTaken_empty {first last : ℕ} (h : last < first) : AllTaken taken base first last :=
  fun n hfirst hlast => by omega

theorem allTaken_succ {first last : ℕ} (h : taken (candidate base first) = true) :
    AllTaken taken base first last ↔ AllTaken taken base (first + 1) last := by
  refine ⟨fun hall n hn => hall n (by omega), fun hall n hn hlast => ?_⟩
  rcases Nat.eq_or_lt_of_le hn with rfl | hlt
  · exact h
  · exact hall n hlt hlast

theorem not_allTaken {first last : ℕ} (h : ¬taken (candidate base first) = true)
    (hle : first ≤ last) : ¬AllTaken taken base first last :=
  fun hall => h (hall first le_rfl hle)

/-- What the rounds from number `first` to number `last` may make. -/
def Made (taken : CodeUnits → Bool) (base token : CodeUnits) (first last : ℕ)
    (slug : CodeUnits) : Prop :=
  (∃ n, first ≤ n ∧ n ≤ last ∧ slug = candidate base n ∧ AllTaken taken base first (n - 1)) ∨
    slug = base ++ hyphen :: token ∧ AllTaken taken base first last

theorem made_of_free {first last : ℕ} (hle : first ≤ last) (hpos : 1 ≤ first)
    (hfree : ¬taken (candidate base first) = true) :
    Made taken base token first last slug ↔ slug = candidate base first := by
  refine ⟨?_, fun h => Or.inl ⟨first, le_rfl, hle, h, allTaken_empty (by omega)⟩⟩
  rintro (⟨n, hfirst, -, rfl, hall⟩ | ⟨-, hall⟩)
  · rcases Nat.eq_or_lt_of_le hfirst with rfl | hlt
    · rfl
    · exact absurd hall (not_allTaken hfree (by omega))
  · exact absurd hall (not_allTaken hfree hle)

theorem made_of_taken {first last : ℕ} (hle : first ≤ last) (hpos : 1 ≤ first)
    (htaken : taken (candidate base first) = true) :
    Made taken base token first last slug ↔
      slug = candidate base first ∨ Made taken base token (first + 1) last slug := by
  unfold Made
  simp only [allTaken_succ htaken]
  constructor
  · rintro (⟨n, hfirst, hlast, rfl, hall⟩ | hrandom)
    · rcases Nat.eq_or_lt_of_le hfirst with rfl | hlt
      · exact Or.inl rfl
      · exact Or.inr (Or.inl ⟨n, hlt, hlast, rfl, hall⟩)
    · exact Or.inr (Or.inr hrandom)
  · rintro (rfl | ⟨n, hfirst, hlast, rfl, hall⟩ | hrandom)
    · exact Or.inl ⟨first, le_rfl, hle, rfl, allTaken_empty (by omega)⟩
    · exact Or.inl ⟨n, by omega, hlast, rfl, hall⟩
    · exact Or.inr hrandom

theorem numbered_eq_candidate {n : ℕ} (h : 1 ≤ n) :
    numbered base (n + 1) = candidate base (n + 1) := by
  rw [candidate, if_neg (by omega)]

/-- A candidate is made when those before it are taken, and the random one when all are. -/
theorem mem_resolveFrom {left first : ℕ} (hpos : 1 ≤ first) :
    slug ∈ (resolveFrom taken base token left (first + 1) (candidate base first)).candidates ↔
      Made taken base token first (first + left) slug := by
  induction left generalizing first with
  | zero =>
      rw [resolveFrom]
      split
      · next htaken =>
          rw [made_of_taken (by omega) hpos htaken]
          simp only [List.mem_cons, List.not_mem_nil, or_false]
          refine or_congr_right ⟨fun h => Or.inr ⟨h, allTaken_empty (by omega)⟩, ?_⟩
          rintro (⟨n, hfirst, hlast, -⟩ | ⟨h, -⟩)
          · omega
          · exact h
      · next hfree => rw [made_of_free (by omega) hpos hfree, List.mem_singleton]
  | succ left ih =>
      rw [resolveFrom]
      split
      · next htaken =>
          rw [made_of_taken (by omega) hpos htaken, numbered_eq_candidate hpos]
          have hrest := @ih (first + 1) (by omega)
          rw [show first + 1 + left = first + (left + 1) by omega] at hrest
          rw [← hrest]
          exact List.mem_cons
      · next hfree => rw [made_of_free (by omega) hpos hfree, List.mem_singleton]

/-- What is resolved is free, unless every candidate was taken and a random token stands
behind the base. -/
theorem resolveFrom_slug {left first : ℕ} (hpos : 1 ≤ first) :
    let resolution := resolveFrom taken base token left (first + 1) (candidate base first)
    taken resolution.slug = false ∨
      resolution.slug = base ++ hyphen :: token ∧ AllTaken taken base first (first + left) := by
  induction left generalizing first with
  | zero =>
      rw [resolveFrom]
      split
      · next htaken =>
          refine Or.inr ⟨rfl, (allTaken_succ htaken).mpr (allTaken_empty (by omega))⟩
      · next hfree => exact Or.inl (Bool.not_eq_true _ ▸ hfree)
  | succ left ih =>
      rw [resolveFrom]
      split
      · next htaken =>
          rw [numbered_eq_candidate hpos]
          rcases @ih (first + 1) (by omega) with h | ⟨h, hall⟩
          · exact Or.inl h
          · refine Or.inr ⟨h, (allTaken_succ htaken).mpr ?_⟩
            rwa [show first + 1 + left = first + (left + 1) by omega] at hall
      · next hfree => exact Or.inl (Bool.not_eq_true _ ▸ hfree)

/-! ## The contract -/

theorem mem_resolveUniqueSlug :
    slug ∈ (resolveUniqueSlug taken base token).candidates ↔ Made taken base token 1 50 slug :=
  mem_resolveFrom le_rfl

theorem matches_of_made (hbase : matchesSlugPattern base = true)
    (htoken : matchesSlugPattern token = true) (h : Made taken base token 1 50 slug) :
    matchesSlugPattern slug = true := by
  rcases h with ⟨n, -, hlast, rfl, -⟩ | ⟨rfl, -⟩
  · rw [candidate]
    split
    · exact hbase
    · exact isSlug_append hbase (suffix_slug hlast).1
  · exact isSlug_append hbase htoken

theorem length_candidate {n : ℕ} (hn : n ≤ 50) :
    (candidate base n).length =
      base.length + if n = 1 then 0 else if n < 10 then 2 else 3 := by
  rw [candidate]
  split
  · rfl
  · rw [numbered, List.length_append, List.length_cons, (suffix_slug hn).2]
    split <;> omega

/-- The suffixes of one and of two digits and the random one lengthen the base. -/
theorem made_length_iff (htoken : token.length = 6) {max : ℕ} :
    (∀ slug, Made taken base token 1 50 slug → slug.length ≤ max) ↔
      base.length ≤ max ∧ (AllTaken taken base 1 1 → base.length + 2 ≤ max) ∧
        (AllTaken taken base 1 9 → base.length + 3 ≤ max) ∧
        (AllTaken taken base 1 50 → base.length + 7 ≤ max) := by
  constructor
  · intro h
    have hcandidate (n : ℕ) (hpos : 1 ≤ n) (hlast : n ≤ 50)
        (hall : AllTaken taken base 1 (n - 1)) : (candidate base n).length ≤ max :=
      h _ (Or.inl ⟨n, hpos, hlast, rfl, hall⟩)
    refine ⟨?_, fun hall => ?_, fun hall => ?_, fun hall => ?_⟩
    · exact hcandidate 1 le_rfl (by omega) (allTaken_empty (by omega))
    · have hsecond := hcandidate 2 (by omega) (by omega) hall
      rwa [length_candidate (by omega)] at hsecond
    · have htenth := hcandidate 10 (by omega) (by omega) hall
      rwa [length_candidate (by omega)] at htenth
    · have hrandom := h _ (Or.inr ⟨rfl, hall⟩)
      rwa [List.length_append, List.length_cons, htoken] at hrandom
  · rintro ⟨hbase, hsecond, htenth, hrandom⟩ slug (⟨n, hpos, hlast, rfl, hall⟩ | ⟨rfl, hall⟩)
    · rw [length_candidate hlast]
      split
      · exact hbase
      · split
        · exact hsecond fun k hk hle => hall k hk (by omega)
        · exact htenth fun k hk hle => hall k hk (by omega)
    · rw [List.length_append, List.length_cons, htoken]
      exact hrandom hall

/-- The length of a slug by the text before the cut. -/
theorem length_slugify_le (unicode : UnicodeStrings) (input : CodeUnits) {n : ℕ} (hlow : 9 ≤ n)
    (hhigh : n ≤ 39) :
    (slugify unicode input).length ≤ n ↔
      (slugText unicode input).length ≤ n ∨
        n = 39 ∧ (slugText unicode input)[39]? = some hyphen := by
  have htidy := tidy_slugText unicode input
  rw [slugify]
  generalize slugText unicode input = text at *
  by_cases hshort : text.length ≤ 39
  · have hget : text[39]? = none := List.getElem?_eq_none hshort
    have hcut : (text.take maxSlugBaseLength).rdropWhile (· = hyphen) = text := by
      rw [List.take_of_length_le (hshort.trans (by decide)), htidy.rdropWhile_eq]
    rw [hcut, hget]
    split
    · simp
    · next hempty =>
        have hfallback : (codeUnits "workspace").length = 9 := by decide +kernel
        rw [hfallback]
        exact iff_of_true hlow (Or.inl (by omega))
  · have hcut : ((text.take maxSlugBaseLength).rdropWhile (· = hyphen)).length = _ :=
      htidy.length_cut (not_le.mp hshort)
    rw [if_pos (by rw [hcut]; split <;> omega), hcut]
    split
    · next hget =>
        simp only [hget, and_true]
        omega
    · next hget =>
        simp only [hget, and_false, or_false]
        omega

/-- The slug is in the contract. -/
def IsContractSlug (slug : CodeUnits) : Prop :=
  matchesSlugPattern slug = true ∧ slug.length ≤ maxOrganizationSlugLength

/-- The slug was found free, or is the random one that is not looked up. -/
def Resolution.Free (resolution : Resolution) (taken : CodeUnits → Bool)
    (base token : CodeUnits) : Prop :=
  taken resolution.slug = false ∨ resolution.slug = base ++ hyphen :: token

/-- What is generated for a name and a display name satisfies the contract. -/
structure Sound (unicode : UnicodeStrings) (taken : CodeUnits → Bool)
    (name displayName : CodeUnits) (draws : Draws) : Prop where
  bases : IsContractSlug (slugify unicode name) ∧ IsContractSlug (slugify unicode displayName)
  team : ∀ slug ∈ (teamSlug unicode taken name draws).candidates, IsContractSlug slug
  personal : ∀ slug ∈ (personalSlug unicode taken displayName draws).candidates,
    IsContractSlug slug
  teamFree : (teamSlug unicode taken name draws).Free taken (slugify unicode name)
    (shortSlugToken unicode draws.team)
  personalFree : (personalSlug unicode taken displayName draws).Free taken
    (personalWorkspaceSlugBase unicode displayName draws.base)
    (shortSlugToken unicode draws.personal)
  name : (personalWorkspaceName displayName).length ≤ maxOrganizationNameLength
  idempotent : ∀ input, slugify unicode (slugify unicode input) = slugify unicode input

/-- The display name leaves room for what is put behind it and behind its slug. -/
structure LeavesRoom (unicode : UnicodeStrings) (taken : CodeUnits → Bool)
    (displayName : CodeUnits) (base : CodeUnits) : Prop where
  name : displayName.length ≤ 88
  oneDigit : taken base = true →
    (slugText unicode displayName).length ≤ 39 ∨ (slugText unicode displayName)[39]? = some hyphen
  twoDigits : AllTaken taken base 1 9 → (slugText unicode displayName).length ≤ 38
  random : AllTaken taken base 1 50 → (slugText unicode displayName).length ≤ 34

theorem length_base (unicode : UnicodeStrings) (displayName : CodeUnits)
    (bytes : Fin 26 → Byte) : (personalWorkspaceSlugBase unicode displayName bytes).length =
      (slugify unicode displayName).length + 7 := by
  rw [personalWorkspaceSlugBase, List.length_append, List.length_cons,
    (shortSlugToken_slug unicode bytes).2]

theorem matches_base (unicode : UnicodeStrings) (displayName : CodeUnits)
    (bytes : Fin 26 → Byte) :
    matchesSlugPattern (personalWorkspaceSlugBase unicode displayName bytes) = true :=
  isSlug_append (matches_slugify unicode displayName) (shortSlugToken_slug unicode bytes).1

theorem contract_slugify (unicode : UnicodeStrings) (input : CodeUnits) :
    IsContractSlug (slugify unicode input) :=
  ⟨matches_slugify unicode input, (tidy_slugify unicode input).2.2.trans (by decide)⟩

/-- All candidates of a base have the shape, and their lengths are bounded together. -/
theorem candidates_contract_iff (hbase : matchesSlugPattern base = true)
    (htoken : matchesSlugPattern token = true ∧ token.length = 6) :
    (∀ slug ∈ (resolveUniqueSlug taken base token).candidates, IsContractSlug slug) ↔
      base.length ≤ 48 ∧ (AllTaken taken base 1 1 → base.length + 2 ≤ 48) ∧
        (AllTaken taken base 1 9 → base.length + 3 ≤ 48) ∧
        (AllTaken taken base 1 50 → base.length + 7 ≤ 48) := by
  rw [← made_length_iff htoken.2]
  simp only [mem_resolveUniqueSlug, IsContractSlug]
  exact ⟨fun h slug hmade => (h slug hmade).2, fun h slug hmade =>
    ⟨matches_of_made hbase htoken.1 hmade, h slug hmade⟩⟩

theorem resolveUniqueSlug_free (taken : CodeUnits → Bool) (base token : CodeUnits) :
    (resolveUniqueSlug taken base token).Free taken base token :=
  (@resolveFrom_slug taken base token 49 1 le_rfl).imp_right And.left

theorem allTaken_one : AllTaken taken base 1 1 ↔ taken base = true := by
  refine ⟨fun h => h 1 le_rfl le_rfl, fun h n hlow hhigh => ?_⟩
  obtain rfl : n = 1 := by omega
  exact h

/-- Every candidate keeps to the contract exactly when the text leaves room for the suffixes that
are reached. -/
theorem personalSlug_contract_iff (unicode : UnicodeStrings) (taken : CodeUnits → Bool)
    (displayName : CodeUnits) (draws : Draws) :
    (∀ slug ∈ (personalSlug unicode taken displayName draws).candidates, IsContractSlug slug) ↔
      (taken (personalWorkspaceSlugBase unicode displayName draws.base) = true →
        (slugText unicode displayName).length ≤ 39 ∨
          (slugText unicode displayName)[39]? = some hyphen) ∧
      (AllTaken taken (personalWorkspaceSlugBase unicode displayName draws.base) 1 9 →
        (slugText unicode displayName).length ≤ 38) ∧
      (AllTaken taken (personalWorkspaceSlugBase unicode displayName draws.base) 1 50 →
        (slugText unicode displayName).length ≤ 34) := by
  have hlength := (tidy_slugify unicode displayName).2.2
  have hone := length_slugify_le unicode displayName (n := 39) (by omega) le_rfl
  have htwo := length_slugify_le unicode displayName (n := 38) (by omega) (by omega)
  have hsix := length_slugify_le unicode displayName (n := 34) (by omega) (by omega)
  simp only [true_and, Nat.reduceEqDiff, false_and, or_false] at hone htwo hsix
  rw [personalSlug, candidates_contract_iff (matches_base ..) (shortSlugToken_slug ..), length_base,
    allTaken_one, ← hone, ← htwo, ← hsix]
  have hmax : maxSlugBaseLength = 40 := rfl
  rw [hmax] at hlength
  constructor
  · rintro ⟨-, h₁, h₂, h₃⟩
    exact ⟨fun h => by have := h₁ h; omega, fun h => by have := h₂ h; omega,
      fun h => by have := h₃ h; omega⟩
  · rintro ⟨h₁, h₂, h₃⟩
    exact ⟨by omega, fun h => by have := h₁ h; omega, fun h => by have := h₂ h; omega,
      fun h => by have := h₃ h; omega⟩

/-- Generation satisfies the contract exactly for the display names that leave room. -/
theorem generated_names_sound_iff (unicode : UnicodeStrings) (taken : CodeUnits → Bool)
    (name displayName : CodeUnits) (draws : Draws) :
    Sound unicode taken name displayName draws ↔
      LeavesRoom unicode taken displayName
        (personalWorkspaceSlugBase unicode displayName draws.base) := by
  have hname : (personalWorkspaceName displayName).length ≤ maxOrganizationNameLength ↔
      displayName.length ≤ 88 := by
    have hsuffix : (codeUnits "'s Workspace").length = 12 := by decide +kernel
    rw [personalWorkspaceName, List.length_append, hsuffix]
    exact Nat.add_le_add_iff_right (k := 88) (n := 12)
  have hteam : ∀ slug ∈ (teamSlug unicode taken name draws).candidates, IsContractSlug slug := by
    have hlength := (tidy_slugify unicode name).2.2
    have hmax : maxSlugBaseLength = 40 := rfl
    rw [hmax] at hlength
    rw [teamSlug, candidates_contract_iff (matches_slugify ..) (shortSlugToken_slug ..)]
    omega
  have hpersonal := personalSlug_contract_iff unicode taken displayName draws
  constructor
  · intro h
    obtain ⟨h₁, h₂, h₃⟩ := hpersonal.mp h.personal
    exact ⟨hname.mp h.name, h₁, h₂, h₃⟩
  · intro h
    exact {
      bases := ⟨contract_slugify unicode name, contract_slugify unicode displayName⟩
      team := hteam
      personal := hpersonal.mpr ⟨h.oneDigit, h.twoDigits, h.random⟩
      teamFree := resolveUniqueSlug_free ..
      personalFree := resolveUniqueSlug_free ..
      name := hname.mpr h.name
      idempotent := slugify_slugify unicode }

/-- What both contracts ask of a trimmed name. -/
def Accepted (name : CodeUnits) : Prop := 1 ≤ name.length ∧ name.length ≤ maxDisplayNameLength

/-- The Unicode operations on ASCII texts. -/
def asciiUnicode : UnicodeStrings where
  toLowerCase text := text.map asciiLower
  nfkd text := text
  toLowerCase_ascii _ _ := rfl
  nfkd_ascii _ _ := rfl

/-- A display name of a hundred letters. -/
theorem long_display_name_overflows : ¬∀ (unicode : UnicodeStrings) (taken : CodeUnits → Bool)
    (name displayName : CodeUnits) (draws : Draws), Accepted name → Accepted displayName →
      Sound unicode taken name displayName draws := by
  intro h
  have hlong : Accepted (List.replicate 100 97) := by
    rw [Accepted, List.length_replicate]
    decide
  have hsound := h asciiUnicode (fun _ => false) (List.replicate 100 97) (List.replicate 100 97)
    ⟨fun _ => 0, fun _ => 0, fun _ => 0⟩ hlong hlong
  have hover : ¬(personalWorkspaceName (List.replicate 100 97)).length ≤
      maxOrganizationNameLength := by decide +kernel
  exact hover hsound.name

end Orgistry.Model.OrganizationNames
