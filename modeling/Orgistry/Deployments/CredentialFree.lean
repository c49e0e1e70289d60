import Orgistry.Deployments.CredentialUrls
import Orgistry.Model.ReleaseManifest
import Orgistry.Text.JsonNumbers

/-!
# Texts without credentials

Commits, digests, dates and numbers never look like a credential, and a record has none
exactly when none of its strings does.
-/

namespace Orgistry.Deployments

open Text Json Model

def CredentialFree (text : List Char) : Prop := ¬NamesUser text ∧ ¬AssignsCredential text

/-- No string of the value looks like a credential. -/
def NoneWithin (value : Json) : Prop := ∀ text, Contains value text → CredentialFree text

section Within

variable {text : List Char} {items : List Json} {members : List (List Char × Json)}

theorem noneWithin_string : NoneWithin (.string text) ↔ CredentialFree text := by
  refine ⟨fun h => h text (.string text), ?_⟩
  rintro h _ ⟨_⟩
  exact h

theorem noneWithin_number : NoneWithin (.number text) := nofun

theorem noneWithin_bool {b : Bool} : NoneWithin (.bool b) := nofun

theorem noneWithin_null : NoneWithin .null := nofun

theorem noneWithin_array : NoneWithin (.array items) ↔ ∀ item ∈ items, NoneWithin item := by
  refine ⟨fun h item hitem text htext => h text (.array hitem htext), ?_⟩
  rintro h text ⟨_⟩
  next item hitem hcontains => exact h item hitem text hcontains

theorem noneWithin_object : NoneWithin (.object members) ↔ ∀ member ∈ members,
    NoneWithin member.2 := by
  refine ⟨fun h member hmember text htext => h text (.object hmember htext), ?_⟩
  rintro h text ⟨_⟩
  next key item hitem hcontains => exact h (key, item) hitem text hcontains

theorem findEmbeddedCredential_eq_none_iff {record : Json} :
    findEmbeddedCredential record = none ↔ NoneWithin record := by
  rw [← Option.not_isSome_iff_eq_none, findEmbeddedCredential_isSome_iff]
  unfold NoneWithin CredentialFree
  simp only [not_exists, not_and, not_or]

end Within

section Texts

variable {text front back : List Char}

theorem credentialFree_iff : CredentialFree text ↔
    urlPattern.test text = false ∧ assignmentPattern.test text = false := by
  unfold CredentialFree
  rw [← urlPattern_test_iff, ← assignmentPattern_test_iff, Bool.not_eq_true, Bool.not_eq_true]

/-- Without a sign that separates, there is neither shape. -/
theorem credentialFree_of_notMem (hcolon : ':' ∉ text) (hequals : '=' ∉ text) :
    CredentialFree text := by
  constructor
  · rintro ⟨before, user, password, after, rfl, -⟩
    exact hcolon (by simp)
  · rintro ⟨before, name, space, sep, space', c, after, rfl, -, -, -, rfl | rfl, -⟩
    · exact hequals (by simp)
    · exact hcolon (by simp)

theorem CredentialFree.left (h : CredentialFree (front ++ back)) : CredentialFree front := by
  refine ⟨fun hnames => h.1 ?_, fun hassigns => h.2 ?_⟩
  · obtain ⟨before, user, password, after, rfl, hrest⟩ := hnames
    exact ⟨before, user, password, after ++ back, by simp, hrest⟩
  · obtain ⟨before, name, space, sep, space', c, after, rfl, hrest⟩ := hassigns
    exact ⟨before, name, space, sep, space', c, after ++ back, by simp, hrest⟩

/-- What stands behind a sign that is no letter. -/
theorem CredentialFree.right {sign : Char} (hsign : isWord sign = false)
    (h : CredentialFree (front ++ sign :: back)) : CredentialFree back := by
  refine ⟨fun hnames => h.1 ?_, fun hassigns => h.2 ?_⟩
  · obtain ⟨before, user, password, after, rfl, hrest⟩ := hnames
    exact ⟨front ++ sign :: before, user, password, after, by simp, hrest⟩
  · obtain ⟨before, name, space, sep, space', c, after, rfl, hname, hbefore, hrest⟩ := hassigns
    refine ⟨front ++ sign :: before, name, space, sep, space', c, after, by simp, hname, ?_, hrest⟩
    rw [List.getLast?_append_cons, List.getLast?_cons]
    cases hlast : before.getLast? with
    | none => exact hsign
    | some d => rwa [hlast] at hbefore

/-- What `toISOString` writes. -/
def isDateCharacter (c : Char) : Bool := c.isDigit || c ∈ "-:.+TZ".toList

/-- The dates are written as `toISOString` writes them. -/
def WritesDates (toIso : List Char → Option (List Char)) : Prop :=
  ∀ text iso, toIso text = some iso → ∀ c ∈ iso, isDateCharacter c

theorem toUpper_of_isDateCharacter {c : Char} (h : isDateCharacter c) : c.toUpper = c := by
  rcases toUpper_cases c with hsame | ⟨k, rfl⟩
  · exact hsame
  · have hletter : ∀ k : Fin 26, isDateCharacter (Char.ofNat (97 + k.val)) = false := by
      decide +kernel
    rw [hletter k] at h
    cases h

/-- A name of a credential has a letter that no date has. -/
theorem credentialFree_of_date (h : ∀ c ∈ text, isDateCharacter c) : CredentialFree text := by
  constructor
  · rintro ⟨before, user, password, after, rfl, -⟩
    exact absurd (h '/' (by simp)) (by decide +kernel)
  · rintro ⟨before, name, space, sep, space', c, after, rfl, ⟨word, hword, hupper⟩, -⟩
    have hletters : ∀ word ∈ credentialNames,
        (word.map Char.toUpper).all isDateCharacter = false := by decide +kernel
    have hother := hletters word hword
    rw [← hupper, List.all_eq_false] at hother
    obtain ⟨d, hd, hother⟩ := hother
    obtain ⟨c, hc, rfl⟩ := List.mem_map.mp hd
    have hdate : isDateCharacter c := h c (by simp [hc])
    rw [toUpper_of_isDateCharacter hdate] at hother
    exact hother hdate

theorem credentialFree_of_isCommit (h : isCommit text) : CredentialFree text := by
  have hall : ∀ c ∈ text, isLowerHex c := List.all_eq_true.mp (Bool.and_eq_true_iff.mp h).2
  exact credentialFree_of_notMem (fun hmem => absurd (hall _ hmem) (by decide +kernel))
    fun hmem => absurd (hall _ hmem) (by decide +kernel)

theorem credentialFree_decimal (n : ℕ) : CredentialFree (decimal n) := by
  exact credentialFree_of_notMem
    (fun hmem => absurd (decimal_digits n _ hmem) (by decide +kernel))
    fun hmem => absurd (decimal_digits n _ hmem) (by decide +kernel)

theorem mem_of_isMigrationHead (h : isMigrationHead text) :
    ∀ c ∈ text, c.isDigit ∨ isHeadCharacter c := by
  unfold isMigrationHead at h
  simp only [Bool.and_eq_true, decide_eq_true_eq, List.all_eq_true] at h
  obtain ⟨⟨⟨⟨-, hdigits⟩, hsign⟩, -⟩, hrest⟩ := h
  intro c hc
  rw [← List.take_append_drop 4 text, List.mem_append] at hc
  rcases hc with hc | hc
  · exact Or.inl (hdigits c hc)
  · obtain ⟨rest, hrestEq⟩ := List.head?_eq_some_iff.mp hsign
    have hdrop : text.drop 5 = rest := by
      have hsplit : text.drop (4 + 1) = (text.drop 4).drop 1 := List.drop_drop.symm
      rw [hsplit, hrestEq, List.drop_one, List.tail_cons]
    rw [hrestEq, List.mem_cons] at hc
    rcases hc with rfl | hc
    · exact Or.inr rfl
    · exact Or.inr (hrest c (hdrop ▸ hc))

theorem credentialFree_of_isMigrationHead (h : isMigrationHead text) : CredentialFree text := by
  exact credentialFree_of_notMem
    (fun hmem => absurd (mem_of_isMigrationHead h _ hmem) (by decide +kernel))
    fun hmem => absurd (mem_of_isMigrationHead h _ hmem) (by decide +kernel)

end Texts

end Orgistry.Deployments
