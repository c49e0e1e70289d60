import Orgistry.Model.Secrets

/-!
# The text of an API key

The separator is a digit of base64url but not of the display alphabet, so that the
first one after the scheme ends the display id whatever the secret is.
-/

namespace Orgistry.Model.ApiKeySecret

open Text

variable {raw : Option (List Char)} {text displayId secret : List Char}
  {parsed : ParsedApiKey}

/-- The text of a key with these parts. -/
def keyText (displayId secret : List Char) : List Char :=
  scheme ++ separator :: displayId ++ separator :: secret

theorem keyText_eq (displayId secret : List Char) :
    keyText displayId secret = (scheme ++ [separator]) ++ (displayId ++ separator :: secret) := by
  simp only [keyText, List.append_assoc, List.cons_append, List.nil_append]

/-- A key text is read back as what it was made of. -/
theorem parseApiKey_keyText (hid : displayId ≠ []) (hseparator : separator ∉ displayId)
    (hsecret : secret ≠ []) :
    parseApiKey (some (keyText displayId secret)) =
      some ⟨scheme ++ separator :: displayId, secret⟩ := by
  have hcut : cut separator (displayId ++ separator :: secret) = some (displayId, secret) :=
    cut_append hseparator
  rw [keyText_eq]
  unfold parseApiKey
  split
  · next h => cases h
  · next h => cases h
  · next text h =>
      cases h
      dsimp only
      rw [if_pos (List.isPrefixOf_iff_prefix.mpr (List.prefix_append _ _)), List.drop_left, hcut]
      exact if_neg (not_or.mpr ⟨hid, hsecret⟩)

/-- What is parsed, and to what. -/
theorem parseApiKey_eq_some_iff : parseApiKey raw = some parsed ↔
    ∃ displayId secret, raw = some (keyText displayId secret) ∧
      displayId ≠ [] ∧ separator ∉ displayId ∧ secret ≠ [] ∧
      parsed = ⟨scheme ++ separator :: displayId, secret⟩ := by
  refine ⟨fun h => ?_, ?_⟩
  · unfold parseApiKey at h
    split at h
    · cases h
    · cases h
    · next text _ =>
        dsimp only at h
        split at h
        · next hscheme =>
            split at h
            · cases h
            · next displayId secret hcut =>
                split at h
                · cases h
                · next hparts =>
                    obtain ⟨hid, hsecret⟩ := not_or.mp hparts
                    refine ⟨displayId, secret, ?_, hid, notMem_of_cut hcut, hsecret,
                      (Option.some.inj h).symm⟩
                    obtain ⟨remainder, rfl⟩ := List.isPrefixOf_iff_prefix.mp hscheme
                    rw [List.drop_left] at hcut
                    rw [keyText_eq, ← eq_of_cut hcut]
        · cases h
  · rintro ⟨displayId, secret, rfl, hid, hseparator, hsecret, rfl⟩
    exact parseApiKey_keyText hid hseparator hsecret

theorem separator_notMem_displayAlphabet : separator ∉ displayAlphabet := by decide +kernel

/-- A generated key is parsed to its display prefix and its secret, and what is stored is
the hash of what authentication hashes.  Nothing else is parsed but a text of this form,
and it has one reading. -/
theorem parseApiKey_exact (sha256 : List Byte → List Byte) :
    (∀ random : KeyRandomness,
      let generated := generateApiKeySecret sha256 random
      ∃ parsed, parseApiKey (some generated.raw) = some parsed ∧
        parsed.displayPrefix = generated.displayPrefix ∧
        parsed.secretComponent = random.secretText ∧
        generated.secretHash = hashApiKeySecret sha256 parsed.secretComponent) ∧
    ∀ raw parsed, parseApiKey raw = some parsed ↔
      ∃ displayId secret,
        raw = some ("orgistry".toList ++ '_' :: displayId ++ '_' :: secret) ∧
          displayId ≠ [] ∧ '_' ∉ displayId ∧ secret ≠ [] ∧
          parsed = ⟨"orgistry".toList ++ '_' :: displayId, secret⟩ := by
  refine ⟨fun random => ?_, fun raw parsed => parseApiKey_eq_some_iff⟩
  have hid : randomAlphabetString displayAlphabet (List.ofFn random.displayId) ≠ [] := by
    rw [← List.length_pos_iff, length_randomAlphabetString (by decide +kernel), List.length_ofFn]
    decide
  have hseparator :
      separator ∉ randomAlphabetString displayAlphabet (List.ofFn random.displayId) :=
    fun h => separator_notMem_displayAlphabet (mem_randomAlphabetString h)
  have hsecret : random.secretText ≠ [] := by
    refine encodeBase64Url_ne_nil ?_
    rw [← List.length_pos_iff, List.length_ofFn]
    decide
  exact ⟨_, parseApiKey_keyText hid hseparator hsecret, rfl, rfl, rfl⟩

end Orgistry.Model.ApiKeySecret
