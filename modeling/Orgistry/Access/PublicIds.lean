import Orgistry.Model.Ids
import Orgistry.Sampling.Draws

/-!
# Random texts and identifiers

How often each text of an alphabet is drawn, and what public identifiers are read as.
-/

namespace Orgistry.Model

open Text Sampling OrganizationNames

section Alphabet

variable {α : Type} {alphabet : List α} (hne : alphabet ≠ [])

/-- What one byte becomes. -/
def letter (b : Byte) : α :=
  alphabet.get ⟨b.val % alphabet.length, Nat.mod_lt _ (List.length_pos_iff.mpr hne)⟩

/-- The texts of a length over the alphabet. -/
def textsOver (alphabet : List α) (length : ℕ) : Set (List α) :=
  {text | text.length = length ∧ ∀ c ∈ text, c ∈ alphabet}

theorem randomAlphabetString_ofFn {length : ℕ} (bytes : Fin length → Byte) :
    randomAlphabetString alphabet (List.ofFn bytes) = List.ofFn (draws (letter hne) bytes) := by
  have hletter : (fun b : Byte => alphabet[b.val % alphabet.length]?) =
      fun b => some (letter hne b) := by
    funext b
    exact List.getElem?_eq_getElem (Nat.mod_lt _ (List.length_pos_iff.mpr hne))
  calc randomAlphabetString alphabet (List.ofFn bytes)
      = (List.ofFn bytes).filterMap fun b => some (letter hne b) := by
        rw [randomAlphabetString, hletter]
    _ = (List.ofFn bytes).map (letter hne) :=
        congrFun List.filterMap_eq_map _
    _ = List.ofFn (draws (letter hne) bytes) := List.map_ofFn

theorem exists_ofFn {length : ℕ} {text : List α} (htext : text ∈ textsOver alphabet length) :
    ∃ out : Fin length → α, text = List.ofFn out ∧ ∀ i, out i ∈ alphabet := by
  obtain ⟨rfl, hmem⟩ := htext
  exact ⟨text.get, (List.ofFn_get text).symm, fun i => hmem _ (List.get_mem text i)⟩

/-- The guard asks whether the length divides the number of byte values. -/
theorem assertUniformAlphabet_eq_ok_iff (label : List Char) :
    assertUniformAlphabet alphabet label = .ok () ↔ byteDomainSize % alphabet.length = 0 := by
  rw [assertUniformAlphabet]
  split
  · next hbad =>
      simp only [Bool.or_eq_true, decide_eq_true_eq, bne_iff_ne] at hbad
      constructor
      · intro herror
        cases herror
      · intro hzero
        have hempty := hbad.resolve_right (not_not_intro hzero)
        rw [hempty] at hzero
        cases hzero
  · next hgood =>
      simp only [Bool.or_eq_true, decide_eq_true_eq, bne_iff_ne, not_or, not_not] at hgood
      exact iff_of_true rfl hgood.2

variable [DecidableEq α]

theorem letter_eq_iff (hnodup : alphabet.Nodup) {c : α} (b : Byte) :
    letter hne b = c ↔ b.val % alphabet.length = alphabet.idxOf c := by
  constructor
  · intro heq
    rw [← heq, letter, List.get_idxOf hnodup]
  · intro heq
    simp [letter, heq]

/-- The first letters have one byte more when something is left over. -/
theorem card_sources_letter (hnodup : alphabet.Nodup) {c : α} (hc : c ∈ alphabet) :
    (sources (letter hne) c).card = byteDomainSize / alphabet.length +
      if alphabet.idxOf c < byteDomainSize % alphabet.length then 1 else 0 := by
  have hsources : sources (letter hne) c =
      sources (fun b : Byte => b.val % alphabet.length) (alphabet.idxOf c) := by
    ext b
    simp only [sources, Finset.mem_filter, letter_eq_iff hne hnodup]
  rw [hsources, card_sources_mod (List.length_pos_iff.mpr hne) (List.idxOf_lt_length_iff.mpr hc)]
  rfl

/-- A text has the draws of its letters, one after the other. -/
theorem card_sources_text {length : ℕ} (out : Fin length → α) :
    (sources (fun bytes : Fin length → Byte =>
      randomAlphabetString alphabet (List.ofFn bytes)) (List.ofFn out)).card =
        ∏ i, (sources (letter hne) (out i)).card := by
  simp only [randomAlphabetString_ofFn hne]
  rw [sources_comp (g := List.ofFn) List.ofFn_injective, card_sources_draws]

/-- Equally many bytes become each of the letters. -/
theorem letters_unbiased (hnodup : alphabet.Nodup)
    (hmod : byteDomainSize % alphabet.length = 0) {c : α} (hc : c ∈ alphabet) :
    (sources (letter hne) c).card = byteDomainSize / alphabet.length := by
  rw [card_sources_letter hne hnodup hc, hmod, if_neg (Nat.not_lt_zero _), Nat.add_zero]

include hne in
theorem card_sources_of_uniform (hnodup : alphabet.Nodup)
    (hmod : byteDomainSize % alphabet.length = 0) {length : ℕ} {text : List α}
    (htext : text ∈ textsOver alphabet length) :
    (sources (fun bytes : Fin length → Byte =>
      randomAlphabetString alphabet (List.ofFn bytes)) text).card =
        (byteDomainSize / alphabet.length) ^ length := by
  obtain ⟨out, rfl, hout⟩ := exists_ofFn htext
  calc (sources (fun bytes : Fin length → Byte =>
        randomAlphabetString alphabet (List.ofFn bytes)) (List.ofFn out)).card
      = ∏ i, (sources (letter hne) (out i)).card := card_sources_text hne out
    _ = ∏ _i : Fin length, byteDomainSize / alphabet.length :=
        Finset.prod_congr rfl fun i _ => letters_unbiased hne hnodup hmod (hout i)
    _ = (byteDomainSize / alphabet.length) ^ length := by
        rw [Finset.prod_const, Finset.card_univ, Fintype.card_fin]

include hne in
/-- A text of one letter has the bytes of the letter. -/
theorem card_sources_one (hnodup : alphabet.Nodup) {c : α} (hc : c ∈ alphabet) :
    (sources (fun bytes : Fin 1 → Byte => randomAlphabetString alphabet (List.ofFn bytes))
      [c]).card = byteDomainSize / alphabet.length +
        if alphabet.idxOf c < byteDomainSize % alphabet.length then 1 else 0 := by
  have htext := card_sources_text hne fun _ : Fin 1 => c
  rw [Fintype.prod_unique, card_sources_letter hne hnodup hc] at htext
  exact htext

/-- The guard lets an alphabet pass exactly when all its texts of each length are drawn from
equally many byte strings. -/
theorem guarded_alphabets_are_unbiased (hne : alphabet ≠ []) (hnodup : alphabet.Nodup)
    (label : List Char) :
    assertUniformAlphabet alphabet label = .ok () ↔
      ∀ length, Unbiased (fun bytes : Fin length → Byte =>
        randomAlphabetString alphabet (List.ofFn bytes)) (textsOver alphabet length) := by
  rw [assertUniformAlphabet_eq_ok_iff]
  constructor
  · exact fun hmod length => ⟨_, fun text htext => card_sources_of_uniform hne hnodup hmod htext⟩
  · intro hunbiased
    obtain ⟨count, hcount⟩ := hunbiased 1
    have hcard : ∀ c ∈ alphabet, byteDomainSize / alphabet.length +
        (if alphabet.idxOf c < byteDomainSize % alphabet.length then 1 else 0) = count := by
      intro c hc
      have htext : [c] ∈ textsOver alphabet 1 :=
        ⟨rfl, fun d hd => List.mem_singleton.mp hd ▸ hc⟩
      exact (card_sources_one hne hnodup hc).symm.trans (hcount _ htext)
    have hpos : 0 < alphabet.length := List.length_pos_iff.mpr hne
    have hfirst := hcard _ (List.get_mem alphabet ⟨0, hpos⟩)
    have hlast := hcard _ (List.get_mem alphabet ⟨alphabet.length - 1, Nat.sub_one_lt hpos.ne'⟩)
    rw [List.get_idxOf hnodup] at hfirst hlast
    have hlt := Nat.mod_lt byteDomainSize hpos
    by_contra hleft
    rw [if_pos (Nat.pos_of_ne_zero hleft)] at hfirst
    rw [if_neg (by simp only; omega)] at hlast
    omega

/-- The alphabet of the identifiers, and the same without its last two letters. -/
theorem id_alphabet_is_unbiased :
    (∀ length, Unbiased (fun bytes : Fin length → Byte =>
      randomAlphabetString idAlphabet (List.ofFn bytes)) (textsOver idAlphabet length)) ∧
    ¬ ∀ length, Unbiased (fun bytes : Fin length → Byte =>
      randomAlphabetString (idAlphabet.take 30) (List.ofFn bytes))
        (textsOver (idAlphabet.take 30) length) :=
  ⟨(guarded_alphabets_are_unbiased (by decide) (by decide) []).mp rfl,
    (guarded_alphabets_are_unbiased (by decide) (by decide) []).not.mp
      (fun h => by cases h)⟩

end Alphabet

namespace Ids

variable {kind id : List Char} {length : ℕ}

/-- An identifier of this kind, with as many random characters. -/
def IsIdOf (kind : List Char) (length : ℕ) (id : List Char) : Prop :=
  ∃ random, parseId id = some ⟨kind, random⟩ ∧ random ∈ textsOver idAlphabet length

theorem separator_notMem (hkind : isValidPrefix kind) : '_' ∉ kind := by
  have hplain : idPrefixes.all fun text => !text.contains '_' := by decide
  have h := List.all_eq_true.mp hplain kind (List.contains_iff_mem.mp hkind)
  simpa using h

/-- Parsing gives the one division of the text at its first underscore, if both parts are there.
-/
theorem parseId_eq_some_iff {parsed : ParsedId} :
    parseId id = some parsed ↔
      id = parsed.kind ++ '_' :: parsed.random ∧ isValidPrefix parsed.kind ∧
        parsed.random ≠ [] := by
  rw [parseId]
  constructor
  · intro h
    split at h
    · cases h
    · next kind random hcut =>
        split_ifs at h with hempty hrejected
        simp only [Bool.or_eq_true, Bool.not_eq_eq_eq_not, Bool.not_true, decide_eq_true_eq,
          not_or, Bool.not_eq_false] at hrejected
        obtain rfl := Option.some.inj h
        exact ⟨eq_of_cut hcut, hrejected.1, List.length_eq_zero_iff.not.mp hrejected.2⟩
  · rintro ⟨rfl, hkind, hrandom⟩
    have hne : parsed.kind ≠ [] := by
      intro hnil
      rw [hnil] at hkind
      revert hkind
      decide
    rw [cut_append (separator_notMem hkind)]
    simp only [hkind, List.length_eq_zero_iff, hne, hrandom, if_false, Bool.not_true,
      Bool.false_or, decide_false, Bool.false_eq_true]

theorem createId_eq_ok (hkind : isValidPrefix kind) (bytes : List Byte) :
    createId kind bytes = .ok (kind ++ '_' :: randomAlphabetString idAlphabet bytes) :=
  if_pos hkind

/-- What is created is read as such, and as nothing else. -/
theorem isIdOf_created (hkind : isValidPrefix kind) (hlength : 0 < length)
    (bytes : Fin length → Byte) :
    IsIdOf kind length (kind ++ '_' :: randomAlphabetString idAlphabet (List.ofFn bytes)) := by
  have hcount := length_randomAlphabetString (show idAlphabet ≠ [] by decide) (List.ofFn bytes)
  rw [List.length_ofFn] at hcount
  have hrandom : randomAlphabetString idAlphabet (List.ofFn bytes) ≠ [] :=
    List.ne_nil_of_length_pos (hcount.symm ▸ hlength)
  exact ⟨_, parseId_eq_some_iff.mpr ⟨rfl, hkind, hrandom⟩, hcount,
    fun _ => mem_randomAlphabetString⟩

theorem isValidId_of_isIdOf (h : IsIdOf kind length id) (expected : List Char) :
    isValidId id (some expected) = true ↔ expected = kind := by
  obtain ⟨random, hparse, -⟩ := h
  simp [isValidId, hparse]

/-- Every identifier of a kind comes from exactly `8 ^ length` byte strings, and nothing else
is ever created. -/
theorem public_ids_are_uniform (hkind : isValidPrefix kind) (hlength : 0 < length) :
    (∀ bytes : Fin length → Byte, ∃ id, createId kind (List.ofFn bytes) = .ok id ∧
      IsIdOf kind length id ∧ ∀ expected, isValidId id (some expected) = true ↔ expected = kind) ∧
    ∀ id, IsIdOf kind length id →
      (sources (fun bytes : Fin length → Byte => createId kind (List.ofFn bytes))
        (.ok id)).card = 8 ^ length := by
  constructor
  · intro bytes
    have hid := isIdOf_created hkind hlength bytes
    exact ⟨_, createId_eq_ok hkind _, hid, isValidId_of_isIdOf hid⟩
  · rintro id ⟨random, hparse, htext⟩
    obtain ⟨rfl, -, -⟩ := parseId_eq_some_iff.mp hparse
    have hinjective : Function.Injective fun random : List Char =>
        (Except.ok (kind ++ '_' :: random) : Except (List Char) (List Char)) := by
      intro random random' heq
      exact List.cons_inj_right '_' |>.mp (List.append_cancel_left (Except.ok.inj heq))
    calc (sources (fun bytes : Fin length → Byte => createId kind (List.ofFn bytes))
          (.ok (kind ++ '_' :: random))).card
        = (sources (fun bytes : Fin length → Byte =>
            randomAlphabetString idAlphabet (List.ofFn bytes)) random).card := by
          simp only [createId_eq_ok hkind]
          rw [sources_comp hinjective]
      _ = (byteDomainSize / idAlphabet.length) ^ length :=
          card_sources_of_uniform (by decide) (by decide) rfl htext
      _ = 8 ^ length := rfl

/-- The identifier of a user whose random part is all zeros. -/
theorem user_ids_are_uniform :
    (sources (fun bytes : Fin defaultRandomLength → Byte =>
      createId "user".toList (List.ofFn bytes))
        (.ok ("user".toList ++ '_' :: List.replicate defaultRandomLength '0'))).card = 8 ^ 26 :=
  (public_ids_are_uniform (by decide) (by decide)).2 _
    ⟨List.replicate defaultRandomLength '0', parseId_eq_some_iff.mpr ⟨rfl, by decide, by decide⟩,
      List.length_replicate, fun c hc => List.eq_of_mem_replicate hc ▸ (by decide)⟩

end Ids

end Orgistry.Model
