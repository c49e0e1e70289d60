import Mathlib.Data.Bool.AllAny
import Mathlib.Tactic.Common
import Orgistry.Model.CredentialGuard
import Orgistry.Text.Cutting

/-!
# Credentials in published records

The guard reads every string of a record, and finds one exactly when it has one of two
shapes: a URL with a user name and a password, or a credential's name with a value.  A
URL with a password and no user name has neither.
-/

namespace Orgistry.Deployments

open Text Model

/-- The string occurs in the record, at any depth. -/
inductive Contains : Json → List Char → Prop
  | string (text : List Char) : Contains (.string text) text
  | array {items : List Json} {item : Json} {text : List Char} (hitem : item ∈ items)
      (h : Contains item text) : Contains (.array items) text
  | object {members : List (List Char × Json)} {key text : List Char} {item : Json}
      (hitem : (key, item) ∈ members) (h : Contains item text) : Contains (.object members) text

mutual

theorem contains_of_iterateStrings {text found : List Char} : ∀ {record : Json} {path : List Char},
    (found, text) ∈ iterateStrings record path → Contains record text
  | .null, _, h => nomatch h
  | .bool _, _, h => nomatch h
  | .number _, _, h => nomatch h
  | .string _, _, h => by
      cases List.mem_singleton.mp h
      exact .string _
  | .array items, path, h => by
      obtain ⟨item, hitem, hcontains⟩ := contains_of_iterateItems h
      exact .array hitem hcontains
  | .object members, path, h => by
      obtain ⟨key, item, hitem, hcontains⟩ := contains_of_iterateMembers h
      exact .object hitem hcontains

theorem contains_of_iterateItems {text found : List Char} :
    ∀ {items : List Json} {path : List Char} {index : ℕ},
      (found, text) ∈ iterateItems items path index → ∃ item ∈ items, Contains item text
  | item :: items, path, index, h => by
      rw [iterateItems, List.mem_append] at h
      rcases h with h | h
      · exact ⟨item, List.mem_cons_self, contains_of_iterateStrings h⟩
      · obtain ⟨other, hother, hcontains⟩ := contains_of_iterateItems h
        exact ⟨other, List.mem_cons_of_mem item hother, hcontains⟩

theorem contains_of_iterateMembers {text found : List Char} :
    ∀ {members : List (List Char × Json)} {path : List Char},
      (found, text) ∈ iterateMembers members path →
        ∃ key item, (key, item) ∈ members ∧ Contains item text
  | (key, item) :: members, path, h => by
      rw [iterateMembers, List.mem_append] at h
      rcases h with h | h
      · exact ⟨key, item, List.mem_cons_self, contains_of_iterateStrings h⟩
      · obtain ⟨other, found, hother, hcontains⟩ := contains_of_iterateMembers h
        exact ⟨other, found, List.mem_cons_of_mem _ hother, hcontains⟩

end

theorem iterateItems_of_mem {items : List Json} {item : Json} {text : List Char}
    (hitem : item ∈ items)
    (h : ∀ path, ∃ found, (found, text) ∈ iterateStrings item path) (path : List Char)
    (index : ℕ) : ∃ found, (found, text) ∈ iterateItems items path index := by
  induction items generalizing index with
  | nil => cases hitem
  | cons first items ih =>
      rw [iterateItems]
      rcases List.mem_cons.mp hitem with rfl | hitem
      · exact (h _).imp fun found hfound => List.mem_append_left _ hfound
      · exact (ih hitem (index + 1)).imp fun found hfound => List.mem_append_right _ hfound

theorem iterateMembers_of_mem {members : List (List Char × Json)} {key : List Char} {item : Json}
    {text : List Char} (hitem : (key, item) ∈ members)
    (h : ∀ path, ∃ found, (found, text) ∈ iterateStrings item path) (path : List Char) :
    ∃ found, (found, text) ∈ iterateMembers members path := by
  induction members with
  | nil => cases hitem
  | cons first members ih =>
      obtain ⟨firstKey, firstItem⟩ := first
      rw [iterateMembers]
      rcases List.mem_cons.mp hitem with hfirst | hitem
      · obtain ⟨rfl, rfl⟩ := Prod.mk.inj hfirst
        exact (h _).imp fun found hfound => List.mem_append_left _ hfound
      · exact (ih hitem).imp fun found hfound => List.mem_append_right _ hfound

theorem iterateStrings_of_contains {record : Json} {text : List Char} (h : Contains record text)
    (path : List Char) : ∃ found, (found, text) ∈ iterateStrings record path := by
  induction h generalizing path with
  | string text => exact ⟨path, List.mem_singleton_self _⟩
  | array hitem _ ih => exact iterateItems_of_mem hitem ih path 0
  | object hitem _ ih => exact iterateMembers_of_mem hitem ih path

/-- `://user:password@` with a user name. -/
def NamesUser (text : List Char) : Prop :=
  ∃ before user password after,
    text = before ++ ("://".toList ++ (user ++ ':' :: (password ++ '@' :: after))) ∧
      user ≠ [] ∧ (∀ c ∈ user, isUserCharacter c) ∧
      password ≠ [] ∧ ∀ c ∈ password, isPasswordCharacter c

def credentialNames : List (List Char) :=
  ["password".toList, "passwd".toList, "secret".toList, "apikey".toList, "api_key".toList,
    "api-key".toList, "JWT_SECRET".toList, "JWT_PREVIOUS_SECRET".toList,
    "SMTP_PASSWORD".toList, "DATABASE_URL".toList, "REDIS_URL".toList]

/-- A name of a credential that stands alone, with a value behind `=` or `:`. -/
def AssignsCredential (text : List Char) : Prop :=
  ∃ before name space sep space' c after,
    text = before ++ (name ++ (space ++ sep :: (space' ++ c :: after))) ∧
      (∃ word ∈ credentialNames, name.map Char.toUpper = word.map Char.toUpper) ∧
      before.getLast?.any isWord = false ∧ (∀ d ∈ space, isWhiteSpace d) ∧
      (sep = '=' ∨ sep = ':') ∧ (∀ d ∈ space', isWhiteSpace d) ∧ isWhiteSpace c = false

/-- The pattern finds a user and a password between the slashes and the at sign. -/
theorem urlPattern_test_iff (text : List Char) : urlPattern.test text ↔ NamesUser text := by
  rw [Regex.test_iff]
  constructor
  · rintro ⟨before, _, after, rfl, scheme, _, rfl, hscheme, user, _, rfl, huser, colon, _, rfl,
      ⟨c, rfl, hc⟩, password, sign, rfl, hpassword, d, rfl, hd⟩
    rw [Regex.matches_literal_iff] at hscheme
    rw [Regex.matches_plus_char_iff] at huser hpassword
    obtain rfl := of_decide_eq_true hc
    obtain rfl := of_decide_eq_true hd
    subst hscheme
    exact ⟨before, user, password, after, by simp, huser.1, huser.2, hpassword⟩
  · rintro ⟨before, user, password, after, rfl, huser, huserAll, hpassword⟩
    refine ⟨before, "://".toList ++ (user ++ ':' :: (password ++ ['@'])), after, by simp, ?_⟩
    refine ⟨_, _, rfl, (Regex.matches_literal_iff _).mpr rfl, user, _, rfl,
      Regex.matches_plus_char_iff.mpr ⟨huser, huserAll⟩, [':'], _, rfl, ⟨':', rfl, rfl⟩,
      password, _, rfl, Regex.matches_plus_char_iff.mpr hpassword, '@', rfl, rfl⟩

theorem toUpper_cases (c : Char) : c.toUpper = c ∨ ∃ k : Fin 26, c = Char.ofNat (97 + k.val) := by
  by_cases h : 'a'.val ≤ c.val ∧ c.val ≤ 'z'.val
  · have hlow : 97 ≤ c.toNat := h.1
    have hhigh : c.toNat ≤ 122 := h.2
    refine Or.inr ⟨⟨c.toNat - 97, by omega⟩, ?_⟩
    rw [Nat.add_sub_cancel' hlow, Char.ofNat_toNat]
  · left
    unfold Char.toUpper
    rw [dif_neg h]

/-- Letters stay letters. -/
theorem isWord_toUpper (c : Char) : isWord c.toUpper = isWord c := by
  rcases toUpper_cases c with hsame | ⟨k, rfl⟩
  · rw [hsame]
  · revert k
    decide +kernel

theorem eq_of_toUpper_eq {c d : Char} (hd : d = '_' ∨ d = '-') (h : c.toUpper = d.toUpper) :
    c = d := by
  have hupper : d.toUpper = d := by rcases hd with rfl | rfl <;> rfl
  rcases toUpper_cases c with hsame | ⟨k, rfl⟩
  · rw [← hsame, h, hupper]
  · have hletter : ∀ k : Fin 26, (Char.ofNat (97 + k.val)).toUpper ≠ '_' ∧
        (Char.ofNat (97 + k.val)).toUpper ≠ '-' := by decide +kernel
    rw [hupper] at h
    rcases hd with rfl | rfl
    · exact absurd h (hletter k).1
    · exact absurd h (hletter k).2

/-- A key of an API, written in one of three ways. -/
theorem apiKey_iff {before : Option Char} {name after : List Char} :
    (Regex.seq (.caseless "api".toList)
      (.seq (.optional (.char fun c => c = '_' || c = '-')) (.caseless "key".toList))).Matches
        before name after ↔
      name.map Char.toUpper = "apikey".toList.map Char.toUpper ∨
        name.map Char.toUpper = "api_key".toList.map Char.toUpper ∨
        name.map Char.toUpper = "api-key".toList.map Char.toUpper := by
  constructor
  · rintro ⟨api, _, rfl, hapi, middle, key, rfl, hmiddle, hkey⟩
    rw [Regex.matches_caseless_iff] at hapi hkey
    rw [List.map_append, List.map_append, hapi, hkey]
    rcases hmiddle with ⟨c, rfl, hc⟩ | hempty
    · rw [Bool.or_eq_true, decide_eq_true_eq, decide_eq_true_eq] at hc
      rcases hc with rfl | rfl
      · exact Or.inr (Or.inl rfl)
      · exact Or.inr (Or.inr rfl)
    · obtain rfl : middle = [] := hempty
      exact Or.inl rfl
  · have hmarked (mark : Char) (hmark : mark = '_' ∨ mark = '-')
        (h : name.map Char.toUpper =
          "api".toList.map Char.toUpper ++ mark.toUpper :: "key".toList.map Char.toUpper) :
        (Regex.seq (.caseless "api".toList) (.seq (.optional (.char fun c => c = '_' || c = '-'))
          (.caseless "key".toList))).Matches before name after := by
      obtain ⟨api, rest, rfl, hapi, hrest⟩ := List.map_eq_append_iff.mp h
      obtain ⟨c, key, rfl, hc, hkey⟩ := List.map_eq_cons_iff.mp hrest
      obtain rfl := eq_of_toUpper_eq hmark hc
      refine ⟨api, _, rfl, (Regex.matches_caseless_iff _).mpr hapi, [c], key, rfl,
        Or.inl ⟨c, rfl, ?_⟩, (Regex.matches_caseless_iff _).mpr hkey⟩
      rcases hmark with rfl | rfl <;> rfl
    rintro (h | h | h)
    · obtain ⟨api, key, rfl, hapi, hkey⟩ := List.map_eq_append_iff.mp
        (show name.map Char.toUpper =
          "api".toList.map Char.toUpper ++ "key".toList.map Char.toUpper from h)
      exact ⟨api, key, rfl, (Regex.matches_caseless_iff _).mpr hapi, [], key, rfl, Or.inr rfl,
        (Regex.matches_caseless_iff _).mpr hkey⟩
    · exact hmarked '_' (Or.inl rfl) h
    · exact hmarked '-' (Or.inr rfl) h

theorem credentialWord_iff {before : Option Char} {name after : List Char} :
    credentialWord.Matches before name after ↔
      ∃ word ∈ credentialNames, name.map Char.toUpper = word.map Char.toUpper := by
  unfold credentialWord
  rw [Regex.matches_oneOf_iff]
  simp only [List.mem_cons, List.not_mem_nil, or_false, exists_eq_or_imp, exists_eq_left,
    apiKey_iff, Regex.matches_caseless_iff, credentialNames, or_assoc]

theorem any_isWord_congr {c d : Option Char} (h : c.map Char.toUpper = d.map Char.toUpper) :
    c.any isWord = d.any isWord := by
  cases c with
  | none =>
      cases d with
      | none => rfl
      | some d => cases h
  | some c =>
      cases d with
      | none => cases h
      | some d =>
          have hupper : c.toUpper = d.toUpper := Option.some.inj h
          rw [Option.any_some, Option.any_some, ← isWord_toUpper c, hupper, isWord_toUpper]

theorem head?_append_of_any {front : List Char} (h : front.head?.any isWord = true)
    (back : List Char) : (front ++ back).head?.any isWord = front.head?.any isWord := by
  cases front with
  | nil => cases h
  | cons c front => rfl

theorem lastOf_of_any {before : Option Char} {text : List Char}
    (h : text.getLast?.any isWord = true) : lastOf before text = text.getLast? := by
  unfold lastOf
  cases hlast : text.getLast? with
  | none =>
      rw [hlast] at h
      cases h
  | some c => rfl

/-- A name of a credential begins and ends with a letter. -/
theorem name_ends {name word : List Char} (hword : word ∈ credentialNames)
    (h : name.map Char.toUpper = word.map Char.toUpper) :
    name.head?.any isWord = true ∧ name.getLast?.any isWord = true := by
  have hends : ∀ word ∈ credentialNames,
      word.head?.any isWord = true ∧ word.getLast?.any isWord = true := by decide +kernel
  have hhead : name.head?.map Char.toUpper = word.head?.map Char.toUpper := by
    rw [← List.head?_map, h, List.head?_map]
  have hlast : name.getLast?.map Char.toUpper = word.getLast?.map Char.toUpper := by
    rw [← List.getLast?_map, h, List.getLast?_map]
  rw [any_isWord_congr hhead, any_isWord_congr hlast]
  exact hends word hword

theorem not_isWord_of_isWhiteSpace {c : Char} (h : isWhiteSpace c = true) : isWord c = false := by
  rw [Bool.eq_false_iff]
  intro hword
  unfold isWord Char.isAlphanum Char.isAlpha Char.isUpper Char.isLower Char.isDigit at hword
  unfold isWhiteSpace at h
  simp only [Bool.or_eq_true, Bool.and_eq_true, decide_eq_true_eq, UInt32.le_iff_toNat_le,
    ge_iff_le, List.mem_cons, List.not_mem_nil, or_false] at hword h
  have hval : c.val.toNat = c.toNat := rfl
  rcases hword with ((⟨hlow, hhigh⟩ | ⟨hlow, hhigh⟩) | ⟨hlow, hhigh⟩) | rfl
  · have : 65 ≤ c.toNat := hlow
    have : c.toNat ≤ 90 := hhigh
    omega
  · have : 97 ≤ c.toNat := hlow
    have : c.toNat ≤ 122 := hhigh
    omega
  · have : 48 ≤ c.toNat := hlow
    have : c.toNat ≤ 57 := hhigh
    omega
  · revert h
    decide

/-- What may follow a name in an assignment is no letter. -/
theorem not_isWord_next {space : List Char} {sep : Char} (hspace : ∀ d ∈ space, isWhiteSpace d)
    (hsep : sep = '=' ∨ sep = ':') (rest : List Char) :
    (space ++ sep :: rest).head?.any isWord = false := by
  cases space with
  | nil => rcases hsep with rfl | rfl <;> rfl
  | cons d space => exact not_isWord_of_isWhiteSpace (hspace d List.mem_cons_self)

/-- The pattern finds the shape of an assignment, wherever it stands. -/
theorem assignmentPattern_test_iff (text : List Char) :
    assignmentPattern.test text ↔ AssignsCredential text := by
  rw [Regex.test_iff]
  constructor
  · rintro ⟨before, _, after, rfl, _, _, rfl, ⟨rfl, hboundary⟩, name, _, rfl, hname, _, _, rfl,
      ⟨rfl, -⟩, space, _, rfl, hspace, _, _, rfl, ⟨sep, rfl, hsep⟩, space', _, rfl, hspace', c,
      rfl, hc⟩
    rw [credentialWord_iff] at hname
    rw [Regex.matches_star_char_iff] at hspace hspace'
    obtain ⟨word, hword, hupper⟩ := hname
    refine ⟨before, name, space, sep, space', c, after, by simp, ⟨word, hword, hupper⟩, ?_, hspace,
      ?_, hspace', by simpa using hc⟩
    · -- the name begins with a letter, so none stands before it
      have hhead := (name_ends hword hupper).1
      rw [List.append_assoc, head?_append_of_any hhead, hhead] at hboundary
      exact Bool.eq_false_iff.mpr hboundary
    · rw [Bool.or_eq_true, decide_eq_true_eq, decide_eq_true_eq] at hsep
      exact hsep
  · rintro ⟨before, name, space, sep, space', c, after, rfl, ⟨word, hword, hupper⟩, hbefore, hspace,
      hsep, hspace', hc⟩
    obtain ⟨hhead, hlast⟩ := name_ends hword hupper
    refine ⟨before, name ++ (space ++ sep :: (space' ++ [c])), after, by simp, [], _, rfl,
      ⟨rfl, ?_⟩, name, _, rfl, credentialWord_iff.mpr ⟨word, hword, hupper⟩, [], _, rfl, ⟨rfl, ?_⟩,
      space, _, rfl, Regex.matches_star_char_iff.mpr hspace, [sep], _, rfl, ⟨sep, rfl, ?_⟩,
      space', _, rfl, Regex.matches_star_char_iff.mpr hspace', c, rfl, ?_⟩
    · change _ ≠ ((name ++ _) ++ after).head?.any isWord
      rw [List.append_assoc, head?_append_of_any hhead, hhead, hbefore]
      decide
    · change (lastOf before.getLast? name).any isWord ≠
        ((space ++ sep :: (space' ++ [c])) ++ after).head?.any isWord
      rw [lastOf_of_any hlast, hlast, List.append_assoc, List.cons_append,
        not_isWord_next hspace hsep]
      decide
    · rcases hsep with rfl | rfl <;> rfl
    · change (!isWhiteSpace c) = true
      rw [hc]
      rfl

/-! ## What the guard finds -/

theorem patterns_isSome_iff (path value : List Char) :
    (credentialPatterns.findSome? fun { name, pattern } =>
        if pattern.test value then some (⟨path, name⟩ : CredentialFinding) else none).isSome ↔
      NamesUser value ∨ AssignsCredential value := by
  rw [← urlPattern_test_iff, ← assignmentPattern_test_iff, List.findSome?_isSome_iff]
  simp only [credentialPatterns, List.mem_cons, List.not_mem_nil, or_false, exists_eq_or_imp,
    exists_eq_left, Option.isSome_ite]

theorem findEmbeddedCredential_isSome_iff (record : Json) :
    (findEmbeddedCredential record).isSome ↔
      ∃ text, Contains record text ∧ (NamesUser text ∨ AssignsCredential text) := by
  unfold findEmbeddedCredential
  rw [List.findSome?_isSome_iff]
  constructor
  · rintro ⟨⟨path, value⟩, hvalue, hfound⟩
    exact ⟨value, contains_of_iterateStrings hvalue, (patterns_isSome_iff path value).mp hfound⟩
  · rintro ⟨value, hvalue, hshape⟩
    obtain ⟨path, hpath⟩ := iterateStrings_of_contains hvalue ['$']
    exact ⟨(path, value), hpath, (patterns_isSome_iff path value).mpr hshape⟩

/-- A URL stands in the text with this user name and this password, which is not empty.
The user information ends at an `@` before the path, the query and the fragment. -/
structure CredentialUrl (text user password : List Char) : Prop where
  url : ∃ before first scheme after,
    text = before ++ (first :: scheme ++ ("://".toList ++ (user ++ ':' ::
      (password ++ '@' :: after)))) ∧
      first.isAlpha ∧ ∀ c ∈ scheme, c.isAlphanum ∨ c ∈ ['+', '-', '.']
  userInfo : ∀ c ∈ user ++ password, c ∉ ['/', '?', '#'] ∧ isWhiteSpace c = false
  userName : ':' ∉ user
  password_ne_nil : password ≠ []

/-- The first `@` behind the user name ends what the pattern takes for the password. -/
theorem CredentialUrl.namesUser {text user password : List Char}
    (h : CredentialUrl text user password) (huser : user ≠ []) (hat : '@' ∉ user)
    (hfirst : password.head? ≠ some '@') : NamesUser text := by
  obtain ⟨before, first, scheme, after, rfl, -, -⟩ := h.url
  obtain ⟨shown, rest, hsplit, hne, hshown, hat'⟩ : ∃ shown rest,
      password ++ '@' :: after = shown ++ '@' :: rest ∧ shown ≠ [] ∧ (∀ c ∈ shown, c ∈ password) ∧
        '@' ∉ shown := by
    by_cases hmem : '@' ∈ password
    · obtain ⟨shown, rest, rfl, hshown⟩ := exists_first hmem
      refine ⟨shown, rest ++ '@' :: after, by simp, ?_, by simp +contextual, hshown⟩
      rintro rfl
      exact hfirst rfl
    · exact ⟨password, after, rfl, h.password_ne_nil, fun c hc => hc, hmem⟩
  refine ⟨before ++ (first :: scheme), user, shown, rest, ?_, huser, fun c hc => ?_, hne,
    fun c hc => ?_⟩
  · rw [← hsplit]
    simp only [List.append_assoc]
  · obtain ⟨hend, hspace⟩ := h.userInfo c (List.mem_append_left _ hc)
    have hslash : c ≠ '/' := fun heq => hend (by simp [heq])
    have hcolon : c ≠ ':' := fun heq => h.userName (heq ▸ hc)
    have hsign : c ≠ '@' := fun heq => hat (heq ▸ hc)
    simp [isUserCharacter, hslash, hcolon, hsign, hspace]
  · obtain ⟨hend, hspace⟩ := h.userInfo c (List.mem_append_right _ (hshown c hc))
    have hslash : c ≠ '/' := fun heq => hend (by simp [heq])
    have hsign : c ≠ '@' := fun heq => hat' (heq ▸ hc)
    simp [isPasswordCharacter, hslash, hsign, hspace]

/-- Some string has a credential URL. -/
def HasCredentialUrl (record : Json) : Prop :=
  ∃ text user password, Contains record text ∧ CredentialUrl text user password

/-- Some string has one whose user is named, and no `@` stands where it should be
escaped. -/
def HasNamedUrl (record : Json) : Prop :=
  ∃ text user password, Contains record text ∧ CredentialUrl text user password ∧
    user ≠ [] ∧ '@' ∉ user ∧ password.head? ≠ some '@'

/-- A credential URL that names its user is always noticed. -/
theorem namedUrl_found {record : Json} (h : HasNamedUrl record) :
    (findEmbeddedCredential record).isSome := by
  obtain ⟨text, user, password, hcontains, hurl, huser, hat, hfirst⟩ := h
  exact (findEmbeddedCredential_isSome_iff record).mpr
    ⟨text, hcontains, Or.inl (hurl.namesUser huser hat hfirst)⟩

/-- The guard notices a record with credential URLs exactly when some string of the record has
one of the two shapes. -/
theorem credential_urls_found_iff (record : Json) :
    (HasCredentialUrl record → (findEmbeddedCredential record).isSome) ↔
      (HasCredentialUrl record →
        ∃ text, Contains record text ∧ (NamesUser text ∨ AssignsCredential text)) :=
  imp_congr_right fun _ => findEmbeddedCredential_isSome_iff record

theorem redis_password_missed :
    ¬ ∀ record : Json, HasCredentialUrl record → (findEmbeddedCredential record).isSome := by
  intro h
  have hfound := h (.object [("cache".toList, .string "redis://:pw@host".toList)])
    ⟨_, [], "pw".toList, .object (List.mem_singleton_self _) (.string _), {
      url := ⟨[], 'r', "edis".toList, "host".toList, rfl, by decide +kernel,
        List.all_iff_forall_prop.mp (by decide +kernel)⟩
      userInfo := List.all_iff_forall_prop.mp (by decide +kernel)
      userName := by decide
      password_ne_nil := by decide }⟩
  revert hfound
  decide +kernel

end Orgistry.Deployments
