import Orgistry.Model.Cookies

/-!
# The cookie codec

What the writer encodes, the reader decodes again among any other cookies.  The reader
fails where the first cookie of the name is no encoding.
-/

namespace Orgistry.Model

open Text

namespace BackupConfig

variable {front back text : List Char}

theorem trim_append_left (h : ∀ c ∈ front, isWhiteSpace c = true) (text : List Char) :
    trim (front ++ text) = trim text := by
  rw [trim, trim, trimStart, trimStart, List.dropWhile_append_of_pos h]

theorem trimStart_of_forall (h : ∀ c ∈ text, isWhiteSpace c = true) : trimStart text = [] :=
  List.dropWhile_eq_nil_iff.mpr h

/-- A text without blanks is left when the blanks behind it are gone. -/
theorem trim_append_right (htext : ∀ c ∈ text, isWhiteSpace c = false)
    (hback : ∀ c ∈ back, isWhiteSpace c = true) : trim (text ++ back) = text := by
  have hkeep {other rest : List Char} (hother : ∀ c ∈ other, isWhiteSpace c = false)
      (hrest : other = [] → rest = []) :
      (other ++ rest).dropWhile isWhiteSpace = other ++ rest := by
    cases other with
    | nil =>
        rw [hrest rfl]
        rfl
    | cons c other =>
        rw [List.cons_append, List.dropWhile_cons_of_neg]
        rw [hother c List.mem_cons_self]
        exact Bool.false_ne_true
  cases text with
  | nil =>
      rw [List.nil_append, trim, trimStart_of_forall hback]
      rfl
  | cons c text =>
      rw [trim, trimStart, hkeep htext nofun, List.reverse_append,
        List.dropWhile_append_of_pos fun d hd => hback d (List.mem_reverse.mp hd)]
      have hreverse : ((c :: text).reverse ++ []).dropWhile isWhiteSpace = _ :=
        hkeep (fun d hd => htext d (List.mem_reverse.mp hd)) fun _ => rfl
      rw [List.append_nil] at hreverse
      rw [hreverse, List.reverse_reverse]

end BackupConfig

namespace Cookies

open BackupConfig (trim_append_left trim_append_right)

variable {name value token piece front back : List Char} {pieces before after : List (List Char)}

/-- The piece of a header is no cookie of the name. -/
def OtherName (name piece : List Char) : Prop :=
  ∀ key value, piece = key ++ '=' :: value → '=' ∉ key → BackupConfig.trim key ≠ name

theorem otherName_of_cut
    (h : (cut '=' piece).all fun parts => decide (BackupConfig.trim parts.1 ≠ name)) :
    OtherName name piece := by
  rintro key value rfl hkey
  rw [cut_append hkey, Option.all_some] at h
  exact of_decide_eq_true h

theorem readPairs_cons_of_other (h : OtherName name piece) (pieces : List (List Char)) :
    readPairs name (piece :: pieces) = readPairs name pieces := by
  rw [readPairs]
  cases hcut : cut '=' piece with
  | none => rfl
  | some parts =>
      obtain ⟨key, value⟩ := parts
      dsimp only
      split
      · rfl
      · exact if_neg (h key value (eq_of_cut hcut) (notMem_of_cut hcut))

theorem readPairs_append_of_other (h : ∀ piece ∈ before, OtherName name piece)
    (pieces : List (List Char)) : readPairs name (before ++ pieces) = readPairs name pieces := by
  induction before with
  | nil => rfl
  | cons piece before ih =>
      rw [List.forall_mem_cons] at h
      rw [List.cons_append, readPairs_cons_of_other h.1, ih h.2]

theorem readPairs_of_other (h : ∀ piece ∈ pieces, OtherName name piece) :
    readPairs name pieces = .ok none := by
  have hall := readPairs_append_of_other h []
  rwa [List.append_nil] at hall

/-- Neither a separator of cookies nor a blank. -/
def Plain (c : Char) : Prop := c ≠ ';' ∧ isWhiteSpace c = false

theorem plain_of_isAlphanum {c : Char} (h : c.isAlphanum) : Plain c := by
  have hbounds := isAlphanum_bounds h
  refine ⟨ne_of_isAlphanum h (by decide), ?_⟩
  unfold isWhiteSpace
  simp only [Bool.or_eq_false_iff, Bool.and_eq_false_iff, decide_eq_false_iff_not,
    List.mem_cons, List.not_mem_nil, or_false]
  omega

theorem plain_encodeURIComponent (value : List Char) :
    ∀ c ∈ ObjectStore.encodeURIComponent value, Plain c := by
  have hsigns : ∀ c ∈ "-_.!~*'()".toList, Plain c := by
    simp only [Plain]
    exact List.all_iff_forall_prop.mp (by decide +kernel)
  have hdigits : ∀ n : Fin 16, (upperHexDigit n).isAlphanum := by decide
  refine forall_mem_percentEncode (fun c hc => ?_) ⟨by decide, by decide⟩
    (fun n => plain_of_isAlphanum (hdigits n)) value
  rw [ObjectStore.uriKeep, Bool.or_eq_true, decide_eq_true_eq] at hc
  exact hc.elim plain_of_isAlphanum (hsigns c)

theorem decodeURIComponent_encodeURIComponent (value : List Char) :
    decodeURIComponent (ObjectStore.encodeURIComponent value) = .ok value := by
  rw [decodeURIComponent, ObjectStore.encodeURIComponent,
    strictPercentDecode_percentEncode (by decide)]

/-- What the `Cookie` header has around the pair: blanks, and cookies of other names. -/
structure Surroundings (name : List Char) where
  before : List (List Char)
  front : List Char
  back : List Char
  after : List (List Char)
  clean : '=' ∉ name ∧ ';' ∉ name ∧ BackupConfig.trim name = name
  blanks : ∀ c ∈ front ++ back, isWhiteSpace c = true
  others : ∀ piece ∈ before ++ after, ';' ∉ piece ∧ OtherName name piece

/-- The `Cookie` header with the pair of a `Set-Cookie` header, which ends at its first
semicolon. -/
def Surroundings.header (around : Surroundings name) (setCookie : List Char) : List Char :=
  joinWith ';' (around.before ++
    (around.front ++ setCookie.takeWhile (· ≠ ';') ++ around.back) :: around.after)

theorem notMem_cookiePair (hname : ';' ∉ name) (token : List Char) :
    ';' ∉ cookiePair name token := by
  rw [cookiePair, List.mem_append, not_or, List.mem_cons, not_or]
  exact ⟨hname, by decide, fun hc => (plain_encodeURIComponent token ';' hc).1 rfl⟩

theorem takeWhile_setRefreshCookie (attributes : RefreshCookieAttributes)
    (hname : ';' ∉ attributes.name) (token : List Char) :
    (setRefreshCookie token attributes).takeWhile (· ≠ ';') = cookiePair attributes.name token := by
  have hparts : ∃ rest,
      setRefreshCookie token attributes = cookiePair attributes.name token ++ ';' :: rest :=
    ⟨_, rfl⟩
  obtain ⟨rest, hrest⟩ := hparts
  have hpair : ∀ c ∈ cookiePair attributes.name token, decide (c ≠ ';') = true := fun c hc =>
    decide_eq_true (ne_of_mem_of_not_mem hc (notMem_cookiePair hname token))
  rw [hrest, List.takeWhile_append_of_pos hpair, List.takeWhile_cons_of_neg (by simp),
    List.append_nil]

theorem Surroundings.notMem_front (around : Surroundings name) {c : Char}
    (hc : isWhiteSpace c = false) : c ∉ around.front ∧ c ∉ around.back := by
  rw [← not_or, ← List.mem_append]
  intro hmem
  rw [around.blanks c hmem] at hc
  cases hc

/-- The pair, read. -/
theorem readPairs_pair (around : Surroundings name) (token : List Char) :
    readPairs name ((around.front ++ cookiePair name token ++ around.back) :: around.after) =
      .ok (if name ≠ [] ∨ around.front ≠ [] then some token else none) := by
  have hkey : '=' ∉ around.front ++ name := by
    rw [List.mem_append, not_or]
    exact ⟨(around.notMem_front (by decide)).1, around.clean.1⟩
  have hcut : cut '=' (around.front ++ cookiePair name token ++ around.back) =
      some (around.front ++ name, ObjectStore.encodeURIComponent token ++ around.back) := by
    rw [cookiePair, ← List.append_assoc, List.append_assoc, List.cons_append]
    exact cut_append hkey
  have hfront : ∀ c ∈ around.front, isWhiteSpace c = true := fun c hc =>
    around.blanks c (List.mem_append_left _ hc)
  have hback : ∀ c ∈ around.back, isWhiteSpace c = true := fun c hc =>
    around.blanks c (List.mem_append_right _ hc)
  rw [readPairs, hcut]
  dsimp only
  by_cases hempty : around.front ++ name = []
  · obtain ⟨hfront, hname⟩ := List.append_eq_nil_iff.mp hempty
    have hnone : ¬(name ≠ [] ∨ around.front ≠ []) :=
      not_or.mpr ⟨not_not.mpr hname, not_not.mpr hfront⟩
    rw [if_pos hempty, if_neg hnone]
    exact readPairs_of_other fun piece hpiece =>
      (around.others piece (List.mem_append_right _ hpiece)).2
  · have hsome : name ≠ [] ∨ around.front ≠ [] := by
      by_contra hnone
      rw [not_or, not_not, not_not] at hnone
      exact hempty (List.append_eq_nil_iff.mpr hnone.symm)
    rw [if_neg hempty, trim_append_left hfront, if_pos around.clean.2.2, if_pos hsome,
      trim_append_right (fun c hc => (plain_encodeURIComponent token c hc).2) hback,
      decodeURIComponent_encodeURIComponent]
    rfl

theorem readCookie_some (text name : List Char) :
    readCookie (some text) name = readPairs name (splitOn ';' text) := by
  cases text <;> rfl

/-- The round trip through a header. -/
theorem readCookie_header (attributes : RefreshCookieAttributes)
    (around : Surroundings attributes.name) (token : List Char) :
    readCookie (some (around.header (setRefreshCookie token attributes))) attributes.name =
      .ok (if attributes.name ≠ [] ∨ around.front ≠ [] then some token else none) := by
  have hpieces : ∀ piece ∈ around.before ++
      (around.front ++ cookiePair attributes.name token ++ around.back) :: around.after,
      ';' ∉ piece := by
    intro piece hpiece
    rcases List.mem_append.mp hpiece with hbefore | hpiece
    · exact (around.others piece (List.mem_append_left _ hbefore)).1
    · rcases List.mem_cons.mp hpiece with rfl | hafter
      · have hblank : isWhiteSpace ';' = false := by decide
        rw [List.mem_append, List.mem_append, not_or, not_or]
        exact ⟨⟨(around.notMem_front hblank).1, notMem_cookiePair around.clean.2.1 token⟩,
          (around.notMem_front hblank).2⟩
      · exact (around.others piece (List.mem_append_right _ hafter)).1
  have hbefore : ∀ piece ∈ around.before, OtherName attributes.name piece := fun piece hpiece =>
    (around.others piece (List.mem_append_left _ hpiece)).2
  rw [Surroundings.header, takeWhile_setRefreshCookie attributes around.clean.2.1 token,
    readCookie_some, splitOn_joinWith (by simp) hpieces, readPairs_append_of_other hbefore,
    readPairs_pair]

/-- A pair of key and value whose key, trimmed, is the name. -/
def IsNamed (name : List Char) (cookie : List Char × List Char) : Prop :=
  cookie.1 ≠ [] ∧ BackupConfig.trim cookie.1 = name

instance (name : List Char) : DecidablePred (IsNamed name) := fun _ => instDecidableAnd

/-- The text behind the equals sign of the first cookie of the name. -/
def firstValue (header : Option (List Char)) (name : List Char) : Option (List Char) :=
  (((splitOn ';' (header.getD [])).filterMap (cut '=')).find? (IsNamed name)).map Prod.snd

/-- Every percent sign has two digits, and the bytes are those of a text. -/
def WellEncoded (value : List Char) : Prop :=
  ∃ decoded, strictPercentBytes value = some (encodeUtf8 decoded)

theorem decodeURIComponent_ok_iff :
    (∃ decoded, decodeURIComponent value = .ok decoded) ↔ WellEncoded value := by
  unfold WellEncoded
  simp only [← strictPercentDecode_eq_some_iff]
  rw [decodeURIComponent]
  cases strictPercentDecode value <;> simp

/-- Reading ends with an answer exactly when the first cookie of the name is well encoded. -/
theorem readPairs_ok_iff (name : List Char) (pieces : List (List Char)) :
    (∃ value, readPairs name pieces = .ok value) ↔
      ∀ raw, ((pieces.filterMap (cut '=')).find? (IsNamed name)).map Prod.snd = some raw →
        WellEncoded (BackupConfig.trim raw) := by
  induction pieces with
  | nil => exact iff_of_true ⟨none, rfl⟩ nofun
  | cons piece pieces ih =>
      rw [readPairs]
      cases hcut : cut '=' piece with
      | none => rw [List.filterMap_cons_none hcut, ih]
      | some parts =>
          obtain ⟨key, value⟩ := parts
          rw [List.filterMap_cons_some hcut, List.find?_cons]
          dsimp only
          by_cases hmatch : IsNamed name (key, value)
          · rw [if_neg hmatch.1, if_pos hmatch.2, decide_eq_true hmatch]
            simp only [Option.map_some, Option.some.injEq, forall_eq']
            rw [← decodeURIComponent_ok_iff]
            cases decodeURIComponent (BackupConfig.trim value) <;> simp [Except.map]
          · rw [decide_eq_false hmatch, ← ih]
            by_cases hkey : key = []
            · rw [if_pos hkey]
            · rw [if_neg hkey, if_neg fun hname => hmatch ⟨hkey, hname⟩]

theorem readCookie_ok_iff (header : Option (List Char)) (name : List Char) :
    (∃ value, readCookie header name = .ok value) ↔
      ∀ raw, firstValue header name = some raw → WellEncoded (BackupConfig.trim raw) := by
  cases header with
  | none => exact iff_of_true ⟨none, rfl⟩ nofun
  | some text =>
      rw [readCookie_some]
      exact readPairs_ok_iff name (splitOn ';' text)

/-- The token comes back through every header, unless the name is empty and nothing stands
before the pair; and a header is read without a failure exactly if the first cookie of the
name, if any, is well encoded. -/
theorem cookie_codec_iff (attributes : RefreshCookieAttributes)
    (around : Surroundings attributes.name) (token : List Char)
    (header : Option (List Char)) (name : List Char) :
    (readCookie (some (around.header (setRefreshCookie token attributes))) attributes.name =
        .ok (some token) ↔
      attributes.name ≠ [] ∨ around.front ≠ []) ∧
      ((∃ value, readCookie header name = .ok value) ↔
        ∀ raw, firstValue header name = some raw → WellEncoded (BackupConfig.trim raw)) := by
  refine ⟨?_, readCookie_ok_iff header name⟩
  rw [readCookie_header]
  split <;> simp [*]

def sampleAttributes : RefreshCookieAttributes :=
  { name := "orgistry_rt".toList, path := "/v1/auth".toList, secure := true, maxAgeSeconds := 60 }

/-- A browser sends the cookies of the host in one header. -/
def browserHeader : Surroundings sampleAttributes.name where
  before := ["theme=dark".toList, " orgistry_rt_old=%".toList]
  front := [' ']
  back := []
  after := [" consent".toList, " lang=de".toList]
  clean := by decide
  blanks c hc := by
    obtain rfl : c = ' ' := List.mem_singleton.mp hc
    rfl
  others := by
    have hall : ∀ piece ∈ ["theme=dark".toList, " orgistry_rt_old=%".toList] ++
        [" consent".toList, " lang=de".toList], ';' ∉ piece ∧ (cut '=' piece).all fun parts =>
          decide (BackupConfig.trim parts.1 ≠ sampleAttributes.name) := by
      decide +kernel
    exact fun piece hpiece => ⟨(hall piece hpiece).1, otherName_of_cut (hall piece hpiece).2⟩

theorem cookie_codec_in_browser :
    readCookie (some (browserHeader.header (setRefreshCookie "ort_%;=".toList sampleAttributes)))
        sampleAttributes.name = .ok (some "ort_%;=".toList) ∧
      ∃ value, readCookie (some (browserHeader.header [])) "theme".toList = .ok value := by
  obtain ⟨hround, hread⟩ := cookie_codec_iff sampleAttributes browserHeader "ort_%;=".toList
    (some (browserHeader.header [])) "theme".toList
  refine ⟨hround.mpr (Or.inl (by decide)), hread.mpr ?_⟩
  have hfirst : firstValue (some (browserHeader.header [])) "theme".toList =
      some "dark".toList := by decide +kernel
  rintro raw hraw
  rw [hfirst] at hraw
  cases hraw
  exact ⟨"dark".toList, by decide +kernel⟩

/-- A percent sign alone. -/
theorem readCookie_throws : ¬∀ (header : Option (List Char)) (name : List Char),
    ∃ value, readCookie header name = .ok value := by
  intro h
  obtain ⟨value, hvalue⟩ := h (some "orgistry_rt=%".toList) "orgistry_rt".toList
  have hthrows : readCookie (some "orgistry_rt=%".toList) "orgistry_rt".toList =
      .error .malformed := by decide +kernel
  rw [hthrows] at hvalue
  cases hvalue

end Cookies

end Orgistry.Model
