import Mathlib.Data.List.Perm.Basic
import Orgistry.Model.ObjectRequests

/-!
# What is signed is what is sent

The signature is made for the path and the query as the client encodes them, and the
request goes where the parser of URLs leads.  The two queries always mean the same; the
paths are the same exactly when the key has no dot segment.
-/

namespace Orgistry.Backups

open Text Model ObjectStore

/-- What `encodeRfc3986` keeps. -/
def unreserved (c : Char) : Bool := c.isAlphanum || c ∈ "-_.~".toList

theorem unreserved_iff (c : Char) : unreserved c ↔ c.isAlphanum ∨ c ∈ "-_.~".toList := by
  rw [unreserved, Bool.or_eq_true, decide_eq_true_eq]

theorem uriKeep_iff (c : Char) : uriKeep c ↔ unreserved c ∨ c ∈ "!'()*".toList := by
  rw [uriKeep, Bool.or_eq_true, decide_eq_true_eq, unreserved_iff, or_assoc]
  refine or_congr_right ?_
  have hsigns : "-_.!~*'()".toList.Perm ("-_.~".toList ++ "!'()*".toList) := by decide
  rw [hsigns.mem_iff, List.mem_append]

theorem encodeRfc3986_eq (value : List Char) :
    encodeRfc3986 value = percentEncode unreserved value := by
  unfold encodeRfc3986 encodeURIComponent percentEncode
  rw [List.flatMap_assoc]
  congr 1
  funext c
  by_cases hkept : unreserved c
  · have hsign : c ∉ "!'()*".toList := by
      intro hsign
      have hall : ∀ d ∈ "!'()*".toList, unreserved d = false :=
        List.all_iff_forall_prop.mp (by decide +kernel)
      rw [hall c hsign] at hkept
      exact nomatch hkept
    rw [if_pos ((uriKeep_iff c).mpr (Or.inl hkept)), if_pos hkept, List.flatMap_singleton,
      if_neg hsign]
  · rw [if_neg hkept]
    by_cases hsign : c ∈ "!'()*".toList
    · have hall : ∀ d ∈ "!'()*".toList, encodeChar d = [byte d.toNat] :=
        List.all_iff_forall_prop.mp (by decide +kernel)
      rw [if_pos ((uriKeep_iff c).mpr (Or.inr hsign)), List.flatMap_singleton, if_pos hsign,
        hall c hsign, List.flatMap_singleton]
    · rw [if_neg fun h => ((uriKeep_iff c).mp h).elim hkept hsign]
      have hsigns : ∀ d ∈ percentEncode (fun _ => false) [c], d ∉ "!'()*".toList :=
        forall_mem_percentEncode nofun (by decide) (by decide) [c]
      refine flatMap_eq_self fun d hd => if_neg (hsigns d ?_)
      rw [percentEncode, List.flatMap_singleton]
      exact hd

theorem percentDecode_encodeRfc3986 (value : List Char) :
    percentDecode (encodeRfc3986 value) = value := by
  rw [encodeRfc3986_eq]
  exact percentDecode_percentEncode (by decide) value

theorem forall_mem_encodeRfc3986 {P : Char → Prop} (halphanum : ∀ c, c.isAlphanum → P c)
    (hsigns : ∀ c ∈ "-_.~%".toList, P c) (value : List Char) :
    ∀ c ∈ encodeRfc3986 value, P c := by
  rw [encodeRfc3986_eq]
  refine forall_mem_percentEncode (fun c hc => ?_) (hsigns _ (by decide)) (fun n => ?_) value
  · rcases (unreserved_iff c).mp hc with halnum | hsign
    · exact halphanum c halnum
    · exact hsigns c (List.mem_append_left ['%'] hsign)
  · have hdigits : ∀ n : Fin 16, (upperHexDigit n).isAlphanum := by decide
    exact halphanum _ (hdigits n)

theorem notMem_encodeRfc3986 {c : Char} (halphanum : c.isAlphanum = false)
    (hsign : c ∉ "-_.~%".toList) (value : List Char) : c ∉ encodeRfc3986 value := by
  intro hc
  exact forall_mem_encodeRfc3986 (fun d hd => ne_of_isAlphanum hd halphanum)
    (fun d hd => by rintro rfl; exact hsign hd) value c hc rfl

theorem notMem_formEncode {c : Char} (halphanum : c.isAlphanum = false)
    (hsign : c ∉ "*-._%+".toList) (value : List Char) : c ∉ formEncode value := by
  intro hc
  exact forall_mem_formEncode (fun d hd => ne_of_isAlphanum hd halphanum)
    (fun d hd => by rintro rfl; exact hsign hd) value c hc rfl

section QueryPart

variable (query : Query)

/-- The names and values in the order in which they are signed and sent. -/
def entries : List (List Char × List Char) :=
  query.sortedNames.map fun name => (name, query.get name)

theorem get_of_mem {pair : List Char × List Char} (h : pair ∈ query.pairs) :
    query.get pair.1 = pair.2 := by
  have hfind : query.pairs.find? (fun other => other.1 = pair.1) = some pair := by
    have hnodup := query.nodup
    generalize query.pairs = pairs at h hnodup
    induction pairs with
    | nil => cases h
    | cons first pairs ih =>
        rw [List.map_cons, List.nodup_cons] at hnodup
        rcases List.mem_cons.mp h with rfl | h
        · exact List.find?_cons_of_pos (decide_eq_true rfl)
        · have hne : first.1 ≠ pair.1 := fun heq =>
            hnodup.1 (heq ▸ List.mem_map_of_mem h)
          rw [List.find?_cons_of_neg (by simpa using hne), ih h hnodup.2]
  rw [Query.get, hfind]
  rfl

/-- They are the names and values of the query. -/
theorem entries_perm : (entries query).Perm query.pairs := by
  have hnames : query.sortedNames.Perm (query.pairs.map Prod.fst) := List.mergeSort_perm _ _
  have hmap := hnames.map fun name => (name, query.get name)
  have hself : query.pairs.map ((fun name => (name, query.get name)) ∘ Prod.fst) =
      query.pairs := by
    refine (List.map_congr_left fun pair hpair => ?_).trans (List.map_id _)
    rw [Function.comp_apply, get_of_mem query hpair, id_eq]
  rw [List.map_map, hself] at hmap
  exact hmap

/-- The second line but one of the part that is not headers. -/
theorem canonicalQuery_eq :
    joinWith '&' (query.sortedNames.map fun name =>
      encodeRfc3986 name ++ '=' :: encodeRfc3986 (query.get name)) =
        joinPairs encodeRfc3986 (entries query) := by
  rw [joinPairs, entries, List.map_map]
  rfl

theorem readPairs_signed :
    readPairs percentDecode (joinPairs encodeRfc3986 (entries query)) = entries query :=
  readPairs_joinPairs percentDecode_encodeRfc3986
    (notMem_encodeRfc3986 (by decide) (by decide))
    (notMem_encodeRfc3986 (by decide) (by decide)) _

theorem readPairs_sent :
    readPairs formDecode (joinPairs formEncode (entries query)) = entries query :=
  readPairs_joinPairs formDecode_formEncode (notMem_formEncode (by decide) (by decide))
    (notMem_formEncode (by decide) (by decide)) _

end QueryPart

section RequestUrl

variable {store : StoreOptions} {options : SendOptions}

theorem assign_eq {name value : List Char} {pairs : List (List Char × List Char)}
    (h : name ∉ pairs.map Prod.fst) :
    ObjectStore.assign name value pairs = pairs ++ [(name, value)] := by
  induction pairs with
  | nil => rfl
  | cons pair pairs ih =>
      rw [List.map_cons, List.mem_cons, not_or] at h
      rw [ObjectStore.assign, if_neg (Ne.symm h.1), ih h.2, List.cons_append]

/-- Setting new names appends them, and the text of the query follows. -/
theorem set_names {names : List (List Char)} (hnames : names.Nodup) (value : List Char → List Char)
    (url : RequestUrl) (hnew : ∀ name ∈ names, name ∉ url.searchParams.map Prod.fst)
    (hsearch : url.search = joinPairs formEncode url.searchParams) :
    let sent := names.foldl (fun url name => url.set name (value name)) url
    sent.path = url.path ∧
      sent.search =
        joinPairs formEncode (url.searchParams ++ names.map fun name => (name, value name)) := by
  induction names generalizing url with
  | nil => exact ⟨rfl, by rw [List.map_nil, List.append_nil]; exact hsearch⟩
  | cons name names ih =>
      have hparams : (url.set name (value name)).searchParams =
          url.searchParams ++ [(name, value name)] := assign_eq (hnew name List.mem_cons_self)
      obtain ⟨hname, hrest⟩ := List.nodup_cons.mp hnames
      have hstill : ∀ other ∈ names,
          other ∉ (url.set name (value name)).searchParams.map Prod.fst := by
        intro other hother
        rw [hparams, List.map_append, List.mem_append, not_or]
        refine ⟨hnew other (List.mem_cons_of_mem _ hother), ?_⟩
        rw [List.map_singleton, List.mem_singleton]
        rintro rfl
        exact hname hother
      obtain ⟨hpath, htext⟩ := ih hrest (url.set name (value name)) hstill rfl
      refine ⟨hpath, htext.trans ?_⟩
      rw [hparams, List.append_assoc, List.singleton_append, List.map_cons]

theorem requestUrl_eq :
    (requestUrl store options).path =
        parsePath (buildRequestTarget store options.fullKey).path ∧
      (requestUrl store options).search = joinPairs formEncode (entries options.query) := by
  have hnames : options.query.sortedNames.Nodup :=
    (List.mergeSort_perm _ _).nodup_iff.mpr options.query.nodup
  exact set_names hnames options.query.get (RequestUrl.parse _ _) (fun _ _ => List.not_mem_nil) rfl

end RequestUrl

section PathPart

theorem mem_singleDots_encode {segment : List Char} :
    encodeRfc3986 segment ∈ singleDots ↔ segment = ".".toList := by
  constructor
  · intro h
    have hall : ∀ dots ∈ singleDots, percentDecode dots = ".".toList := by decide +kernel
    rw [← percentDecode_encodeRfc3986 segment]
    exact hall _ h
  · rintro rfl
    decide

theorem mem_doubleDots_encode {segment : List Char} :
    encodeRfc3986 segment ∈ doubleDots ↔ segment = "..".toList := by
  constructor
  · intro h
    have hall : ∀ dots ∈ doubleDots, percentDecode dots = "..".toList := by decide +kernel
    rw [← percentDecode_encodeRfc3986 segment]
    exact hall _ h
  · rintro rfl
    decide

theorem encodeRfc3986_plain (value : List Char) :
    ∀ c ∈ encodeRfc3986 value, PathPlain c := by
  exact forall_mem_encodeRfc3986 (fun c => pathPlain_of_isAlphanum)
    (List.all_iff_forall_prop.mp (by decide +kernel)) value

/-- The segments of the path that is signed. -/
def targetSegments (store : StoreOptions) (fullKey : List Char) : List (List Char) :=
  (if store.forcePathStyle then [store.bucket.name] else []) ++
    if fullKey = [] then if store.forcePathStyle then [] else [[]]
    else (splitOn '/' fullKey).map encodeRfc3986

variable (store : StoreOptions) (fullKey : List Char)

theorem path_eq : (buildRequestTarget store fullKey).path =
    pathname (targetSegments store fullKey) := by
  have hkey : '/' :: encodeObjectKey fullKey =
      pathname ((splitOn '/' fullKey).map encodeRfc3986) :=
    (pathname_eq (by simpa using splitOn_ne_nil '/' fullKey)).symm
  unfold buildRequestTarget targetSegments
  cases store.forcePathStyle with
  | true =>
      by_cases hempty : fullKey = []
      · simp [hempty, pathname]
      · simp [hempty, hkey, pathname]
  | false =>
      by_cases hempty : fullKey = []
      · simp [hempty, pathname]
      · simp [hempty, hkey]

theorem targetSegments_ne_nil : targetSegments store fullKey ≠ [] := by
  unfold targetSegments
  cases store.forcePathStyle with
  | true => simp
  | false => by_cases hempty : fullKey = [] <;> simp [hempty, splitOn_ne_nil]

theorem bucket_plain : ∀ c ∈ store.bucket.name, PathPlain c := by
  intro c hc
  rcases store.bucket.chars c hc with halnum | rfl | rfl
  · exact pathPlain_of_isAlphanum halnum
  · decide
  · decide

theorem targetSegments_plain :
    ∀ segment ∈ targetSegments store fullKey, ∀ c ∈ segment, PathPlain c := by
  intro segment hsegment
  rcases List.mem_append.mp hsegment with hbucket | hkey
  · split at hbucket
    · rw [List.mem_singleton.mp hbucket]
      exact bucket_plain store
    · exact absurd hbucket List.not_mem_nil
  · split at hkey
    · split at hkey
      · exact absurd hkey List.not_mem_nil
      · rw [List.mem_singleton.mp hkey]
        exact fun _ => nofun
    · obtain ⟨value, -, rfl⟩ := List.mem_map.mp hkey
      exact encodeRfc3986_plain value

/-- A bucket is not named like a directory. -/
theorem bucket_dotless :
    store.bucket.name ∉ singleDots ∧ store.bucket.name ∉ doubleDots := by
  obtain ⟨c, rest, hname, halnum⟩ := store.bucket.start
  have hall : ∀ dots ∈ singleDots ++ doubleDots, dots.head?.any Char.isAlphanum = false := by
    decide +kernel
  rw [← not_or, ← List.mem_append]
  intro hdots
  have hfirst := hall _ hdots
  rw [hname, List.head?_cons, Option.any_some, halnum] at hfirst
  cases hfirst

/-- No segment of the path is a dot segment exactly when none of the key is. -/
theorem dotless_iff : Dotless (targetSegments store fullKey) ↔
    ∀ segment ∈ splitOn '/' fullKey, segment ≠ ".".toList ∧ segment ≠ "..".toList := by
  have hkey : Dotless ((splitOn '/' fullKey).map encodeRfc3986) ↔
      ∀ segment ∈ splitOn '/' fullKey, segment ≠ ".".toList ∧ segment ≠ "..".toList := by
    unfold Dotless
    rw [List.forall_mem_map]
    simp only [mem_singleDots_encode, mem_doubleDots_encode, ne_eq]
  rw [← hkey]
  have hbucket := bucket_dotless store
  by_cases hempty : fullKey = []
  · refine iff_of_true ?_ ?_
    · intro segment hsegment
      unfold targetSegments at hsegment
      rw [if_pos hempty] at hsegment
      cases hstyle : store.forcePathStyle with
      | true =>
          simp only [hstyle, if_true, List.append_nil, List.mem_singleton] at hsegment
          rwa [hsegment]
      | false =>
          simp only [hstyle, Bool.false_eq_true, if_false, List.nil_append,
            List.mem_singleton] at hsegment
          rw [hsegment]
          decide
    · rw [hempty]
      intro segment hsegment
      have hnone : segment = [] := List.mem_singleton.mp hsegment
      rw [hnone]
      decide
  · unfold targetSegments Dotless
    rw [if_neg hempty, List.forall_mem_append]
    refine and_iff_right ?_
    intro segment hsegment
    split at hsegment
    · rwa [List.mem_singleton.mp hsegment]
    · exact absurd hsegment List.not_mem_nil

theorem path_kept_iff :
    pathname (parsePath (buildRequestTarget store fullKey).path) =
        (buildRequestTarget store fullKey).path ↔
      ∀ segment ∈ splitOn '/' fullKey, segment ≠ ".".toList ∧ segment ≠ "..".toList := by
  rw [path_eq, pathname_parsePath_iff (targetSegments_ne_nil store fullKey)
    (targetSegments_plain store fullKey), dotless_iff]

end PathPart

/-! ## Requests -/

/-- The path and the query that a canonical request states. -/
def signedTarget (canonicalRequest : List Char) : Option (List Char × List Char) := do
  let (_, target) ← cut '\n' canonicalRequest
  let (path, rest) ← cut '\n' target
  let (query, _) ← cut '\n' rest
  return (path, query)

/-- The path that is signed is the path of the URL, and the queries mean the same, which
is what the caller asked for. -/
def SentAsSigned (query : Query) (request : SentRequest) : Prop :=
  ∃ path canonicalQuery, signedTarget request.canonicalRequest = some (path, canonicalQuery) ∧
    pathname request.url.path = path ∧
    readPairs formDecode request.url.search = readPairs percentDecode canonicalQuery ∧
    (readPairs percentDecode canonicalQuery).Perm query.pairs

section Requests

variable {Response Error : Type} (hashing : Hashing) (store : StoreOptions)
  (surroundings : Surroundings Response Error) (options : SendOptions)

/-- The signature covers the path and the query that were built. -/
theorem signedTarget_signedRequest (attempt : ℕ) :
    signedTarget (signedRequest hashing store surroundings options attempt).canonicalRequest =
      some ((buildRequestTarget store options.fullKey).path,
        joinPairs encodeRfc3986 (entries options.query)) := by
  have hmethod : '\n' ∉ options.method.text := by
    cases options.method <;> decide
  have hpath : '\n' ∉ (buildRequestTarget store options.fullKey).path := by
    rw [path_eq]
    intro h
    exact (mem_pathname (targetSegments_plain store options.fullKey) _ h).elim (by decide)
      (by decide)
  have hquery : '\n' ∉ joinPairs encodeRfc3986 (entries options.query) := by
    refine notMem_joinWith (by decide) fun piece hpiece => ?_
    obtain ⟨pair, -, rfl⟩ := List.mem_map.mp hpiece
    have hencoded := notMem_encodeRfc3986 (c := '\n') (by decide) (by decide)
    simp [hencoded]
  unfold signedTarget signedRequest signRequest buildCanonicalRequest
  dsimp only
  rw [canonicalQuery_eq]
  simp only [joinWith, cut_append hmethod, cut_append hpath, cut_append hquery, Option.bind_eq_bind,
    Option.bind_some]
  rfl

/-- The URL parser only rewrites dot segments. -/
theorem sentAsSigned_iff (attempt : ℕ) :
    SentAsSigned options.query (signedRequest hashing store surroundings options attempt) ↔
      ∀ segment ∈ splitOn '/' options.fullKey,
        segment ≠ ".".toList ∧ segment ≠ "..".toList := by
  obtain ⟨hpath, hsearch⟩ : (requestUrl store options).path = _ ∧ _ := requestUrl_eq
  rw [← path_kept_iff store options.fullKey, ← hpath]
  constructor
  · rintro ⟨path, query, htarget, hsame, -⟩
    rw [signedTarget_signedRequest] at htarget
    cases htarget
    exact hsame
  · intro hsame
    refine ⟨_, _, signedTarget_signedRequest hashing store surroundings options attempt, hsame,
      ?_, ?_⟩
    · change readPairs formDecode (requestUrl store options).search = _
      rw [hsearch, readPairs_sent, readPairs_signed]
    · rw [readPairs_signed]
      exact entries_perm options.query

/-- Every attempt makes the request anew. -/
theorem mem_sendFrom {left attempt : ℕ} {last : Option Error} {request : SentRequest}
    (h : request ∈ (sendFrom hashing store surroundings options left attempt last).1) :
    ∃ number, request = signedRequest hashing store surroundings options number := by
  induction left generalizing attempt last with
  | zero => exact absurd h List.not_mem_nil
  | succ left ih =>
      unfold sendFrom at h
      dsimp only at h
      split at h
      · exact ⟨attempt, List.mem_singleton.mp h⟩
      · split at h
        · exact ⟨attempt, List.mem_singleton.mp h⟩
        · rcases List.mem_cons.mp h with h | h
          · exact ⟨attempt, h⟩
          · exact ih h

theorem signedRequest_mem_sendFrom (left attempt : ℕ) (last : Option Error) :
    signedRequest hashing store surroundings options attempt ∈
      (sendFrom hashing store surroundings options (left + 1) attempt last).1 := by
  unfold sendFrom
  dsimp only
  split
  · exact List.mem_singleton_self _
  · split
    · exact List.mem_singleton_self _
    · exact List.mem_cons_self

/-- In every run of `send` all requests are sent as they are signed, if and only if no
segment of the key is a dot segment, or nothing is sent at all. -/
theorem sent_as_signed_iff :
    (∀ request ∈ (send hashing store surroundings options).1,
      SentAsSigned options.query request) ↔
      store.retryMaxAttempts = 0 ∨ ∀ segment ∈ splitOn '/' options.fullKey,
        segment ≠ ".".toList ∧ segment ≠ "..".toList := by
  unfold send
  constructor
  · intro h
    cases hattempts : store.retryMaxAttempts with
    | zero => exact Or.inl rfl
    | succ left =>
        rw [hattempts] at h
        exact Or.inr ((sentAsSigned_iff hashing store surroundings options 1).mp
          (h _ (signedRequest_mem_sendFrom hashing store surroundings options left 1 none)))
  · rintro (hnone | hsegments) request hrequest
    · rw [hnone] at hrequest
      exact absurd hrequest List.not_mem_nil
    · obtain ⟨number, rfl⟩ := mem_sendFrom hashing store surroundings options hrequest
      exact (sentAsSigned_iff hashing store surroundings options number).mpr hsegments

end Requests

/-- A store with path-style addresses. -/
def pathStyleStore : StoreOptions where
  protocol := "https:".toList
  host := "objects.example".toList
  bucket :=
    { name := ['b', 'a', 'k']
      chars := List.all_iff_forall_prop.mp (by decide +kernel)
      start := ⟨'b', ['a', 'k'], rfl, rfl⟩ }
  credentials := ⟨[], [], []⟩
  forcePathStyle := true
  retryWindowMs := 10000
  retryDelayMs := 400
  retryMaxAttempts := 30

/-- A request for the object under a key. -/
def getObject (fullKey : List Char) : SendOptions where
  method := .get
  fullKey
  query := ⟨[], List.nodup_nil⟩
  payloadSha256 := []
  body := none
  extraHeaders := []
  contentLength := none

/-- Attempts that are answered. -/
def answered : Surroundings Unit Unit where
  now _ := "2026-08-27T11:30:45.000Z".toList
  fetch _ := .ok ()
  clock _ := 0
  started := 0

theorem upper_directory_not_signed :
    ¬ ∀ request ∈ (send ⟨id, fun _ message => message⟩ pathStyleStore answered
        (getObject "wal/../base".toList)).1,
      SentAsSigned (getObject "wal/../base".toList).query request := by
  intro h
  have hrequest := h _ (signedRequest_mem_sendFrom _ pathStyleStore answered
    (getObject "wal/../base".toList) 29 1 none)
  exact ((sentAsSigned_iff _ _ _ _ 1).mp hrequest "..".toList (by decide)).2 rfl

end Orgistry.Backups
