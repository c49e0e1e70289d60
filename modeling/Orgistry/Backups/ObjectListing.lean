import Mathlib.Data.List.Nodup
import Orgistry.Model.ObjectListing

/-!
# Complete listings

A server of the protocol lists the keys under a prefix in pages, as XML in which text is
escaped.  The client does not undo the escaping of keys and tokens, so a listing is
complete exactly when no key needs it and every token survives without.
-/

namespace Orgistry.Backups

open Text Model ObjectStore

/-- How a server writes characters as character data: as they are or as a reference. -/
structure Escaping where
  write : Char → List Char
  write_cases : ∀ c, (write c = [c] ∧ c ≠ '<') ∨
    ∃ name, write c = '&' :: (name ++ [';']) ∧ '<' ∉ name

namespace Escaping

def text (escaping : Escaping) (value : List Char) : List Char := value.flatMap escaping.write

theorem notMem_text (escaping : Escaping) (value : List Char) : '<' ∉ escaping.text value := by
  intro h
  obtain ⟨c, -, hc⟩ := List.mem_flatMap.mp h
  rcases escaping.write_cases c with ⟨hwrite, hne⟩ | ⟨name, hwrite, hname⟩
  · rw [hwrite, List.mem_singleton] at hc
    exact hne hc.symm
  · rw [hwrite] at hc
    simp [hname] at hc

/-- References make a text longer. -/
theorem length_le_text (escaping : Escaping) (value : List Char) :
    value.length ≤ (escaping.text value).length ∧
      ((escaping.text value).length = value.length → ∀ c ∈ value, escaping.write c = [c]) := by
  induction value with
  | nil => exact ⟨Nat.le_refl _, fun _ => nofun⟩
  | cons c value ih =>
      have htext : (escaping.text (c :: value)).length =
          (escaping.write c).length + (escaping.text value).length := List.length_append
      rw [htext, List.length_cons]
      rcases escaping.write_cases c with ⟨hwrite, -⟩ | ⟨name, hwrite, -⟩
      · rw [hwrite, List.length_singleton]
        refine ⟨by omega, fun hlength d hd => ?_⟩
        rcases List.mem_cons.mp hd with rfl | hd
        · exact hwrite
        · exact ih.2 (by omega) d hd
      · rw [hwrite, List.length_cons, List.length_append, List.length_singleton]
        exact ⟨by omega, fun hlength => by omega⟩

theorem text_eq_self_iff (escaping : Escaping) (value : List Char) :
    escaping.text value = value ↔ ∀ c ∈ value, escaping.write c = [c] := by
  constructor
  · intro h
    exact (escaping.length_le_text value).2 (congrArg List.length h)
  · intro h
    induction value with
    | nil => rfl
    | cons c value ih =>
        have hrest := ih fun d hd => h d (List.mem_cons_of_mem c hd)
        unfold text at hrest ⊢
        rw [List.flatMap_cons, hrest, h c List.mem_cons_self]
        rfl

end Escaping

/-- The pieces have one element of the name, with this character data. -/
def HasOne (name : String) (raw : List Char) (pieces : List Piece) : Prop :=
  ∃ front back,
    pieces = front ++ .tag name.toList :: .data raw :: .tag ('/' :: name.toList) :: back ∧
      .tag name.toList ∉ front ∧ .tag name.toList ∉ back

/-- Elements `Contents` with other pieces before, between and after them. -/
structure Contents where
  groups : List (List Piece × List Piece)
  last : List Piece

namespace Contents

def pieces (contents : Contents) : List Piece :=
  (contents.groups.flatMap fun (skipped, block) =>
    skipped ++ .tag "Contents".toList :: (block ++ [.tag ('/' :: "Contents".toList)])) ++
      contents.last

/-- There are no other tags of this name. -/
structure Separated (contents : Contents) : Prop where
  skipped : ∀ group ∈ contents.groups, .tag "Contents".toList ∉ group.1
  block : ∀ group ∈ contents.groups, .tag ('/' :: "Contents".toList) ∉ group.2
  last : .tag "Contents".toList ∉ contents.last

end Contents

/-- A response that lists the keys of a page, and names the token of the next one if
there is one. -/
structure Lists (escaping : Escaping) (page : List (List Char)) (next : Option (List Char))
    (contents : Contents) : Prop where
  plain : ∀ piece ∈ contents.pieces, piece.Plain
  separated : contents.Separated
  keys : List.Forall₂ (fun key group => HasOne "Key" (escaping.text key) group.2) page
    contents.groups
  truncated : HasOne "IsTruncated" (if next.isSome then "true".toList else "false".toList)
    contents.pieces
  token : ∀ token ∈ next, HasOne "NextContinuationToken" (escaping.text token) contents.pieces

/-- A server with the keys it stores and, for each prefix, the pages of a listing, the
tokens of all pages but the first, and its responses.  Any page may be empty. -/
structure ListingServer where
  keys : List (List Char)
  nodup : keys.Nodup
  escaping : Escaping
  pages : List Char → List (List (List Char))
  pages_ne_nil : ∀ keyPrefix, pages keyPrefix ≠ []
  flatten_pages : ∀ keyPrefix,
    (pages keyPrefix).flatten = keys.filter fun key => keyPrefix.isPrefixOf key
  token : List Char → ℕ → List Char
  resume : List Char → List Char → Option ℕ
  resume_token : ∀ keyPrefix i, 0 < i → i < (pages keyPrefix).length →
    resume keyPrefix (token keyPrefix i) = some i
  response : List Char → ℕ → Contents
  lists : ∀ keyPrefix i page, (pages keyPrefix)[i]? = some page →
    Lists escaping page
      (if i + 1 < (pages keyPrefix).length then some (token keyPrefix (i + 1)) else none)
      (response keyPrefix i)
  refusal : Refusal

namespace ListingServer

variable (server : ListingServer)

/-- The keys that a listing under the prefix has to give. -/
def keysUnder (keyPrefix : List Char) : List (List Char) :=
  server.keys.filter fun key => keyPrefix.isPrefixOf key

/-- The page a query asks for. -/
def pageOf (query : ListQuery) : Option ℕ :=
  match query.continuationToken with
  | none => some 0
  | some token => server.resume query.keyPrefix token

/-- A token that is not one of the listing is refused. -/
def answer (query : ListQuery) : Except Refusal (List Char) :=
  match server.pageOf query with
  | none => .error server.refusal
  | some i =>
      if i < (server.pages query.keyPrefix).length then
        .ok (renderAll (server.response query.keyPrefix i).pieces)
      else .error server.refusal

end ListingServer

section OnePage

variable {escaping : Escaping} {page : List (List Char)} {next : Option (List Char)}
  {contents : Contents}

theorem read_of_hasOne {name : String} {raw : List Char} {pieces : List Piece}
    (hname : '>' ∉ name.toList) (hplain : ∀ piece ∈ pieces, piece.Plain)
    (hone : HasOne name raw pieces) (hraw : '<' ∉ raw) : read (renderAll pieces) name = raw := by
  obtain ⟨front, back, rfl, hfront, -⟩ := hone
  unfold ObjectStore.read
  rw [matchElement_renderAll hname (fun piece hpiece => ⟨hplain piece (by simp [hpiece]), ?_⟩) hraw]
  · rfl
  · rintro rfl
    exact hfront hpiece

theorem block_plain (h : Lists escaping page next contents) {group : List Piece × List Piece}
    (hgroup : group ∈ contents.groups) :
    (∀ piece ∈ group.1, piece.Plain) ∧ ∀ piece ∈ group.2, piece.Plain := by
  have hmem : ∀ piece, piece ∈ group.1 ∨ piece ∈ group.2 → piece ∈ contents.pieces := by
    intro piece hpiece
    refine List.mem_append_left _ (List.mem_flatMap.mpr ⟨group, hgroup, ?_⟩)
    rcases hpiece with hpiece | hpiece <;> simp [hpiece]
  exact ⟨fun piece hpiece => h.plain piece (hmem piece (Or.inl hpiece)),
    fun piece hpiece => h.plain piece (hmem piece (Or.inr hpiece))⟩

theorem length_groups_le (contents : Contents) :
    contents.groups.length ≤ (renderAll contents.pieces).length := by
  obtain ⟨groups, last⟩ := contents
  induction groups with
  | nil => exact Nat.zero_le _
  | cons group groups ih =>
      have hpieces : Contents.pieces ⟨group :: groups, last⟩ =
          group.1 ++ .tag "Contents".toList ::
            (group.2 ++ [.tag ('/' :: "Contents".toList)] ++
              Contents.pieces ⟨groups, last⟩) := by
        simp only [Contents.pieces, List.flatMap_cons, List.append_assoc, List.cons_append]
      have htag : 1 ≤ (Piece.render (.tag "Contents".toList)).length := by decide
      rw [hpieces, renderAll_append, renderAll_cons, renderAll_append, List.length_append,
        List.length_append, List.length_append, List.length_cons]
      dsimp only at ih
      omega

/-- The blocks of a listing do not run into one another. -/
theorem matchAllBlocks_eq (h : Lists escaping page next contents) :
    matchAllBlocks "Contents".toList (renderAll contents.pieces) =
      contents.groups.map fun (_, block) => renderAll block := by
  refine matchBlocks_renderAll (by decide) ?_ ?_ ?_ (length_groups_le contents)
  · intro group hgroup piece hpiece
    refine ⟨(block_plain h hgroup).1 piece hpiece, ?_⟩
    rintro rfl
    exact h.separated.skipped group hgroup hpiece
  · intro group hgroup piece hpiece
    refine ⟨(block_plain h hgroup).2 piece hpiece, ?_⟩
    rintro rfl
    exact h.separated.block group hgroup hpiece
  · intro piece hpiece
    refine ⟨h.plain piece (List.mem_append_right _ hpiece), ?_⟩
    rintro rfl
    exact h.separated.last hpiece

/-- The client finds the keys as the server wrote them. -/
theorem keys_parsed (h : Lists escaping page next contents) :
    (parseListObjectsResponse (renderAll contents.pieces)).objects.map ListedObject.key =
      page.map escaping.text := by
  have hblocks : (parseListObjectsResponse (renderAll contents.pieces)).objects.map
      ListedObject.key = contents.groups.map fun group => read (renderAll group.2) "Key" := by
    unfold parseListObjectsResponse
    rw [matchAllBlocks_eq h, List.map_map, List.map_map]
    rfl
  rw [hblocks]
  have hread : ∀ group ∈ contents.groups, ∀ key,
      HasOne "Key" (escaping.text key) group.2 →
        read (renderAll group.2) "Key" = escaping.text key := by
    intro group hgroup key hone
    exact read_of_hasOne (by decide) (block_plain h hgroup).2 hone (escaping.notMem_text key)
  clear hblocks
  have hkeys := h.keys
  clear h
  generalize contents.groups = groups at hkeys hread ⊢
  induction hkeys with
  | nil => rfl
  | cons hone _ ih =>
      rw [List.map_cons, List.map_cons, hread _ List.mem_cons_self _ hone,
        ih fun group hgroup => hread group (List.mem_cons_of_mem _ hgroup)]

/-- The client finds the token as the server wrote it. -/
theorem token_parsed (h : Lists escaping page next contents) :
    (parseListObjectsResponse (renderAll contents.pieces)).continuationToken =
      (next.map escaping.text).getD [] := by
  obtain ⟨front, back, hpieces, hfront, hback⟩ := h.truncated
  have hplain : ∀ piece, piece ∈ front ∨ piece ∈ back → piece.Plain := by
    intro piece hpiece
    refine h.plain piece ?_
    rw [hpieces]
    rcases hpiece with hpiece | hpiece <;> simp [hpiece]
  have hraw : '<' ∉ (if next.isSome then "true".toList else "false".toList) := by
    split <;> decide
  have hfound : (breakAt (openTag "IsTruncated".toList ++ ("true".toList ++
      closeTag "IsTruncated".toList)) (renderAll contents.pieces)).isSome ↔
        (if next.isSome then "true".toList else "false".toList) = "true".toList := by
    rw [hpieces]
    exact breakAt_element (by decide)
      (fun piece hpiece => ⟨hplain piece (Or.inl hpiece), fun heq => hfront (heq ▸ hpiece)⟩)
      (fun piece hpiece => ⟨hplain piece (Or.inr hpiece), fun heq => hback (heq ▸ hpiece)⟩)
      hraw (by decide)
  unfold parseListObjectsResponse
  dsimp only
  cases hnext : next with
  | none =>
      rw [hnext] at hfound
      rw [if_neg fun htruncated => ?_]
      · rfl
      · exact absurd (hfound.mp htruncated) (by decide)
  | some token =>
      rw [hnext] at hfound
      rw [if_pos (hfound.mpr rfl)]
      exact read_of_hasOne (by decide) h.plain (h.token token hnext) (escaping.notMem_text token)

end OnePage

/-! ## All pages -/

section AllPages

variable (server : ListingServer) (keyPrefix : List Char)

namespace ListingServer

def page (i : ℕ) : List (List Char) := ((server.pages keyPrefix)[i]?).getD []

/-- The token to continue behind a page as it is written in the response, and empty
behind the last one. -/
def writtenToken (i : ℕ) : List Char :=
  if i + 1 < (server.pages keyPrefix).length then
    server.escaping.text (server.token keyPrefix (i + 1))
  else []

/-- Where the tokens lead from a page when they are used as they are written. -/
inductive Trail : ℕ → List ℕ → Prop
  | last {i : ℕ} (hpage : i < (server.pages keyPrefix).length)
      (hend : server.writtenToken keyPrefix i = []) : Trail i [i]
  | more {i j : ℕ} {rest : List ℕ} (hpage : i < (server.pages keyPrefix).length)
      (hnext : server.writtenToken keyPrefix i ≠ [])
      (hresume : server.resume keyPrefix (server.writtenToken keyPrefix i) = some j)
      (hrest : Trail j rest) : Trail i (i :: rest)

end ListingServer

variable {server keyPrefix}

open ListingServer

/-- The client reads the keys and the token of a page as they are written in the XML. -/
theorem answer_page {query : ListQuery} {i : ℕ} (hquery : server.pageOf query = some i)
    (hpage : i < (server.pages query.keyPrefix).length) :
    ∃ xml, server.answer query = .ok xml ∧
      (parseListObjectsResponse xml).objects.map ListedObject.key =
        (server.page query.keyPrefix i).map server.escaping.text ∧
      (parseListObjectsResponse xml).continuationToken =
        server.writtenToken query.keyPrefix i := by
  have hget := List.getElem?_eq_getElem hpage
  have hlists := server.lists query.keyPrefix i _ hget
  refine ⟨renderAll (server.response query.keyPrefix i).pieces, ?_, ?_, ?_⟩
  · unfold answer
    rw [hquery]
    exact if_pos hpage
  · rw [keys_parsed hlists, page, hget]
    rfl
  · rw [token_parsed hlists, writtenToken]
    split <;> rfl

/-- Along a trail a listing ends, with the keys of its pages as they are written. -/
theorem listFrom_of_trail {i : ℕ} {order : List ℕ} (htrail : server.Trail keyPrefix i order)
    (token : List Char)
    (hpage : server.pageOf ⟨keyPrefix, if token = [] then none else some token⟩ = some i)
    (found : List ListedObject) :
    ∃ limit objects, listFrom server.answer keyPrefix limit token found = some (.ok objects) ∧
      objects.map ListedObject.key = found.map ListedObject.key ++
        (order.flatMap (server.page keyPrefix)).map server.escaping.text := by
  induction htrail generalizing token found with
  | last hin hend =>
      obtain ⟨xml, hanswer, hkeys, htoken⟩ := answer_page hpage hin
      refine ⟨1, found ++ (parseListObjectsResponse xml).objects, ?_, ?_⟩
      · rw [listFrom, hanswer]
        exact if_pos (htoken.trans hend)
      · rw [List.map_append, hkeys, List.flatMap_singleton]
  | more hin hnext hresume _ ih =>
      obtain ⟨xml, hanswer, hkeys, htoken⟩ := answer_page hpage hin
      dsimp only at htoken
      obtain ⟨limit, objects, hlist, hobjects⟩ := ih (parseListObjectsResponse
        xml).continuationToken (by rw [htoken, if_neg hnext]; exact hresume)
          (found ++ (parseListObjectsResponse xml).objects)
      refine ⟨limit + 1, objects, ?_, ?_⟩
      · rw [listFrom, hanswer]
        dsimp only
        rw [if_neg (htoken ▸ hnext), hlist]
      · rw [hobjects, List.map_append, hkeys, List.flatMap_cons, List.map_append,
          List.append_assoc]

/-- A listing that ends has followed a trail of tokens, by induction on the requests. -/
theorem trail_of_listFrom {limit : ℕ} {token : List Char} {found objects : List ListedObject}
    {i : ℕ}
    (hpage : server.pageOf ⟨keyPrefix, if token = [] then none else some token⟩ = some i)
    (hlist : listFrom server.answer keyPrefix limit token found = some (.ok objects)) :
    ∃ order, server.Trail keyPrefix i order ∧
      objects.map ListedObject.key = found.map ListedObject.key ++
        (order.flatMap (server.page keyPrefix)).map server.escaping.text := by
  induction limit generalizing token found i with
  | zero => exact nomatch hlist
  | succ limit ih =>
      have hin : i < (server.pages keyPrefix).length := by
        by_contra hin
        unfold listFrom answer at hlist
        rw [hpage] at hlist
        dsimp only at hlist
        rw [if_neg hin] at hlist
        exact nomatch hlist
      obtain ⟨xml, hanswer, hkeys, htoken⟩ := answer_page hpage hin
      dsimp only at htoken
      rw [listFrom, hanswer] at hlist
      dsimp only at hlist
      split at hlist
      · next hend =>
          cases hlist
          refine ⟨[i], .last hin (htoken.symm.trans hend), ?_⟩
          rw [List.map_append, hkeys, List.flatMap_singleton]
      · next hnext =>
          -- a token that is refused ends the listing with an error
          cases hresume : server.resume keyPrefix (parseListObjectsResponse
              xml).continuationToken with
          | none =>
              cases limit with
              | zero => exact nomatch hlist
              | succ limit =>
                  rw [listFrom, if_neg hnext] at hlist
                  unfold answer pageOf at hlist
                  dsimp only at hlist
                  rw [hresume] at hlist
                  exact nomatch hlist
          | some j =>
              obtain ⟨order, htrail, hobjects⟩ := ih
                (by rw [if_neg hnext]; exact hresume) hlist
              refine ⟨i :: order, .more hin (htoken ▸ hnext) (htoken ▸ hresume) htrail, ?_⟩
              rw [hobjects, List.map_append, hkeys, List.flatMap_cons, List.map_append,
                List.append_assoc]

end AllPages

/-- Written keys that are the keys of a set are written as they are: one that is not
would be written for a shorter key of the set. -/
theorem Escaping.text_eq_self_of_subset {escaping : Escaping} {keys visited : List (List Char)}
    (hvisited : visited ⊆ keys) (hkeys : keys ⊆ visited.map escaping.text) :
    ∀ key ∈ keys, escaping.text key = key := by
  suffices h : ∀ n, ∀ key ∈ keys, key.length = n → escaping.text key = key from
    fun key hkey => h key.length key hkey rfl
  intro n
  induction n using Nat.strongRecOn with
  | ind n ih =>
      intro key hkey hlength
      obtain ⟨source, hsource, rfl⟩ := List.mem_map.mp (hkeys hkey)
      obtain ⟨hle, heq⟩ := escaping.length_le_text source
      have hself : escaping.text source = source := by
        rcases Nat.lt_or_eq_of_le hle with hlt | hsame
        · exact ih source.length (hlength ▸ hlt) source (hvisited hsource) rfl
        · exact (escaping.text_eq_self_iff source).mpr (heq hsame.symm)
      rw [hself, hself]

section Complete

variable {server : ListingServer} {keyPrefix : List Char}

open ListingServer

theorem ListingServer.Trail.lt {i : ℕ} {order : List ℕ} (htrail : server.Trail keyPrefix i order) :
    ∀ j ∈ order, j < (server.pages keyPrefix).length := by
  induction htrail with
  | last hpage _ => simpa using hpage
  | more hpage _ _ _ ih => simpa using ⟨hpage, ih⟩

theorem page_range : (List.range (server.pages keyPrefix).length).map (server.page keyPrefix) =
    server.pages keyPrefix := by
  refine List.ext_getElem (by simp) fun i h _ => ?_
  rw [List.length_map, List.length_range] at h
  simp [page, h]

theorem flatMap_range :
    (List.range (server.pages keyPrefix).length).flatMap (server.page keyPrefix) =
      server.keysUnder keyPrefix := by
  rw [List.flatMap_def, page_range, server.flatten_pages]
  rfl

theorem nodup_keysUnder : (server.keysUnder keyPrefix).Nodup := server.nodup.filter _

/-- Pages have no key in common. -/
theorem page_disjoint {i j : ℕ} (hi : i < (server.pages keyPrefix).length)
    (hj : j < (server.pages keyPrefix).length) {key : List Char}
    (hkeyi : key ∈ server.page keyPrefix i) (hkeyj : key ∈ server.page keyPrefix j) : i = j := by
  have hnodup : (server.keysUnder keyPrefix).Nodup := nodup_keysUnder
  rw [← flatMap_range, List.nodup_flatMap] at hnodup
  have hpairs := List.pairwise_iff_getElem.mp hnodup.2
  simp only [List.length_range, List.getElem_range] at hpairs
  rcases Nat.lt_trichotomy i j with hlt | heq | hlt
  · exact absurd hkeyj (hpairs i j hi hj hlt hkeyi)
  · exact heq
  · exact absurd hkeyi (hpairs j i hj hi hlt hkeyj)

theorem nodup_page (i : ℕ) : (server.page keyPrefix i).Nodup := by
  rcases Nat.lt_or_ge i (server.pages keyPrefix).length with hi | hi
  · have hnodup : (server.keysUnder keyPrefix).Nodup := nodup_keysUnder
    rw [← flatMap_range, List.nodup_flatMap] at hnodup
    exact hnodup.1 i (List.mem_range.mpr hi)
  · rw [page, List.getElem?_eq_none hi]
    exact List.nodup_nil

/-- The keys of a page are found as often as the page is passed. -/
theorem count_flatMap_page {order : List ℕ} {i : ℕ} {key : List Char}
    (hlt : ∀ j ∈ order, j < (server.pages keyPrefix).length)
    (hi : i < (server.pages keyPrefix).length) (hkey : key ∈ server.page keyPrefix i) :
    (order.flatMap (server.page keyPrefix)).count key = order.count i := by
  induction order with
  | nil => rfl
  | cons j order ih =>
      have hrest := ih fun l hl => hlt l (List.mem_cons_of_mem j hl)
      rw [List.flatMap_cons, List.count_append, hrest]
      by_cases hij : j = i
      · subst hij
        rw [List.count_cons_self, List.count_eq_one_of_mem (nodup_page j) hkey, Nat.add_comm]
      · have hother : key ∉ server.page keyPrefix j := fun h =>
          hij (page_disjoint (hlt j List.mem_cons_self) hi h hkey)
        rw [List.count_cons_of_ne hij, List.count_eq_zero_of_not_mem hother, Nat.zero_add]

/-- The list of page numbers has every page with keys exactly once. -/
def ListingServer.PassesOnce (server : ListingServer) (keyPrefix : List Char)
    (order : List ℕ) : Prop :=
  ∀ i, server.page keyPrefix i ≠ [] → order.count i = 1

theorem page_subset {order : List ℕ} {i : ℕ} (htrail : server.Trail keyPrefix i order) :
    order.flatMap (server.page keyPrefix) ⊆ server.keysUnder keyPrefix := by
  rw [← flatMap_range]
  intro key hkey
  obtain ⟨i, hi, hkey⟩ := List.mem_flatMap.mp hkey
  exact List.mem_flatMap.mpr ⟨i, List.mem_range.mpr (htrail.lt i hi), hkey⟩

/-- The pages of a trail have all keys, each once, exactly when the trail passes each
page with keys once. -/
theorem ListingServer.Trail.keys_perm_iff {order : List ℕ}
    (htrail : server.Trail keyPrefix 0 order) :
    (order.flatMap (server.page keyPrefix)).Perm (server.keysUnder keyPrefix) ↔
      server.PassesOnce keyPrefix order := by
  constructor
  · intro hkeys i hpage
    obtain ⟨key, hkey⟩ := List.exists_mem_of_ne_nil _ hpage
    have hi : i < (server.pages keyPrefix).length := by
      by_contra hi
      rw [page, List.getElem?_eq_none (Nat.not_lt.mp hi)] at hpage
      exact hpage rfl
    have hfound : key ∈ server.keysUnder keyPrefix := by
      rw [← flatMap_range]
      exact List.mem_flatMap.mpr ⟨i, List.mem_range.mpr hi, hkey⟩
    rw [← count_flatMap_page htrail.lt hi hkey, hkeys.count_eq key]
    exact List.count_eq_one_of_mem nodup_keysUnder hfound
  · intro honce
    refine List.perm_iff_count.mpr fun key => ?_
    by_cases hkey : key ∈ server.keysUnder keyPrefix
    · rw [List.count_eq_one_of_mem nodup_keysUnder hkey]
      rw [← flatMap_range] at hkey
      obtain ⟨i, hi, hkey⟩ := List.mem_flatMap.mp hkey
      rw [count_flatMap_page htrail.lt (List.mem_range.mp hi) hkey]
      exact honce i (List.ne_nil_of_mem hkey)
    · rw [List.count_eq_zero_of_not_mem hkey,
        List.count_eq_zero_of_not_mem fun hfound => hkey (page_subset htrail hfound)]

/-- The trail of a listing that gives all keys, which are written as they are. -/
theorem trail_of_complete {normalizedPrefix keyPrefix : List Char} {limit : ℕ}
    {objects : List ListedObject}
    (hlist : list server.answer normalizedPrefix keyPrefix limit = some (.ok objects))
    (hperm : (objects.map ListedObject.key).Perm
      (server.keysUnder (resolveKey normalizedPrefix keyPrefix))) :
    (∀ key ∈ server.keysUnder (resolveKey normalizedPrefix keyPrefix),
      server.escaping.text key = key) ∧
    ∃ order, server.Trail (resolveKey normalizedPrefix keyPrefix) 0 order ∧
      (order.flatMap (server.page (resolveKey normalizedPrefix keyPrefix))).Perm
        (server.keysUnder (resolveKey normalizedPrefix keyPrefix)) := by
  rw [list] at hlist
  generalize resolveKey normalizedPrefix keyPrefix = fullPrefix at hlist hperm ⊢
  obtain ⟨order, htrail, hobjects⟩ := trail_of_listFrom rfl hlist
  rw [hobjects] at hperm
  change ((order.flatMap (server.page fullPrefix)).map server.escaping.text).Perm _ at hperm
  have hself := Escaping.text_eq_self_of_subset (page_subset htrail) hperm.symm.subset
  refine ⟨hself, order, htrail, ?_⟩
  rwa [List.map_congr_left fun key hkey => hself key (page_subset htrail hkey),
    List.map_id'] at hperm

theorem complete_of_trail {normalizedPrefix keyPrefix : List Char} {order : List ℕ}
    (hkeys : ∀ key ∈ server.keysUnder (resolveKey normalizedPrefix keyPrefix),
      ∀ c ∈ key, server.escaping.write c = [c])
    (htrail : server.Trail (resolveKey normalizedPrefix keyPrefix) 0 order)
    (horder : server.PassesOnce (resolveKey normalizedPrefix keyPrefix) order) :
    ∃ limit objects,
      list server.answer normalizedPrefix keyPrefix limit = some (.ok objects) ∧
        (objects.map ListedObject.key).Perm
          (server.keysUnder (resolveKey normalizedPrefix keyPrefix)) := by
  have hperm := htrail.keys_perm_iff.mpr horder
  obtain ⟨limit, objects, hlist, hobjects⟩ := listFrom_of_trail htrail [] rfl []
  refine ⟨limit, objects, hlist, ?_⟩
  rw [hobjects, List.map_congr_left fun key hkey =>
    (server.escaping.text_eq_self_iff key).mpr (hkeys key (hperm.mem_iff.mp hkey)), List.map_id']
  exact hperm

/-- A listing ends and gives exactly the stored keys under the prefix, each once and as it
is stored, if and only if no character of these keys is escaped and the tokens, used as
they are written, lead to an end and on the way once through every page with keys. -/
theorem list_complete_iff (server : ListingServer) (normalizedPrefix keyPrefix : List Char) :
    (∃ limit objects,
      list server.answer normalizedPrefix keyPrefix limit = some (.ok objects) ∧
        (objects.map ListedObject.key).Perm
          (server.keysUnder (resolveKey normalizedPrefix keyPrefix))) ↔
      (∀ key ∈ server.keysUnder (resolveKey normalizedPrefix keyPrefix),
        ∀ c ∈ key, server.escaping.write c = [c]) ∧
      ∃ order, server.Trail (resolveKey normalizedPrefix keyPrefix) 0 order ∧
        server.PassesOnce (resolveKey normalizedPrefix keyPrefix) order := by
  constructor
  · rintro ⟨limit, objects, hlist, hperm⟩
    obtain ⟨hself, order, htrail, hkeys⟩ := trail_of_complete hlist hperm
    exact ⟨fun key hkey => (server.escaping.text_eq_self_iff key).mp (hself key hkey),
      order, htrail, htrail.keys_perm_iff.mp hkeys⟩
  · rintro ⟨hplain, order, htrail, horder⟩
    exact complete_of_trail hplain htrail horder

/-- Tokens that resume where they were issued lead from page to page. -/
theorem trail_of_resume
    (hresume : ∀ i, 0 < i → i < (server.pages keyPrefix).length →
      server.escaping.text (server.token keyPrefix i) ≠ [] ∧
        server.resume keyPrefix (server.escaping.text (server.token keyPrefix i)) = some i)
    {i n : ℕ} (hlength : i + (n + 1) = (server.pages keyPrefix).length) :
    server.Trail keyPrefix i (List.range' i (n + 1)) := by
  induction n generalizing i with
  | zero => exact .last (by omega) (if_neg (by omega))
  | succ n ih =>
      have hnext : server.writtenToken keyPrefix i =
          server.escaping.text (server.token keyPrefix (i + 1)) := if_pos (by omega)
      obtain ⟨hne, hpage⟩ := hresume (i + 1) (Nat.succ_pos i) (by omega)
      exact .more (by omega) (hnext ▸ hne) (hnext ▸ hpage) (ih (by omega))

/-- A listing is complete when neither keys nor tokens need escaping and no token is
empty. -/
theorem list_complete_of_plain (server : ListingServer) (normalizedPrefix keyPrefix : List Char)
    (hkeys : ∀ key ∈ server.keysUnder (resolveKey normalizedPrefix keyPrefix),
      ∀ c ∈ key, server.escaping.write c = [c])
    (htokens : ∀ i,
      server.token (resolveKey normalizedPrefix keyPrefix) i ≠ [] ∧
        ∀ c ∈ server.token (resolveKey normalizedPrefix keyPrefix) i,
          server.escaping.write c = [c]) :
    ∃ limit objects,
      list server.answer normalizedPrefix keyPrefix limit = some (.ok objects) ∧
        (objects.map ListedObject.key).Perm
          (server.keysUnder (resolveKey normalizedPrefix keyPrefix)) := by
  obtain ⟨n, hn⟩ := Nat.exists_eq_succ_of_ne_zero (mt List.eq_nil_of_length_eq_zero
    (server.pages_ne_nil (resolveKey normalizedPrefix keyPrefix)))
  have hresume : ∀ i, 0 < i →
      i < (server.pages (resolveKey normalizedPrefix keyPrefix)).length →
        server.escaping.text (server.token (resolveKey normalizedPrefix keyPrefix) i) ≠ [] ∧
          server.resume (resolveKey normalizedPrefix keyPrefix) (server.escaping.text
            (server.token (resolveKey normalizedPrefix keyPrefix) i)) = some i := by
    intro i hpos hi
    obtain ⟨hne, hplain⟩ := htokens i
    rw [(server.escaping.text_eq_self_iff _).mpr hplain]
    exact ⟨hne, server.resume_token _ i hpos hi⟩
  refine complete_of_trail hkeys (trail_of_resume hresume ((Nat.zero_add _).trans hn.symm)) ?_
  intro i hpage
  refine List.count_eq_one_of_mem List.nodup_range' (List.mem_range'_1.mpr ⟨Nat.zero_le i, ?_⟩)
  by_contra hi
  rw [page, List.getElem?_eq_none (by omega)] at hpage
  exact hpage rfl

end Complete

/-! ## An ampersand -/

/-- Ampersands and angle brackets are references. -/
def entities : Escaping where
  write c := if c = '&' then "&amp;".toList else if c = '<' then "&lt;".toList else [c]
  write_cases c := by
    split
    · exact Or.inr ⟨"amp".toList, by decide, by decide⟩
    split
    · exact Or.inr ⟨"lt".toList, by decide, by decide⟩
    · next h => exact Or.inl ⟨rfl, h⟩

/-- A response on one page. -/
def onePage (keys : List (List Char)) : Contents where
  groups := keys.map fun key =>
    ([], [.tag "Key".toList, .data (entities.text key), .tag "/Key".toList])
  last := [.tag "IsTruncated".toList, .data "false".toList, .tag "/IsTruncated".toList]

theorem onePage_plain (keys : List (List Char)) :
    ∀ piece ∈ (onePage keys).pieces, piece.Plain := by
  intro piece hpiece
  rcases List.mem_append.mp hpiece with hpiece | hpiece
  · obtain ⟨group, hgroup, hpiece⟩ := List.mem_flatMap.mp hpiece
    obtain ⟨key, -, rfl⟩ := List.mem_map.mp hgroup
    simp only [List.nil_append, List.cons_append, List.mem_cons, List.not_mem_nil,
      or_false] at hpiece
    rcases hpiece with rfl | rfl | rfl | rfl | rfl
    · decide
    · decide
    · exact entities.notMem_text key
    · decide
    · decide
  · simp only [onePage, List.mem_cons, List.not_mem_nil, or_false] at hpiece
    rcases hpiece with rfl | rfl | rfl <;> decide

theorem onePage_lists (keys : List (List Char)) : Lists entities keys none (onePage keys) where
  plain := onePage_plain keys
  separated := by
    constructor
    · intro group hgroup
      obtain ⟨key, -, rfl⟩ := List.mem_map.mp hgroup
      exact List.not_mem_nil
    · intro group hgroup
      obtain ⟨key, -, rfl⟩ := List.mem_map.mp hgroup
      simp
    · exact fun h => absurd h (by decide : .tag "Contents".toList ∉ (onePage []).last)
  keys := by
    rw [onePage, List.forall₂_map_right_iff, List.forall₂_same]
    exact fun key _ => ⟨[], [], rfl, List.not_mem_nil, List.not_mem_nil⟩
  truncated := by
    refine ⟨_, [], rfl, ?_, List.not_mem_nil⟩
    intro hpiece
    obtain ⟨group, hgroup, hpiece⟩ := List.mem_flatMap.mp hpiece
    obtain ⟨key, -, rfl⟩ := List.mem_map.mp hgroup
    simp at hpiece
  token := nofun

/-- A server that lists everything on one page. -/
def smallServer (keys : List (List Char)) (nodup : keys.Nodup) : ListingServer where
  keys
  nodup
  escaping := entities
  pages keyPrefix := [keys.filter fun key => keyPrefix.isPrefixOf key]
  pages_ne_nil _ := List.cons_ne_nil _ _
  flatten_pages _ := List.flatten_singleton
  token _ _ := []
  resume _ _ := none
  resume_token _ _ hpos hlt := absurd hlt (Nat.not_lt.mpr hpos)
  response keyPrefix _ := onePage (keys.filter fun key => keyPrefix.isPrefixOf key)
  lists keyPrefix i page hpage := by
    cases i with
    | zero =>
        cases hpage
        exact onePage_lists _
    | succ i => exact nomatch hpage
  refusal := ⟨400, []⟩

theorem ampersand_changed :
    ¬ ∃ limit objects,
      list (smallServer ["a&b".toList] (List.nodup_singleton _)).answer [] [] limit =
          some (.ok objects) ∧
        (objects.map ListedObject.key).Perm
          ((smallServer ["a&b".toList] (List.nodup_singleton _)).keysUnder []) := by
  rintro ⟨limit, objects, hlist, hperm⟩
  have hself := (trail_of_complete hlist hperm).1 "a&b".toList (by decide)
  exact absurd hself (by decide)

end Orgistry.Backups
