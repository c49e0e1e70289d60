import Orgistry.Model.ListCursors
import Mathlib.Tactic.NormNum

/-!
# Cursors of clients

What a list endpoint answers to a cursor, whatever text it is.  Only the shape of its content
is checked: a number that is no date, a date outside the years of the database and an id with
a character that the database has not all reach the query.
-/

namespace Orgistry.Model.ListCursors

open Text Keyset Numbers

def unsigned : List Char → List Char
  | '-' :: literal => literal
  | literal => literal

theorem magnitude_nonneg (literal : List Char) : 0 ≤ Json.magnitude literal :=
  mul_nonneg (Nat.cast_nonneg _) (zpow_nonneg (by norm_num) _)

/-- A sign in front negates. -/
theorem numberOf_cases (literal : List Char) :
    numberOf literal = (double (Json.magnitude (unsigned literal))).map (-·) ∨
      numberOf literal = double (Json.magnitude (unsigned literal)) := by
  by_cases hsign : ∃ rest, literal = '-' :: rest
  · obtain ⟨rest, rfl⟩ := hsign
    exact Or.inl rfl
  · have hunsigned : unsigned literal = literal := by
      unfold unsigned
      split
      · exact absurd ⟨_, rfl⟩ hsign
      · rfl
    have hplain : numberOf literal = double (Json.magnitude literal) := by
      unfold numberOf
      split
      · exact absurd ⟨_, rfl⟩ hsign
      · rfl
    exact Or.inr (by rw [hunsigned, hplain])

theorem isSome_newDate_iff (value : Option ℚ) :
    (newDate value).isSome ↔ ∃ v, value = some v ∧ |v| ≤ 8640000000000000 := by
  cases value with
  | none => exact iff_of_false Bool.false_ne_true fun ⟨v, h, _⟩ => absurd h nofun
  | some v =>
      simp only [newDate, Option.bind_some, Option.some.injEq, exists_eq_left']
      split <;> simp [*]

/-- A literal is a date up to half a millisecond beyond the last one. -/
theorem isSome_newDate_numberOf_iff (literal : List Char) :
    (newDate (numberOf literal)).isSome ↔
      Json.magnitude (unsigned literal) ≤ 8640000000000000 + 1 / 2 := by
  have hbound : (∃ value, double (Json.magnitude (unsigned literal)) = some value ∧
      |value| ≤ (8640000000000000 : ℕ)) ↔
        Json.magnitude (unsigned literal) ≤ (8640000000000000 : ℕ) + 1 / 2 :=
    double_any_le_iff (by decide) (by decide) (by decide) (magnitude_nonneg _)
  rw [Nat.cast_ofNat] at hbound
  rw [isSome_newDate_iff, ← hbound]
  rcases numberOf_cases literal with hnegated | hplain
  · rw [hnegated]
    simp only [Option.map_eq_some_iff, exists_exists_and_eq_and, abs_neg]
  · rw [hplain]

/-- The first instant of the year 1. -/
def yearOne : Millis := -62135596800000

/-- The first instant of the year 10000. -/
def yearTenThousand : Millis := 253402300800000

/-- A position whose date and id the database takes. -/
def Position.Askable (position : Position) : Prop :=
  ∃ millis, newDate position.createdAtMs = some millis ∧ yearOne ≤ millis ∧
    millis < yearTenThousand ∧ Char.ofNat 0 ∉ position.id

variable {Row : Type}

/-- A `Date` becomes a parameter by `toISOString`, which throws on an invalid one; the database
takes the text of a timestamp in the years from 1 to 9999, and any text without the character
zero. -/
structure Listing.Lawful (listing : Listing Row) : Prop where
  first : ∀ limit, (listing.select none limit).isSome
  invalid : ∀ id limit, listing.select (some (none, id)) limit = none
  taken_iff : ∀ millis id limit, (listing.select (some (some millis, id)) limit).isSome ↔
    yearOne ≤ millis ∧ millis < yearTenThousand ∧ Char.ofNat 0 ∉ id

variable {cursor c i : List Char}

theorem get_isSome {value : Option Json} {name : String} {member : Json}
    (h : Json.get value name = some member) : ∃ members, value = some (.object members) := by
  cases value with
  | none => cases h
  | some value =>
      cases value with
      | object members => exact ⟨members, rfl⟩
      | _ => cases h

theorem ne_nil_of_get {name : String} {member : Json}
    (h : Json.get (decodeCursor cursor) name = some member) : cursor ≠ [] := by
  rintro rfl
  cases h

/-- A number and a text make a cursor. -/
theorem decodeListCursor_of_shape (hc : Json.get (decodeCursor cursor) "c" = some (.number c))
    (hi : Json.get (decodeCursor cursor) "i" = some (.string i)) :
    decodeListCursor (some cursor) = .ok (some ⟨numberOf c, i⟩) := by
  obtain ⟨members, hobject⟩ := get_isSome hc
  unfold decodeListCursor
  split
  · next h => cases h
  · next h =>
      cases h
      cases hobject
  · next h =>
      cases h
      dsimp only
      have htruthy : ¬isFalsy (decodeCursor cursor) = true := by
        rw [hobject]
        exact Bool.false_ne_true
      rw [if_neg htruthy, hc, hi]

/-- Every other content is an invalid cursor. -/
theorem decodeListCursor_of_other (hne : cursor ≠ [])
    (h : ∀ c i, Json.get (decodeCursor cursor) "c" = some (.number c) →
      Json.get (decodeCursor cursor) "i" ≠ some (.string i)) :
    decodeListCursor (some cursor) = .error invalidCursor := by
  unfold decodeListCursor
  split
  · next h => cases h
  · next h =>
      cases h
      exact absurd rfl hne
  · next text _ heq =>
      cases heq
      dsimp only
      split
      · rfl
      · split
        · next c i hc hi => exact absurd hi (h c i hc)
        · rfl

theorem numberOf_decimal {n : ℕ} (h : n < 2 ^ 53) : numberOf (Json.decimal n) = some (n : ℚ) := by
  obtain ⟨first, digits, hcons, hdigit⟩ := Json.decimal_eq_cons n
  unfold numberOf
  split
  · next heq =>
      rw [hcons] at heq
      obtain ⟨rfl, -⟩ := List.cons.inj heq
      cases hdigit
  · rw [Json.magnitude_decimal, double_natCast h]

theorem encodeCursor_eq {millis : Millis} (hzero : 0 ≤ millis) (id : List Char) :
    encodeCursor millis id = encodeBase64Url (encodeUtf8
      (Json.stringify [("c", .natural millis.toNat), ("i", .text id)])) := by
  rw [encodeCursor, integerText, if_pos hzero]
  simp [Json.stringify, Json.printMembers, Json.printMember, Json.Scalar.print, Json.quote,
    Json.escapeChar]

theorem get_encodeCursor {millis : Millis} (hzero : 0 ≤ millis) (id : List Char) :
    Json.get (decodeCursor (encodeCursor millis id)) "c" =
        some (.number (Json.decimal millis.toNat)) ∧
      Json.get (decodeCursor (encodeCursor millis id)) "i" = some (.string id) := by
  have hdecode : decodeCursor (encodeCursor millis id) =
      some (.object (Json.members [("c", .natural millis.toNat), ("i", .text id)])) := by
    rw [encodeCursor_eq hzero, decodeCursor, decodeBase64_encodeBase64Url,
      decodeUtf8_encodeUtf8, Json.parse_stringify (by simp)]
  rw [hdecode]
  simp [Json.get, Json.member, Json.members, Json.Scalar.toJson]

/-- What a page hands out names a position that can be asked for. -/
theorem askable_encodeCursor {millis : ℤ} (hzero : 0 ≤ millis) (hlast : millis < yearTenThousand)
    {id : List Char} (hid : Char.ofNat 0 ∉ id) :
    Position.Askable ⟨numberOf (Json.decimal millis.toNat), id⟩ := by
  have hlt : millis < 253402300800000 := hlast
  have hnumber : numberOf (Json.decimal millis.toNat) = some (millis : ℚ) := by
    rw [numberOf_decimal (by omega)]
    exact congrArg some (by exact_mod_cast Int.toNat_of_nonneg hzero)
  have hdate : newDate (some (millis : ℚ)) = some millis := by
    have hnonneg : (0 : ℚ) ≤ millis := by exact_mod_cast hzero
    have hbound : (millis : ℚ) ≤ 8640000000000000 := by exact_mod_cast (by omega)
    rw [newDate, Option.bind_some, abs_of_nonneg hnonneg, if_pos hbound, if_pos hnonneg,
      Int.floor_intCast]
  exact ⟨millis, hnumber ▸ hdate, le_trans (by decide) hzero, hlast, hid⟩

/-- A page, or a bad request. -/
def Response.Handled : Response Row → Prop
  | .page _ => True
  | .error statusCode _ _ => statusCode = 400

instance (response : Response Row) : Decidable response.Handled :=
  match response with
  | .page _ => .isTrue trivial
  | .error statusCode _ _ => inferInstanceAs (Decidable (statusCode = 400))

variable {listing : Listing Row} {limit : PageLimit}

theorem Endpoint.decode_eq (endpoint : Endpoint) : endpoint.decode = decodeListCursor := by
  cases endpoint <;> rfl

theorem handled_without_cursor (endpoint : Endpoint) (hlisting : listing.Lawful) :
    (endpoint.handle listing limit none).Handled := by
  obtain ⟨rows, hrows⟩ := Option.isSome_iff_exists.mp (hlisting.first limit)
  have hquery : listing.query limit none = .ok rows := by
    rw [Listing.query, Option.map_none, hrows]
  show (respond (endpoint.list listing limit none)).Handled
  unfold Endpoint.list
  split
  · trivial
  · rw [endpoint.decode_eq]
    show (respond (listing.query limit none >>= _)).Handled
    rw [hquery]
    trivial

theorem query_of_askable (hlisting : listing.Lawful) {position : Position}
    (h : position.Askable) : ∃ rows, listing.query limit (some position) = .ok rows := by
  obtain ⟨millis, hdate, hrange⟩ := h
  obtain ⟨rows, hrows⟩ :=
    Option.isSome_iff_exists.mp ((hlisting.taken_iff millis position.id limit).mpr hrange)
  refine ⟨rows, ?_⟩
  rw [Listing.query, Option.map_some, hdate, hrows]

theorem query_of_not_askable (hlisting : listing.Lawful) {position : Position}
    (h : ¬position.Askable) : listing.query limit (some position) = .error .other := by
  rw [Listing.query, Option.map_some]
  cases hdate : newDate position.createdAtMs with
  | none => rw [hlisting.invalid]
  | some millis =>
      have hrefused : listing.select (some (some millis, position.id)) limit = none := by
        rw [← Option.not_isSome_iff_eq_none, hlisting.taken_iff]
        exact fun hrange => h ⟨millis, hdate, hrange⟩
      rw [hrefused]

theorem handle_eq (endpoint : Endpoint) (hne : cursor ≠ []) :
    endpoint.handle listing limit (some cursor) =
      respond (endpoint.list listing limit (some cursor)) := by
  have hparam : parseCursorParam (some cursor) = .ok (some cursor) := if_neg (by simpa using hne)
  rw [Endpoint.handle, hparam]
  rfl

theorem list_of_decoded {endpoint : Endpoint} (hquery : endpoint.selectsNothing = false)
    {position : Position} (h : decodeListCursor (some cursor) = .ok (some position)) :
    endpoint.list listing limit (some cursor) =
      (listing.query limit (some position)).map (.ofFetched limit.value fun last =>
        encodeCursor (getTime (listing.createdAt last)) (listing.id last)) := by
  rw [Endpoint.list, hquery, endpoint.decode_eq, h]
  rfl

/-- A cursor with a position is handled exactly if the position is none that the query is
made with in vain. -/
theorem handled_of_shape (hlisting : listing.Lawful) {endpoint : Endpoint}
    (hquery : endpoint.selectsNothing = false)
    (hc : Json.get (decodeCursor cursor) "c" = some (.number c))
    (hi : Json.get (decodeCursor cursor) "i" = some (.string i)) :
    (endpoint.handle listing limit (some cursor)).Handled ↔
      Position.Askable ⟨numberOf c, i⟩ := by
  rw [handle_eq endpoint (ne_nil_of_get hc),
    list_of_decoded hquery (decodeListCursor_of_shape hc hi)]
  by_cases hask : Position.Askable ⟨numberOf c, i⟩
  · obtain ⟨rows, hrows⟩ : ∃ rows, listing.query limit (some ⟨numberOf c, i⟩) = .ok rows :=
      query_of_askable hlisting hask
    rw [hrows]
    exact iff_of_true trivial hask
  · rw [query_of_not_askable hlisting hask]
    exact iff_of_false (by decide : ¬(500 = 400)) hask

theorem handled_of_selectsNothing {endpoint : Endpoint} (hquery : endpoint.selectsNothing = true)
    (hne : cursor ≠ []) : (endpoint.handle listing limit (some cursor)).Handled := by
  rw [handle_eq endpoint hne, Endpoint.list, hquery]
  trivial

theorem handled_of_other (endpoint : Endpoint)
    (h : ∀ c i, Json.get (decodeCursor cursor) "c" = some (.number c) →
      Json.get (decodeCursor cursor) "i" ≠ some (.string i)) :
    (endpoint.handle listing limit (some cursor)).Handled := by
  by_cases hne : cursor = []
  · rw [hne]
    rfl
  · rw [handle_eq endpoint hne, Endpoint.list, endpoint.decode_eq,
      decodeListCursor_of_other hne h]
    split
    · trivial
    · rfl

/-- A list without rows, as the database answers for it. -/
def emptyListing : Listing (Timestamp × List Char) where
  createdAt := Prod.fst
  id := Prod.snd
  select cursor _ :=
    match cursor with
    | none => some []
    | some (none, _) => none
    | some (some millis, id) =>
        if yearOne ≤ millis ∧ millis < yearTenThousand ∧ Char.ofNat 0 ∉ id then some [] else none

theorem emptyListing_lawful : emptyListing.Lawful where
  first _ := rfl
  invalid _ _ := rfl
  taken_iff millis id limit := by
    dsimp only [emptyListing]
    split <;> simp [*]

/-- `DEFAULT_PAGE_LIMIT` -/
def defaultPageLimit : PageLimit where
  value := 20
  min := Nat.le_of_ble_eq_true rfl
  max := Nat.le_of_ble_eq_true rfl

/-- A cursor is handled unless the query is made with what is no parameter for it. -/
theorem cursor_handled_iff (endpoint : Endpoint) (hlisting : listing.Lawful) (limit : PageLimit)
    (cursor : List Char) :
    (endpoint.handle listing limit (some cursor)).Handled ↔
      endpoint.selectsNothing = true ∨
        ∀ c i, Json.get (decodeCursor cursor) "c" = some (.number c) →
          Json.get (decodeCursor cursor) "i" = some (.string i) →
            Position.Askable ⟨numberOf c, i⟩ := by
  by_cases hshape : ∃ c i, Json.get (decodeCursor cursor) "c" = some (.number c) ∧
      Json.get (decodeCursor cursor) "i" = some (.string i)
  · obtain ⟨c, i, hc, hi⟩ := hshape
    cases hquery : endpoint.selectsNothing with
    | true =>
        exact iff_of_true (handled_of_selectsNothing hquery (ne_nil_of_get hc)) (Or.inl rfl)
    | false =>
        rw [handled_of_shape hlisting hquery hc hi, hc, hi]
        simp
  · have hother : ∀ c i, Json.get (decodeCursor cursor) "c" = some (.number c) →
        Json.get (decodeCursor cursor) "i" ≠ some (.string i) :=
      fun c i hc hi => hshape ⟨c, i, hc, hi⟩
    exact iff_of_true (handled_of_other endpoint hother)
      (Or.inr fun c i hc hi => absurd hi (hother c i hc))

theorem cursor_handled_iff_at_encoded :
    emptyListing.Lawful ∧
      ((Endpoint.listProjects.handle emptyListing defaultPageLimit
          (some (encodeCursor 1700000000000 "prj_1".toList))).Handled ↔
        Endpoint.listProjects.selectsNothing = true ∨
          ∀ c i, Json.get (decodeCursor (encodeCursor 1700000000000 "prj_1".toList)) "c" =
              some (.number c) →
            Json.get (decodeCursor (encodeCursor 1700000000000 "prj_1".toList)) "i" =
              some (.string i) → Position.Askable ⟨numberOf c, i⟩) :=
  ⟨emptyListing_lawful, cursor_handled_iff .listProjects emptyListing_lawful defaultPageLimit _⟩

/-- A number too large for a date. -/
theorem cursor_not_handled :
    ¬(Endpoint.listProjects.handle emptyListing defaultPageLimit
      (some "eyJjIjo5ZTE1LCJpIjoieCJ9".toList)).Handled := by
  decide +kernel

theorem nextCursor_of_ofFetched {Cursor : Type} {n : ℕ} {cursorOf : Row → Cursor} {rows : List Row}
    {next : Cursor} (h : (Page.ofFetched n cursorOf rows).nextCursor = some next) :
    ∃ last ∈ (Page.ofFetched n cursorOf rows).items, next = cursorOf last := by
  dsimp only [Page.ofFetched] at h ⊢
  split at h
  · next hmore =>
      obtain ⟨last, hlast, rfl⟩ := Option.map_eq_some_iff.mp h
      rw [if_pos hmore]
      exact ⟨last, List.mem_of_getLast? hlast, rfl⟩
  · cases h

theorem respond_eq_page {answer : Except Thrown (Page Row (List Char))}
    {page : Page Row (List Char)} (h : respond answer = .page page) : answer = .ok page := by
  cases answer with
  | ok answered =>
      cases h
      rfl
  | error thrown => cases thrown <;> cases h

theorem bind_eq_ok {α β : Type} {first : Except Thrown α} {rest : α → Except Thrown β} {b : β}
    (h : first >>= rest = .ok b) : ∃ a, first = .ok a ∧ rest a = .ok b := by
  cases first with
  | ok a => exact ⟨a, rfl, h⟩
  | error thrown => cases h

theorem nextCursor_of_handle {endpoint : Endpoint} {given : Option (List Char)}
    {page : Page Row (List Char)} {next : List Char}
    (h : endpoint.handle listing limit given = .page page) (hnext : page.nextCursor = some next) :
    ∃ last ∈ page.items,
      next = encodeCursor (getTime (listing.createdAt last)) (listing.id last) := by
  obtain ⟨param, -, hlist⟩ := bind_eq_ok (respond_eq_page h)
  unfold Endpoint.list at hlist
  split at hlist
  · cases hlist
    cases hnext
  · obtain ⟨position, -, hread⟩ := bind_eq_ok hlist
    obtain ⟨rows, -, hpage⟩ := bind_eq_ok hread
    cases hpage
    exact nextCursor_of_ofFetched hnext

/-- A cursor that a page hands out after a row since 1970 is handled, wherever it is sent. -/
theorem nextCursor_handled (endpoint other : Endpoint) (hlisting : listing.Lawful)
    {given : Option (List Char)} {page : Page Row (List Char)} {next : List Char}
    (hpage : endpoint.handle listing limit given = .page page) (hnext : page.nextCursor = some next)
    (hrows : ∀ row ∈ page.items, 0 ≤ getTime (listing.createdAt row) ∧
      getTime (listing.createdAt row) < yearTenThousand ∧ Char.ofNat 0 ∉ listing.id row)
    (anyLimit : PageLimit) : (other.handle listing anyLimit (some next)).Handled := by
  obtain ⟨last, hlast, rfl⟩ := nextCursor_of_handle hpage hnext
  obtain ⟨hzero, hmillis, hid⟩ := hrows last hlast
  obtain ⟨hc, hi⟩ := get_encodeCursor hzero (listing.id last)
  cases hquery : other.selectsNothing with
  | true => exact handled_of_selectsNothing hquery (ne_nil_of_get hc)
  | false =>
      exact (handled_of_shape hlisting hquery hc hi).mpr (askable_encodeCursor hzero hmillis hid)

end Orgistry.Model.ListCursors
