import Orgistry.Model.Envelopes
import Orgistry.Text.JsonDocuments

/-!
# Responses across the wire

The client gets the data that a handler returned, and the error that the handler's failure
stands for, whatever texts and values they contain.
-/

namespace Orgistry.Model.Envelopes

open Text Json

/-- Every number in what a handler sends is a literal. -/
def Handled.Printable (handled : Handled) : Prop :=
  match handled.outcome with
  | .ok data => ∀ value ∈ data, WellWritten value
  | .error error => ∀ value ∈ error.details, WellWritten value

/-- The status that is sent. -/
def Handled.statusCode : Handled → ℕ
  | .success _ statusCode => statusCode
  | .thrown error => (errorHandler error).statusCode
  | .noRoute method url => (notFoundHandler method url).statusCode

theorem parse_body {value : Json} (h : WellWritten value) :
    parse (decodeUtf8 (encodeUtf8 (render value))) = some value := by
  rw [decodeUtf8_encodeUtf8, parse_render h]

/-- A member of an object whose names are all different. -/
theorem member_objectOf {members : List (String × Option Json)}
    (hnodup : (members.map Prod.fst).Nodup) {name : String} {value : Option Json}
    (hmem : (name, value) ∈ members) : member name (objectOf members) = value := by
  have hvalue : ∀ other ∈ members, other.1.toList = name.toList → other.2 = value := by
    intro other hother hname
    have heq : other = (name, value) :=
      List.inj_on_of_nodup_map hnodup hother hmem (String.toList_inj.mp hname)
    rw [heq]
  rw [objectOf, member]
  cases hfound : List.find? (fun found => decide (found.1 = name.toList))
      (members.filterMap fun entry => entry.2.map fun data => (entry.1.toList, data)).reverse with
  | none =>
      rw [List.find?_eq_none] at hfound
      cases value with
      | none => rfl
      | some data =>
          have hin : (name.toList, data) ∈ (members.filterMap fun entry =>
              entry.2.map fun data => (entry.1.toList, data)).reverse :=
            List.mem_reverse.mpr (List.mem_filterMap.mpr ⟨_, hmem, rfl⟩)
          exact absurd (decide_eq_true rfl) (hfound _ hin)
  | some found =>
      have hholds := List.find?_some hfound
      have hname : found.1 = name.toList := of_decide_eq_true hholds
      obtain ⟨entry, hentry, hmap⟩ :=
        List.mem_filterMap.mp (List.mem_reverse.mp (List.mem_of_find?_eq_some hfound))
      obtain ⟨data, hdata, rfl⟩ := Option.map_eq_some_iff.mp hmap
      exact hdata.symm.trans (hvalue entry hentry hname)

theorem wellWritten_objectOf {members : List (String × Option Json)}
    (h : ∀ member ∈ members, ∀ value ∈ member.2, WellWritten value) :
    WellWritten (objectOf members) := by
  rw [objectOf, WellWritten, membersWellWritten_iff]
  intro member hmember
  obtain ⟨source, hsource, hmap⟩ := List.mem_filterMap.mp hmember
  obtain ⟨value, hvalue, rfl⟩ := Option.map_eq_some_iff.mp hmap
  exact h source hsource value hvalue

theorem wellWritten_makeSuccess {data : Option Json} (h : ∀ value ∈ data, WellWritten value) :
    WellWritten (makeSuccess data) := by
  apply wellWritten_objectOf
  simpa [WellWritten] using h

theorem wellWritten_makeError {error : AppError} (h : ∀ value ∈ error.details, WellWritten value)
    (requestId : List Char) : WellWritten (makeError error requestId) := by
  have hfields : WellWritten (errorFields error requestId) := by
    apply wellWritten_objectOf
    simpa [WellWritten] using h
  apply wellWritten_objectOf
  simp [WellWritten, hfields]

/-- What the client reports for an error of the server. -/
def AppError.toApiError (error : AppError) (requestId : List Char) : ApiError where
  code := some (.string error.code.text)
  message := some (.string error.message)
  status := error.statusCode
  requestId := some (.string requestId)
  details := error.details

section Receive

variable (options : RequestOptions) (refreshed sameOrigin : Bool) (requestId : List Char)

/-- A success without data has no member `data`, and is no envelope. -/
def unrecognized (statusCode : ℕ) : ApiError :=
  .unexpected ("The API returned an unrecognized response (HTTP ".toList ++ decimal statusCode ++
    ").".toList) statusCode (if sameOrigin then some requestId else none)

/-- The envelope comes back when there is a body. -/
theorem parse_sendEnvelope {status : ℕ} {envelope : Json} (hbody : bodiless status = false)
    (h : WellWritten envelope) :
    parse (decodeUtf8 (sendEnvelope sameOrigin requestId status envelope).body) =
      some envelope := by
  rw [sendEnvelope, hbody]
  exact parse_body h

theorem member_makeSuccess (value : Json) :
    member "ok" (makeSuccess (some value)) = some (.bool true) ∧
      member "data" (makeSuccess (some value)) = some value :=
  ⟨member_objectOf (by simp) (by simp), member_objectOf (by simp) (by simp)⟩

/-- A value arrives as it was sent; an envelope without one is not recognized. -/
theorem receive_success {data : Option Json} (h : ∀ value ∈ data, WellWritten value)
    {statusCode : ℕ} (hstatus : bodiless statusCode = false) :
    receive options refreshed (respond sameOrigin requestId (.success data statusCode)) =
      match data with
      | some value => .data (some value)
      | none => .rejected (unrecognized sameOrigin requestId statusCode) false := by
  have hbody := parse_sendEnvelope sameOrigin requestId hstatus (wellWritten_makeSuccess h)
  cases data with
  | none =>
      have hno : isEnvelope (makeSuccess none) = false := rfl
      rw [receive, parseEnvelope, respond, hbody]
      simp only [hno, unrecognized]
      rfl
  | some value =>
      obtain ⟨hok, hdata⟩ := member_makeSuccess value
      rw [receive, parseEnvelope, respond, hbody]
      simp [isEnvelope, hasMember, hok, hdata, strictEquals]

theorem member_makeError (error : AppError) :
    member "ok" (makeError error requestId) = some (.bool false) ∧
      member "error" (makeError error requestId) = some (errorFields error requestId) :=
  ⟨member_objectOf (by simp) (by simp), member_objectOf (by simp) (by simp)⟩

/-- The fields of the error that a response reports. -/
theorem reported_errorFields (error : AppError) :
    { code := member "code" (errorFields error requestId)
      message := member "message" (errorFields error requestId)
      status := error.statusCode
      requestId := member "requestId" (errorFields error requestId)
      details := member "details" (errorFields error requestId) } =
        error.toApiError requestId := by
  have hmember : ∀ name value, (name, value) ∈ [("code", some (Json.string error.code.text)),
      ("message", some (.string error.message)), ("requestId", some (.string requestId)),
      ("details", error.details)] → member name (errorFields error requestId) = value :=
    fun name value hmem => member_objectOf (by simp) hmem
  rw [hmember "code" _ (by simp; rfl), hmember "message" _ (by simp; rfl),
    hmember "requestId" _ (by simp; rfl), hmember "details" _ (by simp; rfl), AppError.toApiError]

/-- An error arrives as it was made, or is retried after a silent refresh. -/
theorem receive_error {error : AppError} (h : ∀ value ∈ error.details, WellWritten value)
    (hstatus : bodiless error.statusCode = false) :
    receive options refreshed
        (sendEnvelope sameOrigin requestId error.statusCode (makeError error requestId)) =
      if error.statusCode = 401 && options.authenticated && !options.cookieAuth &&
          !options.retried && refreshed then .retry
      else .rejected (error.toApiError requestId)
        (error.statusCode = 401 && options.authenticated && !options.cookieAuth) := by
  obtain ⟨hok, herror⟩ := member_makeError requestId error
  have henvelope : isEnvelope (makeError error requestId) = true := by
    simp [isEnvelope, hasMember, hok, herror]
  have hparse : parseEnvelope (sendEnvelope sameOrigin requestId error.statusCode
      (makeError error requestId)) = .ok (makeError error requestId) := by
    rw [parseEnvelope,
      parse_sendEnvelope sameOrigin requestId hstatus (wellWritten_makeError h requestId)]
    exact if_pos henvelope
  rw [receive, hparse, sendEnvelope]
  simp only [hok, herror, strictEquals]
  rw [if_neg (by decide)]
  split
  · rfl
  · exact congrArg (Received.rejected · _) (reported_errorFields requestId error)

end Receive

/-- What a request comes to, from the handler to the caller in the client, unless the status
forbids a body. -/
theorem responses_arrive {handled : Handled} (h : handled.Printable)
    (hstatus : bodiless handled.statusCode = false) (options : RequestOptions)
    (refreshed sameOrigin : Bool) (requestId : List Char) :
    receive options refreshed (respond sameOrigin requestId handled) =
      match handled.outcome with
      | .ok (some value) => .data (some value)
      | .ok none => .rejected (unrecognized sameOrigin requestId handled.statusCode) false
      | .error error =>
          if error.statusCode = 401 && options.authenticated && !options.cookieAuth &&
              !options.retried && refreshed then .retry
          else .rejected (error.toApiError requestId)
            (error.statusCode = 401 && options.authenticated && !options.cookieAuth) := by
  cases handled with
  | success data statusCode =>
      have hsuccess : bodiless statusCode = false := hstatus
      rw [receive_success options refreshed sameOrigin requestId h hsuccess]
      cases data <;> rfl
  | thrown error => exact receive_error options refreshed sameOrigin requestId h hstatus
  | noRoute method url => exact receive_error options refreshed sameOrigin requestId h hstatus

/-- An error whose texts and details need escapes. -/
def quotaError : AppError where
  code := .quotaExceeded
  statusCode := 403
  message := "\"Größe\"\n\\".toList
  details := some (.object [("limit".toList, .number "3".toList), ("used".toList, .array [.null])])

theorem quotaError_printable : (Handled.thrown (.app quotaError)).Printable := by
  have hthree : IsLiteral "3".toList := by decide
  rintro _ ⟨⟩
  simp only [WellWritten, MembersWellWritten, ItemsWellWritten, hthree, and_self]

theorem quota_error_arrives :
    receive ⟨true, false, false⟩ true
      (respond false "req_1".toList (.thrown (.app quotaError))) =
        .rejected (quotaError.toApiError "req_1".toList) false :=
  responses_arrive quotaError_printable (by decide) ⟨true, false, false⟩ true false "req_1".toList

end Orgistry.Model.Envelopes
