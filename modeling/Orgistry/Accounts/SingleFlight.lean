import Orgistry.Model.WebClient
import Orgistry.Transitions.Runs
import Mathlib.Data.List.Basic

/-!
# Single-flight refresh

Silent refreshes share one promise; the boot-time restore does not look at it.  A page has one
refresh at a time, and presents no cookie twice, exactly in those runs in which no restore
starts beside another refresh.
-/

namespace Orgistry.Model.WebClient

open Transitions

def Refresh.Outstanding (refresh : Refresh) : Prop := ∃ answer, refresh.stage = .outstanding answer

/-- Its answer never reaches the page. -/
def Refresh.Lost (refresh : Refresh) : Prop :=
  refresh.stage = .received none ∨ refresh.stage = .settled none

instance (refresh : Refresh) : Decidable refresh.Lost :=
  inferInstanceAs (Decidable (_ ∨ _))

def Stage.answer : Stage → Option Answer
  | .outstanding answer => answer
  | .received answer => answer
  | .settled answer => answer

/-- The cookie that is presented, unless the refresh is refused, which leaves it unused. -/
def Refresh.spent (refresh : Refresh) : Option Cookie :=
  if refresh.stage.answer = some .refused then none else refresh.cookie

def Flight.Delivered (flight : Flight) : Prop := ∀ refresh ∈ flight.refreshes, ¬refresh.Lost

instance (flight : Flight) : Decidable flight.Delivered :=
  inferInstanceAs (Decidable (∀ refresh ∈ flight.refreshes, ¬refresh.Lost))

/-- One refresh is outstanding at most, a cookie is presented by one refresh only and never
after its use, and a request is sent at most twice. -/
structure SingleFlight (page : Page) : Prop where
  one : ∀ (i j : Nat) (r r' : Refresh), page.flight.refreshes[i]? = some r →
    page.flight.refreshes[j]? = some r' → r.Outstanding → r'.Outstanding → i = j
  once : page.flight.Delivered → ∀ (i j : Nat) (r r' : Refresh) (cookie : Cookie),
    page.flight.refreshes[i]? = some r → page.flight.refreshes[j]? = some r' →
      r.spent = some cookie → r'.spent = some cookie → i = j
  noReplay : page.flight.Delivered → page.flight.server.replayed = false
  twice : ∀ request ∈ page.requests, request.sends ≤ 2

/-- The answer to the request starts a silent refresh. -/
def StartsSilent (page : Page) (request : Nat) : Prop :=
  page.flight.refreshInFlight = none ∧
    ∃ r, page.requests[request]? = some r ∧ r.stage = .sent ∧ r.retried = false

/-- A restore starts only when no refresh is outstanding, and a silent refresh only when no
restore's is. -/
def Orderly (page : Page) : Event → Prop
  | .mount => ∀ r ∈ page.flight.refreshes, ¬r.Outstanding
  | .reply request .unauthorized =>
      StartsSilent page request → ∀ r ∈ page.flight.refreshes, r.caller = .restore → ¬r.Outstanding
  | _ => True

variable {page page' : Page} {flight flight' : Flight} {i j id : Nat} {r r' refresh : Refresh}

/-- The changes of one refresh, from its answer to its end. -/
inductive Flight.Stirs (flight flight' : Flight) : Prop
  | serve (id : Nat) (outcome : Outcome) (h : flight.serve id outcome = some flight')
  | deliver (id : Nat) (h : flight.deliver id = some flight')
  | lose (id : Nat) (h : flight.lose id = some flight')
  | settle (id : Nat) (h : flight.settle id = some flight')

/-- The flight after a silent refresh has started. -/
def Flight.silent (flight : Flight) : Flight :=
  { flight.refreshAccessToken .silent with refreshInFlight := some flight.refreshes.length }

theorem trySilentRefresh_cases (flight : Flight) : flight.trySilentRefresh.2 = flight ∨
    flight.refreshInFlight = none ∧ flight.trySilentRefresh.2 = flight.silent := by
  unfold Flight.trySilentRefresh
  split
  · exact Or.inl rfl
  · next hnone => exact Or.inr ⟨hnone, rfl⟩

theorem reply_flight {reply : Reply} (h : page.reply id reply = some page') :
    page'.flight = page.flight ∨
      reply = .unauthorized ∧ StartsSilent page id ∧ page'.flight = page.flight.silent := by
  unfold Page.reply at h
  split at h
  · next request hrequest =>
      split at h
      · next hsent =>
          split at h
          · cases h
            exact Or.inl rfl
          · cases h
            exact Or.inl rfl
          · split at h
            · cases h
              exact Or.inl rfl
            · next hretried =>
                cases h
                rcases trySilentRefresh_cases page.flight with hsame | ⟨hnone, hsilent⟩
                · exact Or.inl hsame
                · exact Or.inr ⟨rfl, ⟨hnone, request, hrequest, hsent,
                    Bool.eq_false_iff.mpr hretried⟩, hsilent⟩
      · cases h
  · cases h

theorem resume_flight (h : page.resume id = some page') : page'.flight = page.flight := by
  unfold Page.resume at h
  split at h
  · split at h
    · split at h <;> cases h <;> rfl
    · cases h
  · cases h

theorem unmount_flight (h : page.unmount id = some page') : page'.flight = page.flight := by
  unfold Page.unmount at h
  split at h <;> cases h
  rfl

theorem restored_flight (h : page.restored id = some page') : page'.flight = page.flight := by
  unfold Page.restored at h
  split at h
  · split at h
    · split at h
      · cases h
      · dsimp only at h
        split at h
        · cases h
          rfl
        · split at h <;> cases h <;> rfl
    · cases h
  · cases h

theorem loaded_flight (h : page.loaded id = some page') : page'.flight = page.flight := by
  unfold Page.loaded at h
  split at h
  · split at h
    · split at h
      · dsimp only at h
        cases h
        split <;> rfl
      · cases h
    · cases h
  · cases h

/-- What an event does to the refreshes: none at all, a start, or a move of those under way. -/
theorem step_flight {event : Event} (h : page.step event = some page') :
    page'.flight = page.flight ∨
      event = .mount ∧ page'.flight = page.flight.refreshAccessToken .restore ∨
      (∃ id, event = .reply id .unauthorized ∧ StartsSilent page id ∧
        page'.flight = page.flight.silent) ∨
      page.flight.Stirs page'.flight := by
  cases event with
  | issue =>
      cases h
      exact Or.inl rfl
  | reply id reply =>
      rcases reply_flight h with hsame | ⟨rfl, hstarts, hsilent⟩
      · exact Or.inl hsame
      · exact Or.inr (Or.inr (Or.inl ⟨id, rfl, hstarts, hsilent⟩))
  | resume id => exact Or.inl (resume_flight h)
  | mount =>
      cases h
      exact Or.inr (Or.inl ⟨rfl, rfl⟩)
  | unmount id => exact Or.inl (unmount_flight h)
  | restored id => exact Or.inl (restored_flight h)
  | loaded id => exact Or.inl (loaded_flight h)
  | serve id outcome =>
      obtain ⟨flight', hserve, rfl⟩ := Option.map_eq_some_iff.mp h
      exact Or.inr (Or.inr (Or.inr (.serve id outcome hserve)))
  | deliver id =>
      obtain ⟨flight', hdeliver, rfl⟩ := Option.map_eq_some_iff.mp h
      exact Or.inr (Or.inr (Or.inr (.deliver id hdeliver)))
  | lose id =>
      obtain ⟨flight', hlose, rfl⟩ := Option.map_eq_some_iff.mp h
      exact Or.inr (Or.inr (Or.inr (.lose id hlose)))
  | settle id =>
      obtain ⟨flight', hsettle, rfl⟩ := Option.map_eq_some_iff.mp h
      exact Or.inr (Or.inr (Or.inr (.settle id hsettle)))

/-- A request that is sent again is marked, and waits for no refresh any more. -/
def Request.Counted (request : Request) : Prop :=
  request.sends = (if request.retried then 2 else 1) ∧
    ∀ refresh, request.stage = .waiting refresh → request.retried = false

def Page.Counted (page : Page) : Prop := ∀ request ∈ page.requests, request.Counted

theorem Request.Counted.twice {request : Request} (h : request.Counted) : request.sends ≤ 2 := by
  rw [h.1]
  split <;> decide

theorem Request.Counted.ended {request : Request} (h : request.Counted) (ok : Bool) :
    Request.Counted { request with stage := .ended ok } := ⟨h.1, nofun⟩

theorem Page.Counted.set {request : Request} (h : page.Counted) (hrequest : request.Counted) :
    ∀ other ∈ page.requests.set id request, other.Counted := by
  intro other hother
  rcases List.mem_or_eq_of_mem_set hother with hmem | rfl
  · exact h other hmem
  · exact hrequest

theorem Page.Counted.issue (h : page.Counted) : page.issue.Counted := by
  intro request hrequest
  rcases List.mem_append.mp hrequest with hmem | hmem
  · exact h request hmem
  · rw [List.mem_singleton.mp hmem]
    exact ⟨rfl, nofun⟩

theorem Page.Counted.reply {reply : Reply} (h : page.Counted)
    (hreply : page.reply id reply = some page') : page'.Counted := by
  unfold Page.reply at hreply
  split at hreply
  · next request hrequest =>
      have hcounted := h request (List.mem_of_getElem? hrequest)
      split at hreply
      · next hsent =>
          split at hreply
          · cases hreply
            exact h.set (hcounted.ended true)
          · cases hreply
            exact h.set (hcounted.ended false)
          · split at hreply
            · cases hreply
              exact h.set (hcounted.ended false)
            · next hretried =>
                cases hreply
                exact h.set ⟨hcounted.1, fun _ _ => Bool.eq_false_iff.mpr hretried⟩
      · cases hreply
  · cases hreply

theorem Page.Counted.resume (h : page.Counted) (hresume : page.resume id = some page') :
    page'.Counted := by
  unfold Page.resume at hresume
  split at hresume
  · next request hrequest =>
      have hcounted := h request (List.mem_of_getElem? hrequest)
      split at hresume
      · next refresh hwaiting =>
          have honce : request.sends = 1 := by
            rw [hcounted.1, hcounted.2 refresh hwaiting]
            rfl
          split at hresume
          · cases hresume
            exact h.set ⟨congrArg (· + 1) honce, nofun⟩
          · cases hresume
            exact h.set (hcounted.ended false)
          · cases hresume
      · cases hresume
  · cases hresume

theorem Page.Counted.restored (h : page.Counted) (hrestored : page.restored id = some page') :
    page'.Counted := by
  unfold Page.restored at hrestored
  split at hrestored
  · split at hrestored
    · split at hrestored
      · cases hrestored
      · dsimp only at hrestored
        split at hrestored
        · cases hrestored
          exact h
        · split at hrestored
          · cases hrestored
            exact h
          · cases hrestored
            exact h.issue
    · cases hrestored
  · cases hrestored

theorem loaded_requests (h : page.loaded id = some page') : page'.requests = page.requests := by
  unfold Page.loaded at h
  split at h
  · split at h
    · split at h
      · dsimp only at h
        cases h
        split <;> rfl
      · cases h
    · cases h
  · cases h

/-- No event sends a request a third time. -/
theorem Page.Counted.step {event : Event} (h : page.Counted)
    (hstep : page.step event = some page') : page'.Counted := by
  cases event with
  | issue =>
      cases hstep
      exact h.issue
  | reply id reply => exact h.reply hstep
  | resume id => exact h.resume hstep
  | mount =>
      cases hstep
      exact h
  | unmount id =>
      rw [Page.step, Page.unmount] at hstep
      split at hstep <;> cases hstep
      exact h
  | restored id => exact h.restored hstep
  | loaded id =>
      intro request hrequest
      rw [loaded_requests hstep] at hrequest
      exact h request hrequest
  | serve id outcome =>
      obtain ⟨flight', -, rfl⟩ := Option.map_eq_some_iff.mp hstep
      exact h
  | deliver id =>
      obtain ⟨flight', -, rfl⟩ := Option.map_eq_some_iff.mp hstep
      exact h
  | lose id =>
      obtain ⟨flight', -, rfl⟩ := Option.map_eq_some_iff.mp hstep
      exact h
  | settle id =>
      obtain ⟨flight', -, rfl⟩ := Option.map_eq_some_iff.mp hstep
      exact h

/-! ## One refresh changes -/

theorem getElem?_setStage {stage : Stage} (h : flight.refreshes[id]? = some refresh) :
    (flight.setStage id refresh stage).refreshes[i]? = some r ↔
      i = id ∧ r = { refresh with stage } ∨ i ≠ id ∧ flight.refreshes[i]? = some r := by
  obtain ⟨hlt, -⟩ := List.getElem?_eq_some_iff.mp h
  rw [Flight.setStage, List.getElem?_set]
  by_cases hi : id = i
  · rw [if_pos hi, if_pos hlt]
    simp [hi, eq_comm]
  · rw [if_neg hi]
    simp [Ne.symm hi]

/-- The cookies that are presented stay. -/
theorem cookie_setStage {stage : Stage} (h : flight.refreshes[id]? = some refresh)
    (hi : (flight.setStage id refresh stage).refreshes[i]? = some r) :
    ∃ (j : Nat) (old : Refresh), flight.refreshes[j]? = some old ∧ r.cookie = old.cookie := by
  rcases (getElem?_setStage h).mp hi with ⟨-, rfl⟩ | ⟨-, hold⟩
  · exact ⟨id, refresh, h, rfl⟩
  · exact ⟨i, r, hold, rfl⟩

theorem getElem?_refreshAccessToken {caller : Caller} :
    (flight.refreshAccessToken caller).refreshes[i]? = some r ↔
      i = flight.refreshes.length ∧ r = ⟨flight.cookie, caller, .outstanding none⟩ ∨
        flight.refreshes[i]? = some r := by
  rw [Flight.refreshAccessToken]
  rw [List.getElem?_append]
  by_cases hlt : i < flight.refreshes.length
  · rw [if_pos hlt]
    simp [Nat.ne_of_lt hlt]
  · rw [if_neg hlt, List.getElem?_eq_none (Nat.not_lt.mp hlt), List.getElem?_singleton]
    have hzero : i - flight.refreshes.length = 0 ↔ i = flight.refreshes.length := by omega
    simp [hzero, eq_comm]

theorem serve_cases {outcome : Outcome} (h : flight.serve id outcome = some flight') :
    ∃ refresh, flight.refreshes[id]? = some refresh ∧ refresh.stage = .outstanding none ∧
      flight' = { flight.setStage id refresh
        (.outstanding (some (flight.server.refresh outcome refresh.cookie).1)) with
          server := (flight.server.refresh outcome refresh.cookie).2 } := by
  unfold Flight.serve at h
  split at h
  · next refresh hrefresh =>
      split at h
      · next hstage =>
          cases h
          exact ⟨refresh, hrefresh, hstage, rfl⟩
      · cases h
  · cases h

theorem deliver_cases (h : flight.deliver id = some flight') :
    ∃ refresh answer, flight.refreshes[id]? = some refresh ∧
      refresh.stage = .outstanding (some answer) ∧
      flight' = { flight.setStage id refresh (.received (some answer)) with
        cookie := answer.setCookie flight.cookie } := by
  unfold Flight.deliver at h
  split at h
  · next refresh hrefresh =>
      split at h
      · next answer hstage =>
          cases h
          exact ⟨refresh, answer, hrefresh, hstage, rfl⟩
      · cases h
  · cases h

theorem lose_cases (h : flight.lose id = some flight') :
    ∃ refresh, flight.refreshes[id]? = some refresh ∧ refresh.Outstanding ∧
      flight' = flight.setStage id refresh (.received none) := by
  unfold Flight.lose at h
  split at h
  · next refresh hrefresh =>
      split at h
      · next answer hstage =>
          cases h
          exact ⟨refresh, hrefresh, ⟨answer, hstage⟩, rfl⟩
      · cases h
  · cases h

theorem settle_cases (h : flight.settle id = some flight') :
    ∃ refresh answer, flight.refreshes[id]? = some refresh ∧ refresh.stage = .received answer ∧
      flight' = { flight.setStage id refresh (.settled answer) with
        refreshInFlight := if refresh.caller = .silent then none else flight.refreshInFlight } := by
  unfold Flight.settle at h
  split at h
  · next refresh hrefresh =>
      split at h
      · next answer hstage =>
          refine ⟨refresh, answer, hrefresh, hstage, ?_⟩
          rw [← Option.some.inj h]
          split <;> rfl
      · cases h
  · cases h

/-- What the API does with a cookie. -/
theorem server_refresh_cases (server : Server) (outcome : Outcome) (cookie : Option Cookie) :
    ((server.refresh outcome cookie).1 ∈ [.rejected, .refused] ∧
        (server.refresh outcome cookie).2.used = server.used ∧
        (server.refresh outcome cookie).2.next = server.next ∧
        ((server.refresh outcome cookie).2.replayed = server.replayed ∨
          ∃ presented ∈ server.used, cookie = some presented)) ∨
      ∃ presented, cookie = some presented ∧
        server.refresh outcome cookie = (.rotated server.next,
          { server with used := presented :: server.used, next := server.next + 1 }) := by
  cases cookie with
  | none => exact Or.inl ⟨List.mem_cons_self, rfl, rfl, Or.inl rfl⟩
  | some presented =>
      unfold Server.refresh
      dsimp only
      split
      · exact Or.inl ⟨List.mem_cons_of_mem _ List.mem_cons_self, rfl, rfl, Or.inl rfl⟩
      · split
        · refine Or.inl ⟨List.mem_cons_self, rfl, rfl, ?_⟩
          cases hused : server.used.contains presented with
          | true => exact Or.inr ⟨presented, List.contains_iff_mem.mp hused, rfl⟩
          | false => exact Or.inl (Bool.or_false _)
        · split
          · exact Or.inl ⟨List.mem_cons_self, rfl, rfl, Or.inl rfl⟩
          · exact Or.inr ⟨presented, rfl, rfl⟩

/-- A silent refresh is in flight until it is settled, and one refresh is outstanding at most. -/
structure Flight.Guarded (flight : Flight) : Prop where
  shared : ∀ (i : Nat) (r : Refresh), flight.refreshes[i]? = some r → r.caller = .silent →
    (∀ answer, r.stage ≠ .settled answer) → flight.refreshInFlight = some i
  one : ∀ (i j : Nat) (r r' : Refresh), flight.refreshes[i]? = some r →
    flight.refreshes[j]? = some r' → r.Outstanding → r'.Outstanding → i = j

def Flight.Idle (flight : Flight) : Prop :=
  ∀ (i : Nat) (r : Refresh), flight.refreshes[i]? = some r → ¬r.Outstanding

theorem Flight.Idle.one_started (hidle : flight.Idle) {caller : Caller}
    (hi : (flight.refreshAccessToken caller).refreshes[i]? = some r)
    (hj : (flight.refreshAccessToken caller).refreshes[j]? = some r')
    (hr : r.Outstanding) (hr' : r'.Outstanding) : i = j := by
  rcases getElem?_refreshAccessToken.mp hi with ⟨rfl, -⟩ | hold
  · rcases getElem?_refreshAccessToken.mp hj with ⟨rfl, -⟩ | hold'
    · rfl
    · exact absurd hr' (hidle j r' hold')
  · exact absurd hr (hidle i r hold)

theorem Flight.Guarded.restore (h : flight.Guarded) (hidle : flight.Idle) :
    (flight.refreshAccessToken .restore).Guarded where
  shared i r hi hsilent hopen := by
    rcases getElem?_refreshAccessToken.mp hi with ⟨-, rfl⟩ | hold
    · cases hsilent
    · exact h.shared i r hold hsilent hopen
  one _ _ _ _ hi hj hr hr' := hidle.one_started hi hj hr hr'

theorem Flight.Guarded.silent (h : flight.Guarded) (hnone : flight.refreshInFlight = none)
    (hidle : flight.Idle) : flight.silent.Guarded where
  shared i r hi hsilent hopen := by
    rcases getElem?_refreshAccessToken.mp hi with ⟨rfl, -⟩ | hold
    · rfl
    · have hsome := h.shared i r hold hsilent hopen
      rw [hnone] at hsome
      cases hsome
  one _ _ _ _ hi hj hr hr' := hidle.one_started hi hj hr hr'

/-- A refresh that goes on, and is not settled yet. -/
theorem Flight.Guarded.setStage {stage : Stage} (h : flight.Guarded)
    (hrefresh : flight.refreshes[id]? = some refresh)
    (hopen : ∀ answer, refresh.stage ≠ .settled answer)
    (houtstanding : (∃ answer, stage = .outstanding answer) → refresh.Outstanding) :
    (flight.setStage id refresh stage).Guarded where
  shared i r hi hsilent hr := by
    rcases (getElem?_setStage hrefresh).mp hi with ⟨rfl, rfl⟩ | ⟨-, hold⟩
    · exact h.shared i refresh hrefresh hsilent hopen
    · exact h.shared i r hold hsilent hr
  one i j r r' hi hj hr hr' := by
    rcases (getElem?_setStage hrefresh).mp hi with ⟨rfl, rfl⟩ | ⟨-, hold⟩ <;>
      rcases (getElem?_setStage hrefresh).mp hj with ⟨rfl, rfl⟩ | ⟨-, hold'⟩
    · rfl
    · exact h.one _ _ _ _ hrefresh hold' (houtstanding hr) hr'
    · exact h.one _ _ _ _ hold hrefresh hr (houtstanding hr')
    · exact h.one _ _ _ _ hold hold' hr hr'

/-- An answer, its delivery, its loss or its end starts no refresh. -/
theorem Flight.Guarded.stirs (h : flight.Guarded) (hstirs : flight.Stirs flight') :
    flight'.Guarded := by
  cases hstirs with
  | serve id outcome hserve =>
      obtain ⟨refresh, hrefresh, hstage, rfl⟩ := serve_cases hserve
      have hnext : (flight.setStage id refresh
          (.outstanding (some (flight.server.refresh outcome refresh.cookie).1))).Guarded :=
        h.setStage hrefresh (by simp [hstage]) fun _ => ⟨none, hstage⟩
      exact ⟨hnext.shared, hnext.one⟩
  | deliver id hdeliver =>
      obtain ⟨refresh, answer, hrefresh, hstage, rfl⟩ := deliver_cases hdeliver
      have hnext : (flight.setStage id refresh (.received (some answer))).Guarded :=
        h.setStage hrefresh (by simp [hstage]) (by simp)
      exact ⟨hnext.shared, hnext.one⟩
  | lose id hlose =>
      obtain ⟨refresh, hrefresh, ⟨answer, hstage⟩, rfl⟩ := lose_cases hlose
      exact h.setStage hrefresh (by simp [hstage]) (by simp)
  | settle id hsettle =>
      obtain ⟨refresh, answer, hrefresh, hstage, rfl⟩ := settle_cases hsettle
      have hnext : (flight.setStage id refresh (.settled answer)).Guarded :=
        h.setStage hrefresh (by simp [hstage]) (by simp)
      refine ⟨fun i r hi hsilent hopen => ?_, hnext.one⟩
      rcases (getElem?_setStage hrefresh).mp hi with ⟨-, rfl⟩ | ⟨hne, hold⟩
      · exact absurd rfl (hopen answer)
      · have hsome := h.shared i r hold hsilent hopen
        -- The promise that is cleared is the silent refresh's own.
        have hother : refresh.caller ≠ .silent := by
          intro hcaller
          have hself := h.shared id refresh hrefresh hcaller (by simp [hstage])
          rw [hself] at hsome
          exact hne (Option.some.inj hsome).symm
        exact (if_neg hother).trans hsome

/-- The browser holds the cookie that the outstanding refresh presents, or else one that is
unused. -/
structure Flight.Unspent (flight : Flight) : Prop where
  known : ∀ (i : Nat) (r : Refresh) (cookie : Cookie), flight.refreshes[i]? = some r →
    r.cookie = some cookie → cookie < flight.server.next
  held : ∀ cookie, flight.cookie = some cookie → cookie < flight.server.next
  carried : ∀ (i : Nat) (r : Refresh), flight.refreshes[i]? = some r → r.Outstanding →
    r.cookie = flight.cookie
  fresh : ∀ (i : Nat) (r : Refresh) (cookie : Cookie), flight.refreshes[i]? = some r →
    ¬r.Outstanding → r.spent = some cookie → flight.cookie ≠ some cookie
  once : ∀ (i j : Nat) (r r' : Refresh) (cookie : Cookie), flight.refreshes[i]? = some r →
    flight.refreshes[j]? = some r' → r.spent = some cookie → r'.spent = some cookie → i = j
  successor : ∀ (i : Nat) (r : Refresh) (cookie : Cookie), flight.refreshes[i]? = some r →
    r.stage = .outstanding (some (.rotated cookie)) → cookie < flight.server.next ∧
      ∀ (j : Nat) (r' : Refresh), flight.refreshes[j]? = some r' → r'.cookie ≠ some cookie
  used : ∀ cookie ∈ flight.server.used, ∃ (i : Nat) (r : Refresh),
    flight.refreshes[i]? = some r ∧ r.stage ≠ .outstanding none ∧ r.spent = some cookie
  noReplay : flight.server.replayed = false

theorem spent_le {cookie : Cookie} (h : r.spent = some cookie) : r.cookie = some cookie := by
  unfold Refresh.spent at h
  split at h
  · cases h
  · exact h

/-- A refresh that starts while none is outstanding presents the cookie of the browser. -/
theorem Flight.Unspent.start (h : flight.Unspent) (hidle : flight.Idle) (caller : Caller) :
    (flight.refreshAccessToken caller).Unspent where
  known i r cookie hi hcookie := by
    rcases getElem?_refreshAccessToken.mp hi with ⟨-, rfl⟩ | hold
    · exact h.held cookie hcookie
    · exact h.known i r cookie hold hcookie
  held := h.held
  carried i r hi hr := by
    rcases getElem?_refreshAccessToken.mp hi with ⟨-, rfl⟩ | hold
    · rfl
    · exact absurd hr (hidle i r hold)
  fresh i r cookie hi hr hspent := by
    rcases getElem?_refreshAccessToken.mp hi with ⟨-, rfl⟩ | hold
    · exact absurd ⟨none, rfl⟩ hr
    · exact h.fresh i r cookie hold hr hspent
  once i j r r' cookie hi hj hr hr' := by
    rcases getElem?_refreshAccessToken.mp hi with ⟨rfl, rfl⟩ | hold <;>
      rcases getElem?_refreshAccessToken.mp hj with ⟨rfl, rfl⟩ | hold'
    · rfl
    · exact absurd (spent_le hr) (h.fresh _ _ _ hold' (hidle _ _ hold') hr')
    · exact absurd (spent_le hr') (h.fresh _ _ _ hold (hidle _ _ hold) hr)
    · exact h.once i j r r' cookie hold hold' hr hr'
  successor i r cookie hi hstage := by
    rcases getElem?_refreshAccessToken.mp hi with ⟨-, rfl⟩ | hold
    · cases hstage
    · exact absurd ⟨_, hstage⟩ (hidle i r hold)
  used cookie hused := by
    obtain ⟨i, r, hi, hstage, hspent⟩ := h.used cookie hused
    exact ⟨i, r, getElem?_refreshAccessToken.mpr (Or.inr hi), hstage, hspent⟩
  noReplay := h.noReplay

/-- A stage with the same answer, or with the first one, spends nothing more. -/
theorem spent_setStage {stage : Stage} {cookie : Cookie}
    (hanswer : refresh.stage.answer = none ∨ stage.answer = refresh.stage.answer)
    (h : Refresh.spent { refresh with stage } = some cookie) : refresh.spent = some cookie := by
  have hcookie : refresh.cookie = some cookie := spent_le (r := { refresh with stage }) h
  unfold Refresh.spent at h ⊢
  rcases hanswer with hnone | hsame
  · rw [hnone, if_neg nofun]
    exact hcookie
  · rwa [hsame] at h

theorem Flight.Unspent.once_setStage {stage : Stage} (h : flight.Unspent)
    (hrefresh : flight.refreshes[id]? = some refresh)
    (hanswer : refresh.stage.answer = none ∨ stage.answer = refresh.stage.answer)
    {cookie : Cookie} (hi : (flight.setStage id refresh stage).refreshes[i]? = some r)
    (hj : (flight.setStage id refresh stage).refreshes[j]? = some r')
    (hr : r.spent = some cookie) (hr' : r'.spent = some cookie) : i = j := by
  rcases (getElem?_setStage hrefresh).mp hi with ⟨rfl, rfl⟩ | ⟨-, hold⟩ <;>
    rcases (getElem?_setStage hrefresh).mp hj with ⟨rfl, rfl⟩ | ⟨-, hold'⟩
  · rfl
  · exact h.once _ _ _ _ _ hrefresh hold' (spent_setStage hanswer hr) hr'
  · exact h.once _ _ _ _ _ hold hrefresh hr (spent_setStage hanswer hr')
  · exact h.once _ _ _ _ _ hold hold' hr hr'

theorem Flight.Unspent.used_setStage {stage : Stage} (h : flight.Unspent)
    (hrefresh : flight.refreshes[id]? = some refresh)
    (hanswer : stage.answer = refresh.stage.answer) (hstage : stage ≠ .outstanding none) :
    ∀ cookie ∈ flight.server.used, ∃ (i : Nat) (r : Refresh),
      (flight.setStage id refresh stage).refreshes[i]? = some r ∧ r.stage ≠ .outstanding none ∧
        r.spent = some cookie := by
  intro cookie hcookie
  obtain ⟨i, r, hi, hanswered, hspent⟩ := h.used cookie hcookie
  by_cases hne : i = id
  · subst hne
    rw [hrefresh] at hi
    cases hi
    refine ⟨i, _, (getElem?_setStage hrefresh).mpr (Or.inl ⟨rfl, rfl⟩), hstage, ?_⟩
    rw [Refresh.spent, hanswer]
    exact hspent
  · exact ⟨i, r, (getElem?_setStage hrefresh).mpr (Or.inr ⟨hne, hi⟩), hanswered, hspent⟩

/-- An answer of the API is noted; the API may have used the cookie for a new one. -/
theorem Flight.Unspent.answer (h : flight.Unspent) {answer : Answer} {server : Server}
    (hrefresh : flight.refreshes[id]? = some refresh) (hstage : refresh.stage = .outstanding none)
    (hnext : flight.server.next ≤ server.next)
    (hrotated : ∀ cookie, answer = .rotated cookie →
      cookie < server.next ∧ flight.server.next ≤ cookie)
    (hused : ∀ cookie ∈ server.used, cookie ∈ flight.server.used ∨
      refresh.cookie = some cookie ∧ answer ≠ .refused)
    (hreplayed : server.replayed = false) :
    Flight.Unspent
      { flight.setStage id refresh (.outstanding (some answer)) with server := server } where
  known i r cookie hi hcookie := by
    obtain ⟨j, old, hj, heq⟩ := cookie_setStage hrefresh hi
    exact Nat.lt_of_lt_of_le (h.known j old cookie hj (heq ▸ hcookie)) hnext
  held cookie hcookie := Nat.lt_of_lt_of_le (h.held cookie hcookie) hnext
  carried i r hi hr := by
    rcases (getElem?_setStage hrefresh).mp hi with ⟨rfl, rfl⟩ | ⟨-, hold⟩
    · exact h.carried _ refresh hrefresh ⟨none, hstage⟩
    · exact h.carried i r hold hr
  fresh i r cookie hi hr hspent := by
    rcases (getElem?_setStage hrefresh).mp hi with ⟨-, rfl⟩ | ⟨-, hold⟩
    · exact absurd ⟨_, rfl⟩ hr
    · exact h.fresh i r cookie hold hr hspent
  once _ _ _ _ _ hi hj hr hr' :=
    h.once_setStage hrefresh (Or.inl (by rw [hstage]; rfl)) hi hj hr hr'
  successor i r cookie hi hr := by
    rcases (getElem?_setStage hrefresh).mp hi with ⟨-, rfl⟩ | ⟨-, hold⟩
    · obtain ⟨hlt, hge⟩ := hrotated cookie (by simpa using hr)
      refine ⟨hlt, fun j r' hj hcookie => ?_⟩
      obtain ⟨k, old, hk, heq⟩ := cookie_setStage hrefresh hj
      exact absurd (h.known k old cookie hk (heq ▸ hcookie)) (Nat.not_lt.mpr hge)
    · obtain ⟨hlt, hother⟩ := h.successor i r cookie hold hr
      refine ⟨Nat.lt_of_lt_of_le hlt hnext, fun j r' hj hcookie => ?_⟩
      obtain ⟨k, old, hk, heq⟩ := cookie_setStage hrefresh hj
      exact hother k old hk (heq ▸ hcookie)
  used cookie hcookie := by
    rcases hused cookie hcookie with hbefore | ⟨hpresented, haccepted⟩
    · obtain ⟨i, r, hi, hanswered, hspent⟩ := h.used cookie hbefore
      have hne : i ≠ id := by
        rintro rfl
        rw [hrefresh] at hi
        exact hanswered (Option.some.inj hi ▸ hstage)
      exact ⟨i, r, (getElem?_setStage hrefresh).mpr (Or.inr ⟨hne, hi⟩), hanswered, hspent⟩
    · refine ⟨id, _, (getElem?_setStage hrefresh).mpr (Or.inl ⟨rfl, rfl⟩), nofun, ?_⟩
      rw [Refresh.spent, if_neg (by simpa [Stage.answer] using haccepted)]
      exact hpresented
  noReplay := hreplayed

/-- The server uses up the cookie that was presented, and no other. -/
theorem Flight.Unspent.serve (h : flight.Unspent) {outcome : Outcome}
    (hserve : flight.serve id outcome = some flight') : flight'.Unspent := by
  obtain ⟨refresh, hrefresh, hstage, rfl⟩ := serve_cases hserve
  rcases server_refresh_cases flight.server outcome refresh.cookie with
    ⟨hplain, hused, hnext, hreplayed⟩ | ⟨presented, hpresented, heq⟩
  · refine h.answer hrefresh hstage (Nat.le_of_eq hnext.symm) (fun cookie hrotated => ?_)
      (fun cookie hcookie => Or.inl (hused ▸ hcookie)) ?_
    · rw [hrotated] at hplain
      simp at hplain
    · rcases hreplayed with hsame | ⟨presented, hmem, hpresented⟩
      · rw [hsame, h.noReplay]
      · -- A cookie that is used already was presented by a refresh that is answered.
        obtain ⟨i, r, hi, hanswered, hspent⟩ := h.used presented hmem
        have hself : refresh.spent = some presented := by
          rw [Refresh.spent, hstage, if_neg nofun]
          exact hpresented
        have hid := h.once i id r refresh presented hi hrefresh hspent hself
        rw [hid, hrefresh] at hi
        exact absurd (Option.some.inj hi ▸ hstage) hanswered
  · rw [heq]
    refine h.answer hrefresh hstage (Nat.le_succ _) (fun cookie hrotated => ?_)
      (fun cookie hcookie => ?_) h.noReplay
    · cases hrotated
      exact ⟨Nat.lt_succ_self _, Nat.le_refl _⟩
    · rcases List.mem_cons.mp hcookie with rfl | hbefore
      · exact Or.inr ⟨hpresented, nofun⟩
      · exact Or.inl hbefore

/-- A stage after the answer has come to the page. -/
theorem Flight.Unspent.deliver (h : flight.Unspent) (hguarded : flight.Guarded)
    (hdeliver : flight.deliver id = some flight') : flight'.Unspent := by
  obtain ⟨refresh, answer, hrefresh, hstage, rfl⟩ := deliver_cases hdeliver
  -- No other refresh is outstanding.
  have hothers : ∀ (i : Nat) (r : Refresh), i ≠ id → flight.refreshes[i]? = some r →
      ¬r.Outstanding := fun i r hne hi hr =>
    hne (hguarded.one i id r refresh hi hrefresh hr ⟨_, hstage⟩)
  have hsame : Stage.answer (.received (some answer)) = refresh.stage.answer := by
    rw [hstage]
    rfl
  have hidle : ∀ (i : Nat) (r : Refresh),
      (flight.setStage id refresh (.received (some answer))).refreshes[i]? = some r →
        ¬r.Outstanding := by
    intro i r hi
    rcases (getElem?_setStage hrefresh).mp hi with ⟨-, rfl⟩ | ⟨hne, hold⟩
    · exact fun ⟨_, hstage⟩ => by cases hstage
    · exact hothers i r hne hold
  exact
    { known := fun i r cookie hi hcookie => by
        obtain ⟨j, old, hj, heq⟩ := cookie_setStage hrefresh hi
        exact h.known j old cookie hj (heq ▸ hcookie)
      held := fun cookie hcookie => by
        cases answer with
        | rotated successor =>
            cases hcookie
            exact (h.successor id refresh _ hrefresh hstage).1
        | rejected => cases hcookie
        | refused => exact h.held cookie hcookie
      carried := fun i r hi hr => absurd hr (hidle i r hi)
      fresh := fun i r cookie hi _ hspent hcookie => by
        cases answer with
        | rotated successor =>
            cases hcookie
            obtain ⟨j, old, hj, heq⟩ := cookie_setStage hrefresh hi
            exact (h.successor id refresh _ hrefresh hstage).2 j old hj (heq ▸ spent_le hspent)
        | rejected => cases hcookie
        | refused =>
            rcases (getElem?_setStage hrefresh).mp hi with ⟨-, rfl⟩ | ⟨hne, hold⟩
            · cases hspent
            · exact h.fresh i r cookie hold (hothers i r hne hold) hspent hcookie
      once := fun _ _ _ _ _ hi hj hr hr' => h.once_setStage hrefresh (Or.inr hsame) hi hj hr hr'
      successor := fun i r cookie hi hr => absurd ⟨_, hr⟩ (hidle i r hi)
      used := h.used_setStage hrefresh hsame nofun
      noReplay := h.noReplay }

theorem Flight.Unspent.settle (h : flight.Unspent) (hsettle : flight.settle id = some flight') :
    flight'.Unspent := by
  obtain ⟨refresh, answer, hrefresh, hstage, rfl⟩ := settle_cases hsettle
  have hsame : Stage.answer (.settled answer) = refresh.stage.answer := by
    rw [hstage]
    rfl
  have houtstanding : ¬refresh.Outstanding := fun ⟨_, h⟩ => by
    rw [hstage] at h
    cases h
  exact
    { known := fun i r cookie hi hcookie => by
        obtain ⟨j, old, hj, heq⟩ := cookie_setStage hrefresh hi
        exact h.known j old cookie hj (heq ▸ hcookie)
      held := h.held
      carried := fun i r hi hr => by
        rcases (getElem?_setStage hrefresh).mp hi with ⟨-, rfl⟩ | ⟨-, hold⟩
        · obtain ⟨_, hr⟩ := hr
          cases hr
        · exact h.carried i r hold hr
      fresh := fun i r cookie hi hr hspent => by
        rcases (getElem?_setStage hrefresh).mp hi with ⟨-, rfl⟩ | ⟨-, hold⟩
        · exact h.fresh id refresh cookie hrefresh houtstanding
            (spent_setStage (Or.inr hsame) hspent)
        · exact h.fresh i r cookie hold hr hspent
      once := fun _ _ _ _ _ hi hj hr hr' => h.once_setStage hrefresh (Or.inr hsame) hi hj hr hr'
      successor := fun i r cookie hi hr => by
        rcases (getElem?_setStage hrefresh).mp hi with ⟨-, rfl⟩ | ⟨-, hold⟩
        · cases hr
        · obtain ⟨hlt, hother⟩ := h.successor i r cookie hold hr
          refine ⟨hlt, fun j r' hj hcookie => ?_⟩
          obtain ⟨k, old, hk, heq⟩ := cookie_setStage hrefresh hj
          exact hother k old hk (heq ▸ hcookie)
      used := h.used_setStage hrefresh hsame nofun
      noReplay := h.noReplay }

theorem Flight.Delivered.of_refreshAccessToken {caller : Caller}
    (h : (flight.refreshAccessToken caller).Delivered) : flight.Delivered :=
  fun r hr => h r (List.mem_append_left _ hr)

theorem Flight.Delivered.of_setStage {stage : Stage}
    (h : (flight.setStage id refresh stage).Delivered)
    (hrefresh : flight.refreshes[id]? = some refresh) (hself : ¬refresh.Lost) :
    flight.Delivered := by
  intro r hr
  obtain ⟨i, hi⟩ := List.mem_iff_getElem?.mp hr
  by_cases hne : i = id
  · subst hne
    rw [hrefresh] at hi
    rwa [← Option.some.inj hi]
  · exact h r (List.mem_of_getElem? ((getElem?_setStage hrefresh).mpr (Or.inr ⟨hne, hi⟩)))

theorem mem_setStage {stage : Stage} (h : flight.refreshes[id]? = some refresh) :
    { refresh with stage } ∈ (flight.setStage id refresh stage).refreshes :=
  List.mem_of_getElem? ((getElem?_setStage h).mpr (Or.inl ⟨rfl, rfl⟩))

/-- A run without losses keeps the cookies apart. -/
theorem Flight.Unspent.stirs (h : flight.Delivered → flight.Unspent) (hguarded : flight.Guarded)
    (hstirs : flight.Stirs flight') (hdelivered : flight'.Delivered) : flight'.Unspent := by
  cases hstirs with
  | serve id outcome hserve =>
      obtain ⟨refresh, hrefresh, hstage, rfl⟩ := serve_cases hserve
      have hself : ¬refresh.Lost := by simp [Refresh.Lost, hstage]
      have hbefore := Flight.Delivered.of_setStage hdelivered hrefresh hself
      exact (h hbefore).serve hserve
  | deliver id hdeliver =>
      obtain ⟨refresh, answer, hrefresh, hstage, rfl⟩ := deliver_cases hdeliver
      have hself : ¬refresh.Lost := by simp [Refresh.Lost, hstage]
      have hbefore := Flight.Delivered.of_setStage hdelivered hrefresh hself
      exact (h hbefore).deliver hguarded hdeliver
  | lose id hlose =>
      obtain ⟨refresh, hrefresh, -, rfl⟩ := lose_cases hlose
      exact absurd (Or.inl rfl) (hdelivered _ (mem_setStage hrefresh))
  | settle id hsettle =>
      obtain ⟨refresh, answer, hrefresh, hstage, rfl⟩ := settle_cases hsettle
      have hself : ¬refresh.Lost := by
        intro hlost
        have hnone : answer = none := by simpa [Refresh.Lost, hstage] using hlost
        exact hdelivered _ (mem_setStage hrefresh) (Or.inr (by rw [hnone]))
      have hbefore := Flight.Delivered.of_setStage hdelivered hrefresh hself
      exact (h hbefore).settle hsettle

/-! ## Runs -/

structure Page.Inv (page : Page) : Prop where
  guarded : page.flight.Guarded
  unspent : page.flight.Delivered → page.flight.Unspent
  counted : page.Counted

theorem Page.inv_boot (signedIn : Bool) : (Page.boot signedIn).Inv := by
  have hnone : ∀ (i : Nat) (r : Refresh), (Page.boot signedIn).flight.refreshes[i]? ≠ some r :=
    fun i r h => List.not_mem_nil (List.mem_of_getElem? h)
  exact
    { guarded := ⟨fun i r hi => absurd hi (hnone i r), fun i _ r _ hi => absurd hi (hnone i r)⟩
      unspent := fun _ =>
        { known := fun i r _ hi => absurd hi (hnone i r)
          held := fun cookie h => by
            cases signedIn with
            | true =>
                cases h
                exact Nat.one_pos
            | false => cases h
          carried := fun i r hi => absurd hi (hnone i r)
          fresh := fun i r _ hi => absurd hi (hnone i r)
          once := fun i _ r _ _ hi => absurd hi (hnone i r)
          successor := fun i r _ hi => absurd hi (hnone i r)
          used := fun _ hcookie => absurd hcookie List.not_mem_nil
          noReplay := rfl }
      counted := fun _ hrequest => absurd hrequest List.not_mem_nil }

theorem Page.Inv.singleFlight (h : page.Inv) : SingleFlight page where
  one := h.guarded.one
  once hdelivered := (h.unspent hdelivered).once
  noReplay hdelivered := (h.unspent hdelivered).noReplay
  twice request hrequest := (h.counted request hrequest).twice

theorem Page.Inv.idle (h : page.Inv) (hstarts : StartsSilent page id)
    (hrestores : ∀ r ∈ page.flight.refreshes, r.caller = .restore → ¬r.Outstanding) :
    page.flight.Idle := by
  intro i r hi hr
  cases hcaller : r.caller with
  | restore => exact hrestores r (List.mem_of_getElem? hi) hcaller hr
  | silent =>
      obtain ⟨answer, hstage⟩ := hr
      have hsome := h.guarded.shared i r hi hcaller (by simp [hstage])
      rw [hstarts.1] at hsome
      cases hsome

/-- One event of an orderly page. -/
theorem Page.Inv.step {event : Event} (h : page.Inv) (horderly : Orderly page event)
    (hstep : page.step event = some page') : page'.Inv := by
  have hcounted := h.counted.step hstep
  rcases step_flight hstep with
    hsame | ⟨rfl, hrestore⟩ | ⟨id, rfl, hstarts, hsilent⟩ | hstirs
  · exact ⟨hsame ▸ h.guarded, hsame ▸ h.unspent, hcounted⟩
  · have hidle : page.flight.Idle := fun i r hi => horderly r (List.mem_of_getElem? hi)
    refine ⟨hrestore ▸ h.guarded.restore hidle, fun hdelivered => ?_, hcounted⟩
    rw [hrestore] at hdelivered ⊢
    exact (h.unspent hdelivered.of_refreshAccessToken).start hidle .restore
  · have hidle := h.idle hstarts (horderly hstarts)
    refine ⟨hsilent ▸ h.guarded.silent hstarts.1 hidle, fun hdelivered => ?_, hcounted⟩
    rw [hsilent] at hdelivered ⊢
    have hstarted := (h.unspent (Flight.Delivered.of_refreshAccessToken hdelivered)).start hidle
      .silent
    exact ⟨hstarted.known, hstarted.held, hstarted.carried, hstarted.fresh, hstarted.once,
      hstarted.successor, hstarted.used, hstarted.noReplay⟩
  · exact ⟨h.guarded.stirs hstirs, .stirs h.unspent h.guarded hstirs, hcounted⟩

theorem reply_starts (h : page.reply id .unauthorized = some page')
    (hstarts : StartsSilent page id) : page'.flight = page.flight.silent := by
  obtain ⟨hnone, request, hrequest, hsent, hretried⟩ := hstarts
  unfold Page.reply at h
  rw [hrequest] at h
  dsimp only at h
  rw [if_pos hsent, hretried, if_neg Bool.false_ne_true, Flight.trySilentRefresh, hnone] at h
  cases h
  rfl

/-- A refresh that starts beside another makes two. -/
theorem idle_of_started {caller : Caller} (hone : SingleFlight page')
    (hrefreshes : page'.flight.refreshes = (page.flight.refreshAccessToken caller).refreshes) :
    ∀ r ∈ page.flight.refreshes, ¬r.Outstanding := by
  intro r hr houtstanding
  obtain ⟨i, hi⟩ := List.mem_iff_getElem?.mp hr
  have hold : page'.flight.refreshes[i]? = some r := by
    rw [hrefreshes]
    exact getElem?_refreshAccessToken.mpr (Or.inr hi)
  have hnew : page'.flight.refreshes[page.flight.refreshes.length]? =
      some ⟨page.flight.cookie, caller, .outstanding none⟩ := by
    rw [hrefreshes]
    exact getElem?_refreshAccessToken.mpr (Or.inl ⟨rfl, rfl⟩)
  have hsame := hone.one _ _ _ _ hold hnew houtstanding ⟨none, rfl⟩
  have hlt := (List.getElem?_eq_some_iff.mp hi).1
  omega

theorem orderly_of_one {event : Event} (hone : SingleFlight page')
    (hstep : page.step event = some page') : Orderly page event := by
  unfold Orderly
  split
  · cases hstep
    exact idle_of_started hone rfl
  · next id =>
      intro hstarts r hr _
      have hrefreshes : page'.flight.refreshes =
          (page.flight.refreshAccessToken .silent).refreshes := by
        rw [reply_starts hstep hstarts]
        rfl
      exact idle_of_started hone hrefreshes r hr
  · trivial

/-- The page is single-flight all along exactly if every step is orderly. -/
theorem single_flight_iff (signedIn : Bool) (events : List Event) :
    EveryState Page.step SingleFlight (Page.boot signedIn) events ↔
      EveryStep Page.step Orderly (Page.boot signedIn) events := by
  refine ⟨.of_states fun page event page' _ hnext hstep => orderly_of_one hnext hstep,
    fun horderly => ?_⟩
  exact (EveryState.of_steps (fun page event page' h hevent hstep => h.step hevent hstep)
    (Page.inv_boot signedIn) horderly).mono fun page h => h.singleFlight

/-- A request is sent at most twice in every run. -/
theorem sent_at_most_twice (signedIn : Bool) (events : List Event) :
    EveryState Page.step (fun page => ∀ request ∈ page.requests, request.sends ≤ 2)
      (Page.boot signedIn) events := by
  have hcounted : EveryState Page.step Page.Counted (Page.boot signedIn) events :=
    .of_invariant (fun page event page' h hstep => h.step hstep)
      (fun _ hrequest => absurd hrequest List.not_mem_nil) events
  exact hcounted.mono fun page h request hrequest => (h request hrequest).twice

/-- The effect of a restore runs, is cleaned up and runs again, and both refreshes are answered. -/
theorem remount_replays_cookie :
    ¬EveryState Page.step SingleFlight (Page.boot true)
      [.mount, .unmount 0, .mount, .serve 0 .valid, .serve 1 .valid, .deliver 0, .deliver 1] := by
  intro h
  have hnoReplay : EveryState Page.step
      (fun page => page.flight.Delivered → page.flight.server.replayed = false)
      (Page.boot true)
      [.mount, .unmount 0, .mount, .serve 0 .valid, .serve 1 .valid, .deliver 0, .deliver 1] :=
    h.mono fun page hpage => hpage.noReplay
  revert hnoReplay
  decide

end Orgistry.Model.WebClient
