/-!
# The session of the web client

One page with its browser and the API: authenticated requests and the silent refresh
(`client.ts`), the boot-time restore (`AuthProvider.tsx`), and the rotation of the refresh
cookie (`auth.repo.ts`).  Cookies are numbered in the order in which they are issued; an access
token has the number of the cookie issued with it.
-/

namespace Orgistry.Model.WebClient

abbrev Cookie := Nat

/-- The tokens of the page's session; `replayed` records that a used one was presented. -/
structure Server where
  used : List Cookie
  familyRevoked : Bool
  replayed : Bool
  next : Cookie
  deriving DecidableEq

/-- What else decides a refresh: the rate limits, and the end of the session or of the token. -/
inductive Outcome
  | limited
  | sessionOver
  | expired
  | valid
  deriving DecidableEq

/-- The answer to a refresh: with a new cookie, with none any more, or with the cookie left as it
is. -/
inductive Answer
  | rotated (successor : Cookie)
  | rejected
  | refused
  deriving DecidableEq

/-- The browser's cookie after an answer. -/
def Answer.setCookie (cookie : Option Cookie) : Answer → Option Cookie
  | .rotated successor => some successor
  | .rejected => none
  | .refused => cookie

/-- `POST /v1/auth/refresh`, with `rotateRefreshToken`. -/
def Server.refresh (server : Server) (outcome : Outcome) : Option Cookie → Answer × Server
  | none => (.rejected, server)
  | some cookie =>
      if outcome = .limited then (.refused, server)
      else if server.used.contains cookie || server.familyRevoked || outcome = .sessionOver then
        (.rejected,
          { server with
            familyRevoked := true
            replayed := server.replayed || server.used.contains cookie })
      else if outcome = .expired then (.rejected, server)
      else
        (.rotated server.next,
          { server with used := cookie :: server.used, next := server.next + 1 })

/-- Who calls `refreshAccessToken`. -/
inductive Caller
  | silent
  | restore
  deriving DecidableEq

/-- Answered or not yet, at the page or lost (with the network, or because the API fails after
the rotation), and whether the promise is settled. -/
inductive Stage
  | outstanding (answer : Option Answer)
  | received (answer : Option Answer)
  | settled (answer : Option Answer)
  deriving DecidableEq

/-- A refresh request with the cookie that it presents. -/
structure Refresh where
  cookie : Option Cookie
  caller : Caller
  stage : Stage
  deriving DecidableEq

/-- The refresh requests of the page, in the order in which they are sent, with what they read
and write. -/
structure Flight where
  cookie : Option Cookie
  refreshInFlight : Option Nat
  refreshes : List Refresh
  server : Server
  deriving DecidableEq

namespace Flight

/-- `refreshAccessToken`, up to its `fetch`. -/
def refreshAccessToken (flight : Flight) (caller : Caller) : Flight :=
  { flight with
    refreshes := flight.refreshes ++ [⟨flight.cookie, caller, .outstanding none⟩] }

/-- `trySilentRefresh`, with the refresh that it waits for. -/
def trySilentRefresh (flight : Flight) : Nat × Flight :=
  match flight.refreshInFlight with
  | some id => (id, flight)
  | none =>
      (flight.refreshes.length,
        { flight.refreshAccessToken .silent with refreshInFlight := some flight.refreshes.length })

def setStage (flight : Flight) (id : Nat) (refresh : Refresh) (stage : Stage) : Flight :=
  { flight with refreshes := flight.refreshes.set id { refresh with stage } }

/-- The API answers a refresh. -/
def serve (flight : Flight) (id : Nat) (outcome : Outcome) : Option Flight :=
  match flight.refreshes[id]? with
  | some refresh =>
      if refresh.stage = .outstanding none then
        let (answer, server) := flight.server.refresh outcome refresh.cookie
        some { flight.setStage id refresh (.outstanding (some answer)) with server }
      else none
  | none => none

/-- The answer is delivered. -/
def deliver (flight : Flight) (id : Nat) : Option Flight :=
  match flight.refreshes[id]? with
  | some refresh =>
      match refresh.stage with
      | .outstanding (some answer) =>
          some { flight.setStage id refresh (.received (some answer)) with
            cookie := answer.setCookie flight.cookie }
      | _ => none
  | none => none

/-- The answer is lost. -/
def lose (flight : Flight) (id : Nat) : Option Flight :=
  match flight.refreshes[id]? with
  | some refresh =>
      match refresh.stage with
      | .outstanding _ => some (flight.setStage id refresh (.received none))
      | _ => none
  | none => none

/-- `refreshAccessToken` returns, and a silent refresh is in flight no more. -/
def settle (flight : Flight) (id : Nat) : Option Flight :=
  match flight.refreshes[id]? with
  | some refresh =>
      match refresh.stage with
      | .received answer =>
          let flight := flight.setStage id refresh (.settled answer)
          some (if refresh.caller = .silent then { flight with refreshInFlight := none }
            else flight)
      | _ => none
  | none => none

/-- What `refreshAccessToken` has returned: the new access token, or `false`. -/
def returned (flight : Flight) (id : Nat) : Option (Option Nat) :=
  match flight.refreshes[id]? with
  | some ⟨_, _, .settled (some (.rotated successor))⟩ => some (some successor)
  | some ⟨_, _, .settled _⟩ => some none
  | _ => none

end Flight

inductive RequestStage
  | sent
  | waiting (refresh : Nat)
  | ended (ok : Bool)
  deriving DecidableEq

/-- An authenticated request, and how often it is sent. -/
structure Request where
  sends : Nat
  retried : Bool
  stage : RequestStage
  deriving DecidableEq

inductive RestoreStage
  | restoring (refresh : Nat)
  | loading (request : Nat)
  | ended
  deriving DecidableEq

/-- A run of the effect that restores the session. -/
structure Restore where
  cancelled : Bool
  stage : RestoreStage
  deriving DecidableEq

inductive AuthStatus
  | restoring
  | authenticated
  | unauthenticated
  deriving DecidableEq

structure Page where
  flight : Flight
  accessToken : Option Nat
  status : AuthStatus
  requests : List Request
  restores : List Restore
  deriving DecidableEq

/-- How an authenticated request is answered. -/
inductive Reply
  | ok
  | unauthorized
  | failed
  deriving DecidableEq

inductive Event
  | issue
  | reply (request : Nat) (reply : Reply)
  | resume (request : Nat)
  | mount
  | unmount (restore : Nat)
  | restored (restore : Nat)
  | loaded (restore : Nat)
  | serve (refresh : Nat) (outcome : Outcome)
  | deliver (refresh : Nat)
  | lose (refresh : Nat)
  | settle (refresh : Nat)
  deriving DecidableEq

namespace Page

/-- A freshly loaded page, with a cookie or without. -/
def boot (signedIn : Bool) : Page where
  flight :=
    { cookie := if signedIn then some 0 else none
      refreshInFlight := none
      refreshes := []
      server := ⟨[], false, false, 1⟩ }
  accessToken := none
  status := .restoring
  requests := []
  restores := []

def issue (page : Page) : Page := { page with requests := page.requests ++ [⟨1, false, .sent⟩] }

def endRequest (page : Page) (id : Nat) (request : Request) (ok : Bool) : Page :=
  { page with requests := page.requests.set id { request with stage := .ended ok } }

/-- `notifySessionExpired`, with the listener of `AuthProvider`. -/
def notifySessionExpired (page : Page) : Page :=
  { page with accessToken := none, status := .unauthenticated }

/-- `request` when its response is there. -/
def reply (page : Page) (id : Nat) (reply : Reply) : Option Page :=
  match page.requests[id]? with
  | some request =>
      if request.stage = .sent then
        match reply with
        | .ok => some (page.endRequest id request true)
        | .failed => some (page.endRequest id request false)
        | .unauthorized =>
            if request.retried then some (page.endRequest id request false).notifySessionExpired
            else
              let (refresh, flight) := page.flight.trySilentRefresh
              some { page with
                flight
                requests := page.requests.set id { request with stage := .waiting refresh } }
      else none
  | none => none

/-- `request` after `trySilentRefresh`. -/
def resume (page : Page) (id : Nat) : Option Page :=
  match page.requests[id]? with
  | some request =>
      match request.stage with
      | .waiting refresh =>
          match page.flight.returned refresh with
          | some (some _) =>
              some { page with
                requests := page.requests.set id ⟨request.sends + 1, true, .sent⟩ }
          | some none => some (page.endRequest id request false).notifySessionExpired
          | none => none
      | _ => none
  | none => none

/-- The effect runs. -/
def mount (page : Page) : Page :=
  { page with
    flight := page.flight.refreshAccessToken .restore
    restores := page.restores ++ [⟨false, .restoring page.flight.refreshes.length⟩] }

/-- The effect's cleanup. -/
def unmount (page : Page) (id : Nat) : Option Page :=
  match page.restores[id]? with
  | some restore =>
      some { page with restores := page.restores.set id { restore with cancelled := true } }
  | none => none

/-- The effect after `refreshAccessToken`. -/
def restored (page : Page) (id : Nat) : Option Page :=
  match page.restores[id]? with
  | some restore =>
      match restore.stage with
      | .restoring refresh =>
          match page.flight.returned refresh with
          | none => none
          | some token =>
              let ended :=
                { page with restores := page.restores.set id { restore with stage := .ended } }
              if restore.cancelled then some ended
              else if token = none then some { ended with status := .unauthenticated }
              else
                some { page.issue with
                  restores := page.restores.set id
                    { restore with stage := .loading page.requests.length } }
      | _ => none
  | none => none

/-- The effect after `GET /v1/auth/me`. -/
def loaded (page : Page) (id : Nat) : Option Page :=
  match page.restores[id]? with
  | some restore =>
      match restore.stage with
      | .loading request =>
          match page.requests[request]? with
          | some ⟨_, _, .ended ok⟩ =>
              let ended :=
                { page with restores := page.restores.set id { restore with stage := .ended } }
              some (if restore.cancelled then ended
                else { ended with status := if ok then .authenticated else .unauthenticated })
          | _ => none
      | _ => none
  | none => none

/-- A refresh is settled, and the access token set or cleared. -/
def settle (page : Page) (id : Nat) : Option Page :=
  (page.flight.settle id).map fun flight =>
    { page with flight, accessToken := (flight.returned id).join }

def step (page : Page) : Event → Option Page
  | .issue => some page.issue
  | .reply request reply => page.reply request reply
  | .resume request => page.resume request
  | .mount => some page.mount
  | .unmount restore => page.unmount restore
  | .restored restore => page.restored restore
  | .loaded restore => page.loaded restore
  | .serve refresh outcome =>
      (page.flight.serve refresh outcome).map fun flight => { page with flight }
  | .deliver refresh => (page.flight.deliver refresh).map fun flight => { page with flight }
  | .lose refresh => (page.flight.lose refresh).map fun flight => { page with flight }
  | .settle refresh => page.settle refresh

end Page

end Orgistry.Model.WebClient
