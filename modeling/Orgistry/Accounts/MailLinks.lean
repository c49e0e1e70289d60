import Orgistry.Model.ObjectRequests

/-!
# Links in mails

The links of `registration.email.ts`, `password-recovery.email.ts`,
`email-verification.email.ts` and `invitation.mailer.ts`, and what the pages of the web
client read off the address that a browser shows for them.
-/

namespace Orgistry.Model.MailLinks

open ObjectStore (encodeURIComponent uriKeep)
open Text

/-- `webBaseUrl.replace(/\/+$/, '')` -/
def webBase (webBaseUrl : List Char) : List Char := webBaseUrl.rdropWhile (· = '/')

def buildRegistrationCompletionUrl (webBaseUrl rawToken : List Char) : List Char :=
  webBase webBaseUrl ++ "/auth/complete-registration#token=".toList ++ encodeURIComponent rawToken

def buildPasswordResetUrl (webBaseUrl rawToken : List Char) : List Char :=
  webBase webBaseUrl ++ "/auth/reset-password#token=".toList ++ encodeURIComponent rawToken

def buildEmailVerificationUrl (webBaseUrl rawToken : List Char) : List Char :=
  webBase webBaseUrl ++ "/auth/verify-email#token=".toList ++ encodeURIComponent rawToken

def buildInvitationAcceptUrl (webBaseUrl rawToken : List Char) : List Char :=
  webBase webBaseUrl ++ "/invitations/accept?token=".toList ++ encodeURIComponent rawToken

/-- What the fragment state of the URL parser keeps. -/
def fragmentKeep (c : Char) : Bool :=
  0x20 < c.toNat && c.toNat < 0x7F && !"\"<>`".toList.contains c

/-- What the query state keeps in an address of the web. -/
def queryKeep (c : Char) : Bool :=
  0x20 < c.toNat && c.toNat < 0x7F && !"\"#<>'".toList.contains c

/-- An open page: what was sent for, and `location.search` and `location.hash`. -/
structure Location where
  requested : List Char
  search : List Char
  hash : List Char

/-- A part of the address with its sign, and nothing of an empty part. -/
def addressPart (sign : Char) (part : Option (List Char)) : List Char :=
  match part with
  | none | some [] => []
  | some text => sign :: text

/-- A browser sends for what stands before the fragment. -/
def openUrl (text : List Char) : Location :=
  match cut '#' text with
  | some (front, fragment) =>
      { requested := front
        search := addressPart '?' ((cut '?' front).map fun parts => percentEncode queryKeep parts.2)
        hash := addressPart '#' (some (percentEncode fragmentKeep fragment)) }
  | none =>
      { requested := text
        search := addressPart '?' ((cut '?' text).map fun parts => percentEncode queryKeep parts.2)
        hash := [] }

/-- `new URLSearchParams(text).get('token')` -/
def tokenParam (text : List Char) : Option (List Char) :=
  (readPairs formDecode (if text.head? = some '?' then text.tail else text)).lookup "token".toList

/-- `tokenFromFragment` of the pages for registrations, resets and verifications. -/
def tokenFromFragment (hash : List Char) : Option (List Char) :=
  tokenParam (if hash.head? = some '#' then hash.tail else hash)

/-- What the browser encodes of an encoded text, when percent signs and digits stay. -/
theorem percentEncode_percentEncode {keep keep' : Char → Bool} (hpercent : keep' '%')
    (hdigit : ∀ n : Fin 16, keep' (upperHexDigit n)) (text : List Char) :
    percentEncode keep' (percentEncode keep text) =
      percentEncode (fun c => keep c && keep' c) text := by
  have hbyte : ∀ b : Byte, percentEncode keep' (percentByte b) = percentByte b := by
    intro b
    have hlt := b.isLt
    apply percentEncode_eq_self
    intro c hc
    rw [percentByte, List.mem_cons, List.mem_cons, List.mem_singleton] at hc
    rcases hc with rfl | rfl | rfl
    · exact hpercent
    · exact hdigit ⟨_, Nat.div_lt_of_lt_mul hlt⟩
    · exact hdigit ⟨_, Nat.mod_lt _ (by decide)⟩
  rw [percentEncode, percentEncode, List.flatMap_assoc]
  apply List.flatMap_congr
  intro c _
  by_cases hc : keep c
  · by_cases hc' : keep' c <;> simp [hc, hc']
  · have hbytes : ((encodeChar c).flatMap percentByte).flatMap
        (fun d => if keep' d then [d] else (encodeChar d).flatMap percentByte) =
          (encodeChar c).flatMap percentByte := by
      rw [List.flatMap_assoc]
      exact List.flatMap_congr fun b _ => hbyte b
    simpa [hc] using hbytes

/-- A kept part of an address is read back when it names the token. -/
theorem tokenParam_percentEncode {keep : Char → Bool} (token : List Char)
    (hsign : "%&=+".toList.all fun c => !keep c) (hname : "token".toList.all keep) :
    tokenParam ("token=".toList ++ percentEncode keep token) = some token := by
  have hout : ∀ c ∈ "%&=+".toList, keep c = false := fun c hc =>
    Bool.not_eq_eq_eq_not.mp (List.all_eq_true.mp hsign c hc)
  have hnot : ∀ c ∈ "&=+".toList, ∀ text, c ∉ percentEncode keep text := fun c hc text hmem => by
    rcases mem_percentEncode hmem with h | rfl | ⟨n, hn, rfl⟩
    · exact absurd (hout c (List.mem_cons_of_mem _ hc)) (by simp [h])
    · exact absurd hc (by decide)
    · have hdigits : ∀ n : Fin 16, upperHexDigit n ∉ "&=+".toList := by decide
      exact hdigits ⟨n, hn⟩ hc
  have hdecode : ∀ text, formDecode (percentEncode keep text) = text := fun text => by
    have hplus : (percentEncode keep text).map (fun c => if c = '+' then ' ' else c) =
        percentEncode keep text := by
      apply (List.map_congr_left fun c hc => ?_).trans (List.map_id _)
      have hne : c ≠ '+' := ne_of_mem_of_not_mem hc (hnot '+' (by decide) text)
      exact if_neg hne
    rw [formDecode, hplus, percentDecode_percentEncode (hout '%' (by decide))]
  have hread := readPairs_joinPairs hdecode (hnot '&' (by decide)) (hnot '=' (by decide))
    [("token".toList, token)]
  have hjoin : joinPairs (percentEncode keep) [("token".toList, token)] =
      "token=".toList ++ percentEncode keep token := by
    simp only [joinPairs, List.map_singleton, joinWith,
      percentEncode_eq_self (List.all_eq_true.mp hname)]
    rfl
  rw [tokenParam, if_neg (by simp), ← hjoin, hread]
  rfl

/-- The mails that carry a token. -/
inductive MailLink
  | registration
  | reset
  | verification
  | invitation

def MailLink.build : MailLink → List Char → List Char → List Char
  | .registration => buildRegistrationCompletionUrl
  | .reset => buildPasswordResetUrl
  | .verification => buildEmailVerificationUrl
  | .invitation => buildInvitationAcceptUrl

/-- What the page of the link takes its token from. -/
def MailLink.pageToken (link : MailLink) (location : Location) : Option (List Char) :=
  match link with
  | .registration | .reset | .verification => tokenFromFragment location.hash
  | .invitation => tokenParam location.search

/-- No address of a page is cut inside the base or the path. -/
theorem notMem_front {sign : Char} {webBaseUrl path : List Char} (hbase : sign ∉ webBaseUrl)
    (hpath : sign ∉ path) : sign ∉ webBase webBaseUrl ++ path := by
  rw [List.mem_append, not_or]
  exact ⟨fun h => hbase ((List.rdropWhile_prefix _ _).subset h), hpath⟩

theorem uriKeep_fragmentKeep (c : Char) (hc : uriKeep c) : fragmentKeep c := by
  simp only [uriKeep, Bool.or_eq_true, decide_eq_true_eq] at hc
  rcases hc with hc | hc
  · have hbounds := isAlphanum_bounds hc
    have hsigns : "\"<>`".toList.all fun d => !d.isAlphanum := by decide
    have hne : ∀ d ∈ "\"<>`".toList, c ≠ d := fun d hd =>
      ne_of_isAlphanum hc (Bool.not_eq_eq_eq_not.mp (List.all_eq_true.mp hsigns d hd))
    simp only [fragmentKeep, Bool.and_eq_true, decide_eq_true_eq, Bool.not_eq_true',
      List.contains_eq_mem, decide_eq_false_iff_not]
    exact ⟨by omega, fun hmem => hne c hmem rfl⟩
  · have hsigns : "-_.!~*'()".toList.all fragmentKeep := by decide
    exact List.all_eq_true.mp hsigns c hc

/-- A link with a fragment sends for its page only. -/
theorem openUrl_fragment {webBaseUrl path : List Char} (hhash : '#' ∉ webBaseUrl)
    (hquery : '?' ∉ webBaseUrl) (hpath : '#' ∉ path ∧ '?' ∉ path) (token : List Char) :
    openUrl (webBase webBaseUrl ++ (path ++ '#' :: "token=".toList) ++ encodeURIComponent token) =
      { requested := webBase webBaseUrl ++ path
        search := []
        hash := '#' :: "token=".toList ++ percentEncode uriKeep token } := by
  have hkept : percentEncode fragmentKeep ("token=".toList ++ encodeURIComponent token) =
      "token=".toList ++ encodeURIComponent token := by
    have hname : "token=".toList.all fragmentKeep := by decide
    have htoken := forall_mem_percentEncode uriKeep_fragmentKeep (by decide) (by decide) token
    apply percentEncode_eq_self
    intro c hc
    exact (List.mem_append.mp hc).elim (List.all_eq_true.mp hname c) (htoken c)
  have htext : webBase webBaseUrl ++ (path ++ '#' :: "token=".toList) ++ encodeURIComponent token =
      (webBase webBaseUrl ++ path) ++ '#' :: ("token=".toList ++ encodeURIComponent token) := by
    simp
  rw [htext, openUrl, cut_append (notMem_front hhash hpath.1)]
  simp only [cut_of_notMem (notMem_front hquery hpath.2), hkept]
  rfl

/-- A link with a query sends its token along. -/
theorem openUrl_query {webBaseUrl path : List Char} (hhash : '#' ∉ webBaseUrl)
    (hquery : '?' ∉ webBaseUrl) (hpath : '#' ∉ path ∧ '?' ∉ path) (token : List Char) :
    openUrl (webBase webBaseUrl ++ (path ++ '?' :: "token=".toList) ++ encodeURIComponent token) =
      { requested := webBase webBaseUrl ++ (path ++ '?' :: "token=".toList) ++
          encodeURIComponent token
        search := '?' :: "token=".toList ++
          percentEncode (fun c => uriKeep c && queryKeep c) token
        hash := [] } := by
  have hhashes : '#' ∉ webBase webBaseUrl ++ (path ++ '?' :: "token=".toList) ++
      encodeURIComponent token := by
    rw [List.mem_append, not_or]
    constructor
    · apply notMem_front hhash
      rw [List.mem_append, not_or]
      exact ⟨hpath.1, by decide⟩
    · have hkeep : ∀ c, uriKeep c → c ≠ '#' := fun c hc heq => by simp [heq, uriKeep] at hc
      intro hmem
      exact forall_mem_percentEncode hkeep (by decide) (by decide) token _ hmem rfl
  have htext : webBase webBaseUrl ++ (path ++ '?' :: "token=".toList) ++ encodeURIComponent token =
      (webBase webBaseUrl ++ path) ++ '?' :: ("token=".toList ++ encodeURIComponent token) := by
    simp
  have hkept : percentEncode queryKeep ("token=".toList ++ encodeURIComponent token) =
      "token=".toList ++ percentEncode (fun c => uriKeep c && queryKeep c) token := by
    calc percentEncode queryKeep ("token=".toList ++ encodeURIComponent token)
        = percentEncode queryKeep "token=".toList ++
            percentEncode queryKeep (percentEncode uriKeep token) := List.flatMap_append
      _ = "token=".toList ++ percentEncode (fun c => uriKeep c && queryKeep c) token := by
          have hname : "token=".toList.all queryKeep := by decide
          rw [percentEncode_eq_self (List.all_eq_true.mp hname),
            percentEncode_percentEncode (by decide) (by decide)]
  rw [openUrl, cut_of_notMem hhashes]
  simp only [htext, cut_append (notMem_front hquery hpath.2), Option.map_some, hkept]
  rfl

/-- The path of the link's page. -/
def MailLink.page : MailLink → List Char
  | .registration => "/auth/complete-registration".toList
  | .reset => "/auth/reset-password".toList
  | .verification => "/auth/verify-email".toList
  | .invitation => "/invitations/accept".toList

theorem MailLink.page_plain (link : MailLink) : '#' ∉ link.page ∧ '?' ∉ link.page := by
  cases link <;> decide

/-- The token in the fragment, wherever the link has one. -/
theorem open_of_fragment {link : MailLink} (hlink : link ≠ .invitation) {webBaseUrl : List Char}
    (hbase : '#' ∉ webBaseUrl ∧ '?' ∉ webBaseUrl) (token : List Char) :
    (openUrl (link.build webBaseUrl token)).requested = webBase webBaseUrl ++ link.page ∧
      link.pageToken (openUrl (link.build webBaseUrl token)) = some token := by
  have hbuild : link.build webBaseUrl token =
      webBase webBaseUrl ++ (link.page ++ '#' :: "token=".toList) ++ encodeURIComponent token := by
    cases link <;> first | rfl | exact absurd rfl hlink
  have hread := @tokenParam_percentEncode uriKeep token (by decide) (by decide)
  rw [hbuild, openUrl_fragment hbase.1 hbase.2 link.page_plain]
  refine ⟨rfl, ?_⟩
  cases link with
  | registration | reset | verification => exact hread
  | invitation => exact absurd rfl hlink

/-- The token in the query of an invitation. -/
theorem open_of_query {webBaseUrl : List Char} (hbase : '#' ∉ webBaseUrl ∧ '?' ∉ webBaseUrl)
    (token : List Char) :
    (openUrl (buildInvitationAcceptUrl webBaseUrl token)).requested =
        buildInvitationAcceptUrl webBaseUrl token ∧
      tokenParam (openUrl (buildInvitationAcceptUrl webBaseUrl token)).search = some token := by
  have hbuild : buildInvitationAcceptUrl webBaseUrl token = webBase webBaseUrl ++
      (MailLink.invitation.page ++ '?' :: "token=".toList) ++ encodeURIComponent token := rfl
  have hread := @tokenParam_percentEncode (fun c => uriKeep c && queryKeep c) token
    (by decide) (by decide)
  rw [hbuild, openUrl_query hbase.1 hbase.2 MailLink.invitation.page_plain]
  exact ⟨rfl, hread⟩

/-- Every page takes from its address exactly the token of the mail. What is sent for shows the
token of an invitation, and nothing of any other token. -/
theorem mailed_tokens_arrive (link : MailLink) (webBaseUrl : List Char)
    (hbase : '#' ∉ webBaseUrl ∧ '?' ∉ webBaseUrl) (token : List Char) :
    link.pageToken (openUrl (link.build webBaseUrl token)) = some token ∧
      ∀ other, (openUrl (link.build webBaseUrl other)).requested =
          (openUrl (link.build webBaseUrl token)).requested ↔
        link ≠ .invitation ∨ other = token := by
  by_cases hlink : link = .invitation
  · subst hlink
    have harrives := fun text => open_of_query hbase text
    refine ⟨(harrives token).2, fun other => ⟨fun hsame => Or.inr ?_, fun h => ?_⟩⟩
    · have hlinks : buildInvitationAcceptUrl webBaseUrl other =
          buildInvitationAcceptUrl webBaseUrl token :=
        (harrives other).1.symm.trans (hsame.trans (harrives token).1)
      exact Option.some.inj ((harrives other).2.symm.trans (hlinks ▸ (harrives token).2))
    · rw [h.resolve_left (absurd rfl)]
  · have harrives := fun text => open_of_fragment hlink hbase text
    exact ⟨(harrives token).2, fun other =>
      ⟨fun _ => Or.inl hlink, fun _ => (harrives other).1.trans (harrives token).1.symm⟩⟩

/-- A token whose characters mean something in an address. -/
theorem awkward_token_arrives :
    ('#' ∉ "https://app.example.com/".toList ∧ '?' ∉ "https://app.example.com/".toList) ∧
      tokenParam (openUrl (buildInvitationAcceptUrl "https://app.example.com/".toList
        "a'b+c&d=#?é".toList)).search = some "a'b+c&d=#?é".toList :=
  ⟨by decide,
    (mailed_tokens_arrive .invitation "https://app.example.com/".toList (by decide) _).1⟩

end Orgistry.Model.MailLinks
