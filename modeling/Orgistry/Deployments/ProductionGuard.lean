import Orgistry.Deployments.ConfigLoading

/-!
# The production guard

What a configuration that is accepted in production promises: strong keys, a mailer that
delivers, and links that lead to the deployment.  The guard compares hosts and senders
with short lists, and the theorem names the spellings that the lists leave out.
-/

namespace Orgistry.Model

open Text Validation

namespace ProductionGuard

/-- A secret that is none of the values known from the repository, bears no mark of a
placeholder, and is not one character repeated. -/
structure RealCredential (unicode : Unicode) (secret : List Char) : Prop where
  unknown : secret ∉ knownDevelopmentSecrets
  unmarked : ∀ marker ∈ placeholderMarkers, ¬marker.toList <:+: unicode.lowerCase.lower secret
  varied : ∀ c n, secret ≠ List.replicate (n + 1) c

structure StrongKey (unicode : Unicode) (secret : List Char) : Prop
    extends RealCredential unicode secret where
  long : productionSecretMinLength ≤ EnvSchema.units secret

/-- A domain is a zone or lies below it. -/
def Within (domain zone : List Char) : Prop := domain = zone ∨ '.' :: zone <:+ domain

/-- The domains that are reserved with all domains below them. -/
def reservedZones : List (List Char) :=
  ["local".toList, "localhost".toList, "test".toList, "invalid".toList, "example".toList,
    "example.com".toList, "example.org".toList, "example.net".toList]

/-- The domain of an address in lower case. -/
def senderDomain (address : List Char) : List Char :=
  match cut '@' address with
  | none => []
  | some (_, domain) => domain.map Char.toLower

def Routable (address : List Char) : Prop :=
  ∀ zone ∈ reservedZones, ¬Within (senderDomain address) zone

/-- A domain name in lower case without the dot of the root. -/
def plainName (name : List Char) : List Char := (chomp '.' name).map Char.toLower

/-- The addresses of 127.0.0.0/8. -/
def IsLoopbackIpv4 (address : ℕ) : Prop := address / 2 ^ 24 = 127

def loopbackIpv6 : List ℕ := [0, 0, 0, 0, 0, 0, 0, 1]

def IsLoopback : Host → Prop
  | .domain name => Within (plainName name) "localhost".toList
  | .ipv4 address => IsLoopbackIpv4 address
  | .ipv6 groups => groups = loopbackIpv6
  | .other _ => False
  | .empty => False

/-- What the guard is for. -/
structure Safe (unicode : Unicode) (config : RuntimeConfig) : Prop where
  key : StrongKey unicode config.auth.jwtSecret
  previous : ∀ previous, config.auth.previousJwtSecret = some previous →
    StrongKey unicode previous ∧ previous ≠ config.auth.jwtSecret
  cookie : config.auth.cookieSecure ∧ config.auth.refreshCookie.secure
  mailer : config.mail.driver = .smtp
  credential : ∃ smtp, config.mail.smtp = some smtp ∧ RealCredential unicode smtp.password
  sender : Routable config.mail.fromEmail
  limiter : config.rateLimit.failureMode ≠ .open
  webUrl : ∃ url, parseUrl unicode.idna config.webUrl = some url ∧ url.scheme = "https".toList ∧
    ¬IsLoopback url.host

/-- A sender below a documentation domain. -/
def OverlookedSender (address : List Char) : Prop :=
  ∃ zone ∈ ["example.com".toList, "example.org".toList, "example.net".toList],
    '.' :: zone <:+ senderDomain address

/-- A name with the dot of the root, an IPv4 address other than 127.0.0.1, and the IPv6
address, which has brackets around it. -/
def OverlookedHost : Host → Prop
  | .domain name => name.getLast? = some '.' ∧ Within (plainName name) "localhost".toList
  | .ipv4 address => IsLoopbackIpv4 address ∧ address ≠ 127 * 2 ^ 24 + 1
  | .ipv6 groups => groups = loopbackIpv6
  | .other _ => False
  | .empty => False

theorem elim_eq_nil_iff {α β : Type} {value : Option α} {issues : α → List β} :
    value.elim [] issues = [] ↔ ∀ a, value = some a → issues a = [] := by
  cases value <;> simp

section Checks

variable {unicode : Unicode} {secret : List Char}

/-- A secret is degenerate when it repeats one character. -/
theorem isObviouslyDegenerateSecret_eq_false_iff :
    isObviouslyDegenerateSecret secret = false ↔ ∀ c n, secret ≠ List.replicate (n + 1) c := by
  have hrepeated : isObviouslyDegenerateSecret secret = true ↔
      ∃ c n, secret = List.replicate (n + 1) c := by
    simp only [isObviouslyDegenerateSecret, ne_eq, decide_not, Bool.and_eq_true,
      Bool.not_eq_true', decide_eq_false_iff_not, decide_eq_true_eq]
    constructor
    · rintro ⟨hne, hsize⟩
      obtain ⟨c, hc⟩ := List.length_eq_one_iff.mp hsize
      have hall : ∀ d ∈ secret, d = c := by
        intro d hd
        rw [← List.mem_dedup, hc] at hd
        exact List.mem_singleton.mp hd
      obtain ⟨n, hn⟩ := Nat.exists_eq_add_one.mpr (List.length_pos_iff.mpr hne)
      exact ⟨c, n, by rw [← hn]; exact List.eq_replicate_of_mem hall⟩
    · rintro ⟨c, n, rfl⟩
      exact ⟨nofun, by rw [List.replicate_dedup (Nat.succ_ne_zero n)]; rfl⟩
  rw [← Bool.not_eq_true, hrepeated]
  simp only [not_exists, ne_eq]

theorem collectSecretIssues_eq_nil_iff (fieldName hint : String) :
    collectSecretIssues unicode fieldName hint secret = [] ↔ RealCredential unicode secret := by
  have hmarker : containsPlaceholderMarker unicode secret = none ↔
      ∀ marker ∈ placeholderMarkers, ¬marker.toList <:+: unicode.lowerCase.lower secret := by
    simp only [containsPlaceholderMarker, List.find?_eq_none, decide_eq_true_eq]
  rw [collectSecretIssues, List.append_eq_nil_iff, List.append_eq_nil_iff, elim_eq_nil_iff]
  simp only [ite_eq_right_iff, List.cons_ne_nil, imp_false, List.contains_iff_mem,
    Bool.not_eq_true, isObviouslyDegenerateSecret_eq_false_iff, ← Option.eq_none_iff_forall_ne_some,
    hmarker]
  exact ⟨fun h => ⟨h.1.1, h.1.2, h.2⟩, fun h => ⟨⟨h.unknown, h.unmarked⟩, h.varied⟩⟩

theorem collectProductionSecretIssues_eq_nil_iff (fieldName : String) :
    collectProductionSecretIssues unicode fieldName secret = [] ↔ StrongKey unicode secret := by
  rw [collectProductionSecretIssues, List.append_eq_nil_iff, collectSecretIssues_eq_nil_iff]
  simp only [ite_eq_right_iff, List.cons_ne_nil, imp_false, Nat.not_lt]
  exact ⟨fun h => ⟨h.1, h.2⟩, fun h => ⟨h.toRealCredential, h.long⟩⟩

/-- The guard passes a production environment exactly when every part of it does. -/
theorem enforceProductionConfigSafety_eq_nil_iff {env : Env} (h : env.nodeEnv = .production) :
    enforceProductionConfigSafety unicode env = [] ↔
      env.rateLimitFailureMode ≠ some .open ∧ StrongKey unicode env.jwtSecret ∧
      (∀ previous, env.jwtPreviousSecret = some previous → StrongKey unicode previous) ∧
      env.cookieSecure ∧ env.mailDriver = .smtp ∧
      (∀ password, env.smtpPassword = some password → RealCredential unicode password) ∧
      collectProductionSenderIssues unicode env.mailFromEmail = [] ∧
      collectProductionWebUrlIssues unicode env.webDemoUrl = [] := by
  rw [enforceProductionConfigSafety, if_neg (not_not.mpr h)]
  simp only [List.append_eq_nil_iff, elim_eq_nil_iff, productionIssues, List.map_eq_nil_iff,
    ite_eq_right_iff, List.cons_ne_nil, imp_false, collectProductionSecretIssues_eq_nil_iff,
    collectProviderCredentialIssues, collectSecretIssues_eq_nil_iff, and_assoc, ne_eq,
    Bool.not_eq_true', Bool.not_eq_false, not_not]

theorem enforceJwtRotationConfig_eq_nil_iff {env : Env} :
    enforceJwtRotationConfig env = [] ↔
      ∀ previous, env.jwtPreviousSecret = some previous → previous ≠ env.jwtSecret := by
  simp only [enforceJwtRotationConfig, elim_eq_nil_iff, ite_eq_right_iff, List.cons_ne_nil,
    imp_false, ne_eq]

theorem enforceMailerConfigCompleteness_eq_nil_iff {env : Env} :
    enforceMailerConfigCompleteness env = [] ↔ (env.mailDriver = .smtp →
      env.smtpHost.isSome ∧ env.smtpUsername.isSome ∧ env.smtpPassword.isSome) := by
  have hfield : ∀ (field : String) (value : Option (List Char)),
      requireSmtpField field value = [] ↔ value.isSome := by
    intro field value
    cases value <;> simp [requireSmtpField]
  rw [enforceMailerConfigCompleteness]
  by_cases hdriver : env.mailDriver = .smtp
  · simp only [hdriver, ne_eq, not_true, if_false, List.append_eq_nil_iff, hfield, true_imp_iff,
      and_assoc]
  · simp only [hdriver, ne_eq, not_false_iff, if_true, false_imp_iff]

end Checks

section Hosts

variable {unicode : Unicode} {host : Host}

theorem isLocalHostname_of_within {name : List Char} (h : Within name "localhost".toList) :
    isLocalHostname name := by
  simp only [isLocalHostname, Bool.or_eq_true, decide_eq_true_eq]
  rcases h with rfl | h
  · simp
  · exact Or.inl (Or.inr h)

/-- A loopback host that the guard lets pass is one of the spellings that it overlooks. -/
theorem isLoopback_iff (hascii : host.IsAscii)
    (h : isLocalHostname (unicode.lowerCase.lower (hostname host)) = false) :
    IsLoopback host ↔ OverlookedHost host := by
  cases host with
  | domain name =>
      refine ⟨fun hwithin => ⟨?_, hwithin⟩, And.right⟩
      by_contra hdot
      rw [hostname, unicode.lowerCase.ascii name hascii] at h
      rw [IsLoopback, plainName, chomp_of_ne hdot] at hwithin
      rw [isLocalHostname_of_within hwithin] at h
      exact Bool.noConfusion h
  | ipv4 address =>
      refine ⟨fun hblock => ⟨hblock, ?_⟩, And.left⟩
      rintro rfl
      have hname : hostname (.ipv4 (127 * 2 ^ 24 + 1)) = "127.0.0.1".toList := by decide
      have hcaught : isLocalHostname "127.0.0.1".toList = true := by decide
      rw [hname, unicode.lowerCase.ascii _ (List.all_iff_forall_prop.mp (by decide))] at h
      exact Bool.noConfusion (h.symm.trans hcaught)
  | ipv6 groups => exact Iff.rfl
  | other text => exact Iff.rfl
  | empty => exact Iff.rfl

/-- What the guard asks of the web URL. -/
theorem collectProductionWebUrlIssues_eq_nil_iff {webUrl : List Char} {url : Url}
    (hurl : parseUrl unicode.idna webUrl = some url) :
    collectProductionWebUrlIssues unicode webUrl = [] ↔ url.scheme = "https".toList ∧
      isLocalHostname (unicode.lowerCase.lower (hostname url.host)) = false := by
  have hprotocol : url.protocol = "https:".toList ↔ url.scheme = "https".toList := by
    rw [Url.protocol, show "https:".toList = "https".toList ++ [':'] by decide]
    exact List.append_left_inj _
  rw [collectProductionWebUrlIssues, hurl]
  simp only [List.append_eq_nil_iff, ite_eq_right_iff, List.cons_ne_nil, imp_false, ne_eq,
    not_not, hprotocol, Bool.not_eq_true]

end Hosts

section Senders

variable {unicode : Unicode} {address : List Char}

theorem isAlphanum_lt {c : Char} (h : c.isAlphanum) : c.toNat < 0x80 := by
  have hbounds := isAlphanum_bounds h
  omega

/-- What the pattern of addresses implies about their parts. -/
theorem parts_of_matchesEmail (h : EnvSchema.matchesEmail address) :
    ∃ name domain, cut '@' address = some (name, domain) ∧ '.' ∈ domain ∧
      ∀ c ∈ address, c.toNat < 0x80 := by
  unfold EnvSchema.matchesEmail at h
  split at h
  · exact absurd h nofun
  · next name domain hcut =>
      simp only [Bool.and_eq_true] at h
      obtain ⟨⟨⟨⟨⟨-, hname⟩, -⟩, hlabels⟩, hlabel⟩, htop⟩ := h
      have hdot : '.' ∈ domain := by
        by_contra hdot
        rw [splitOn_of_notMem hdot] at hlabels
        exact absurd hlabels nofun
      have hlabelChar : ∀ label ∈ splitOn '.' domain, ∀ c ∈ label, c.toNat < 0x80 := by
        intro label hmem c hc
        obtain ⟨labels, top, hsplit⟩ :=
          List.eq_nil_or_concat (splitOn '.' domain) |>.resolve_left (splitOn_ne_nil _ _)
        rw [hsplit, List.concat_eq_append] at hmem hlabel htop
        rw [List.dropLast_concat] at hlabel
        rw [List.getLast?_concat] at htop
        rcases List.mem_append.mp hmem with hmem | hmem
        · have hall := List.all_eq_true.mp hlabel label hmem
          cases label with
          | nil => cases hc
          | cons first rest =>
              obtain ⟨hfirst, hrest⟩ := Bool.and_eq_true_iff.mp hall
              rcases List.mem_cons.mp hc with rfl | hc
              · exact isAlphanum_lt hfirst
              · have hchar := List.all_eq_true.mp hrest c hc
                rcases Bool.or_eq_true_iff.mp hchar with hchar | hchar
                · exact isAlphanum_lt hchar
                · rw [of_decide_eq_true hchar]
                  decide
        · obtain rfl := List.mem_singleton.mp hmem
          have halpha := List.all_eq_true.mp (Bool.and_eq_true_iff.mp htop).2 c hc
          exact isAlphanum_lt (by rw [Char.isAlphanum, halpha, Bool.true_or])
      refine ⟨name, domain, hcut, hdot, ?_⟩
      rw [eq_of_cut hcut]
      intro c hc
      rcases List.mem_append.mp hc with hc | hc
      · have hchar := List.all_eq_true.mp hname c hc
        rcases Bool.or_eq_true_iff.mp hchar with hchar | hchar
        · exact isAlphanum_lt hchar
        · have hshort : ∀ c ∈ "_'+-.".toList, c.toNat < 0x80 :=
            List.all_iff_forall_prop.mp (by decide)
          exact hshort c (of_decide_eq_true hchar)
      · rcases List.mem_cons.mp hc with rfl | hc
        · decide
        · by_contra hlong
          have hjoined : c ∉ joinWith '.' (splitOn '.' domain) := by
            refine notMem_joinWith ?_ fun label hlabel hmem =>
              hlong (hlabelChar label hlabel c hmem)
            rintro rfl
            exact hlong (by decide)
          rw [joinWith_splitOn] at hjoined
          exact hjoined hc

theorem senderDomain_eq {name domain : List Char} (hcut : cut '@' address = some (name, domain)) :
    senderDomain address = domain.map Char.toLower := by
  rw [senderDomain, hcut]

/-- An address that the guard lets pass is routable unless it lies below a documentation
domain. -/
theorem routable_iff (hemail : EnvSchema.matchesEmail address)
    (h : collectProductionSenderIssues unicode address = []) :
    Routable address ↔ ¬OverlookedSender address := by
  obtain ⟨name, domain, hcut, hdot, hascii⟩ := parts_of_matchesEmail hemail
  have hlower : unicode.lowerCase.lower address =
      name.map Char.toLower ++ '@' :: senderDomain address := by
    rw [unicode.lowerCase.ascii address hascii, senderDomain_eq hcut, eq_of_cut hcut,
      List.map_append, List.map_cons]
    rfl
  have hsuffixes : ∀ suffix ∈ reservedSenderDomainSuffixes,
      ¬suffix.toList <:+ unicode.lowerCase.lower address := by
    rw [collectProductionSenderIssues] at h
    split at h
    · exact absurd h nofun
    · split at h
      · exact absurd h nofun
      · next hnone =>
          intro suffix hsuffix
          exact fun hends => List.find?_eq_none.mp hnone suffix hsuffix (decide_eq_true hends)
  have hbelow : ∀ zone : List Char, '.' :: zone <:+ senderDomain address →
      '.' :: zone <:+ unicode.lowerCase.lower address := by
    intro zone hzone
    rw [hlower]
    exact hzone.trans ((List.suffix_cons _ _).trans (List.suffix_append _ _))
  have hdotted : '.' ∈ senderDomain address := by
    rw [senderDomain_eq hcut]
    exact List.mem_map_of_mem hdot
  have htop : ∀ zone : String, '.' ∉ zone.toList →
      ("." ++ zone) ∈ reservedSenderDomainSuffixes →
      ¬Within (senderDomain address) zone.toList := by
    rintro zone hplain hzone (heq | hwithin)
    · exact hplain (heq ▸ hdotted)
    · refine hsuffixes _ hzone ?_
      rw [String.toList_append]
      exact hbelow _ hwithin
  have hsecond : ∀ zone : String, ("@" ++ zone) ∈ reservedSenderDomainSuffixes →
      ¬ '.' :: zone.toList <:+ senderDomain address →
      ¬Within (senderDomain address) zone.toList := by
    rintro zone hzone hnot (heq | hwithin)
    · refine hsuffixes _ hzone ?_
      rw [String.toList_append, hlower, heq]
      exact List.suffix_append _ _
    · exact hnot hwithin
  constructor
  · rintro hroutable ⟨zone, hzone, hwithin⟩
    refine hroutable zone ?_ (Or.inr hwithin)
    have hsub : ∀ zone ∈ ["example.com".toList, "example.org".toList, "example.net".toList],
        zone ∈ reservedZones := by decide
    exact hsub zone hzone
  · intro hsender
    have hnot : ∀ zone ∈ ["example.com".toList, "example.org".toList, "example.net".toList],
        ¬ '.' :: zone <:+ senderDomain address := fun zone hzone hwithin =>
      hsender ⟨zone, hzone, hwithin⟩
    simp only [List.forall_mem_cons] at hnot
    obtain ⟨hcom, horg, hnet, -⟩ := hnot
    simp only [Routable, reservedZones, List.forall_mem_cons]
    exact ⟨htop "local" (by decide) (by decide),
      htop "localhost" (by decide) (by decide),
      htop "test" (by decide) (by decide),
      htop "invalid" (by decide) (by decide),
      htop "example" (by decide) (by decide),
      hsecond "example.com" (by decide) hcom,
      hsecond "example.org" (by decide) horg,
      hsecond "example.net" (by decide) hnet, nofun⟩

end Senders

/-! ## Accepted configurations -/

section Accepted

open RuntimeConfig

variable {unicode : Unicode} {readSecretFile : SecretFileReader} {source : EnvRecord}
  {config : RuntimeConfig}

theorem defaultUrl_cut : cut ':' (urlText "http://localhost:5173".toList) =
    some ("http".toList, "//localhost:5173".toList) := by
  decide

/-- An accepted production configuration is safe exactly when neither its web URL nor its
sender is one that the guard overlooks. -/
theorem safe_iff (hload : loadConfig unicode readSecretFile source = .ok config)
    (hproduction : source "NODE_ENV" = some "production".toList) :
    Safe unicode config ↔
      (∀ text url, source "WEB_DEMO_URL" = some text → parseUrl unicode.idna text = some url →
        ¬OverlookedHost url.host) ∧
      ∀ address, source "MAIL_FROM_EMAIL" = some address → ¬OverlookedSender address := by
  obtain ⟨-, hissues, rfl⟩ := loadConfig_eq_ok_iff.mp hload
  obtain ⟨hfields, hrefine⟩ := envIssues_eq_nil_iff.mp hissues
  generalize hrecord : resolved unicode readSecretFile source = record at hfields hrefine ⊢
  have hread : ∀ key, key ∈ (EnvSchema.shape unicode).map Field.name →
      key ∉ fileBackedSecretNames.map FileBackedSecretName.text → record key = source key := by
    intro key hmem hsecret
    rw [← hrecord]
    exact resolved_apply hmem hsecret
  have hmode := hread "NODE_ENV" (List.mem_of_getElem? (i := 0) rfl) (by decide)
  have hweb := hread "WEB_DEMO_URL" (List.mem_of_getElem? (i := 6) rfl) (by decide)
  have hmail := hread "MAIL_FROM_EMAIL" (List.mem_of_getElem? (i := 11) rfl) (by decide)
  have hnodeEnv : (EnvSchema.toEnv unicode record).nodeEnv = .production := by
    have hparse : (EnvSchema.nodeEnv.parse (some "production".toList)).value =
        some .production := by decide
    calc (EnvSchema.nodeEnv.parse (record "NODE_ENV")).value.getD default
      _ = (EnvSchema.nodeEnv.parse (some "production".toList)).value.getD default := by
          rw [hmode, hproduction]
      _ = .production := by rw [hparse]; rfl
  obtain ⟨hkeys, hguard⟩ := List.append_eq_nil_iff.mp hrefine
  obtain ⟨hrotation, hmailer⟩ := List.append_eq_nil_iff.mp hkeys
  rw [enforceJwtRotationConfig_eq_nil_iff] at hrotation
  rw [enforceMailerConfigCompleteness_eq_nil_iff] at hmailer
  obtain ⟨hlimiter, hkey, hprevious, hcookie, hdriver, hpassword, hsender, hurl⟩ :=
    (enforceProductionConfigSafety_eq_nil_iff hnodeEnv).mp hguard
  obtain ⟨password, hsome⟩ := Option.isSome_iff_exists.mp (hmailer hdriver).2.2
  -- the web URL and the sender are those of the record, which are not the defaults
  have hwebUrl : (EnvSchema.toEnv unicode record).webDemoUrl =
      (source "WEB_DEMO_URL").getD "http://localhost:5173".toList := by
    rw [← hweb]
    exact EnvSchema.defaultText_value
  have hfrom : (EnvSchema.toEnv unicode record).mailFromEmail =
      (source "MAIL_FROM_EMAIL").getD "no-reply@orgistry.local".toList := by
    rw [← hmail]
    exact EnvSchema.defaultText_value
  obtain ⟨url, hparse⟩ : ∃ url, parseUrl unicode.idna
      (EnvSchema.toEnv unicode record).webDemoUrl = some url := by
    have hcheck := EnvSchema.defaultText_passes (EnvSchema.slot_mem 6 rfl) hfields
      (EnvSchema.isUrl unicode) List.mem_cons_self
    rw [hweb, ← hwebUrl, EnvSchema.isUrl] at hcheck
    exact Option.ne_none_iff_exists'.mp (by simpa using hcheck)
  have hemail : EnvSchema.matchesEmail (EnvSchema.toEnv unicode record).mailFromEmail := by
    have hcheck := EnvSchema.defaultText_passes (EnvSchema.slot_mem 11 rfl) hfields
      EnvSchema.isEmail List.mem_cons_self
    rw [hmail, ← hfrom, EnvSchema.isEmail] at hcheck
    simpa using hcheck
  obtain ⟨hhttps, hremote⟩ := (collectProductionWebUrlIssues_eq_nil_iff hparse).mp hurl
  have hloopback := isLoopback_iff (parseUrl_isAscii unicode.idna_ascii hparse) hremote
  have hroutable := routable_iff hemail hsender
  have hgivenUrl : source "WEB_DEMO_URL" = some (EnvSchema.toEnv unicode record).webDemoUrl := by
    cases hsource : source "WEB_DEMO_URL" with
    | some text => rw [hwebUrl, hsource, Option.getD_some]
    | none =>
        rw [hwebUrl, hsource, Option.getD_none] at hparse
        obtain ⟨name, rest, hcut, hscheme⟩ := scheme_of_parseUrl hparse
        obtain ⟨rfl, -⟩ := Prod.mk.inj (Option.some.inj (hcut.symm.trans defaultUrl_cut))
        exact absurd (hhttps.symm.trans hscheme) (by decide)
  have hgivenSender : source "MAIL_FROM_EMAIL" =
      some (EnvSchema.toEnv unicode record).mailFromEmail := by
    cases hsource : source "MAIL_FROM_EMAIL" with
    | some address => rw [hfrom, hsource, Option.getD_some]
    | none =>
        rw [hfrom, hsource, Option.getD_none, collectProductionSenderIssues,
          unicode.lowerCase.ascii _ (List.all_iff_forall_prop.mp (by decide))] at hsender
        rw [if_pos (by decide)] at hsender
        exact absurd hsender nofun
  have hsmtp : ∃ smtp, RuntimeConfig.toSmtp (EnvSchema.toEnv unicode record) = some smtp ∧
      RealCredential unicode smtp.password := by
    rw [RuntimeConfig.toSmtp, if_pos hdriver]
    refine ⟨_, rfl, ?_⟩
    rw [hsome, Option.getD_some]
    exact hpassword password hsome
  have hlimiterMode :
      (RuntimeConfig.toRateLimit (EnvSchema.toEnv unicode record)).failureMode ≠ .open := by
    change (EnvSchema.toEnv unicode record).rateLimitFailureMode.getD
      (if (EnvSchema.toEnv unicode record).nodeEnv = .production then .closed else .open) ≠ .open
    rw [if_pos hnodeEnv]
    cases hgiven : (EnvSchema.toEnv unicode record).rateLimitFailureMode with
    | none => exact nofun
    | some mode =>
        rw [hgiven] at hlimiter
        exact fun h => hlimiter (congrArg some h)
  constructor
  · intro hsafe
    refine ⟨fun text other htext hother hoverlooked => ?_, fun address haddress => ?_⟩
    · obtain rfl := Option.some.inj (htext.symm.trans hgivenUrl)
      obtain rfl := Option.some.inj (hother.symm.trans hparse)
      obtain ⟨found, hfound, -, hnot⟩ := hsafe.webUrl
      obtain rfl := Option.some.inj (hfound.symm.trans hparse)
      exact hnot (hloopback.mpr hoverlooked)
    · obtain rfl := Option.some.inj (haddress.symm.trans hgivenSender)
      exact hroutable.mp hsafe.sender
  · rintro ⟨hhost, haddress⟩
    exact {
      key := hkey
      previous := fun previous h => ⟨hprevious previous h, hrotation previous h⟩
      cookie := ⟨hcookie, hcookie⟩
      mailer := hdriver
      credential := hsmtp
      sender := hroutable.mpr (haddress _ hgivenSender)
      limiter := hlimiterMode
      webUrl := ⟨url, hparse, hhttps, fun h => hhost _ url hgivenUrl hparse (hloopback.mp h)⟩ }

/-- Variables by their names. -/
def ofVariables (entries : List (String × String)) : EnvRecord := fun key =>
  (entries.lookup key).map String.toList

theorem mem_of_ofVariables {entries : List (String × String)} {key : String}
    (h : ofVariables entries key ≠ none) : key ∈ entries.map Prod.fst := by
  by_contra hkey
  refine h (Option.map_eq_none_iff.mpr (List.lookup_eq_none_iff.mpr fun pair hpair => ?_))
  rw [bne_iff_ne]
  rintro rfl
  exact hkey (List.mem_map_of_mem hpair)

/-- A deployment, and where its links lead. -/
def deploymentAt (webDemoUrl : String) : List (String × String) :=
  [("NODE_ENV", "production"), ("DATABASE_URL", "postgres://db:5432/orgistry"),
    ("JWT_SECRET", "b5c09d1f5a8e4c7d9e2f3a4b5c6d7e8f"),
    ("JWT_PREVIOUS_SECRET", "0f1e2d3c4b5a69788796a5b4c3d2e1f0"), ("COOKIE_SECURE", "true"),
    ("MAIL_DRIVER", "smtp"), ("MAIL_FROM_EMAIL", "no-reply@orgistry.com"),
    ("SMTP_HOST", "smtp.orgistry.com"), ("SMTP_USERNAME", "orgistry"),
    ("SMTP_PASSWORD", "x7Kp2mQ9"), ("WEB_DEMO_URL", webDemoUrl)]

/-- To the machine of their reader. -/
def loopbackDeployment : List (String × String) := deploymentAt "https://[::1]/"

def publicDeployment : List (String × String) := deploymentAt "https://app.orgistry.com/"

def noFiles : SecretFileReader := fun _ => .error .other

theorem deploymentAt_loads {webDemoUrl : String}
    (hvalid : envIssues asciiOnly (ofVariables (deploymentAt webDemoUrl)) = []) :
    loadConfig asciiOnly noFiles (ofVariables (deploymentAt webDemoUrl)) =
      .ok (toConfig asciiOnly
        (EnvSchema.toEnv asciiOnly (ofVariables (deploymentAt webDemoUrl)))) := by
  refine loadConfig_of_known (fun key hkey => ?_) ?_ hvalid
  · have hnames : ∀ key ∈ (deploymentAt webDemoUrl).map Prod.fst,
        key ∈ (EnvSchema.shape asciiOnly).map Field.name := by
      change ∀ key ∈ (deploymentAt "").map Prod.fst, _
      decide
    exact hnames key (mem_of_ofVariables hkey)
  · intro name
    cases name <;> rfl

theorem loopbackDeployment_loads :
    loadConfig asciiOnly noFiles (ofVariables loopbackDeployment) =
      .ok (toConfig asciiOnly (EnvSchema.toEnv asciiOnly (ofVariables loopbackDeployment))) :=
  deploymentAt_loads (by decide +kernel)

theorem publicDeployment_loads :
    loadConfig asciiOnly noFiles (ofVariables publicDeployment) =
      .ok (toConfig asciiOnly (EnvSchema.toEnv asciiOnly (ofVariables publicDeployment))) :=
  deploymentAt_loads (by decide +kernel)

theorem loopback_url : parseUrl asciiOnly.idna "https://[::1]/".toList =
    some ⟨"https".toList, .ipv6 loopbackIpv6⟩ := by
  decide

theorem public_url : parseUrl asciiOnly.idna "https://app.orgistry.com/".toList =
    some ⟨"https".toList, .domain "app.orgistry.com".toList⟩ := by
  decide

theorem safe_iff_at_public :
    (∃ config, loadConfig asciiOnly noFiles (ofVariables loopbackDeployment) = .ok config ∧
      (Safe asciiOnly config ↔
        (∀ text url, ofVariables loopbackDeployment "WEB_DEMO_URL" = some text →
          parseUrl asciiOnly.idna text = some url → ¬OverlookedHost url.host) ∧
        ∀ address, ofVariables loopbackDeployment "MAIL_FROM_EMAIL" = some address →
          ¬OverlookedSender address)) ∧
      ∃ config, loadConfig asciiOnly noFiles (ofVariables publicDeployment) = .ok config ∧
        Safe asciiOnly config := by
  refine ⟨⟨_, loopbackDeployment_loads, safe_iff loopbackDeployment_loads (by decide)⟩,
    _, publicDeployment_loads, (safe_iff publicDeployment_loads (by decide)).mpr ⟨?_, ?_⟩⟩
  · intro text url htext hparse hoverlooked
    obtain rfl : "https://app.orgistry.com/".toList = text := Option.some.inj htext
    obtain rfl := Option.some.inj (public_url.symm.trans hparse)
    exact absurd hoverlooked.1 (by decide)
  · rintro address haddress hoverlooked
    obtain rfl : "no-reply@orgistry.com".toList = address := Option.some.inj haddress
    have hnone : ¬OverlookedSender "no-reply@orgistry.com".toList := by
      unfold OverlookedSender
      decide
    exact hnone hoverlooked

/-- The guard accepts links to the machine of their reader. -/
theorem loopback_accepted :
    ∃ config, loadConfig asciiOnly noFiles (ofVariables loopbackDeployment) = .ok config ∧
      ofVariables loopbackDeployment "NODE_ENV" = some "production".toList ∧
      ¬Safe asciiOnly config := by
  refine ⟨_, loopbackDeployment_loads, by decide, fun hsafe => ?_⟩
  obtain ⟨url, hparse, -, hremote⟩ := hsafe.webUrl
  have hurl : (toConfig asciiOnly (EnvSchema.toEnv asciiOnly
      (ofVariables loopbackDeployment))).webUrl = "https://[::1]/".toList := by decide
  rw [hurl] at hparse
  obtain rfl := Option.some.inj (hparse.symm.trans loopback_url)
  exact hremote rfl

end Accepted

end ProductionGuard

end Orgistry.Model
