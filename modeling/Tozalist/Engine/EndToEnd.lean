/-
# Tozalist.Engine.EndToEnd -- from the engine's probe to the customer's verdict

The engine writes what it saw into independent flags and error strings; the
aggregator reads them with an ordered rule list.  This file composes the two.

* `verdict_of_infrastructure`: no failure of lookup or probe becomes a verdict about
  the address, for every verifier.
* `told_iff`: the verdict tells the customer what the mail server said about the
  mailbox, save for one pair of replies: a full mailbox is reported as rejected.
* `neverCondemns_iff`: a policy or temporary refusal is never held against the
  address unless a temporary one contains a word of `fullWords` or `unknownWords`.
-/
import Tozalist.Engine.Verify

namespace Tozalist.Engine

set_option autoImplicit false

open Core (AggregateInput AggregateResult OperationalReason ReasonCode aggregate)

section EndToEnd

variable (toLower : String → String) (v : Verifier) (cfg : Config) (req : VerifyRequest)
  (durationMs : Nat) (typo : Option JsString) (operationalReason : Option OperationalReason)

/-- What `aggregate` is given for a request. -/
def verified : AggregateInput :=
  ⟨runVerify toLower v cfg req durationMs, typo, operationalReason⟩

/-- The address parsed, and its domain has a mail server. -/
structure MailServerFound : Prop where
  valid : (v.parseAddress req.email).valid = true
  found : ∃ mx, v.checkMX (v.parseAddress req.email).domain = .ok mx ∧ mx.hasMXRecord = true

variable {v req}

/-- A mail server that was found shows as such in the response. -/
theorem MailServerFound.mx (server : MailServerFound v req) :
    (runVerify toLower v cfg req durationMs).mx.hasMx = some true ∧
      (runVerify toLower v cfg req durationMs).mx.error = "" := by
  obtain ⟨mx, answer, has⟩ := server.found
  rw [runVerify_of_valid toLower v cfg durationMs server.valid]
  simp only [lookupMX, answer, has]
  exact ⟨trivial, trivial⟩

/-- With a mail server found, the last rules alone decide. -/
theorem MailServerFound.decide_eq (server : MailServerFound v req) :
    Core.decide (verified toLower v cfg req durationMs typo operationalReason) =
      Core.decideReachable (verified toLower v cfg req durationMs typo operationalReason) := by
  obtain ⟨has, clear⟩ := server.mx toLower cfg durationMs
  have valid : (runVerify toLower v cfg req durationMs).syntax_.valid = true := by
    rw [runVerify_of_valid toLower v cfg durationMs server.valid]
  simp [Core.decide, Core.lookupUnavailable, verified, has, clear, valid]

/-- The probe part of the response, when a probe was asked for. -/
theorem MailServerFound.smtp_eq (server : MailServerFound v req) (asked : req.smtp = true) :
    (runVerify toLower v cfg req durationMs).smtp =
      some (probeSMTP toLower v cfg (v.parseAddress req.email) req.catchAll
        (lookupMX toLower v cfg (v.parseAddress req.email).domain)) := by
  rw [runVerify_of_valid toLower v cfg durationMs server.valid]
  simp only [asked, if_true]

/-- The lookup behind a found mail server. -/
theorem MailServerFound.lookup (server : MailServerFound v req) :
    (lookupMX toLower v cfg (v.parseAddress req.email).domain).hasMx = some true ∧
      (lookupMX toLower v cfg (v.parseAddress req.email).domain).error = "" := by
  obtain ⟨mx, answer, has⟩ := server.found
  simp only [lookupMX, answer, has]
  exact ⟨trivial, trivial⟩

/-- A probe that was asked for and brought no result. -/
theorem MailServerFound.decide_of_no_result (server : MailServerFound v req)
    (asked : req.smtp = true)
    (none_ : cfg.smtpEnabled = false ∨ ∀ result,
      v.checkSMTP (v.parseAddress req.email).domain (v.parseAddress req.email).username
        req.catchAll ≠ .ok (some result)) :
    (Core.decide (verified toLower v cfg req durationMs typo operationalReason)).verdict =
      .unknown := by
  rw [server.decide_eq toLower cfg durationMs typo operationalReason]
  obtain ⟨has, clear⟩ := server.lookup toLower cfg
  have probe := server.smtp_eq toLower cfg durationMs asked
  simp only [Core.decideReachable, verified, probe]
  cases operationalReason with
  | some reason => rfl
  | none =>
      rcases probeSMTP_cases toLower v cfg (v.parseAddress req.email) req.catchAll has clear with
        ⟨-, policy⟩ | ⟨-, -, attempted, error, failed, refused⟩ | ⟨enabled, result, answer, -⟩
      · rw [policy]; rfl
      · rw [refused]
        simp [Core.decideSmtp, smtpResult, failed]
      · rcases none_ with disabled | absent
        · rw [disabled] at enabled; cases enabled
        · exact absurd answer (absent result)

/-! ## Infrastructure failures -/

/-- A lookup that failed other than by an authoritative absence. -/
theorem decide_of_failed_lookup {err : GoError}
    (valid : (v.parseAddress req.email).valid = true)
    (failed : v.checkMX (v.parseAddress req.email).domain = .error err)
    (present : err.dnsNotFound ≠ some true) :
    (runVerify toLower v cfg req durationMs).mx.hasMx = none ∧
      Core.decide (verified toLower v cfg req durationMs typo operationalReason) =
        if typo.isSome then ⟨.risky, 65, some .possibleTypo⟩
        else ⟨.unknown, 50, some .mxLookupUnavailable⟩ := by
  have mx : (runVerify toLower v cfg req durationMs).mx.hasMx = none := by
    rw [runVerify_of_valid toLower v cfg durationMs valid]
    simp [lookupMX, failed, present]
  have sound : (runVerify toLower v cfg req durationMs).syntax_.valid = true := by
    rw [runVerify_of_valid toLower v cfg durationMs valid]
  refine ⟨mx, ?_⟩
  simp [Core.decide, Core.lookupUnavailable, verified, mx, sound]

/-- A `valid` verdict goes back to a probe the mail server answered. -/
theorem verdict_of_valid (valid : (v.parseAddress req.email).valid = true)
    (verdict : (Core.decide
      (verified toLower v cfg req durationMs typo operationalReason)).verdict = .valid) :
    (∃ mx, v.checkMX (v.parseAddress req.email).domain = .ok mx ∧ mx.hasMXRecord = true) ∧
      operationalReason = none ∧ typo = none ∧ req.smtp = true ∧ cfg.smtpEnabled = true ∧
      (∃ found, v.checkSMTP (v.parseAddress req.email).domain
          (v.parseAddress req.email).username req.catchAll = .ok (some found) ∧
        found.deliverable = true ∧ found.fullInbox = false ∧ found.disabled = false ∧
        (req.catchAll && found.catchAll) = false) ∧
      v.isDisposable (v.parseAddress req.email).domain = false ∧
      v.isRoleAccount (v.parseAddress req.email).username = false := by
  obtain ⟨-, has, -, operational, ⟨smtp, probe, clean⟩, disposable, role, noTypo⟩ :=
    Core.decide_valid verdict
  simp only [verified] at operational noTypo
  simp only [verified, runVerify_of_valid toLower v cfg durationMs valid] at has probe
  simp only [verified, runVerify_of_valid toLower v cfg durationMs valid] at disposable role
  have lookup : (∃ mx, v.checkMX (v.parseAddress req.email).domain = .ok mx ∧
      mx.hasMXRecord = true) ∧
      (lookupMX toLower v cfg (v.parseAddress req.email).domain).error = "" := by
    rcases lookupMX_cases toLower v cfg (v.parseAddress req.email).domain with
      ⟨mx, answer, here, clear⟩ | ⟨_, _, _, here, _⟩ | ⟨_, _, _, here, _⟩
    · rw [has] at here
      exact ⟨⟨mx, answer, (Option.some.inj here).symm⟩, clear⟩
    · rw [has] at here; cases here
    · rw [has] at here; cases here
  have asked : req.smtp = true := by
    cases h : req.smtp with
    | true => rfl
    | false => rw [h] at probe; cases probe
  simp only [asked, if_true, Option.some.injEq] at probe
  refine ⟨lookup.1, operational, noTypo, asked, ?_⟩
  rcases probeSMTP_cases toLower v cfg (v.parseAddress req.email) req.catchAll has lookup.2 with
    ⟨-, policy⟩ | ⟨-, -, _, error, failed, refused⟩ | ⟨enabled, found, answer, flags⟩
  · rw [policy] at probe
    subst probe
    cases clean.notDisabled
  · rw [refused] at probe
    subst probe
    exact absurd clean.error failed
  · rw [flags] at probe
    subst probe
    exact ⟨enabled, ⟨found, answer, clean.accepted rfl, clean.notFull rfl, clean.notDisabled,
      clean.catchAll⟩, disposable, role⟩

variable (v req) in
/-- What the verdict on an address owes to lookup and probe. -/
structure VerdictSound (input : AggregateInput) (result : AggregateResult) : Prop where
  /-- A failed lookup leaves `has_mx` open and at most a typo to report. -/
  lookup : ∀ err, v.checkMX (v.parseAddress req.email).domain = .error err →
    err.dnsNotFound ≠ some true →
    input.engine.mx.hasMx = none ∧
      (input.typo.isSome → result.verdict = .risky ∧
        result.reasonCodes.head? = some .possibleTypo) ∧
      (input.typo = none → result.verdict = .unknown)
  /-- A probe that brought no result is no verdict. -/
  probe : (∃ mx, v.checkMX (v.parseAddress req.email).domain = .ok mx ∧ mx.hasMXRecord = true) →
    (input.operationalReason.isSome ∨ req.smtp = true ∧ (cfg.smtpEnabled = false ∨
      ∀ found, v.checkSMTP (v.parseAddress req.email).domain (v.parseAddress req.email).username
        req.catchAll ≠ .ok (some found))) →
    result.verdict ≠ .invalid ∧ result.verdict ≠ .valid
  nodup : result.reasonCodes.Nodup
  head : result.reasonCodes.head? = (Core.decide input).reason
  empty : result.reasonCodes = [] ↔ result.verdict = .valid
  /-- `valid` stands on a probe that the mail server answered by accepting. -/
  valid : result.verdict = .valid →
    (∃ mx, v.checkMX (v.parseAddress req.email).domain = .ok mx ∧ mx.hasMXRecord = true) ∧
      input.operationalReason = none ∧ input.typo = none ∧ req.smtp = true ∧
      cfg.smtpEnabled = true ∧
      (∃ found, v.checkSMTP (v.parseAddress req.email).domain
          (v.parseAddress req.email).username req.catchAll = .ok (some found) ∧
        found.deliverable = true ∧ found.fullInbox = false ∧ found.disabled = false ∧
        (req.catchAll && found.catchAll) = false) ∧
      v.isDisposable (v.parseAddress req.email).domain = false ∧
      v.isRoleAccount (v.parseAddress req.email).username = false

variable (v req) in
/-- **An infrastructure failure is never a verdict about the address.** -/
theorem verdict_of_infrastructure (valid : (v.parseAddress req.email).valid = true) :
    VerdictSound v cfg req (verified toLower v cfg req durationMs typo operationalReason)
      (aggregate (verified toLower v cfg req durationMs typo operationalReason)) where
  lookup := by
    intro err failed present
    obtain ⟨mx, decided⟩ := decide_of_failed_lookup toLower cfg durationMs typo operationalReason
      valid failed present
    refine ⟨mx, ?_, ?_⟩
    · intro some_
      rw [if_pos (by exact some_)] at decided
      exact ⟨congrArg (·.verdict) decided, by rw [Core.aggregate_head, decided]⟩
    · intro none_
      rw [if_neg (by rw [show typo = none from none_]; decide)] at decided
      exact congrArg (·.verdict) decided
  probe := by
    intro found kept
    have server : MailServerFound v req := ⟨valid, found⟩
    have unknown : (Core.decide
        (verified toLower v cfg req durationMs typo operationalReason)).verdict = .unknown := by
      rcases kept with operational | ⟨asked, none_⟩
      · obtain ⟨reason, rfl⟩ := Option.isSome_iff_exists.1
          (show operationalReason.isSome from operational)
        rw [server.decide_eq toLower cfg durationMs typo (some reason)]
        rfl
      · exact server.decide_of_no_result toLower cfg durationMs typo operationalReason asked none_
    simp only [aggregate, unknown]
    exact ⟨by decide, by decide⟩
  nodup := Core.aggregate_reasonCodes_nodup _
  head := Core.aggregate_head _
  empty := Core.aggregate_reasonCodes_eq_nil _
  valid := verdict_of_valid toLower cfg durationMs typo operationalReason valid

end EndToEnd

/-! ## What the mail server said about the mailbox -/

/-- The reasons that report on the SMTP probe. -/
def smtpReasons : List ReasonCode :=
  [.catchAllDomain, .smtpUnavailable, .mailboxRejected, .mailboxFull, .mailboxDisabled,
    .smtpNotChecked, .smtpDisabled, .circuitOpen]

/-- The verdict that a reply to the real recipient calls for. -/
def Reports (real : ReplyKind) (result : AggregateResult) : Prop :=
  match real with
  | .full => result.verdict = .risky ∧ result.reasonCodes.head? = some .mailboxFull
  | .disabled => result.verdict = .invalid ∧ result.reasonCodes.head? = some .mailboxDisabled
  | .unknown => result.verdict = .invalid ∧ result.reasonCodes.head? = some .mailboxRejected
  | .accepted => result.verdict ≠ .invalid ∧ ∀ code ∈ result.reasonCodes, code ∉ smtpReasons
  | .blocked | .temporary | .other => True

/-- A refusal of the random recipient that tells mailboxes apart. -/
def ReplyKind.Distinguishes (random : ReplyKind) : Prop :=
  random = .unknown ∨ random = .full ∨ random = .disabled

instance (random : ReplyKind) : Decidable random.Distinguishes :=
  inferInstanceAs (Decidable (_ ∨ _))

/-- What a pair of replies is to become: a catch-all finding, or what the second says. -/
def Told (random real : ReplyKind) (result : AggregateResult) : Prop :=
  (random = .accepted →
      result.verdict = .unknown ∧ result.reasonCodes.head? = some .catchAllDomain) ∧
    (random.Distinguishes → Reports real result)

section Told

variable (toLower randomEmail : String → String) (net : Network) (base : Verifier) (cfg : Config)
  (req : VerifyRequest) (durationMs : Nat) (typo : Option JsString)

/-- The class of a reply on the connection that came to its recipients. -/
def kindAt (at_ : Connection) (recipient : Recipient) (address : String) : ReplyKind :=
  (classifyReply toLower (net.reply at_ (.rcpt recipient address))).1

/-- The flags the engine writes for a mailbox the server accepted or refused. -/
def flags (found : SMTP) : Core.EngineSmtp :=
  { attempted := true, mailboxAccepted := found.deliverable, catchAll := found.catchAll,
    fullInbox := found.fullInbox, disabled := found.disabled, error := "" }

/-- What a pair of replies is encoded as, when it comes to a result. -/
def encoded (random real : ReplyKind) : Option SMTP :=
  match random, real with
  | .accepted, _ => some { catchAll := true }
  | .unknown, .accepted | .full, .accepted | .disabled, .accepted => some { deliverable := true }
  | .unknown, .unknown | .full, .unknown | .disabled, .unknown => some {}
  | .unknown, .full | .full, .full | .disabled, .full => some { fullInbox := true }
  | .unknown, .disabled | .full, .disabled | .disabled, .disabled => some { disabled := true }
  | _, _ => none

/-- The recipient stage returns the encoding of its two replies. -/
theorem rcptStage_result {opts : SmtpProbeOptions} {domain username : String} (at_ : Connection)
    (tested : opts.catchAll = true) (named : username ≠ "") {found : SMTP}
    (result : encoded (kindAt toLower net at_ .random (opts.randomSuffix domain))
      (kindAt toLower net at_ .real (username ++ "@" ++ domain)) = some found) :
    (rcptStage toLower net opts domain username at_).result = .ok found := by
  simp only [rcptStage, rcptReal, ask, Answer.done, if_pos tested, if_neg named]
  simp only [kindAt] at result
  cases random : (classifyReply toLower
      (net.reply at_ (.rcpt .random (opts.randomSuffix domain)))).1 <;>
    cases real : (classifyReply toLower
      (net.reply at_ (.rcpt .real (username ++ "@" ++ domain)))).1 <;>
    simp only [random, real, encoded, Option.some.injEq, reduceCtorEq] at result ⊢ <;>
    rw [← result]

/-- Cautions alone report nothing about the probe. -/
theorem reports_accepted {input : AggregateInput} {smtp : Core.EngineSmtp}
    (decided : Core.decide input = Core.decideCautions input)
    (probe : input.engine.smtp = some smtp) (attempted : smtp.attempted = true)
    (available : Core.lookupUnavailable input.engine.mx = false) :
    Reports .accepted (aggregate input) := by
  simp only [Reports, aggregate, decided, Core.decideCautions, Core.secondaryReasons,
    Core.candidates, available, probe, attempted, smtpReasons]
  cases input.engine.disposable <;> cases input.engine.roleAccount <;>
    cases input.typo <;> simp

/-- What the aggregator makes of an encoded pair of replies. -/
theorem told_of_encoded {input : AggregateInput} {random real : ReplyKind} {found : SMTP}
    (code : encoded random real = some found)
    (decided : Core.decide input = Core.decideSmtp input (flags found))
    (probe : input.engine.smtp = some (flags found))
    (available : Core.lookupUnavailable input.engine.mx = false) :
    Told random real (aggregate input) ↔ ¬ (random.Distinguishes ∧ real = .full) := by
  by_cases clean : found = { deliverable := true }
  · subst clean
    have cautions : Core.decide input = Core.decideCautions input := by
      rw [decided]; simp [Core.decideSmtp, flags]
    have told := reports_accepted cautions probe rfl available
    cases random <;> cases real <;> simp [encoded] at code <;>
      simp [Told, ReplyKind.Distinguishes, told]
  · have head := Core.aggregate_head input
    have verdict : (aggregate input).verdict = (Core.decide input).verdict := rfl
    cases random <;> cases real <;>
      simp only [encoded, Option.some.injEq, reduceCtorEq] at code <;> subst code <;>
      simp_all [Told, ReplyKind.Distinguishes, Reports, Core.decideSmtp, flags]

/-- Where no result was encoded the pair of replies called for none. -/
theorem told_of_not_encoded {random real : ReplyKind} {result : AggregateResult}
    (code : encoded random real = none) :
    Told random real result ↔ ¬ (random.Distinguishes ∧ real = .full) := by
  cases random <;> cases real <;> simp [encoded] at code <;>
    simp [Told, ReplyKind.Distinguishes, Reports]

variable {base req}

/-- The response for a probe that came to a result. -/
theorem smtp_of_result (server : MailServerFound (aftershipVerifier toLower randomEmail net cfg
      base) req) (enabled : cfg.smtpEnabled = true) (asked : req.smtp = true)
    (tested : req.catchAll = true) {at_ : Connection} {found : SMTP}
    (ready : connect toLower net (aftershipOptions cfg randomEmail true)
      (base.parseAddress req.email).domain = .ok at_)
    (result : (rcptStage toLower net (aftershipOptions cfg randomEmail true)
      (base.parseAddress req.email).domain (base.parseAddress req.email).username at_).result =
        .ok found) :
    (runVerify toLower (aftershipVerifier toLower randomEmail net cfg base) cfg req
      durationMs).smtp = some (flags found) := by
  obtain ⟨has, clear⟩ := server.lookup toLower cfg
  have answer : (aftershipVerifier toLower randomEmail net cfg base).checkSMTP
      (base.parseAddress req.email).domain (base.parseAddress req.email).username req.catchAll =
        .ok (some found) := by
    simp only [aftershipVerifier, tested]
    rw [probeMailbox_of_connect toLower net _ _ _ ready, result]
    rfl
  rw [server.smtp_eq toLower cfg durationMs asked]
  rcases probeSMTP_cases toLower (aftershipVerifier toLower randomEmail net cfg base) cfg
      (base.parseAddress req.email) req.catchAll has clear with
    ⟨disabled, -⟩ | ⟨-, absent, -⟩ | ⟨-, here, same, written⟩
  · rw [disabled] at enabled; cases enabled
  · exact absurd answer (absent found)
  · rw [answer] at same
    cases same
    exact congrArg some (written.trans (by rw [tested]; rfl))

variable (base req) in
/-- **The customer is told what the mail server said**, except when it said that the
mailbox is full: `full_inbox` is reported without `mailbox_accepted`, and the rule for
a rejected mailbox comes first. -/
theorem told_iff (named : ∀ email, (base.parseAddress email).valid = true →
      (base.parseAddress email).username ≠ "")
    (server : MailServerFound (aftershipVerifier toLower randomEmail net cfg base) req)
    (enabled : cfg.smtpEnabled = true) (asked : req.smtp = true) (tested : req.catchAll = true)
    {at_ : Connection}
    (ready : connect toLower net (aftershipOptions cfg randomEmail true)
      (base.parseAddress req.email).domain = .ok at_) :
    let syntax_ := base.parseAddress req.email
    let random := kindAt toLower net at_ .random (randomEmail syntax_.domain)
    let real := kindAt toLower net at_ .real (syntax_.username ++ "@" ++ syntax_.domain)
    Told random real (aggregate (verified toLower
        (aftershipVerifier toLower randomEmail net cfg base) cfg req durationMs typo none)) ↔
      ¬ (random.Distinguishes ∧ real = .full) := by
  intro syntax_ random real
  cases code : encoded random real with
  | none => exact told_of_not_encoded code
  | some found =>
      have result : (rcptStage toLower net (aftershipOptions cfg randomEmail true) syntax_.domain
          syntax_.username at_).result = .ok found :=
        rcptStage_result toLower net at_ rfl (named _ server.valid) code
      have probe := smtp_of_result toLower randomEmail net cfg durationMs server enabled asked
        tested ready result
      obtain ⟨has, clear⟩ := server.mx toLower cfg durationMs
      refine told_of_encoded code ?_ probe ?_
      · rw [server.decide_eq toLower cfg durationMs typo none]
        simp only [Core.decideReachable, verified, probe]
      · simp [Core.lookupUnavailable, verified, has, clear]

end Told

/-! ### A full mailbox -/

/-- A library that answers for one address on a domain with one mail server. -/
def oneMailbox : Verifier where
  parseAddress := fun _ => ⟨"packed", "example.test", true⟩
  isFreeDomain := fun _ => false
  isRoleAccount := fun _ => false
  isDisposable := fun _ => false
  checkMX := fun _ => .ok ⟨true, [some ⟨"mx.example.test.", 10⟩]⟩
  checkSMTP := fun _ _ _ => .ok none

/-- A mail server that answers its two recipients as given, and accepts all else. -/
def answering (random real : Option GoError) : Network where
  lookupMX := fun _ => .ok [⟨"mx.example.test.", 10⟩]
  reply := fun _ command => match command with
    | .rcpt .random _ => random
    | .rcpt .real _ => real
    | _ => none
  offersStartTLS := fun _ => false
  ctxErr := fun _ => none

/-- The engine as configured for probing with the null sender. -/
def probing : Config where
  smtpEnabled := true
  smtpHelloDomain := "probe.test"
  smtpProbeFrom := "<>"
  verifyTimeout := "15s"

/-- The verdict on `packed@example.test` when the server answers as given. -/
def verdictOf (random real : Option GoError) : AggregateResult :=
  aggregate (verified asciiToLower
    (aftershipVerifier asciiToLower (fun domain => "random-probe@" ++ domain)
      (answering random real) probing oneMailbox) probing
    ⟨"packed@example.test", true, true⟩ 0 none none)

/-- The classes of those two replies, as `classifyReply` reads them. -/
def answeredKind (random real : Option GoError) (recipient : Recipient) (address : String) :
    ReplyKind :=
  kindAt asciiToLower (answering random real) ⟨0, "mx.example.test:25", true⟩ recipient address

/-- The random recipient is unknown, the real mailbox over quota: the customer reads
that the mailbox was rejected. -/
theorem full_mailbox_not_told :
    let noSuchUser := some (TextprotoError.mk 550 "5.1.1 no such user").error
    let overQuota := some (TextprotoError.mk 452 "4.2.2 Mailbox full").error
    let random := answeredKind noSuchUser overQuota .random "random-probe@example.test"
    let real := answeredKind noSuchUser overQuota .real "packed@example.test"
    random = .unknown ∧ real = .full ∧
      (verdictOf noSuchUser overQuota).verdict = .invalid ∧
      ¬ Told random real (verdictOf noSuchUser overQuota) := by
  refine ⟨by decide, by decide, by decide +kernel, ?_⟩
  intro told
  exact absurd (told.2 (by decide)).1 (by decide +kernel)

/-- A mailbox the server accepts after refusing the random one. -/
theorem told_iff_accepted :
    Told .unknown .accepted
      (verdictOf (some (TextprotoError.mk 550 "5.1.1 no such user").error) none) :=
  have ready : connect asciiToLower
      (answering (some (TextprotoError.mk 550 "5.1.1 no such user").error) none)
      (aftershipOptions probing (fun domain => "random-probe@" ++ domain) true) "example.test" =
        .ok ⟨0, "mx.example.test:25", true⟩ := by
    simp [connect, probeTargets, answering, aftershipOptions]
    rfl
  (told_iff asciiToLower (fun domain => "random-probe@" ++ domain)
    (answering (some (TextprotoError.mk 550 "5.1.1 no such user").error) none) oneMailbox probing
    ⟨"packed@example.test", true, true⟩ 0 none
    (fun _ _ => show "packed" ≠ "" by decide) ⟨rfl, _, rfl, rfl⟩ rfl rfl rfl ready).2 (by decide)

/-- A lookup that times out. -/
theorem verdict_of_infrastructure_timeout :
    (aggregate (verified asciiToLower
      { oneMailbox with checkMX := fun _ => .error { text := "i/o timeout" } } probing
      ⟨"packed@example.test", true, true⟩ 0 none none)).verdict = .unknown :=
  ((verdict_of_infrastructure asciiToLower
      { oneMailbox with checkMX := fun _ => .error { text := "i/o timeout" } } probing
      ⟨"packed@example.test", true, true⟩ 0 none none rfl).lookup
    { text := "i/o timeout" } rfl (by decide)).2.2 rfl

/-! ## Policy and temporary refusals -/

/-- The refusals that say nothing about the mailbox: a policy code; a temporary code
about the mail system, routing or protocol; a temporary code about the sender. -/
def Excuses (reply : TextprotoError) : Prop :=
  ∃ code, enhancedCodePattern reply.msg.toList = some code ∧
    ((400 ≤ reply.code ∧ reply.code < 500 ∧ code.class_ = '4' ∧
        (code.subject = ['7'] ∨ code.subject = ['3'] ∨ code.subject = ['4'] ∨
          code.subject = ['5'] ∨
          code.subject = ['1'] ∧ (code.detail = ['7'] ∨ code.detail = ['8']))) ∨
      (500 ≤ reply.code ∧ reply.code < 600 ∧ code.class_ = '5' ∧ code.subject = ['7']))

/-- A 4xx reply of those carries none of the two temporary codes about a mailbox. -/
theorem Excuses.no_mailbox_code {reply : TextprotoError} (excuses : Excuses reply)
    (temporary : reply.code < 500) :
    400 ≤ reply.code ∧ hasPrefix (enhanced reply.msg) "4.2.2" = false ∧
      hasPrefix (enhanced reply.msg) "4.1.1" = false := by
  obtain ⟨⟨class_, subject, detail⟩, pattern, ⟨low, -, rfl, about⟩ | ⟨low, -⟩⟩ := excuses
  · refine ⟨low, ?_⟩
    simp only [enhanced, pattern, EnhancedCode.text, hasPrefix]
    rcases about with rfl | rfl | rfl | rfl | ⟨rfl, rfl | rfl⟩ <;> simp
  · omega

/-- A 5xx reply of those carries a policy code. -/
theorem Excuses.policy_code {reply : TextprotoError} (excuses : Excuses reply)
    (permanent : 500 ≤ reply.code) : hasPrefix (enhanced reply.msg) "5.7." = true := by
  obtain ⟨⟨class_, subject, detail⟩, pattern, ⟨-, high, -⟩ | ⟨-, -, rfl, rfl⟩⟩ := excuses
  · omega
  · simp [enhanced, pattern, EnhancedCode.text, hasPrefix]

/-- When the classifier concludes nothing from such a refusal. -/
theorem Excuses.not_conclusive_iff (toLower : String → String) {reply : TextprotoError}
    (excuses : Excuses reply) :
    ¬ (classify toLower reply).Conclusive ↔
      500 ≤ reply.code ∨ contains (toLower reply.msg) fullWords = false ∧
        contains (toLower reply.msg) unknownWords = false := by
  by_cases permanent : 500 ≤ reply.code
  · have blocked := classify_policy toLower permanent (excuses.policy_code permanent)
    simp [permanent, blocked, ReplyKind.Conclusive]
  · obtain ⟨low, noFull, noUnknown⟩ := excuses.no_mailbox_code (by omega)
    rw [classify_temporary toLower low (by omega)]
    simp [permanent, noFull, noUnknown]

/-- The reply concludes nothing about a mailbox, and neither does any probe that gets it
to one of its recipients. -/
def NeverCondemns (toLower : String → String) (reply : TextprotoError) : Prop :=
  ((classify toLower reply) = .blocked ∨ (classify toLower reply) = .temporary ∨
      (classify toLower reply) = .other) ∧
    ∀ (randomEmail : String → String) (net : Network) (base : Verifier) (cfg : Config)
      (req : VerifyRequest) (durationMs : Nat) (typo : Option JsString)
      (operationalReason : Option OperationalReason),
      let v := aftershipVerifier toLower randomEmail net cfg base
      let syntax_ := base.parseAddress req.email
      let answer := probeMailbox toLower net (aftershipOptions cfg randomEmail req.catchAll)
        syntax_.domain syntax_.username
      MailServerFound v req → cfg.smtpEnabled = true → req.smtp = true →
      ∀ e ∈ answer.log, ∀ recipient address err, e.command = .rcpt recipient address →
        e.err = some err → err.textproto = some reply →
        (∃ pe : ProbeError, answer.result = .error pe.error) ∧
          (aggregate (verified toLower v cfg req durationMs typo operationalReason)).verdict =
            .unknown

/-- **A policy or temporary refusal never condemns an address** exactly when it is
permanent, or its text has no word that the classifier takes for a statement about the
mailbox. -/
theorem neverCondemns_iff (toLower : String → String) {reply : TextprotoError}
    (excuses : Excuses reply) :
    NeverCondemns toLower reply ↔
      500 ≤ reply.code ∨ contains (toLower reply.msg) fullWords = false ∧
        contains (toLower reply.msg) unknownWords = false := by
  rw [← excuses.not_conclusive_iff toLower]
  constructor
  · intro never
    exact ReplyKind.not_conclusive.2 never.1
  · intro inconclusive
    refine ⟨ReplyKind.not_conclusive.1 inconclusive, ?_⟩
    intro randomEmail net base cfg req durationMs typo operationalReason v syntax_ answer server
      enabled asked e member recipient address err names refused protocol
    have kind : classifyReply toLower e.err = (classify toLower reply, reply.code) := by
      rw [refused, classifyReply, protocol]
    obtain ⟨pe, failed⟩ := probeMailbox_of_refused toLower net
      (aftershipOptions cfg randomEmail req.catchAll) _ _ member names
      (by rw [kind]; exact inconclusive)
    refine ⟨⟨pe, failed⟩, ?_⟩
    refine server.decide_of_no_result toLower cfg durationMs typo operationalReason asked
      (.inr fun found answered => ?_)
    have : (answer.result.map some : Except GoError (Option SMTP)) = .ok (some found) := answered
    rw [failed] at this
    cases this

/-- A server short of storage is taken for a full mailbox. -/
theorem storage_shortage_condemns :
    let reply : TextprotoError := ⟨452, "4.3.1 Insufficient system storage"⟩
    Excuses reply ∧ ¬ NeverCondemns asciiToLower reply := by
  intro reply
  refine ⟨⟨⟨'4', ['3'], ['1']⟩, by decide, .inl (by decide)⟩, ?_⟩
  intro never
  have full : classify asciiToLower reply = .full := by decide
  rcases never.1 with kind | kind | kind <;> rw [full] at kind <;> cases kind

/-- A policy block that speaks of a mailbox all the same. -/
theorem neverCondemns_policy :
    NeverCondemns asciiToLower ⟨550, "5.7.1 recipient rejected: user unknown to policy"⟩ :=
  (neverCondemns_iff asciiToLower
    ⟨⟨'5', ['7'], ['1']⟩, by decide, .inr (by decide)⟩).2 (.inl (by decide))

end Tozalist.Engine
