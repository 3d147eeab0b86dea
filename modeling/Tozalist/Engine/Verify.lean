/-
# Tozalist.Engine.Verify -- one verification, from a request to a response

`runVerify`, `lookupMX`, `probeSMTP` and `describeLookupError` of
`services/engine/verify.go`, over the `verifier` interface of `verifier.go`; the
response is the one `Core.aggregate` reads.  `aftershipVerifier` is the verifier
the engine runs with: the library for everything but the probe, which is
`probeMailbox`.

The library's answers are parameters.  The two lemmas the rest rests on say what
the branches of `lookupMX` and `probeSMTP` leave in the response: `lookupMX_cases`
and `probeSMTP_cases`.
-/
import Tozalist.Core.Aggregate
import Tozalist.Engine.Probe

namespace Tozalist.Engine

set_option autoImplicit false

open Core (EngineResponse EngineSyntax EngineMx EngineSmtp)

/-- `config`, as far as a verification reads it. -/
structure Config where
  smtpEnabled : Bool
  smtpHelloDomain : String
  smtpProbeFrom : String
  /-- `VerifyTimeout.String()` -/
  verifyTimeout : String

/-- `verifyRequest`. -/
structure VerifyRequest where
  email : String
  smtp : Bool
  catchAll : Bool
  deriving DecidableEq, Repr

/-- `emailverifier.Syntax`. -/
structure Syntax where
  username : String
  domain : String
  valid : Bool
  deriving DecidableEq, Repr

/-- `emailverifier.Mx`; a record may be a nil pointer. -/
structure Mx where
  hasMXRecord : Bool
  records : List (Option MxRecord)
  deriving DecidableEq, Repr

/-- `verifier`: the seam between a request and the library. -/
structure Verifier where
  parseAddress : String → Syntax
  isFreeDomain : String → Bool
  isRoleAccount : String → Bool
  isDisposable : String → Bool
  checkMX : String → Except GoError Mx
  checkSMTP : String → String → Bool → Except GoError (Option SMTP)

/-- `aftershipVerifier.CheckSMTP`: the engine's own probe, on port 25 of the domain's
mail servers. -/
def aftershipOptions (cfg : Config) (randomEmail : String → String) (catchAll : Bool) :
    SmtpProbeOptions :=
  { helloDomain := cfg.smtpHelloDomain
    fromAddress := cfg.smtpProbeFrom
    catchAll := catchAll
    randomSuffix := randomEmail }

/-- `aftershipVerifier`: `base` for everything but the probe. -/
def aftershipVerifier (toLower : String → String) (randomEmail : String → String)
    (net : Network) (cfg : Config) (base : Verifier) : Verifier :=
  { base with
    checkSMTP := fun domain username catchAll =>
      (probeMailbox toLower net (aftershipOptions cfg randomEmail catchAll) domain
        username).result.map some }

section Verify

variable (toLower : String → String) (v : Verifier) (cfg : Config)

/-- `describeLookupError`: a failure as a short category string. -/
def describeLookupError (err : GoError) : String :=
  if err.deadlineExceeded then
    "timeout: lookup exceeded the " ++ cfg.verifyTimeout ++ " verify deadline"
  else if err.canceled then "cancelled: request aborted before the lookup finished"
  else match err.probe with
    | some pe => pe.text
    | none =>
        if "timeout".toList <:+: (toLower err.text).toList then "timeout: " ++ err.text
        else "lookup failed: " ++ err.text

/-- `lookupMX`: a failed lookup leaves `has_mx` open, save for an authoritative
answer that the name does not exist. -/
def lookupMX (domain : String) : EngineMx :=
  match v.checkMX domain with
  | .error err =>
      if err.dnsNotFound = some true then ⟨some false, [], ""⟩
      else ⟨none, [], describeLookupError toLower cfg err⟩
  | .ok mx => ⟨some mx.hasMXRecord, mx.records.filterMap fun r => r.map (·.host), ""⟩

/-- An `smtpResult` with every flag down, for the branches that set one or two. -/
def smtpResult (attempted disabled : Bool) (error : String) : EngineSmtp :=
  { attempted := attempted, mailboxAccepted := false, catchAll := false, fullInbox := false,
    disabled := disabled, error := error }

/-- `probeSMTP`. -/
def probeSMTP (syntax_ : Syntax) (catchAll : Bool) (mx : EngineMx) : EngineSmtp :=
  if !cfg.smtpEnabled then smtpResult false true ""
  else if mx.error ≠ "" then smtpResult false false "smtp probe skipped: mx lookup failed"
  else if mx.hasMx = some false then
    smtpResult false false "smtp probe skipped: domain has no MX records"
  else match v.checkSMTP syntax_.domain syntax_.username catchAll with
    | .error err => smtpResult true false (describeLookupError toLower cfg err)
    | .ok none => smtpResult false false "smtp probe not performed"
    | .ok (some result) =>
        { attempted := true
          mailboxAccepted := result.deliverable
          -- Without the catch-all probe the flag is not a finding.
          catchAll := catchAll && result.catchAll
          fullInbox := result.fullInbox
          disabled := result.disabled
          error := "" }

/-- `runVerify`; `durationMs` is what the clock says. -/
def runVerify (req : VerifyRequest) (durationMs : Nat) : EngineResponse :=
  let syntax_ := v.parseAddress req.email
  let parsed : EngineSyntax := ⟨syntax_.valid, syntax_.username, syntax_.domain⟩
  if !syntax_.valid then
    { email := req.email
      syntax_ := parsed
      mx := ⟨some false, [], ""⟩
      disposable := false
      roleAccount := false
      freeProvider := false
      smtp := if req.smtp then some (smtpResult false false "") else none
      durationMs := durationMs }
  else
    let mx := lookupMX toLower v cfg syntax_.domain
    { email := req.email
      syntax_ := parsed
      mx := mx
      disposable := v.isDisposable syntax_.domain
      roleAccount := v.isRoleAccount syntax_.username
      freeProvider := v.isFreeDomain syntax_.domain
      smtp := if req.smtp then some (probeSMTP toLower v cfg syntax_ req.catchAll mx) else none
      durationMs := durationMs }

/-! ## What the branches leave -/

/-- A category string is never empty, so a failure never passes for a success. -/
theorem describeLookupError_ne_empty (err : GoError) :
    describeLookupError toLower cfg err ≠ "" := by
  rw [describeLookupError]
  split
  · simp
  · split
    · simp
    · split
      · simp [ProbeError.text]
      · split <;> simp

/-- The three outcomes of a lookup: an answer, an authoritative absence, a failure. -/
theorem lookupMX_cases (domain : String) :
    (∃ mx, v.checkMX domain = .ok mx ∧
        (lookupMX toLower v cfg domain).hasMx = some mx.hasMXRecord ∧
        (lookupMX toLower v cfg domain).error = "") ∨
      (∃ err, v.checkMX domain = .error err ∧ err.dnsNotFound = some true ∧
        (lookupMX toLower v cfg domain).hasMx = some false ∧
        (lookupMX toLower v cfg domain).error = "") ∨
      (∃ err, v.checkMX domain = .error err ∧ err.dnsNotFound ≠ some true ∧
        (lookupMX toLower v cfg domain).hasMx = none ∧
        (lookupMX toLower v cfg domain).error ≠ "") := by
  rw [lookupMX]
  cases answer : v.checkMX domain with
  | ok mx => exact .inl ⟨mx, rfl, rfl, rfl⟩
  | error err =>
      by_cases absent : err.dnsNotFound = some true
      · exact .inr (.inl ⟨err, rfl, absent, by simp [absent], by simp [absent]⟩)
      · refine .inr (.inr ⟨err, rfl, absent, ?_, ?_⟩)
        · simp [absent]
        · simpa [absent] using describeLookupError_ne_empty toLower cfg err

/-- What a probe leaves when a mail server is known: a refusal by policy, an error, or
the flags of a result. -/
theorem probeSMTP_cases (syntax_ : Syntax) (catchAll : Bool) {mx : EngineMx}
    (found : mx.hasMx = some true) (clear : mx.error = "") :
    (cfg.smtpEnabled = false ∧
        probeSMTP toLower v cfg syntax_ catchAll mx = smtpResult false true "") ∨
      (cfg.smtpEnabled = true ∧
        (∀ result, v.checkSMTP syntax_.domain syntax_.username catchAll ≠ .ok (some result)) ∧
        ∃ attempted error, error ≠ "" ∧
          probeSMTP toLower v cfg syntax_ catchAll mx = smtpResult attempted false error) ∨
      (cfg.smtpEnabled = true ∧
        ∃ result, v.checkSMTP syntax_.domain syntax_.username catchAll = .ok (some result) ∧
          probeSMTP toLower v cfg syntax_ catchAll mx =
            { attempted := true, mailboxAccepted := result.deliverable,
              catchAll := catchAll && result.catchAll, fullInbox := result.fullInbox,
              disabled := result.disabled, error := "" }) := by
  cases enabled : cfg.smtpEnabled with
  | false => exact .inl ⟨rfl, by simp [probeSMTP, enabled]⟩
  | true =>
      refine .inr ?_
      cases answer : v.checkSMTP syntax_.domain syntax_.username catchAll with
      | error err =>
          refine .inl ⟨rfl, by simp, true, _, describeLookupError_ne_empty toLower cfg err, ?_⟩
          simp [probeSMTP, enabled, found, clear, answer]
      | ok outcome =>
          cases outcome with
          | none =>
              refine .inl ⟨rfl, by simp, false, "smtp probe not performed", by simp, ?_⟩
              simp [probeSMTP, enabled, found, clear, answer]
          | some result =>
              exact .inr ⟨rfl, result, rfl, by
                simp [probeSMTP, enabled, found, clear, answer]⟩

/-- The response of a valid address, field by field. -/
theorem runVerify_of_valid {req : VerifyRequest} (durationMs : Nat)
    (valid : (v.parseAddress req.email).valid = true) :
    runVerify toLower v cfg req durationMs =
      { email := req.email
        syntax_ := ⟨true, (v.parseAddress req.email).username, (v.parseAddress req.email).domain⟩
        mx := lookupMX toLower v cfg (v.parseAddress req.email).domain
        disposable := v.isDisposable (v.parseAddress req.email).domain
        roleAccount := v.isRoleAccount (v.parseAddress req.email).username
        freeProvider := v.isFreeDomain (v.parseAddress req.email).domain
        smtp := if req.smtp then
            some (probeSMTP toLower v cfg (v.parseAddress req.email) req.catchAll
              (lookupMX toLower v cfg (v.parseAddress req.email).domain))
          else none
        durationMs := durationMs } := by
  simp [runVerify, valid]

end Verify

end Tozalist.Engine
