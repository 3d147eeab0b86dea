/-
# Tozalist.Core.Aggregate -- one engine response and a typo signal become a verdict

`packages/core/src/aggregate.ts` and the reason codes of `reason-codes.ts`.
`decide` is an ordered rule list whose guards overlap; the first match decides
verdict, score and the leading reason, and `secondaryReasons` appends cautions to
`risky` and `unknown` results only.

The lemmas here are about the rule list as a whole, for every response: the reason
list never repeats a code (`aggregate_reasonCodes_nodup`), its head is the reason
that decided (`aggregate_head`), and `valid` is the one verdict without reasons
(`aggregate_reasonCodes_eq_nil`).  `ProbedClean` says which probe a `valid`
verdict stands on.
-/
import Mathlib.Data.List.Nodup
import Mathlib.Tactic.Common
import Tozalist.Js.Text

namespace Tozalist.Core

set_option autoImplicit false

/-! ## Reason codes -/

/-- `ReasonCode`: the keys of `REASON_CODES`, in source order. -/
inductive ReasonCode where
  | syntaxInvalid
  | domainNoMx
  | mxLookupUnavailable
  | catchAllDomain
  | smtpUnavailable
  | mailboxRejected
  | mailboxFull
  | mailboxDisabled
  | disposableDomain
  | roleAccount
  | possibleTypo
  | smtpNotChecked
  | smtpDisabled
  | circuitOpen
  | phoneOk
  | phoneInvalidFormat
  | phoneTooShort
  | phoneTooLong
  | phoneUnknownCountry
  deriving DecidableEq, Repr

/-- The code as it is stored, joined and returned. -/
def ReasonCode.text : ReasonCode → String
  | .syntaxInvalid => "SYNTAX_INVALID"
  | .domainNoMx => "DOMAIN_NO_MX"
  | .mxLookupUnavailable => "MX_LOOKUP_UNAVAILABLE"
  | .catchAllDomain => "CATCH_ALL_DOMAIN"
  | .smtpUnavailable => "SMTP_UNAVAILABLE"
  | .mailboxRejected => "MAILBOX_REJECTED"
  | .mailboxFull => "MAILBOX_FULL"
  | .mailboxDisabled => "MAILBOX_DISABLED"
  | .disposableDomain => "DISPOSABLE_DOMAIN"
  | .roleAccount => "ROLE_ACCOUNT"
  | .possibleTypo => "POSSIBLE_TYPO"
  | .smtpNotChecked => "SMTP_NOT_CHECKED"
  | .smtpDisabled => "SMTP_DISABLED"
  | .circuitOpen => "CIRCUIT_OPEN"
  | .phoneOk => "PHONE_OK"
  | .phoneInvalidFormat => "PHONE_INVALID_FORMAT"
  | .phoneTooShort => "PHONE_TOO_SHORT"
  | .phoneTooLong => "PHONE_TOO_LONG"
  | .phoneUnknownCountry => "PHONE_UNKNOWN_COUNTRY"

/-! ## The engine contract -/

/-- `EngineResponse.syntax`. -/
structure EngineSyntax where
  valid : Bool
  username : String
  domain : String
  deriving DecidableEq, Repr

/-- `EngineResponse.mx`; `hasMx` is `none` when the lookup itself failed. -/
structure EngineMx where
  hasMx : Option Bool
  records : List String
  error : String
  deriving DecidableEq, Repr

/-- `EngineResponse.smtp`, when a probe was asked for. -/
structure EngineSmtp where
  attempted : Bool
  mailboxAccepted : Bool
  catchAll : Bool
  fullInbox : Bool
  disabled : Bool
  error : String
  deriving DecidableEq, Repr

/-- `EngineResponse`, the mirror of the Go engine's `/verify` contract. -/
structure EngineResponse where
  email : String
  syntax_ : EngineSyntax
  mx : EngineMx
  disposable : Bool
  roleAccount : Bool
  freeProvider : Bool
  smtp : Option EngineSmtp
  durationMs : Nat
  deriving DecidableEq, Repr

inductive Verdict where
  | valid
  | invalid
  | risky
  | unknown
  deriving DecidableEq, Repr

/-- `AggregateInput.operationalReason`. -/
inductive OperationalReason where
  | smtpDisabled
  | circuitOpen
  deriving DecidableEq, Repr

def OperationalReason.code : OperationalReason → ReasonCode
  | .smtpDisabled => .smtpDisabled
  | .circuitOpen => .circuitOpen

structure AggregateInput where
  engine : EngineResponse
  typo : Option JsString
  operationalReason : Option OperationalReason
  deriving DecidableEq, Repr

structure Decision where
  verdict : Verdict
  score : Nat
  reason : Option ReasonCode
  deriving DecidableEq, Repr

structure AggregateResult where
  verdict : Verdict
  score : Nat
  reasonCodes : List ReasonCode
  disclaimer : String
  deriving DecidableEq, Repr

/-- `AGGREGATE_DISCLAIMER`. -/
def aggregateDisclaimer : String :=
  "These are risk signals, not delivery guarantees. Results marked 'unknown' should not be deleted automatically."

/-! ## The rules -/

/-- Rules 10 to 14: cautions on an address nothing above spoke against. -/
def decideCautions (input : AggregateInput) : Decision :=
  if input.engine.disposable then ⟨.risky, 50, some .disposableDomain⟩
  else if input.engine.roleAccount then ⟨.risky, 60, some .roleAccount⟩
  else if input.typo.isSome then ⟨.risky, 65, some .possibleTypo⟩
  else if input.engine.smtp.isNone then ⟨.unknown, 50, some .smtpNotChecked⟩
  else ⟨.valid, 95, none⟩

/-- The SMTP rules: catch-all, probe error, refusal by policy, then the mailbox. -/
def decideSmtp (input : AggregateInput) (smtp : EngineSmtp) : Decision :=
  if smtp.catchAll then ⟨.unknown, 50, some .catchAllDomain⟩
  else if smtp.error ≠ "" then ⟨.unknown, 50, some .smtpUnavailable⟩
  else if !smtp.attempted && smtp.disabled then ⟨.unknown, 50, some .smtpNotChecked⟩
  else if smtp.attempted then
    if !smtp.mailboxAccepted && !smtp.disabled then ⟨.invalid, 10, some .mailboxRejected⟩
    else if smtp.fullInbox then ⟨.risky, 45, some .mailboxFull⟩
    else if smtp.disabled then ⟨.invalid, 10, some .mailboxDisabled⟩
    else decideCautions input
  else decideCautions input

/-- `mx.error !== '' || mx.has_mx === null`: the domain was never examined. -/
def lookupUnavailable (mx : EngineMx) : Bool :=
  mx.error ≠ "" || mx.hasMx.isNone

/-- What decides once a mail server is known: an operational condition, else the
probe, else the cautions alone. -/
def decideReachable (input : AggregateInput) : Decision :=
  match input.operationalReason, input.engine.smtp with
  | some reason, _ => ⟨.unknown, 50, some reason.code⟩
  | none, some smtp => decideSmtp input smtp
  | none, none => decideCautions input

/-- `decide`: rules in strict priority order, the first match decides. -/
def decide (input : AggregateInput) : Decision :=
  if !input.engine.syntax_.valid then ⟨.invalid, 0, some .syntaxInvalid⟩
  -- A recognisable typo outranks an unavailable lookup.
  else if input.typo.isSome && lookupUnavailable input.engine.mx then
    ⟨.risky, 65, some .possibleTypo⟩
  else if lookupUnavailable input.engine.mx then ⟨.unknown, 50, some .mxLookupUnavailable⟩
  else if input.engine.mx.hasMx = some false then ⟨.invalid, 5, some .domainNoMx⟩
  else decideReachable input

/-- The caution table of `secondaryReasons`, in its fixed priority order. -/
def candidates (input : AggregateInput) : List (ReasonCode × Bool) :=
  [(.mxLookupUnavailable, lookupUnavailable input.engine.mx),
    (.disposableDomain, input.engine.disposable),
    (.roleAccount, input.engine.roleAccount),
    (.possibleTypo, input.typo.isSome),
    (.smtpNotChecked, match input.engine.smtp with
      | none => true
      | some smtp => !smtp.attempted && smtp.disabled)]

/-- `secondaryReasons`: for risky and unknown results only. -/
def secondaryReasons (input : AggregateInput) (decision : Decision) : List ReasonCode :=
  if decision.verdict ≠ .risky ∧ decision.verdict ≠ .unknown then []
  else ((candidates input).filter fun c => c.2 && some c.1 ≠ decision.reason).map (·.1)

/-- `aggregate`. -/
def aggregate (input : AggregateInput) : AggregateResult :=
  let decision := decide input
  { verdict := decision.verdict
    score := decision.score
    reasonCodes :=
      match decision.reason with
      | none => []
      | some reason => reason :: secondaryReasons input decision
    disclaimer := aggregateDisclaimer }

/-! ## What every result satisfies -/

theorem candidates_nodup (input : AggregateInput) : ((candidates input).map (·.1)).Nodup := by
  simp [candidates]

theorem secondaryReasons_nodup (input : AggregateInput) (decision : Decision) :
    (secondaryReasons input decision).Nodup := by
  unfold secondaryReasons
  split
  · exact List.nodup_nil
  · exact (candidates_nodup input).sublist (List.filter_sublist.map _)

/-- The deciding reason is never repeated as a caution. -/
theorem reason_not_mem_secondaryReasons (input : AggregateInput) (decision : Decision)
    {reason : ReasonCode} (deciding : decision.reason = some reason) :
    reason ∉ secondaryReasons input decision := by
  unfold secondaryReasons
  split
  · simp
  · intro member
    obtain ⟨c, inside, rfl⟩ := List.mem_map.1 member
    simp [deciding] at inside

theorem aggregate_reasonCodes_nodup (input : AggregateInput) :
    (aggregate input).reasonCodes.Nodup := by
  simp only [aggregate]
  split
  · exact List.nodup_nil
  · rename_i reason deciding
    exact List.nodup_cons.2
      ⟨reason_not_mem_secondaryReasons input _ deciding, secondaryReasons_nodup input _⟩

/-- The head of the reason list is the reason that decided. -/
theorem aggregate_head (input : AggregateInput) :
    (aggregate input).reasonCodes.head? = (decide input).reason := by
  simp only [aggregate]
  split
  · rename_i none_; simp [none_]
  · rename_i reason some_; simp [some_]

theorem decideCautions_reason_eq_none (input : AggregateInput) :
    (decideCautions input).reason = none ↔ (decideCautions input).verdict = .valid := by
  unfold decideCautions
  repeat' split
  all_goals simp

theorem decideSmtp_reason_eq_none (input : AggregateInput) (smtp : EngineSmtp) :
    (decideSmtp input smtp).reason = none ↔ (decideSmtp input smtp).verdict = .valid := by
  unfold decideSmtp
  repeat' split
  all_goals first
    | exact decideCautions_reason_eq_none input
    | simp

theorem decideReachable_reason_eq_none (input : AggregateInput) :
    (decideReachable input).reason = none ↔ (decideReachable input).verdict = .valid := by
  unfold decideReachable
  split
  · simp
  · exact decideSmtp_reason_eq_none input _
  · exact decideCautions_reason_eq_none input

/-- Only `valid` is decided without a reason. -/
theorem decide_reason_eq_none (input : AggregateInput) :
    (decide input).reason = none ↔ (decide input).verdict = .valid := by
  unfold decide
  repeat' split
  all_goals first
    | exact decideReachable_reason_eq_none input
    | simp

theorem aggregate_reasonCodes_eq_nil (input : AggregateInput) :
    (aggregate input).reasonCodes = [] ↔ (aggregate input).verdict = .valid := by
  rw [← List.head?_eq_none_iff, aggregate_head, decide_reason_eq_none]
  rfl

/-- What a `valid` verdict stands on: a probe that was made, reached a conclusion,
and found an accepting mailbox that is neither full nor disabled. -/
structure ProbedClean (smtp : EngineSmtp) : Prop where
  catchAll : smtp.catchAll = false
  error : smtp.error = ""
  accepted : smtp.attempted = true → smtp.mailboxAccepted = true
  notFull : smtp.attempted = true → smtp.fullInbox = false
  notDisabled : smtp.disabled = false

theorem decideCautions_valid {input : AggregateInput}
    (valid : (decideCautions input).verdict = .valid) :
    input.engine.disposable = false ∧ input.engine.roleAccount = false ∧ input.typo = none ∧
      input.engine.smtp.isSome := by
  unfold decideCautions at valid
  split at valid <;> [cases valid; skip]
  split at valid <;> [cases valid; skip]
  split at valid <;> [cases valid; skip]
  split at valid <;> [cases valid; skip]
  simp_all [Option.isSome_iff_ne_none]

theorem decideSmtp_valid {input : AggregateInput} {smtp : EngineSmtp}
    (valid : (decideSmtp input smtp).verdict = .valid) :
    ProbedClean smtp ∧ (decideCautions input).verdict = .valid := by
  unfold decideSmtp at valid
  split at valid <;> [cases valid; skip]
  split at valid <;> [cases valid; skip]
  split at valid <;> [cases valid; skip]
  rename_i noCatchAll noError noPolicy
  split at valid
  · split at valid <;> [cases valid; skip]
    split at valid <;> [cases valid; skip]
    split at valid <;> [cases valid; skip]
    exact ⟨⟨by simp_all, by simp_all, by simp_all, by simp_all, by simp_all⟩, valid⟩
  · exact ⟨⟨by simp_all, by simp_all, by simp_all, by simp_all, by simp_all⟩, valid⟩

theorem decideReachable_valid {input : AggregateInput}
    (valid : (decideReachable input).verdict = .valid) :
    input.operationalReason = none ∧
      (∃ smtp, input.engine.smtp = some smtp ∧ ProbedClean smtp) ∧
      input.engine.disposable = false ∧ input.engine.roleAccount = false ∧ input.typo = none := by
  unfold decideReachable at valid
  split at valid
  · cases valid
  · rename_i smtp operational probe
    obtain ⟨clean, rest⟩ := decideSmtp_valid valid
    obtain ⟨disposable, role, typo, -⟩ := decideCautions_valid rest
    exact ⟨operational, ⟨smtp, probe, clean⟩, disposable, role, typo⟩
  · rename_i absent
    obtain ⟨-, -, -, asked⟩ := decideCautions_valid valid
    simp [absent] at asked

/-- **What `valid` means.**  The syntax was valid, the lookup found a mail server, no
operational condition stood in the way, the probe came back clean and nothing
cautions against the address. -/
theorem decide_valid {input : AggregateInput} (valid : (decide input).verdict = .valid) :
    input.engine.syntax_.valid = true ∧ input.engine.mx.hasMx = some true ∧
      input.engine.mx.error = "" ∧ input.operationalReason = none ∧
      (∃ smtp, input.engine.smtp = some smtp ∧ ProbedClean smtp) ∧
      input.engine.disposable = false ∧ input.engine.roleAccount = false ∧
      input.typo = none := by
  unfold decide at valid
  split at valid <;> [cases valid; skip]
  split at valid <;> [cases valid; skip]
  split at valid <;> [cases valid; skip]
  split at valid <;> [cases valid; skip]
  rename_i syntaxOk _ available notFalse
  have mx : input.engine.mx.hasMx = some true ∧ input.engine.mx.error = "" := by
    unfold lookupUnavailable at available
    cases h : input.engine.mx.hasMx with
    | none => simp [h] at available
    | some b => cases b <;> simp_all
  have sound : input.engine.syntax_.valid = true := by simpa using syntaxOk
  obtain ⟨operational, probe, disposable, role, typo⟩ := decideReachable_valid valid
  exact ⟨sound, mx.1, mx.2, operational, probe, disposable, role, typo⟩

end Tozalist.Core
