/-
# Tozalist.Worker.SmtpProbe -- what a probe job writes

The outcomes of `apps/worker/src/smtp/processor.ts` that end in a write, `writeResult` and
`writeUnavailable`.  Each writes the verdict, its reasons and a complete snapshot together;
which of them it is, the switches, the circuit, the throttle and the engine decide.
-/
import Tozalist.Db.EmailChecks
import Tozalist.Worker.RowResult

namespace Tozalist.Worker

set_option autoImplicit false

open Core (EngineResponse EngineSmtp OperationalReason)
open Db (EmailCheckResultUpdate)

/-- The outcomes of a job that write. -/
inductive ProbeOutcome where
  /-- SMTP is switched off for the deployment -/
  | smtpDisabled
  /-- the domain keeps failing -/
  | circuitOpen
  /-- the stored snapshot has no MX host -/
  | noMxHost
  /-- the engine refused the call or failed -/
  | unavailable
  | probed (fresh : EngineResponse)
  deriving DecidableEq, Repr

/-- `writeResult`. -/
def writeResult (toLowerCase : JsString → JsString) (engine : EngineResponse)
    (operationalReason : Option OperationalReason) : EmailCheckResultUpdate :=
  let typo := typoOf toLowerCase engine
  let aggregated := Core.aggregate ⟨engine, typo, operationalReason⟩
  { verdict := aggregated.verdict
    reasonCodes := aggregated.reasonCodes
    checksJson :=
      { engine := engine
        score := aggregated.score
        disclaimer := aggregated.disclaimer
        typo := typo
        smtpStatus := .complete
        operationalReason := operationalReason }
    cached := false }

/-- The SMTP object that stands for an engine that could not be reached. -/
def erroredSmtp : EngineSmtp := ⟨true, false, false, false, false, "engine unavailable"⟩

/-- `writeUnavailable`: aggregated with the errored probe, stored without it. -/
def writeUnavailable (toLowerCase : JsString → JsString) (engineSnapshot : EngineResponse) :
    EmailCheckResultUpdate :=
  let typo := typoOf toLowerCase engineSnapshot
  let aggregated := Core.aggregate ⟨{ engineSnapshot with smtp := some erroredSmtp }, typo, none⟩
  { verdict := aggregated.verdict
    reasonCodes := aggregated.reasonCodes
    checksJson :=
      { engine := engineSnapshot
        score := aggregated.score
        disclaimer := aggregated.disclaimer
        typo := typo
        smtpStatus := .complete
        operationalReason := none }
    cached := false }

/-- What the job writes, given the snapshot it has loaded. -/
def probeUpdate (toLowerCase : JsString → JsString) (engineSnapshot : EngineResponse) :
    ProbeOutcome → EmailCheckResultUpdate
  | .smtpDisabled => writeResult toLowerCase engineSnapshot (some .smtpDisabled)
  | .circuitOpen => writeResult toLowerCase engineSnapshot (some .circuitOpen)
  | .noMxHost => writeResult toLowerCase engineSnapshot none
  | .unavailable => writeUnavailable toLowerCase engineSnapshot
  | .probed fresh => writeResult toLowerCase fresh none

/-- **Every terminal outcome writes a complete snapshot.** -/
theorem probeUpdate_complete (toLowerCase : JsString → JsString) (engineSnapshot : EngineResponse)
    (outcome : ProbeOutcome) :
    (probeUpdate toLowerCase engineSnapshot outcome).checksJson.smtpStatus = .complete := by
  cases outcome <;> rfl

end Tozalist.Worker
