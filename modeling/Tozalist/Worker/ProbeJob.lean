/-
# Tozalist.Worker.ProbeJob -- the exits of a probe job

`processSmtpProbe` of `apps/worker/src/smtp/processor.ts`, from the row it loads to its end.  The
circuit, the throttle, the engine and the queue are outside; each of their calls answers or throws
(`ProbeCalls`), and the database does what it says.  The queue makes one attempt, so a job that
throws is over for good.

* `processSmtpProbe_eq` -- the job once its row is loaded and readable;
* `settled_iff` -- the job is delayed or completes its row exactly when no call of circuit,
  throttle or queue on its way throws (`Interrupted`);
* `throttle_down_strands` -- the refuted pole: the throttle cannot be reached.
-/
import Tozalist.Worker.SmtpProbe
import Tozalist.Worker.Throttle

namespace Tozalist.Worker

set_option autoImplicit false

open Core (EngineResponse)
open Db
open Theory (Txn)

/-! ## The calls outside -/

/-- What `getEngine().verify` comes to. -/
inductive ProbeCall where
  | fresh (response : EngineResponse)
  /-- an `EngineHttpError` below 500 -/
  | rejected
  /-- anything else thrown -/
  | failed
  deriving DecidableEq, Repr

/-- What each call outside answers when it is made; `none` where it throws. -/
structure ProbeCalls where
  isOpen : Option Bool
  acquire : Option ThrottleDecision
  moveToDelayed : Option Unit
  verify : ProbeCall
  recordFailure : Option Unit
  recordSuccess : Option Unit
  release : Option Unit
  deriving DecidableEq, Repr

/-- `JobOutcome`. -/
inductive JobOutcome where
  | ok
  | smtpDisabled
  | circuitOpen
  | throttled
  | engineFailure
  | engineRejected
  | noMxHost
  | rowUnavailable
  | invalidSnapshot
  deriving DecidableEq, Repr

/-- How a job ends. -/
inductive JobEnd where
  | returned
  | threw
  /-- moved to a later time, with a `DelayedError` -/
  | delayed
  deriving DecidableEq, Repr

/-- An execution: the database after it, its end, and what `finish` has logged. -/
structure JobRun where
  db : Database
  end_ : JobEnd
  finished : Option JobOutcome

/-! ## The processor -/

section Processor

variable (toLowerCase : JsString → JsString)

/-- `primaryMxHost`. -/
def primaryMxHost (engine : EngineResponse) : Option JsString :=
  match engine.mx.records.head? with
  | none => none
  | some first =>
      if Js.trim (Js.ofString first) = [] then none
      else
        let lowered := toLowerCase (Js.trim (Js.ofString first))
        let host := if lowered.getLast? = some 0x2E then lowered.dropLast else lowered
        if host = [] then none else some host

/-- Write an outcome, then `finish` and return. -/
def writeOutcome (db : Database) (id : Uuid) (engine : EngineResponse) (outcome : ProbeOutcome)
    (finished : JobOutcome) : JobRun :=
  match Txn.transaction (updateEmailCheckResult id (probeUpdate toLowerCase engine outcome)) db with
  | (.ok _, db) => ⟨db, .returned, some finished⟩
  | (.error _, db) => ⟨db, .threw, none⟩

/-- Steps 5 and 6: the probe under a lease, which is released in any case. -/
def probeUnderLease (calls : ProbeCalls) (db : Database) (id : Uuid) (engine : EngineResponse) :
    JobRun :=
  let run : JobRun :=
    match calls.verify with
    | .rejected => writeOutcome toLowerCase db id engine .unavailable .engineRejected
    | .failed =>
        match calls.recordFailure with
        | none => ⟨db, .threw, none⟩
        | some _ => writeOutcome toLowerCase db id engine .unavailable .engineFailure
    | .fresh response =>
        match calls.recordSuccess with
        | none => ⟨db, .threw, none⟩
        | some _ => writeOutcome toLowerCase db id engine (.probed response) .ok
  match calls.release with
  | none => { run with end_ := .threw }
  | some _ => run

/-- Steps 2 to 6, on a readable snapshot. -/
def probeSnapshot (smtpEnabled : Bool) (calls : ProbeCalls) (db : Database) (id : Uuid)
    (engine : EngineResponse) : JobRun :=
  if !smtpEnabled then writeOutcome toLowerCase db id engine .smtpDisabled .smtpDisabled
  else match calls.isOpen with
    | none => ⟨db, .threw, none⟩
    | some true => writeOutcome toLowerCase db id engine .circuitOpen .circuitOpen
    | some false =>
        match primaryMxHost toLowerCase engine with
        | none => writeOutcome toLowerCase db id engine .noMxHost .noMxHost
        | some _ =>
            match calls.acquire with
            | none => ⟨db, .threw, none⟩
            | some (.delayed _) =>
                match calls.moveToDelayed with
                | none => ⟨db, .threw, some .throttled⟩
                | some _ => ⟨db, .delayed, some .throttled⟩
            | some (.allowed _) => probeUnderLease toLowerCase calls db id engine

/-- `processSmtpProbe`. -/
def processSmtpProbe (smtpEnabled : Bool) (calls : ProbeCalls) (now : Date) (db : Database)
    (id : Uuid) : JobRun :=
  match getEmailCheckForProcessing db id with
  | none => ⟨db, .threw, some .rowUnavailable⟩
  | some row =>
      if row.orgDeletedAt ≠ none ∨ row.check.expiresAt ≤ now.timestamp then
        ⟨db, .threw, some .rowUnavailable⟩
      else match row.check.checksJson with
        | none => ⟨db, .threw, some .invalidSnapshot⟩
        | some snapshot => probeSnapshot toLowerCase smtpEnabled calls db id snapshot.engine

/-! ## What a job must come to -/

/-- The row's `smtp_status`. -/
def smtpStatusOf (db : Database) (id : Uuid) : Option SmtpStatus := do
  let row ← getEmailCheckForProcessing db id
  let snapshot ← row.check.checksJson
  return snapshot.smtpStatus

/-- The job is to run again, or its row is complete. -/
def JobRun.Settled (run : JobRun) (id : Uuid) : Prop :=
  run.end_ = .delayed ∨ smtpStatusOf run.db id = some .complete

/-- A call of the circuit, the throttle or the queue throws where the job comes to it. -/
def Interrupted (smtpEnabled : Bool) (calls : ProbeCalls) (engine : EngineResponse) : Prop :=
  smtpEnabled = true ∧
    (calls.isOpen = none ∨
      calls.isOpen = some false ∧ (primaryMxHost toLowerCase engine).isSome = true ∧
        (calls.acquire = none ∨
          (∃ ms, calls.acquire = some (.delayed ms)) ∧ calls.moveToDelayed = none ∨
          (∃ token, calls.acquire = some (.allowed token)) ∧
            (calls.verify = .failed ∧ calls.recordFailure = none ∨
              (∃ response, calls.verify = .fresh response) ∧ calls.recordSuccess = none)))

/-- The database takes what the job may write. -/
structure Stores (calls : ProbeCalls) (engine : EngineResponse) : Prop where
  resolved : ∀ outcome, (∀ response, outcome ≠ .probed response) →
    (probeUpdate toLowerCase engine outcome).checksJson.Fits
  fresh : ∀ response, calls.verify = .fresh response →
    (probeUpdate toLowerCase engine (.probed response)).checksJson.Fits

/-! ## Writes -/

/-- The row after a write is the written one. -/
theorem getEmailCheckForProcessing_setResult {db : Database} {id : Uuid}
    {row : EmailCheckForProcessing} (found : getEmailCheckForProcessing db id = some row)
    {update : EmailCheckResultUpdate} (fits : update.checksJson.Fits) :
    getEmailCheckForProcessing (db.updateEmailChecks id (·.setResult update fits)) id =
      some ⟨row.check.setResult update fits, row.orgDeletedAt⟩ := by
  rw [getEmailCheckForProcessing, Option.bind_eq_bind, Option.bind_eq_some_iff] at found
  obtain ⟨check, here, found⟩ := found
  rw [Option.bind_eq_bind, Option.bind_eq_some_iff] at found
  obtain ⟨org, owner, same⟩ := found
  cases same
  have self : check.id = id := by simpa using List.find?_some here
  have rewritten : (db.updateEmailChecks id (·.setResult update fits)).emailChecks.find?
      (fun c => c.id = id) = some (check.setResult update fits) := by
    rw [Database.updateEmailChecks, List.find?_map]
    have select : ((fun c : EmailCheck => decide (c.id = id)) ∘ fun c =>
        if c.id = id then c.setResult update fits else c) = fun c => decide (c.id = id) := by
      funext c
      by_cases at_ : c.id = id
      · simp [at_, EmailCheck.setResult, EmailCheck.setSnapshot]
      · simp [at_]
    rw [select, here, Option.map_some, if_pos self]
  rw [getEmailCheckForProcessing, rewritten]
  show (db.organizations.find? fun o => o.id = check.orgId).bind _ = _
  rw [owner]
  rfl

/-- **A write that the database takes completes the row.** -/
theorem writeOutcome_complete {db : Database} {id : Uuid} {row : EmailCheckForProcessing}
    (found : getEmailCheckForProcessing db id = some row) {engine : EngineResponse}
    {outcome : ProbeOutcome} (fits : (probeUpdate toLowerCase engine outcome).checksJson.Fits)
    (finished : JobOutcome) :
    smtpStatusOf (writeOutcome toLowerCase db id engine outcome finished).db id = some .complete := by
  rw [writeOutcome, updateEmailCheckResult_transaction fits]
  dsimp only
  rw [smtpStatusOf, getEmailCheckForProcessing_setResult found fits]
  exact congrArg some (probeUpdate_complete toLowerCase engine outcome)

/-! ## The exits -/

/-- A job that is interrupted leaves the row as it is, and is over. -/
theorem probeSnapshot_of_interrupted {smtpEnabled : Bool} {calls : ProbeCalls} (db : Database)
    (id : Uuid) {engine : EngineResponse}
    (interrupted : Interrupted toLowerCase smtpEnabled calls engine) :
    (probeSnapshot toLowerCase smtpEnabled calls db id engine).db = db ∧
      (probeSnapshot toLowerCase smtpEnabled calls db id engine).end_ = .threw := by
  obtain ⟨enabled, circuit | ⟨closed, host, later⟩⟩ := interrupted
  · rw [probeSnapshot, enabled, circuit]
    exact ⟨rfl, rfl⟩
  · obtain ⟨name, host⟩ := Option.isSome_iff_exists.1 host
    rw [probeSnapshot, enabled, closed, host]
    rcases later with gone | ⟨⟨ms, refused⟩, gone⟩ | ⟨⟨token, allowed⟩, probe⟩
    · rw [gone]
      exact ⟨rfl, rfl⟩
    · rw [refused, gone]
      exact ⟨rfl, rfl⟩
    · rw [allowed]
      show (probeUnderLease toLowerCase calls db id engine).db = db ∧
        (probeUnderLease toLowerCase calls db id engine).end_ = .threw
      rw [probeUnderLease]
      rcases probe with ⟨failed, gone⟩ | ⟨⟨response, fresh⟩, gone⟩
      · rw [failed, gone]
        cases calls.release <;> exact ⟨rfl, rfl⟩
      · rw [fresh, gone]
        cases calls.release <;> exact ⟨rfl, rfl⟩

/-- **Every other exit** delays the job or completes its row. -/
theorem probeSnapshot_settled {smtpEnabled : Bool} {calls : ProbeCalls} {db : Database} {id : Uuid}
    {row : EmailCheckForProcessing} (found : getEmailCheckForProcessing db id = some row)
    {engine : EngineResponse} (stores : Stores toLowerCase calls engine)
    (kept : ¬ Interrupted toLowerCase smtpEnabled calls engine) :
    (probeSnapshot toLowerCase smtpEnabled calls db id engine).Settled id := by
  have written : ∀ outcome finished, (∀ response, outcome ≠ .probed response) →
      (writeOutcome toLowerCase db id engine outcome finished).Settled id :=
    fun outcome finished stored =>
      .inr (writeOutcome_complete toLowerCase found (stores.resolved outcome stored) finished)
  have unavailable : ∀ response, ProbeOutcome.unavailable ≠ .probed response :=
    fun response same => by cases same
  rw [probeSnapshot]
  cases enabled : smtpEnabled with
  | false => exact written .smtpDisabled .smtpDisabled fun response same => by cases same
  | true =>
  rw [if_neg (by decide)]
  cases circuit : calls.isOpen with
  | none => exact absurd ⟨enabled, .inl circuit⟩ kept
  | some open_ =>
  cases open_ with
  | true => exact written .circuitOpen .circuitOpen fun response same => by cases same
  | false =>
  dsimp only
  cases host : primaryMxHost toLowerCase engine with
  | none => exact written .noMxHost .noMxHost fun response same => by cases same
  | some name =>
  dsimp only
  have reached : (primaryMxHost toLowerCase engine).isSome = true := by
    rw [host]
    rfl
  cases lease : calls.acquire with
  | none => exact absurd ⟨enabled, .inr ⟨circuit, reached, .inl lease⟩⟩ kept
  | some decision =>
  cases decision with
  | delayed ms =>
      dsimp only
      cases moved : calls.moveToDelayed with
      | none =>
          exact absurd ⟨enabled, .inr ⟨circuit, reached, .inr (.inl ⟨⟨ms, lease⟩, moved⟩)⟩⟩ kept
      | some _ => exact .inl rfl
  | allowed token =>
      -- The release comes after the write, and leaves the database alone.
      have released : ∀ run : JobRun, smtpStatusOf run.db id = some .complete →
          JobRun.Settled (match calls.release with
            | none => { run with end_ := .threw }
            | some _ => run) id := by
        intro run complete
        cases calls.release <;> exact .inr complete
      dsimp only
      rw [probeUnderLease]
      cases probe : calls.verify with
      | rejected =>
          exact released _ (writeOutcome_complete toLowerCase found
            (stores.resolved .unavailable unavailable) .engineRejected)
      | failed =>
          dsimp only
          cases recorded : calls.recordFailure with
          | none =>
              exact absurd ⟨enabled, .inr ⟨circuit, reached,
                .inr (.inr ⟨⟨token, lease⟩, .inl ⟨probe, recorded⟩⟩)⟩⟩ kept
          | some _ =>
              exact released _ (writeOutcome_complete toLowerCase found
                (stores.resolved .unavailable unavailable) .engineFailure)
      | fresh response =>
          dsimp only
          cases recorded : calls.recordSuccess with
          | none =>
              exact absurd ⟨enabled, .inr ⟨circuit, reached,
                .inr (.inr ⟨⟨token, lease⟩, .inr ⟨⟨response, probe⟩, recorded⟩⟩)⟩⟩ kept
          | some _ =>
              exact released _ (writeOutcome_complete toLowerCase found (stores.fresh response probe)
                .ok)

/-- The job of an unexpired row of an active organisation goes to the snapshot. -/
theorem processSmtpProbe_eq {db : Database} {id : Uuid} {row : EmailCheckForProcessing}
    (found : getEmailCheckForProcessing db id = some row) (active : row.orgDeletedAt = none)
    {now : Date} (unexpired : now.timestamp < row.check.expiresAt) {snapshot : StoredEmailCheck}
    (readable : row.check.checksJson = some snapshot) (smtpEnabled : Bool) (calls : ProbeCalls) :
    processSmtpProbe toLowerCase smtpEnabled calls now db id =
      probeSnapshot toLowerCase smtpEnabled calls db id snapshot.engine := by
  have available : ¬ (row.orgDeletedAt ≠ none ∨ row.check.expiresAt ≤ now.timestamp) := by
    rintro (deleted | expired)
    · exact deleted active
    · exact absurd expired (not_le.2 unexpired)
  rw [processSmtpProbe, found]
  dsimp only
  rw [if_neg available, readable]

/-- **When a probe job settles its row**: exactly when no call of the circuit, the throttle or the
queue that it comes to throws.  A failing engine, and a lease that is not released, do not strand
it. -/
theorem settled_iff {db : Database} {id : Uuid} {row : EmailCheckForProcessing}
    (found : getEmailCheckForProcessing db id = some row) (active : row.orgDeletedAt = none)
    {now : Date} (unexpired : now.timestamp < row.check.expiresAt) {snapshot : StoredEmailCheck}
    (readable : row.check.checksJson = some snapshot) (pending : snapshot.smtpStatus = .pending)
    (smtpEnabled : Bool) (calls : ProbeCalls) (stores : Stores toLowerCase calls snapshot.engine) :
    (processSmtpProbe toLowerCase smtpEnabled calls now db id).Settled id ↔
      ¬ Interrupted toLowerCase smtpEnabled calls snapshot.engine := by
  rw [processSmtpProbe_eq toLowerCase found active unexpired readable]
  constructor
  · rintro settled interrupted
    obtain ⟨same, threw⟩ := probeSnapshot_of_interrupted toLowerCase db id interrupted
    rcases settled with delayed | complete
    · rw [threw] at delayed
      cases delayed
    · rw [same, smtpStatusOf, found] at complete
      have complete : (row.check.checksJson.bind fun s => some s.smtpStatus) =
          some .complete := complete
      rw [readable] at complete
      have status := Option.some.inj complete
      rw [pending] at status
      cases status
  · exact probeSnapshot_settled toLowerCase found stores

end Processor

/-! ## The throttle cannot be reached -/

/-- An address whose domain has a mail host, checked without a probe. -/
def waitingSnapshot : StoredEmailCheck :=
  { engine :=
      { email := "ann@gmail.com"
        syntax_ := ⟨true, "ann", "gmail.com"⟩
        mx := ⟨some true, ["gmail-smtp-in.l.google.com."], ""⟩
        disposable := false
        roleAccount := false
        freeProvider := true
        smtp := none
        durationMs := 3 }
    score := 50
    disclaimer := Core.aggregateDisclaimer
    typo := none
    smtpStatus := .pending
    operationalReason := none }

theorem waitingSnapshot_storable :
    ∀ snapshot ∈ some waitingSnapshot, ∀ typo ∈ snapshot.typo, Storable typo := by
  intro snapshot same typo has
  obtain rfl := Option.some.inj same
  cases has

def waitingCheck : EmailCheck where
  id := .numbered 3
  orgId := .numbered 1
  emailNormalized := Js.ofString "ann@gmail.com"
  emailHash := "0f1e"
  verdict := .unknown
  reasonCodes := [.smtpNotChecked]
  checksJson := some waitingSnapshot
  cached := false
  creditsUsed := 1
  createdAt := 0
  expiresAt := 2592000000000
  storable := waitingSnapshot_storable

def waitingDatabase : Database where
  organizations := [⟨.numbered 1, none, 30, true⟩]
  creditLedger := []
  emailChecks := [waitingCheck]
  phoneChecks := []
  batches := []
  auditEvents := []

/-- The circuit is closed, and the throttle's Redis does not answer. -/
def throttleDown : ProbeCalls where
  isOpen := some false
  acquire := none
  moveToDelayed := some ()
  verify := .failed
  recordFailure := some ()
  recordSuccess := some ()
  release := some ()

/-- The same, with an engine that cannot be reached behind a working throttle. -/
def engineDown : ProbeCalls := { throttleDown with acquire := some (.allowed "1-1-a") }

/-- **Refuted**: the job throws for good, and the row stays pending. -/
theorem throttle_down_strands :
    (processSmtpProbe (fun text => text) true throttleDown 0 waitingDatabase (.numbered 3)).end_ =
        .threw ∧
      smtpStatusOf (processSmtpProbe (fun text => text) true throttleDown 0 waitingDatabase
        (.numbered 3)).db (.numbered 3) = some .pending ∧
      ¬ (processSmtpProbe (fun text => text) true throttleDown 0 waitingDatabase
        (.numbered 3)).Settled (.numbered 3) := by
  have threw : (processSmtpProbe (fun text => text) true throttleDown 0 waitingDatabase
      (.numbered 3)).end_ = .threw := by decide +kernel
  have pending : smtpStatusOf (processSmtpProbe (fun text => text) true throttleDown 0
      waitingDatabase (.numbered 3)).db (.numbered 3) = some .pending := by decide +kernel
  refine ⟨threw, pending, ?_⟩
  rintro (delayed | complete)
  · rw [threw] at delayed
    cases delayed
  · rw [pending] at complete
    cases complete

theorem engineDown_stores :
    Stores (fun text => text) engineDown waitingSnapshot.engine where
  resolved := by
    intro outcome stored
    cases outcome with
    | probed response => exact absurd rfl (stored response)
    | smtpDisabled => decide +kernel
    | circuitOpen => decide +kernel
    | noMxHost => decide +kernel
    | unavailable => decide +kernel
  fresh := by
    intro response probe
    have failed : engineDown.verify = .failed := rfl
    rw [failed] at probe
    cases probe

theorem waitingCheck_found :
    getEmailCheckForProcessing waitingDatabase (.numbered 3) = some ⟨waitingCheck, none⟩ :=
  rfl

/-- An engine that cannot be reached completes the row. -/
theorem settled_engineDown :
    (processSmtpProbe (fun text => text) true engineDown 0 waitingDatabase
      (.numbered 3)).Settled (.numbered 3) := by
  refine (settled_iff (fun text => text) waitingCheck_found rfl (by decide) rfl rfl true engineDown
    engineDown_stores).2 ?_
  rintro ⟨-, circuit | ⟨-, -, lease | ⟨⟨ms, lease⟩, -⟩ | ⟨-, ⟨-, gone⟩ | ⟨⟨_, probe⟩, -⟩⟩⟩⟩
  · cases circuit
  · cases lease
  · cases lease
  · cases gone
  · cases probe

end Tozalist.Worker
