/-
# Tozalist.Api.SecondFactor -- enrolling and verifying, many at once

`POST /internal/mfa/enroll` and `POST /internal/mfa/verify` of one user, one SQL statement at a
time and in any order, with `enrollMfa` and `consumeRecoveryCode` of `packages/db/src/accounts.ts`.

A verification takes the row with `FOR UPDATE` before it looks for a recovery code in it, and
whoever wants the row then waits.  An enrolment reads the row first, without a lock, and its
`UPDATE` does not ask again whether a secret is there.

* `shown_codes_kept` -- as long as every enrolment still finds no secret when it writes, a secret
  stays, the reply to an enrolment has the secret that is stored, and each of its codes is good
  for the first verification that presents it and for no other;
* `second_enrolment_wins` -- two enrolments that both read before either writes: the first reply
  has a secret that is not stored.
-/
import Mathlib.Data.Fintype.Basic
import Tozalist.Api.Product
import Tozalist.Api.Totp

namespace Tozalist.Api

set_option autoImplicit false

open Db
open Theory (Executable Run StepOf Transition)

/-! ## Rows, requests and replies -/

/-- `users`, with the columns of the second factor. -/
structure UserRow where
  id : Uuid
  orgId : Uuid
  email : JsString
  mfaSecret : Option JsString
  mfaRecoveryCodes : List String
  deletedAt : Option Timestamp
  deriving DecidableEq

/-- What the routes use of the platform. -/
structure MfaPlatform where
  toUpperCase : JsString → JsString
  hmacSha1 : List UInt8 → List UInt8 → Digest
  sha256Hex : JsString → String
  encodeURIComponent : JsString → JsString

/-- `toString('hex')` of one half of a byte. -/
def hexUnit (n : ℕ) : UInt16 := UInt16.ofNat (if n < 10 then 48 + n else 87 + n)

/-- `toString('hex')`. -/
def hexText (bytes : List UInt8) : JsString :=
  bytes.flatMap fun b => [hexUnit (b.toNat / 16), hexUnit (b.toNat % 16)]

/-- What `randomBytes` gives an enrolment. -/
structure MfaDraw where
  secretBytes : List UInt8
  codeBytes : List (List UInt8)
  twenty : secretBytes.length = 20
  ten : codeBytes.length = 10
  five : ∀ bytes ∈ codeBytes, bytes.length = 5

namespace MfaDraw

variable (draw : MfaDraw)

/-- `secret` -/
def secret : JsString := generateTotpSecret draw.secretBytes

/-- `recoveryCodes` -/
def recoveryCodes : List JsString := draw.codeBytes.map hexText

/-- A recovery code has ten characters, so it is no one-time code. -/
theorem length_of_mem {c : JsString} (member : c ∈ draw.recoveryCodes) : c.length = 10 := by
  obtain ⟨bytes, drawn, rfl⟩ := List.mem_map.1 member
  have two : (hexText bytes).length = bytes.length * 2 := by
    simp [hexText, List.length_flatMap]
  rw [two, draw.five bytes drawn]

end MfaDraw

/-- A request that has passed `requireSession` and the schema of its route. -/
inductive MfaRequest where
  | enroll (draw : MfaDraw)
  /-- the `code` of the body -/
  | verify (code : JsString)

/-- How a code was accepted. -/
inductive MfaMethod where
  | totp
  | recoveryCode
  deriving DecidableEq, Repr

/-- What the answer is rendered from. -/
inductive MfaReply where
  | error (code : ErrorCode) (message : String)
  | enrolled (otpauthUri secret : JsString) (recoveryCodes : List JsString)
  | mfaVerified
  deriving DecidableEq

namespace MfaReply

/-- An error that nobody catches. -/
def internalError : MfaReply := .error .internalError ErrorCode.internalError.defaultMessage

def alreadyEnrolled : MfaReply := .error .validationError "Multi-factor auth is already enrolled."

def notEnrolled : MfaReply := .error .validationError "Multi-factor auth is not enrolled."

def notValid : MfaReply := .error .unauthorized "The verification code is not valid."

end MfaReply

/-! ## Statements -/

/-- `getUserById`, of the row of the session's user. -/
def getUserById (user : UserRow) : Option UserRow :=
  if user.deletedAt = none then some user else none

/-- The audit event of an enrolment. -/
def mfaEnrolledEvent (user : UserRow) : AuditEventInput :=
  { orgId := some user.orgId
    actorUserId := some user.id
    action := "user.mfa_enrolled"
    targetType := "user"
    targetId := user.id.text }

/-- The audit event of a recovery code that is consumed. -/
def recoveryCodeUsedEvent (user : UserRow) : AuditEventInput :=
  { orgId := some user.orgId
    actorUserId := some user.id
    action := "user.recovery_code_used"
    targetType := "user"
    targetId := user.id.text }

/-- The audit event of a verification. -/
def mfaVerifiedEvent (user : UserRow) (method : MfaMethod) : AuditEventInput :=
  { orgId := some user.orgId
    actorUserId := some user.id
    action := "user.mfa_verified"
    targetType := "user"
    targetId := user.id.text
    metadata := [("method", .text (match method with
      | .totp => "totp"
      | .recoveryCode => "recovery_code"))] }

/-- Where a request is: the statement it is about to run. -/
inductive MfaStage where
  /-- `getUserById` -/
  | arrived
  /-- `UPDATE users` of `enrollMfa` -/
  | enrolling
  /-- the audit event of `enrollMfa`, and `COMMIT` -/
  | written
  /-- `SELECT … FOR UPDATE` of `consumeRecoveryCode` -/
  | checking
  /-- `UPDATE users` of `consumeRecoveryCode`, its audit event, and `COMMIT` -/
  | holding (codes : List String)
  /-- the audit event of the verification, and the reply -/
  | accepted (method : MfaMethod)
  | replied (reply : MfaReply)
  deriving DecidableEq

section Routes

variable (p : MfaPlatform)

/-- `/internal/mfa/enroll` up to `enrollMfa`. -/
def beginEnroll (user : UserRow) : MfaStage :=
  match getUserById user with
  | none => .replied (.error .unauthorized ErrorCode.unauthorized.defaultMessage)
  | some user =>
      if user.mfaSecret ≠ none then .replied .alreadyEnrolled
      else .enrolling

/-- `/internal/mfa/verify` up to `consumeRecoveryCode`. -/
def beginVerify (user : UserRow) (code : JsString) (clock : Date) : MfaStage :=
  match getUserById user with
  | none => .replied .notEnrolled
  | some user =>
      match user.mfaSecret with
      | none => .replied .notEnrolled
      | some secret =>
          match verifyTotp p.toUpperCase p.hmacSha1 secret (Js.trim code) clock with
          | .error _ => .replied .internalError
          | .ok true => .accepted .totp
          | .ok false => .checking

/-- The row as `enrollMfa` leaves it. -/
def UserRow.enrollMfa (user : UserRow) (draw : MfaDraw) : UserRow :=
  { user with
    mfaSecret := some draw.secret
    mfaRecoveryCodes := draw.recoveryCodes.map p.sha256Hex }

/-- The row as `consumeRecoveryCode` leaves it, that found `codes` in it. -/
def UserRow.consumeRecoveryCode (user : UserRow) (codes : List String) (code : JsString) :
    UserRow :=
  { user with mfaRecoveryCodes := codes.filter (· ≠ p.sha256Hex code) }

end Routes

/-! ## Requests at once -/

/-- The committed row and audit events, who has the row locked, and where every request is. -/
structure MfaState (ι : Type) where
  user : UserRow
  audit : List AuditEventInput
  lock : Option ι
  stage : ι → MfaStage

/-- A request runs its next statement; `clock` is what `clock()` gives. -/
structure MfaAction (ι : Type) where
  request : ι
  clock : Date

section System

variable {ι : Type} [DecidableEq ι] (p : MfaPlatform) (requests : ι → MfaRequest)

/-- Request `i` gets to `stage`. -/
def MfaState.goTo (s : MfaState ι) (i : ι) (stage : MfaStage) : MfaState ι :=
  { s with stage := Function.update s.stage i stage }

/-- What the next statement of a request comes to; `none` while it waits for the row, and after
its reply.  What a transaction writes, the others see when it commits. -/
def MfaState.next (s : MfaState ι) (a : MfaAction ι) : Option (MfaState ι) :=
  match requests a.request, s.stage a.request with
  | .enroll _, .arrived => some (s.goTo a.request (beginEnroll s.user))
  | .enroll _, .enrolling =>
      if s.lock.isSome then none
      else if s.user.deletedAt = none then
        some { s.goTo a.request .written with lock := some a.request }
      else some (s.goTo a.request (.replied .internalError))
  | .enroll draw, .written =>
      some { s.goTo a.request (.replied (.enrolled
          (totpUri p.encodeURIComponent draw.secret s.user.email) draw.secret
          draw.recoveryCodes)) with
        user := s.user.enrollMfa p draw
        audit := s.audit ++ [mfaEnrolledEvent s.user]
        lock := none }
  | .verify code, .arrived => some (s.goTo a.request (beginVerify p s.user code a.clock))
  | .verify code, .checking =>
      if s.lock.isSome then none
      else if s.user.deletedAt = none ∧ p.sha256Hex (Js.trim code) ∈ s.user.mfaRecoveryCodes then
        some { s.goTo a.request (.holding s.user.mfaRecoveryCodes) with lock := some a.request }
      else some (s.goTo a.request (.replied .notValid))
  | .verify code, .holding codes =>
      some { s.goTo a.request (.accepted .recoveryCode) with
        user := s.user.consumeRecoveryCode p codes (Js.trim code)
        audit := s.audit ++ [recoveryCodeUsedEvent s.user]
        lock := none }
  | .verify _, .accepted method =>
      some { s.goTo a.request (.replied .mfaVerified) with
        audit := s.audit ++ [mfaVerifiedEvent s.user method] }
  | _, _ => none

/-- The request can run its next statement. -/
def MfaState.Allows (s : MfaState ι) (a : MfaAction ι) : Prop := (s.next p requests a).isSome

instance (s : MfaState ι) (a : MfaAction ι) : Decidable (s.Allows p requests a) :=
  inferInstanceAs (Decidable (_ = true))

def MfaState.after (s : MfaState ι) (a : MfaAction ι) : MfaState ι :=
  (s.next p requests a).getD s

/-- A statement of one request. -/
abbrev MfaStep : MfaState ι → MfaAction ι → MfaState ι → Prop :=
  StepOf (MfaState.Allows p requests) (MfaState.after p requests)

/-- Before all requests. -/
structure MfaState.Fresh (s : MfaState ι) : Prop where
  lock : s.lock = none
  stage : ∀ i, s.stage i = .arrived

/-- The text that the next statement looks for among the recovery codes. -/
def MfaState.looksFor (s : MfaState ι) (a : MfaAction ι) : Option JsString :=
  match requests a.request, s.stage a.request with
  | .verify code, .checking => some (Js.trim code)
  | _, _ => none

/-- The verifications that presented `c`, in this order. -/
def presentations (c : JsString) (tr : List (Transition (MfaState ι) (MfaAction ι))) : List ι :=
  (tr.filter fun e => e.source.looksFor requests e.action = some c).map (·.action.request)

/-- Where a request gets if it runs on alone. -/
def MfaState.settled (s : MfaState ι) (i : ι) (clock : Date) : MfaStage :=
  ((s.after p requests ⟨i, clock⟩).after p requests ⟨i, clock⟩).stage i

end System

/-! ## What is promised -/

section Promise

variable {ι : Type} [DecidableEq ι] (p : MfaPlatform) (requests : ι → MfaRequest)

/-- What a run owes to those it enrolled. -/
structure ShownCodesKept (tr : List (Transition (MfaState ι) (MfaAction ι))) (t : MfaState ι) :
    Prop where
  /-- a secret that is stored stays -/
  secretStays : ∀ e ∈ tr, ∀ secret, e.source.user.mfaSecret = some secret →
    e.target.user.mfaSecret = some secret
  /-- the secret of a reply is the one that is stored -/
  secretStored : ∀ i uri secret codes, t.stage i = .replied (.enrolled uri secret codes) →
    t.user.mfaSecret = some secret
  /-- the hash of a code is stored, or the first verification that presented it has been accepted -/
  codeStored : ∀ i uri secret codes, t.stage i = .replied (.enrolled uri secret codes) →
    ∀ c ∈ codes, p.sha256Hex c ∈ t.user.mfaRecoveryCodes ∨
      ∃ j ∈ (presentations requests c tr).head?, t.stage j = .accepted .recoveryCode ∨
        t.stage j = .replied .mfaVerified
  /-- the first verification that presents a code is accepted, every later one is refused -/
  codeOnce : ∀ i uri secret codes, t.stage i = .replied (.enrolled uri secret codes) →
    ∀ c ∈ codes, ∀ j later, presentations requests c tr = j :: later →
      (∀ clock, t.settled p requests j clock = .replied .mfaVerified) ∧
        ∀ k ∈ later, t.stage k = .replied .notValid
  /-- a verification with a code is accepted only if it was the first that presented it -/
  codeFirst : ∀ i uri secret codes, t.stage i = .replied (.enrolled uri secret codes) →
    ∀ c ∈ codes, ∀ j code, requests j = .verify code → Js.trim code = c →
      t.stage j = .replied .mfaVerified → (presentations requests c tr).head? = some j

/-- The recovery codes that a request draws. -/
def MfaRequest.recoveryCodes : MfaRequest → List JsString
  | .enroll draw => draw.recoveryCodes
  | .verify _ => []

/-- No recovery code but the text itself has the hash of the text. -/
def Distinctive (text : JsString) : Prop :=
  ∀ i, ∀ c ∈ (requests i).recoveryCodes, p.sha256Hex c = p.sha256Hex text → c = text

/-- An enrolment finds no secret when it writes, and what a verification looks for is not found
by its hash alone. -/
def Undisturbed (s : MfaState ι) (a : MfaAction ι) : Prop :=
  (s.stage a.request = .enrolling → s.user.mfaSecret = none) ∧
    ∀ text ∈ s.looksFor requests a, Distinctive p requests text

instance [Fintype ι] (text : JsString) : Decidable (Distinctive p requests text) :=
  inferInstanceAs (Decidable (∀ i, ∀ c ∈ (requests i).recoveryCodes, _))

instance [Fintype ι] (s : MfaState ι) (a : MfaAction ι) : Decidable (Undisturbed p requests s a) :=
  inferInstanceAs (Decidable (_ ∧ ∀ text ∈ s.looksFor requests a, _))

end Promise

/-! ## What a statement does -/

/-- The user has a second factor. -/
def UserRow.Enrolled (user : UserRow) : Prop := user.mfaSecret ≠ none ∧ user.deletedAt = none

/-- Where a request may get with its first statement. -/
inductive Opening (user : UserRow) : MfaRequest → MfaStage → Prop
  | refused (request : MfaRequest) (code : ErrorCode) (message : String) :
      Opening user request (.replied (.error code message))
  | enrolling (draw : MfaDraw) : Opening user (.enroll draw) .enrolling
  | checking (code : JsString) (enrolled : user.Enrolled) : Opening user (.verify code) .checking
  | totp (code : JsString) (enrolled : user.Enrolled) (six : (Js.trim code).length = 6) :
      Opening user (.verify code) (.accepted .totp)

theorem opening_enroll (user : UserRow) (draw : MfaDraw) :
    Opening user (.enroll draw) (beginEnroll user) := by
  unfold beginEnroll getUserById
  split
  · exact .refused ..
  · split
    · exact .refused ..
    · exact .enrolling draw

theorem six_of_verifyTotp {toUpperCase : JsString → JsString}
    {hmacSha1 : List UInt8 → List UInt8 → Digest} {secret code : JsString} {clock : Int}
    (accepts : verifyTotp toUpperCase hmacSha1 secret code clock = .ok true) :
    code.length = 6 := by
  unfold verifyTotp at accepts
  split at accepts
  · cases accepts
  · rename_i formed
    exact (Classical.not_not.1 formed).1

theorem opening_verify (p : MfaPlatform) (user : UserRow) (code : JsString) (clock : Date) :
    Opening user (.verify code) (beginVerify p user code clock) := by
  unfold beginVerify getUserById
  by_cases active : user.deletedAt = none
  · rw [if_pos active]
    dsimp only
    cases secret : user.mfaSecret with
    | none => exact .refused ..
    | some secret_ =>
        have enrolled : user.Enrolled := ⟨by rw [secret]; exact Option.some_ne_none _, active⟩
        dsimp only
        split
        · exact .refused ..
        · rename_i accepts
          exact .totp code enrolled (six_of_verifyTotp accepts)
        · exact .checking code enrolled
  · rw [if_neg active]
    exact .refused ..

section Moves

variable {ι : Type} {p : MfaPlatform} {requests : ι → MfaRequest}

variable (p requests) in
/-- What a stage of request `i` means. -/
def Fine (user : UserRow) (lock : Option ι) (i : ι) : MfaStage → Prop
  | .arrived | .enrolling | .replied (.error ..) => True
  | .written => lock = some i ∧ user.mfaSecret = none
  | .checking | .accepted _ | .replied .mfaVerified => user.Enrolled
  | .holding codes => lock = some i ∧ user.Enrolled ∧ codes = user.mfaRecoveryCodes ∧
      ∃ code, requests i = .verify code ∧ p.sha256Hex (Js.trim code) ∈ codes ∧
        Distinctive p requests (Js.trim code)
  | .replied (.enrolled _ secret codes) =>
      user.mfaSecret = some secret ∧ codes = (requests i).recoveryCodes

/-- Whoever does not have the row depends on the secret only. -/
theorem Fine.transfer {user user' : UserRow} {lock lock' : Option ι} {i : ι} {stage : MfaStage}
    (fine : Fine p requests user lock i stage) (unlocked : lock ≠ some i)
    (same : user.mfaSecret = none ∨
      user'.mfaSecret = user.mfaSecret ∧ user'.deletedAt = user.deletedAt) :
    Fine p requests user' lock' i stage := by
  have kept : user.Enrolled → user'.Enrolled := by
    rintro ⟨has, active⟩
    obtain none_ | ⟨secret, deleted⟩ := same
    · exact absurd none_ has
    · exact ⟨secret ▸ has, deleted ▸ active⟩
  cases stage with
  | arrived | enrolling => trivial
  | written => exact absurd fine.1 unlocked
  | holding codes => exact absurd fine.1 unlocked
  | checking => exact kept fine
  | accepted method => exact kept fine
  | replied reply =>
      cases reply with
      | error code message => trivial
      | mfaVerified => exact kept fine
      | enrolled uri secret codes =>
          obtain none_ | ⟨secret', -⟩ := same
          · rw [Fine, none_] at fine
            cases fine.1
          · exact ⟨secret'.trans fine.1, fine.2⟩

theorem Opening.fine {user : UserRow} {request : MfaRequest} {stage : MfaStage}
    (opening : Opening user request stage) (lock : Option ι) (i : ι) :
    Fine p requests user lock i stage := by
  cases opening with
  | refused _ code message => trivial
  | enrolling draw => trivial
  | checking code enrolled => exact enrolled
  | totp code enrolled six => exact enrolled

variable (p requests) in
/-- Every request is where its stage says. -/
def Orderly (s : MfaState ι) : Prop := ∀ i, Fine p requests s.user s.lock i (s.stage i)

/-! ## One code -/

variable (requests) in
/-- Verification `k` brings the text `c`. -/
def Brings (k : ι) (c : JsString) : Prop := ∃ code, requests k = .verify code ∧ Js.trim code = c

/-- A verification that is accepted, or is going to be. -/
def MfaStage.Accepting : MfaStage → Prop
  | .holding _ | .accepted _ | .replied .mfaVerified => True
  | _ => False

/-- What is accepted at once has six characters. -/
theorem Opening.six {user : UserRow} {request : MfaRequest} {stage : MfaStage}
    (opening : Opening user request stage) (accepting : stage.Accepting) :
    ∃ code, request = .verify code ∧ (Js.trim code).length = 6 := by
  cases opening with
  | totp code enrolled six => exact ⟨code, rfl, six⟩
  | _ => exact accepting.elim

theorem Opening.not_shown {user : UserRow} {request : MfaRequest} {stage : MfaStage}
    (opening : Opening user request stage) (uri secret : JsString) (codes : List JsString) :
    stage ≠ .replied (.enrolled uri secret codes) := by
  cases opening <;> exact nofun

variable (p requests) in
/-- A code that was shown, and the verifications that presented it. -/
inductive Single (user : UserRow) (stage : ι → MfaStage) (c : JsString) : List ι → Prop
  | unused (stored : p.sha256Hex c ∈ user.mfaRecoveryCodes)
      (nobody : ∀ k, Brings requests k c → ¬ (stage k).Accepting) : Single user stage c []
  | taken {j : ι} {later : List ι} (brings : Brings requests j c)
      (taker : ((∃ codes, stage j = .holding codes) ∧ p.sha256Hex c ∈ user.mfaRecoveryCodes) ∨
        (stage j = .accepted .recoveryCode ∨ stage j = .replied .mfaVerified) ∧
          p.sha256Hex c ∉ user.mfaRecoveryCodes)
      (only : ∀ k, Brings requests k c → (stage k).Accepting → k = j)
      (refused : ∀ k ∈ later, stage k = .replied .notValid) :
      Single user stage c (j :: later)

theorem accepting_of_taker {stage : MfaStage} {stored : Prop}
    (taker : ((∃ codes, stage = .holding codes) ∧ stored) ∨
      (stage = .accepted .recoveryCode ∨ stage = .replied .mfaVerified) ∧ ¬ stored) :
    stage.Accepting := by
  obtain ⟨⟨codes, rfl⟩, -⟩ | ⟨rfl | rfl, -⟩ := taker <;> trivial

theorem brings_iff {i : ι} {code c : JsString} (asks : requests i = .verify code) :
    Brings requests i c ↔ Js.trim code = c := by
  constructor
  · rintro ⟨code', asks', rfl⟩
    cases asks.symm.trans asks'
    rfl
  · exact fun is => ⟨code, asks, is⟩

/-- When a verification has been accepted, its code is gone. -/
theorem Single.gone {user : UserRow} {stage : ι → MfaStage} {c : JsString} {i : ι} {order : List ι}
    (single : Single p requests user stage c order) (brings : Brings requests i c)
    {method : MfaMethod} (here : stage i = .accepted method) :
    p.sha256Hex c ∉ user.mfaRecoveryCodes := by
  have accepting : (stage i).Accepting := by rw [here]; trivial
  cases single with
  | unused stored nobody => exact absurd accepting (nobody i brings)
  | @taken j later _ taker only refused =>
      obtain rfl := only i brings accepting
      obtain ⟨⟨held, holding⟩, -⟩ | ⟨-, gone⟩ := taker
      · rw [here] at holding
        cases holding
      · exact gone

/-! ## What was shown -/

/-- An enrolment has replied with the code. -/
def Shown (s : MfaState ι) (c : JsString) : Prop :=
  ∃ i uri secret codes, s.stage i = .replied (.enrolled uri secret codes) ∧ c ∈ codes

theorem Orderly.shown {s : MfaState ι} (orderly : Orderly p requests s) {c : JsString}
    (shown : Shown s c) :
    s.user.mfaSecret ≠ none ∧ c.length = 10 ∧ ∃ i, c ∈ (requests i).recoveryCodes := by
  obtain ⟨i, uri, secret, codes, replied, member⟩ := shown
  have mine := orderly i
  rw [replied] at mine
  rw [mine.2] at member
  refine ⟨by rw [mine.1]; exact Option.some_ne_none _, ?_, i, member⟩
  cases asks : requests i with
  | enroll draw =>
      rw [asks] at member
      exact draw.length_of_mem member
  | verify code =>
      rw [asks] at member
      exact absurd member List.not_mem_nil

/-- Whoever is accepted verifies for a user with a second factor. -/
theorem Orderly.accepting {s : MfaState ι} (orderly : Orderly p requests s) {k : ι}
    (accepting : (s.stage k).Accepting) : s.user.mfaSecret ≠ none := by
  have mine := orderly k
  cases here : s.stage k with
  | holding codes =>
      rw [here] at mine
      exact mine.2.1.1
  | accepted method =>
      rw [here] at mine
      exact mine.1
  | replied reply =>
      rw [here] at mine accepting
      cases reply with
      | mfaVerified => exact mine.1
      | _ => exact accepting.elim
  | _ =>
      rw [here] at accepting
      exact accepting.elim

theorem presentations_concat (c : JsString) (tr : List (Transition (MfaState ι) (MfaAction ι)))
    (e : Transition (MfaState ι) (MfaAction ι)) :
    presentations requests c (tr ++ [e]) = presentations requests c tr ++
      if e.source.looksFor requests e.action = some c then [e.action.request] else [] := by
  rw [presentations, List.filter_append, List.map_append, presentations, List.filter_singleton]
  by_cases here : e.source.looksFor requests e.action = some c <;> simp [here]

theorem looksFor_of_ne {s : MfaState ι} {a : MfaAction ι}
    (elsewhere : s.stage a.request ≠ .checking) : s.looksFor requests a = none := by
  unfold MfaState.looksFor
  split
  · rename_i here
    exact absurd here elsewhere
  · rfl

theorem looksFor_of_checking {s : MfaState ι} {a : MfaAction ι} {code : JsString}
    (asks : requests a.request = .verify code) (here : s.stage a.request = .checking) :
    s.looksFor requests a = some (Js.trim code) := by
  simp only [MfaState.looksFor, asks, here]

/-! ## What a statement comes to -/

variable [DecidableEq ι]

variable (p requests) in
/-- What a statement of request `i` comes to. -/
inductive Move (s : MfaState ι) (i : ι) : MfaState ι → Prop
  | opens {stage : MfaStage} (here : s.stage i = .arrived)
      (opening : Opening s.user (requests i) stage) :
      Move s i ⟨s.user, s.audit, s.lock, Function.update s.stage i stage⟩
  | writes {draw : MfaDraw} (asks : requests i = .enroll draw) (here : s.stage i = .enrolling)
      (free : s.lock = none) :
      Move s i ⟨s.user, s.audit, some i, Function.update s.stage i .written⟩
  | vanishes (here : s.stage i = .enrolling) :
      Move s i ⟨s.user, s.audit, s.lock, Function.update s.stage i (.replied .internalError)⟩
  | enrolls {draw : MfaDraw} {uri : JsString} {audit : List AuditEventInput}
      (asks : requests i = .enroll draw) (here : s.stage i = .written) :
      Move s i ⟨s.user.enrollMfa p draw, audit, none, Function.update s.stage i
        (.replied (.enrolled uri draw.secret draw.recoveryCodes))⟩
  | refuses {code : JsString} (asks : requests i = .verify code) (here : s.stage i = .checking)
      (free : s.lock = none)
      (absent : s.user.deletedAt = none → p.sha256Hex (Js.trim code) ∉ s.user.mfaRecoveryCodes) :
      Move s i ⟨s.user, s.audit, s.lock, Function.update s.stage i (.replied .notValid)⟩
  | takes {code : JsString} (asks : requests i = .verify code) (here : s.stage i = .checking)
      (free : s.lock = none) (found : p.sha256Hex (Js.trim code) ∈ s.user.mfaRecoveryCodes) :
      Move s i ⟨s.user, s.audit, some i,
        Function.update s.stage i (.holding s.user.mfaRecoveryCodes)⟩
  | consumes {code : JsString} {codes : List String} {audit : List AuditEventInput}
      (asks : requests i = .verify code) (here : s.stage i = .holding codes) :
      Move s i ⟨s.user.consumeRecoveryCode p codes (Js.trim code), audit, none,
        Function.update s.stage i (.accepted .recoveryCode)⟩
  | verifies {method : MfaMethod} {audit : List AuditEventInput}
      (here : s.stage i = .accepted method) :
      Move s i ⟨s.user, audit, s.lock, Function.update s.stage i (.replied .mfaVerified)⟩

theorem move_of_next {s t : MfaState ι} {a : MfaAction ι}
    (stepped : s.next p requests a = some t) : Move p requests s a.request t := by
  unfold MfaState.next at stepped
  split at stepped
  · rename_i draw asks here
    cases stepped
    exact .opens here (asks ▸ opening_enroll s.user draw)
  · rename_i draw asks here
    split at stepped
    · cases stepped
    · rename_i free
      split at stepped
      · cases stepped
        exact .writes asks here (by simpa using free)
      · cases stepped
        exact .vanishes here
  · rename_i draw asks here
    cases stepped
    exact .enrolls asks here
  · rename_i code asks here
    cases stepped
    exact .opens here (asks ▸ opening_verify p s.user code a.clock)
  · rename_i code asks here
    split at stepped
    · cases stepped
    · rename_i free
      split at stepped
      · rename_i found
        cases stepped
        exact .takes asks here (by simpa using free) found.2
      · rename_i absent
        cases stepped
        exact .refuses asks here (by simpa using free) fun active found => absent ⟨active, found⟩
  · rename_i code codes asks here
    cases stepped
    exact .consumes asks here
  · rename_i code method asks here
    cases stepped
    exact .verifies here
  · cases stepped

theorem move_of_step {s t : MfaState ι} {a : MfaAction ι} (step : MfaStep p requests s a t) :
    Move p requests s a.request t := by
  obtain ⟨allowed, rfl⟩ := step
  obtain ⟨t, next⟩ := Option.isSome_iff_exists.1 allowed
  rw [MfaState.after, next]
  exact move_of_next next

/-! ## Requests that keep out of each other's way -/

/-- One request moves on, and the others stay. -/
theorem Orderly.put {s : MfaState ι} {i : ι} {user : UserRow} {audit : List AuditEventInput}
    {lock : Option ι} {stage : MfaStage} (mine : Fine p requests user lock i stage)
    (others : ∀ k, k ≠ i → Fine p requests user lock k (s.stage k)) :
    Orderly p requests ⟨user, audit, lock, Function.update s.stage i stage⟩ := by
  intro k
  show Fine p requests user lock k (Function.update s.stage i stage k)
  by_cases same : k = i
  · subst same
    rwa [Function.update_self]
  · rw [Function.update_of_ne same]
    exact others k same

theorem Orderly.step {s t : MfaState ι} {a : MfaAction ι} (orderly : Orderly p requests s)
    (undisturbed : Undisturbed p requests s a) (move : Move p requests s a.request t) :
    Orderly p requests t := by
  have mine := orderly a.request
  cases move with
  | opens here opening =>
      exact .put (opening.fine s.lock a.request) fun k _ => orderly k
  | writes asks here free =>
      refine .put ⟨rfl, undisturbed.1 here⟩ fun k _ => ?_
      exact (orderly k).transfer (by rw [free]; exact nofun) (.inr ⟨rfl, rfl⟩)
  | vanishes here => exact .put trivial fun k _ => orderly k
  | enrolls asks here =>
      rw [here] at mine
      refine .put ⟨rfl, by rw [asks]; rfl⟩ fun k other => ?_
      refine (orderly k).transfer (fun locked => ?_) (.inl mine.2)
      exact other (Option.some.inj (locked.symm.trans mine.1))
  | refuses asks here free absent => exact .put trivial fun k _ => orderly k
  | takes asks here free found =>
      rw [here] at mine
      have distinctive := undisturbed.2 _ (looksFor_of_checking asks here)
      refine .put ⟨rfl, mine, rfl, _, asks, found, distinctive⟩ fun k _ => ?_
      exact (orderly k).transfer (by rw [free]; exact nofun) (.inr ⟨rfl, rfl⟩)
  | consumes asks here =>
      rw [here] at mine
      refine .put mine.2.1 fun k other => ?_
      refine (orderly k).transfer (fun locked => ?_) (.inr ⟨rfl, rfl⟩)
      exact other (Option.some.inj (locked.symm.trans mine.1))
  | verifies here =>
      rw [here] at mine
      exact .put mine fun k _ => orderly k

/-- A secret stays. -/
theorem secret_of_move {s t : MfaState ι} {i : ι} (orderly : Orderly p requests s)
    (move : Move p requests s i t) {secret : JsString} (stored : s.user.mfaSecret = some secret) :
    t.user.mfaSecret = some secret := by
  cases move with
  | enrolls asks here =>
      have mine := orderly i
      rw [here] at mine
      rw [mine.2] at stored
      cases stored
  | _ => exact stored

/-! ## One code, through a statement -/

/-- **Frame**: a request that has nothing to do with the code moves on. -/
theorem Single.frame {user user' : UserRow} {stage : ι → MfaStage} {c : JsString} {i : ι}
    {next : MfaStage} {order : List ι} (single : Single p requests user stage c order)
    (stored : p.sha256Hex c ∈ user'.mfaRecoveryCodes ↔ p.sha256Hex c ∈ user.mfaRecoveryCodes)
    (under_way : stage i ≠ .replied .notValid)
    (idle : Brings requests i c → ¬ (stage i).Accepting ∧ ¬ next.Accepting) :
    Single p requests user' (Function.update stage i next) c order := by
  have same : ∀ k, Brings requests k c → (Function.update stage i next k).Accepting →
      (stage k).Accepting := by
    intro k brings accepting
    by_cases here : k = i
    · subst here
      rw [Function.update_self] at accepting
      exact absurd accepting (idle brings).2
    · rwa [Function.update_of_ne here] at accepting
  cases single with
  | unused hash nobody =>
      exact .unused (stored.2 hash) fun k brings accepting =>
        nobody k brings (same k brings accepting)
  | @taken j later brings taker only refused =>
      have other : j ≠ i := by
        rintro rfl
        exact (idle brings).1 (accepting_of_taker taker)
      refine .taken brings ?_ (fun k looks inside => only k looks (same k looks inside))
        fun k member => ?_
      · rw [Function.update_of_ne other, stored]
        exact taker
      · have elsewhere : k ≠ i := by
          rintro rfl
          exact under_way (refused k member)
        rw [Function.update_of_ne elsewhere]
        exact refused k member

namespace Single

variable {user user' : UserRow} {stage : ι → MfaStage} {c : JsString} {i : ι} {order : List ι}

/-- A code that is not stored is refused. -/
theorem refuses (single : Single p requests user stage c order) (here : stage i = .checking)
    (absent : p.sha256Hex c ∉ user.mfaRecoveryCodes) :
    Single p requests user (Function.update stage i (.replied .notValid)) c (order ++ [i]) := by
  cases single with
  | unused stored nobody => exact absurd stored absent
  | @taken j later brings taker only refused =>
      have other : j ≠ i := by
        rintro rfl
        rw [here] at taker
        simp at taker
      have same : ∀ k, (Function.update stage i (.replied .notValid) k).Accepting →
          (stage k).Accepting := by
        intro k accepting
        by_cases mine : k = i
        · subst mine
          rw [Function.update_self] at accepting
          exact accepting.elim
        · rwa [Function.update_of_ne mine] at accepting
      refine .taken brings (by rwa [Function.update_of_ne other])
        (fun k looks accepting => only k looks (same k accepting)) fun k member => ?_
      by_cases mine : k = i
      · rw [mine, Function.update_self]
      · rw [Function.update_of_ne mine]
        refine refused k ((List.mem_append.1 member).resolve_right fun last => ?_)
        exact mine (List.mem_singleton.1 last)

/-- A code that is stored is accepted, and was not presented before: whoever had would hold the
row, or would have consumed it. -/
theorem takes (single : Single p requests user stage c order) (brings : Brings requests i c)
    (free : ∀ k codes, stage k ≠ .holding codes)
    (found : p.sha256Hex c ∈ user.mfaRecoveryCodes) (codes : List String) :
    Single p requests user (Function.update stage i (.holding codes)) c (order ++ [i]) := by
  cases single with
  | unused stored nobody =>
      refine .taken brings (.inl ⟨⟨codes, Function.update_self ..⟩, found⟩)
        (fun k looks accepting => ?_) fun k none_ => absurd none_ List.not_mem_nil
      by_contra other
      rw [Function.update_of_ne other] at accepting
      exact nobody k looks accepting
  | @taken j later _ taker only refused =>
      obtain ⟨⟨held, holding⟩, -⟩ | ⟨-, gone⟩ := taker
      · exact absurd holding (free j held)
      · exact absurd found gone

/-- The verification that took the row goes on, and the code is gone. -/
theorem finishes (single : Single p requests user stage c order) (brings : Brings requests i c)
    (accepting : (stage i).Accepting) {next : MfaStage}
    (done : next = .accepted .recoveryCode ∨ next = .replied .mfaVerified)
    (gone : p.sha256Hex c ∉ user'.mfaRecoveryCodes) :
    Single p requests user' (Function.update stage i next) c order := by
  cases single with
  | unused stored nobody => exact absurd accepting (nobody i brings)
  | @taken j later _ taker only refused =>
      obtain rfl := only i brings accepting
      refine .taken brings (.inr ⟨by rwa [Function.update_self], gone⟩)
        (fun k looks inside => ?_) fun k member => ?_
      · by_contra other
        rw [Function.update_of_ne other] at inside
        exact other (only k looks inside)
      · have other : k ≠ i := by
          rintro rfl
          rw [refused k member] at accepting
          exact accepting
        rw [Function.update_of_ne other]
        exact refused k member

end Single

/-! ## The rule of a run -/

theorem Shown.before {s : MfaState ι} {i : ι} {user : UserRow} {audit : List AuditEventInput}
    {lock : Option ι} {stage : MfaStage} {c : JsString}
    (shown : Shown ⟨user, audit, lock, Function.update s.stage i stage⟩ c)
    (other : ∀ uri secret codes, stage ≠ .replied (.enrolled uri secret codes)) : Shown s c := by
  obtain ⟨k, uri, secret, codes, replied, member⟩ := shown
  refine ⟨k, uri, secret, codes, ?_, member⟩
  by_cases same : k = i
  · subst same
    exact absurd ((Function.update_self ..).symm.trans replied) (other uri secret codes)
  · exact (Function.update_of_ne same ..).symm.trans replied

variable (p requests) in
/-- What a run comes to, and what it has come through. -/
structure Told (tr : List (Transition (MfaState ι) (MfaAction ι))) (s : MfaState ι) : Prop where
  orderly : Orderly p requests s
  stays : ∀ e ∈ tr, ∀ secret, e.source.user.mfaSecret = some secret →
    e.target.user.mfaSecret = some secret
  before : s.user.mfaSecret = none → ∀ c, presentations requests c tr = []
  single : ∀ c, Shown s c → Single p requests s.user s.stage c (presentations requests c tr)

/-- **Step.**  The codes that were shown stay single. -/
theorem Told.single_step {tr : List (Transition (MfaState ι) (MfaAction ι))} {s t : MfaState ι}
    {a : MfaAction ι} (told : Told p requests tr s) (move : Move p requests s a.request t)
    {c : JsString} (shown : Shown t c) :
    Single p requests t.user t.stage c (presentations requests c (tr ++ [⟨s, a, t⟩])) := by
  have mine := told.orderly a.request
  rw [presentations_concat]
  cases move with
  | opens here opening =>
      have earlier := shown.before opening.not_shown
      obtain ⟨-, ten, -⟩ := told.orderly.shown earlier
      rw [looksFor_of_ne (by rw [here]; exact nofun), if_neg nofun, List.append_nil]
      apply (told.single c earlier).frame Iff.rfl (by rw [here]; exact nofun)
      intro brings
      refine ⟨by rw [here]; exact (·), ?_⟩
      intro accepting
      obtain ⟨code, asks, six⟩ := opening.six accepting
      rw [(brings_iff asks).1 brings, ten] at six
      cases six
  | writes asks here free =>
      rw [looksFor_of_ne (by rw [here]; exact nofun), if_neg nofun, List.append_nil]
      have earlier := shown.before fun _ _ _ => nofun
      exact (told.single c earlier).frame Iff.rfl (by rw [here]; exact nofun)
        fun _ => ⟨by rw [here]; exact (·), (·)⟩
  | vanishes here =>
      rw [looksFor_of_ne (by rw [here]; exact nofun), if_neg nofun, List.append_nil]
      have earlier := shown.before fun _ _ _ => nofun
      exact (told.single c earlier).frame Iff.rfl (by rw [here]; exact nofun)
        fun _ => ⟨by rw [here]; exact (·), (·)⟩
  | @enrolls draw uri audit asks here =>
      rw [here] at mine
      rw [looksFor_of_ne (by rw [here]; exact nofun), if_neg nofun, List.append_nil,
        told.before mine.2 c]
      -- nobody had enrolled, so the code is one of these, and nobody verifies
      obtain ⟨k, uri', secret, codes, replied, member⟩ := shown
      have own : k = a.request := by
        by_contra other
        have earlier := (Function.update_of_ne other ..).symm.trans replied
        exact (told.orderly.shown ⟨k, uri', secret, codes, earlier, member⟩).1 mine.2
      subst own
      cases (Function.update_self ..).symm.trans replied
      refine .unused (List.mem_map_of_mem member) fun k _ accepting => ?_
      dsimp only at accepting
      by_cases same : k = a.request
      · subst same
        rw [Function.update_self] at accepting
        exact accepting
      · rw [Function.update_of_ne same] at accepting
        exact told.orderly.accepting accepting mine.2
  | @refuses code asks here free absent =>
      have earlier := shown.before fun _ _ _ => nofun
      rw [here] at mine
      rw [looksFor_of_checking asks here]
      by_cases same : Js.trim code = c
      · subst same
        rw [if_pos rfl]
        exact (told.single _ earlier).refuses here (absent mine.2)
      · rw [if_neg (fun is => same (Option.some.inj is)), List.append_nil]
        exact (told.single c earlier).frame Iff.rfl (by rw [here]; exact nofun)
          fun brings => absurd ((brings_iff asks).1 brings) same
  | @takes code asks here free found =>
      have earlier := shown.before fun _ _ _ => nofun
      rw [looksFor_of_checking asks here]
      by_cases same : Js.trim code = c
      · subst same
        rw [if_pos rfl]
        refine (told.single _ earlier).takes ⟨code, asks, rfl⟩ (fun k codes held => ?_) found _
        have locked := told.orderly k
        rw [held, free] at locked
        cases locked.1
      · rw [if_neg (fun is => same (Option.some.inj is)), List.append_nil]
        exact (told.single c earlier).frame Iff.rfl (by rw [here]; exact nofun)
          fun brings => absurd ((brings_iff asks).1 brings) same
  | @consumes code codes audit asks here =>
      have earlier := shown.before fun _ _ _ => nofun
      obtain ⟨-, -, i, drawn⟩ := told.orderly.shown earlier
      rw [here] at mine
      obtain ⟨-, -, rfl, code', asks', -, distinctive⟩ := mine
      cases asks.symm.trans asks'
      rw [looksFor_of_ne (by rw [here]; exact nofun), if_neg nofun, List.append_nil]
      by_cases same : Js.trim code = c
      · refine (told.single c earlier).finishes ⟨code, asks, same⟩ (by rw [here]; trivial)
          (.inl rfl) fun stored => ?_
        have kept := (List.mem_filter.1 stored).2
        rw [same] at kept
        simp at kept
      · refine (told.single c earlier).frame ?_ (by rw [here]; exact nofun)
          fun brings => absurd ((brings_iff asks).1 brings) same
        -- its hash is another one than that of the code that is consumed
        have hash : p.sha256Hex c ≠ p.sha256Hex (Js.trim code) :=
          fun is => same (distinctive i c drawn is).symm
        simp [UserRow.consumeRecoveryCode, hash]
  | @verifies method audit here =>
      have earlier := shown.before fun _ _ _ => nofun
      rw [looksFor_of_ne (by rw [here]; exact nofun), if_neg nofun, List.append_nil]
      by_cases brings : Brings requests a.request c
      · exact (told.single c earlier).finishes brings (by rw [here]; trivial) (.inr rfl)
          ((told.single c earlier).gone brings here)
      · exact (told.single c earlier).frame Iff.rfl (by rw [here]; exact nofun)
          fun is => absurd is brings

theorem Told.step {tr : List (Transition (MfaState ι) (MfaAction ι))} {s t : MfaState ι}
    {a : MfaAction ι} (told : Told p requests tr s) (undisturbed : Undisturbed p requests s a)
    (stepped : MfaStep p requests s a t) : Told p requests (tr ++ [⟨s, a, t⟩]) t := by
  have move := move_of_step stepped
  have stays : ∀ secret, s.user.mfaSecret = some secret → t.user.mfaSecret = some secret :=
    fun _ stored => secret_of_move told.orderly move stored
  refine ⟨told.orderly.step undisturbed move, ?_, ?_, fun c shown => told.single_step move shown⟩
  · intro e member secret stored
    rcases List.mem_append.1 member with old | new
    · exact told.stays e old secret stored
    · obtain rfl := List.mem_singleton.1 new
      exact stays secret stored
  · intro none_ c
    have unset : s.user.mfaSecret = none := by
      by_contra has
      obtain ⟨secret, stored⟩ := Option.ne_none_iff_exists'.1 has
      rw [stays secret stored] at none_
      cases none_
    have elsewhere : s.stage a.request ≠ .checking := by
      intro here
      have mine := told.orderly a.request
      rw [here] at mine
      exact mine.1 unset
    rw [presentations_concat, told.before unset c, looksFor_of_ne elsewhere, if_neg nofun]
    rfl

/-- **Run.** -/
theorem told_of_run {start t : MfaState ι} {tr : List (Transition (MfaState ι) (MfaAction ι))}
    (fresh : start.Fresh) (run : Run (MfaStep p requests) start tr t)
    (undisturbed : ∀ e ∈ tr, Undisturbed p requests e.source e.action) : Told p requests tr t := by
  have keep : ∀ tr s a t, Told p requests tr s → Undisturbed p requests s a →
      MfaStep p requests s a t → Told p requests (tr ++ [⟨s, a, t⟩]) t :=
    fun _ _ _ _ told undisturbed step => told.step undisturbed step
  refine run.history_of_guarded keep undisturbed ⟨fun i => ?_, fun _ none_ => ?_, fun _ _ => rfl,
    fun c shown => ?_⟩
  · rw [fresh.stage i]
    trivial
  · exact absurd none_ List.not_mem_nil
  · obtain ⟨i, uri, secret, codes, replied, -⟩ := shown
    rw [fresh.stage i] at replied
    cases replied

/-- Whoever is going to be accepted can go on, and is. -/
theorem settled_of_accepting {s : MfaState ι} {j : ι} {c : JsString}
    (brings : Brings requests j c) (accepting : (s.stage j).Accepting) (clock : Date) :
    s.settled p requests j clock = .replied .mfaVerified := by
  obtain ⟨code, asks, -⟩ := brings
  have done : ∀ s : MfaState ι, s.stage j = .replied .mfaVerified →
      (s.after p requests ⟨j, clock⟩).stage j = .replied .mfaVerified := by
    intro s here
    simp [MfaState.after, MfaState.next, asks, here]
  have next : ∀ (s : MfaState ι) (method : MfaMethod), s.stage j = .accepted method →
      (s.after p requests ⟨j, clock⟩).stage j = .replied .mfaVerified := by
    intro s method here
    simp [MfaState.after, MfaState.next, MfaState.goTo, asks, here]
  unfold MfaState.settled
  cases here : s.stage j with
  | holding codes =>
      apply next _ .recoveryCode
      simp [MfaState.after, MfaState.next, MfaState.goTo, asks, here]
  | accepted method => exact done _ (next s method here)
  | replied reply =>
      rw [here] at accepting
      cases reply with
      | mfaVerified => exact done _ (done s here)
      | _ => exact accepting.elim
  | _ =>
      rw [here] at accepting
      exact accepting.elim

end Moves

/-! ## The result -/

/-- **What was shown stays good.**  Whatever order the statements of any number of enrolments and
verifications run in: if every enrolment finds no secret when it writes, and no text that is
looked for has the hash of another recovery code, a secret that is stored stays, every reply to an
enrolment has the secret that is stored and codes whose hashes are stored until they are
consumed, and each of these codes is accepted from the first verification that presents it and
from no other. -/
theorem shown_codes_kept {ι : Type} [DecidableEq ι] (p : MfaPlatform) (requests : ι → MfaRequest)
    {start t : MfaState ι} {tr : List (Transition (MfaState ι) (MfaAction ι))}
    (fresh : start.Fresh) (run : Run (MfaStep p requests) start tr t)
    (undisturbed : ∀ e ∈ tr, Undisturbed p requests e.source e.action) :
    ShownCodesKept p requests tr t := by
  have told := told_of_run fresh run undisturbed
  have single : ∀ i uri secret codes, t.stage i = .replied (.enrolled uri secret codes) →
      ∀ c ∈ codes, Single p requests t.user t.stage c (presentations requests c tr) :=
    fun i uri secret codes replied c member =>
      told.single c ⟨i, uri, secret, codes, replied, member⟩
  refine ⟨told.stays, ?_, ?_, ?_, ?_⟩
  · intro i uri secret codes replied
    have mine := told.orderly i
    rw [replied] at mine
    exact mine.1
  · intro i uri secret codes replied c member
    have here := single i uri secret codes replied c member
    generalize presentations requests c tr = order at here
    cases here with
    | unused stored nobody => exact .inl stored
    | taken brings taker only refused =>
        obtain ⟨-, stored⟩ | ⟨done, -⟩ := taker
        · exact .inl stored
        · exact .inr ⟨_, rfl, done⟩
  · intro i uri secret codes replied c member j later order
    have here := single i uri secret codes replied c member
    rw [order] at here
    cases here with
    | taken brings taker only refused =>
        exact ⟨settled_of_accepting brings (accepting_of_taker taker), refused⟩
  · intro i uri secret codes replied c member j code asks text verified
    have here := single i uri secret codes replied c member
    have accepting : (t.stage j).Accepting := by rw [verified]; trivial
    generalize presentations requests c tr = order at here
    cases here with
    | unused stored nobody => exact absurd accepting (nobody j ⟨code, asks, text⟩)
    | taken brings taker only refused => rw [only j ⟨code, asks, text⟩ accepting]; rfl

/-! ## Two requests that meet -/

/-- A platform for concrete runs; the hashes are those of the codes that are drawn there. -/
def samplePlatform : MfaPlatform where
  toUpperCase := fun s => s.map fun u => if 97 ≤ u ∧ u ≤ 122 then u - 32 else u
  hmacSha1 := fun _ _ => ⟨List.replicate 20 0, List.length_replicate⟩
  sha256Hex := fun s =>
    if s = Js.ofString "0000000000" then
      "84d9c4b849506b6d8f8075a9000e7e0a254be71060ea889fad3c88395988f4fc"
    else "e0f83b7e429ab9653f932de2f80b506cc1c196666f195631b45d6784ad3e147c"
  encodeURIComponent := fun s => s.flatMap fun u => if u = 64 then Js.ofString "%40" else [u]

theorem sampleDraw_five (byte : UInt8) :
    ∀ bytes ∈ List.replicate 10 (List.replicate 5 byte), bytes.length = 5 := by
  intro bytes member
  rw [List.eq_of_mem_replicate member, List.length_replicate]

/-- A draw of one byte again and again. -/
def sampleDraw (byte : UInt8) : MfaDraw where
  secretBytes := List.replicate 20 byte
  codeBytes := List.replicate 10 (List.replicate 5 byte)
  twenty := List.length_replicate
  ten := List.length_replicate
  five := sampleDraw_five byte

/-- A user without a second factor, and requests that have just arrived. -/
def sampleState (ι : Type) : MfaState ι where
  user :=
    { id := Uuid.numbered 1
      orgId := Uuid.numbered 2
      email := Js.ofString "a@b.co"
      mfaSecret := none
      mfaRecoveryCodes := []
      deletedAt := none }
  audit := []
  lock := none
  stage := fun _ => .arrived

local instance neZero_three : NeZero 3 := ⟨by decide⟩

local instance neZero_two : NeZero 2 := ⟨by decide⟩

/-- An enrolment, and two verifications with one of its codes. -/
def codeTwice : Fin 3 → MfaRequest
  | 0 => .enroll (sampleDraw 0)
  | 1 => .verify (Js.ofString " 0000000000")
  | 2 => .verify (Js.ofString "0000000000")

/-- The second verification comes in between the first one's look at the user and its look at the
codes, and then waits for the row. -/
def codeTwiceActions : List (MfaAction (Fin 3)) :=
  [0, 0, 0, 1, 2, 1, 1, 2, 1].map fun i => ⟨i, 1700000000000⟩

/-- One code, presented twice: it is good once. -/
theorem shown_codes_kept_twice :
    ∃ tr t, Run (MfaStep samplePlatform codeTwice) (sampleState (Fin 3)) tr t ∧
      ShownCodesKept samplePlatform codeTwice tr t ∧
      t.user.mfaSecret = some (sampleDraw 0).secret ∧ t.user.mfaRecoveryCodes = [] ∧
      t.stage 1 = .replied .mfaVerified ∧ t.stage 2 = .replied .notValid := by
  have executable : Executable (fun s a => s.Allows samplePlatform codeTwice a ∧
      Undisturbed samplePlatform codeTwice s a) (MfaState.after samplePlatform codeTwice)
      (sampleState (Fin 3)) codeTwiceActions := by
    decide +kernel
  obtain ⟨tr, run, undisturbed⟩ := executable.run_guarded
  exact ⟨tr, _, run, shown_codes_kept samplePlatform codeTwice ⟨rfl, fun _ => rfl⟩ run undisturbed,
    by decide +kernel⟩

/-- Two enrolments. -/
def enrollTwice : Fin 2 → MfaRequest
  | 0 => .enroll (sampleDraw 0)
  | 1 => .enroll (sampleDraw 1)

/-- Both read the user before either writes. -/
def enrollTwiceActions : List (MfaAction (Fin 2)) :=
  [0, 1, 0, 0, 1, 1].map fun i => ⟨i, 1700000000000⟩

/-- **The second enrolment wins.**  Both reply with success, and the secret and the codes of the
first reply are stored no more. -/
theorem second_enrolment_wins :
    ¬ ∀ tr t, Run (MfaStep samplePlatform enrollTwice) (sampleState (Fin 2)) tr t →
      ShownCodesKept samplePlatform enrollTwice tr t := by
  intro kept
  have executable : Executable (MfaState.Allows samplePlatform enrollTwice)
      (MfaState.after samplePlatform enrollTwice) (sampleState (Fin 2)) enrollTwiceActions := by
    decide +kernel
  obtain ⟨tr, run⟩ := executable.run
  have replied : (enrollTwiceActions.foldl (MfaState.after samplePlatform enrollTwice)
      (sampleState (Fin 2))).stage 0 = .replied (.enrolled
        (totpUri samplePlatform.encodeURIComponent (sampleDraw 0).secret (Js.ofString "a@b.co"))
        (sampleDraw 0).secret (sampleDraw 0).recoveryCodes) := by
    decide +kernel
  have stored := (kept tr _ run).secretStored 0 _ _ _ replied
  have replaced : (enrollTwiceActions.foldl (MfaState.after samplePlatform enrollTwice)
      (sampleState (Fin 2))).user.mfaSecret ≠ some (sampleDraw 0).secret := by
    decide +kernel
  exact replaced stored

end Tozalist.Api
