/-
# Tozalist.Engine.Probe -- one SMTP conversation after another, until one concludes

`probeMailbox`, `probeOneHost` and `stageError` of `services/engine/smtpprobe.go`.
The network is a parameter: for every connection (the position of the host in the
list, and whether the upgrade to TLS is attempted) it says how each command is
answered.  A probe returns its result together with the exchanges it had, in order,
so that what was asked and answered on the wire can be spoken about.

Deadlines and the goroutine that closes the socket show only as errors of the
network: a command that timed out is a command answered by an error.

The loop over the hosts is brought to one fact: `connect` walks the hosts until a
connection is ready for its recipients, and `probeMailbox` is `connect` followed by
the recipient stage of that one connection (`probeMailbox_eq`), because whatever is
said to a recipient ends the probe.
-/
import Tozalist.Engine.Reply
import Mathlib.Data.List.Sort

namespace Tozalist.Engine

set_option autoImplicit false

/-! ## What a probe exchanges -/

/-- Which recipient a `RCPT TO` is about. -/
inductive Recipient where
  | random
  | real
  deriving DecidableEq, Repr

/-- A step of the conversation that the server may refuse. -/
inductive Command where
  | dial
  | greeting
  | hello (domain : String)
  | startTLS
  | mail (sender : String)
  | rcpt (recipient : Recipient) (address : String)
  | quit
  deriving DecidableEq, Repr

/-- One connection of a probe. -/
structure Connection where
  /-- The position of the host in the list. -/
  entry : Nat
  addr : String
  tryTLS : Bool
  deriving DecidableEq, Repr

/-- A command and its answer; no error means it was accepted. -/
structure Exchange where
  connection : Connection
  command : Command
  err : Option GoError
  deriving DecidableEq, Repr

/-- `*net.MX`. -/
structure MxRecord where
  host : String
  pref : Nat
  deriving DecidableEq, Repr

/-- Everything a probe learns from outside. -/
structure Network where
  lookupMX : String → Except GoError (List MxRecord)
  reply : Connection → Command → Option GoError
  /-- `client.Extension("STARTTLS")` -/
  offersStartTLS : Connection → Bool
  /-- `ctx.Err()` once the host at this position has failed -/
  ctxErr : Nat → Option GoError

/-- `emailverifier.SMTP`. -/
structure SMTP where
  hostExists : Bool := true
  fullInbox : Bool := false
  catchAll : Bool := false
  deliverable : Bool := false
  disabled : Bool := false
  deriving DecidableEq, Repr

/-- The exchanges of a probe and what it returned. -/
structure Answer where
  log : List Exchange
  result : Except GoError SMTP

def Answer.done (result : Except GoError SMTP) : Answer :=
  ⟨[], result⟩

/-- `smtpProbeOptions`, but for the timeout. -/
structure SmtpProbeOptions where
  hosts : List String := []
  helloDomain : String
  fromAddress : String
  catchAll : Bool
  randomSuffix : String → String

/-! ## Errors of the probe -/

/-- The label of a kind in `probeError.Error`. -/
def ReplyKind.label : ReplyKind → String
  | .blocked => "probe blocked by the mail server"
  | .temporary => "mail server asked to try again later"
  | .other => "mail server gave an unexpected reply"
  | .accepted | .unknown | .full | .disabled => "probe failed"

/-- `probeError.Error`. -/
def ProbeError.text (err : ProbeError) : String :=
  err.kind.label ++ " at " ++ err.stage ++ " (" ++ toString err.code ++ ")"

def ProbeError.error (err : ProbeError) : GoError :=
  { text := err.text, probe := some err }

/-- `errRetryWithoutTLS`. -/
def errRetryWithoutTLS : GoError :=
  { text := "starttls failed", retryWithoutTLS := true }

/-- `stageError`: a refused preliminary is a refusal of the probe, whatever its words. -/
def stageError (toLower : String → String) (stage : String) (err : GoError) : GoError :=
  let (kind, code) := classifyReply toLower (some err)
  if kind = .accepted then err
  else if kind = .unknown ∨ kind = .full ∨ kind = .disabled then
    (ProbeError.mk stage .other code).error
  else (ProbeError.mk stage kind code).error

/-! ## One conversation -/

section Conversation

variable (toLower : String → String) (net : Network) (opts : SmtpProbeOptions)
  (domain username : String)

/-- Say `command` on the connection and go on with its answer. -/
def ask (at_ : Connection) (command : Command) (next : Option GoError → Answer) : Answer :=
  let err := net.reply at_ command
  let rest := next err
  ⟨⟨at_, command, err⟩ :: rest.log, rest.result⟩

/-- Every exchange of the answer satisfies `P`. -/
def Answer.Says (P : Exchange → Prop) (answer : Answer) : Prop :=
  ∀ e ∈ answer.log, P e

theorem says_done (P : Exchange → Prop) (result : Except GoError SMTP) :
    (Answer.done result).Says P := by
  simp [Answer.Says, Answer.done]

theorem says_ask (P : Exchange → Prop) (at_ : Connection) (command : Command)
    (next : Option GoError → Answer) :
    (ask net at_ command next).Says P ↔
      P ⟨at_, command, net.reply at_ command⟩ ∧ (next (net.reply at_ command)).Says P := by
  simp [Answer.Says, ask]

/-- The real recipient, once the random one does not stand in the way. -/
def rcptReal (at_ : Connection) : Answer :=
  if username = "" then ask net at_ .quit fun _ => .done (.ok {})
  else
    ask net at_ (.rcpt .real (username ++ "@" ++ domain)) fun err =>
      let (kind, code) := classifyReply toLower err
      ask net at_ .quit fun _ => .done <|
        match kind with
        | .accepted => .ok { deliverable := true }
        | .unknown => .ok { deliverable := false }
        | .full => .ok { fullInbox := true }
        | .disabled => .ok { disabled := true }
        | .blocked | .temporary | .other => .error (ProbeError.mk "RCPT" kind code).error

/-- The recipients: the random one first, when the catch-all test is on. -/
def rcptStage (at_ : Connection) : Answer :=
  if opts.catchAll then
    ask net at_ (.rcpt .random (opts.randomSuffix domain)) fun err =>
      let (kind, code) := classifyReply toLower err
      match kind with
      | .accepted => ask net at_ .quit fun _ => .done (.ok { catchAll := true })
      -- A random address cannot be full or disabled: that too is an unknown mailbox.
      | .unknown | .full | .disabled => rcptReal toLower net domain username at_
      | .blocked | .temporary | .other =>
          ask net at_ .quit fun _ =>
            .done (.error (ProbeError.mk "RCPT (catch-all test)" kind code).error)
  else rcptReal toLower net domain username at_

/-- `from`, with `<>` for the null sender. -/
def sender : String :=
  if opts.fromAddress = "<>" then "" else opts.fromAddress

/-- `MAIL FROM`, and on with `next`. -/
def mailStage (at_ : Connection) (next : Answer) : Answer :=
  ask net at_ (.mail (sender opts)) fun
    | some err => .done (.error (stageError toLower "MAIL FROM" err))
    | none => next

/-- The opportunistic upgrade. -/
def tlsStage (at_ : Connection) (next : Answer) : Answer :=
  if net.offersStartTLS at_ && at_.tryTLS then
    ask net at_ .startTLS fun
      | some _ => .done (.error errRetryWithoutTLS)
      | none => next
  else next

/-- Everything before the recipients. -/
def preliminaries (at_ : Connection) (next : Answer) : Answer :=
  ask net at_ .dial fun
    | some err => .done (.error err)
    | none => ask net at_ .greeting fun
      -- A refusing greeting is categorised; a broken one is passed on.
      | some err => .done (.error (if err.textproto.isSome then stageError toLower "greeting" err
          else err))
      | none => ask net at_ (.hello opts.helloDomain) fun
        | some err => .done (.error (stageError toLower "HELO" err))
        | none => tlsStage net at_ (mailStage toLower net opts at_ next)

/-- `probeOneHost`. -/
def probeOneHost (at_ : Connection) : Answer :=
  preliminaries toLower net opts at_ (rcptStage toLower net opts domain username at_)

/-! ## The hosts -/

/-- One host, with the plain-text retry after a failed upgrade. -/
def probeHost (entry : Nat) (addr : String) : Answer :=
  let first := probeOneHost toLower net opts domain username ⟨entry, addr, true⟩
  match first.result with
  | .error err =>
      if err.retryWithoutTLS then
        let second := probeOneHost toLower net opts domain username ⟨entry, addr, false⟩
        ⟨first.log ++ second.log, second.result⟩
      else first
  | .ok _ => first

/-- The host loop of `probeMailbox`, with its `lastErr`. -/
def probeHosts : Nat → List String → Option GoError → Answer
  | _, [], lastErr =>
      .done (.error (lastErr.getD { text := "no mail server could be reached" }))
  | entry, addr :: hosts, _ =>
      let answer := probeHost toLower net opts domain username entry addr
      match answer.result with
      | .ok result => ⟨answer.log, .ok result⟩
      | .error err =>
          -- The server answered: another host would only repeat the answer.
          if err.probe.isSome then ⟨answer.log, .error err⟩
          else match net.ctxErr entry with
            | some ended => ⟨answer.log, .error ended⟩
            | none =>
                let rest := probeHosts (entry + 1) hosts (some err)
                ⟨answer.log ++ rest.log, rest.result⟩

/-- `net.JoinHostPort(strings.TrimSuffix(host, "."), "25")`. -/
def hostAddr (host : String) : String :=
  let name := if host.toList.getLast? = some '.' then String.ofList host.toList.dropLast else host
  if ':' ∈ name.toList then "[" ++ name ++ "]:25" else name ++ ":25"

/-- The hosts to try: those configured, or the domain's records by preference. -/
def probeTargets : Except GoError (List String) :=
  if opts.hosts ≠ [] then .ok opts.hosts
  else match net.lookupMX domain with
    | .error err => .error err
    | .ok [] => .error { text := "no MX records" }
    | .ok records =>
        .ok ((records.mergeSort fun i j => i.pref ≤ j.pref).map fun r => hostAddr r.host)

/-- `probeMailbox`. -/
def probeMailbox : Answer :=
  match probeTargets net opts domain with
  | .error err => .done (.error err)
  | .ok hosts => probeHosts toLower net opts domain username 0 hosts none

end Conversation

/-! ## The connection that concludes

Up to its recipients a conversation either refuses the probe or is ready for them. -/

section Connect

variable (toLower : String → String) (net : Network) (opts : SmtpProbeOptions)
  (domain username : String)

/-- Why a connection never came to its recipients, if it did not. -/
def refusal (at_ : Connection) : Option GoError :=
  match (preliminaries toLower net opts at_ (.done (.ok {}))).result with
  | .error err => some err
  | .ok _ => none

/-- What was said on a connection before its recipients. -/
def opening (at_ : Connection) : List Exchange :=
  (preliminaries toLower net opts at_ (.done (.ok {}))).log

/-- Whatever follows the preliminaries is reached exactly when nothing refused. -/
theorem preliminaries_eq (at_ : Connection) (next : Answer) :
    preliminaries toLower net opts at_ next =
      match refusal toLower net opts at_ with
      | some err => ⟨opening toLower net opts at_, .error err⟩
      | none => ⟨opening toLower net opts at_ ++ next.log, next.result⟩ := by
  simp only [refusal, opening, preliminaries, ask]
  cases net.reply at_ .dial with
  | some err => simp [Answer.done]
  | none =>
      cases net.reply at_ .greeting with
      | some err => simp [Answer.done]
      | none =>
          cases net.reply at_ (.hello opts.helloDomain) with
          | some err => simp [Answer.done]
          | none =>
              simp only [tlsStage, mailStage, ask]
              split
              · cases net.reply at_ .startTLS with
                | some err => simp [Answer.done]
                | none => cases net.reply at_ (.mail (sender opts)) <;> simp [Answer.done]
              · cases net.reply at_ (.mail (sender opts)) <;> simp [Answer.done]

/-- No recipient is named before the recipients' turn. -/
theorem opening_says (at_ : Connection) :
    ∀ e ∈ opening toLower net opts at_, ∀ recipient address,
      e.command ≠ .rcpt recipient address := by
  show (preliminaries toLower net opts at_ (.done (.ok {}))).Says _
  rw [preliminaries, says_ask]
  refine ⟨by simp, ?_⟩
  cases net.reply at_ .dial with
  | some err => exact says_done _ _
  | none =>
      rw [says_ask]
      refine ⟨by simp, ?_⟩
      cases net.reply at_ .greeting with
      | some err => exact says_done _ _
      | none =>
          rw [says_ask]
          refine ⟨by simp, ?_⟩
          cases net.reply at_ (.hello opts.helloDomain) with
          | some err => exact says_done _ _
          | none =>
              have mail : (mailStage toLower net opts at_ (.done (.ok {}))).Says
                  fun e => ∀ recipient address, e.command ≠ .rcpt recipient address := by
                rw [mailStage, says_ask]
                refine ⟨by simp, ?_⟩
                cases net.reply at_ (.mail (sender opts)) <;> exact says_done _ _
              simp only [tlsStage]
              split
              · rw [says_ask]
                refine ⟨by simp, ?_⟩
                cases net.reply at_ .startTLS with
                | some err => exact says_done _ _
                | none => exact mail
              · exact mail

/-- An error that ends the probe at once: the server has spoken. -/
def Final (result : Except GoError SMTP) : Prop :=
  ∀ err, result = .error err → err.probe.isSome = true ∧ err.retryWithoutTLS = false

theorem rcptReal_final (at_ : Connection) :
    Final (rcptReal toLower net domain username at_).result := by
  intro err failed
  simp only [rcptReal] at failed
  split at failed
  · simp [ask, Answer.done] at failed
  · simp only [ask, Answer.done] at failed
    split at failed <;> cases failed <;> exact ⟨rfl, rfl⟩

/-- **Whatever a server answers to a recipient ends the probe.** -/
theorem rcptStage_final (at_ : Connection) :
    Final (rcptStage toLower net opts domain username at_).result := by
  intro err failed
  simp only [rcptStage] at failed
  split at failed
  · simp only [ask] at failed
    split at failed
    · cases failed
    · exact rcptReal_final toLower net domain username at_ err failed
    · exact rcptReal_final toLower net domain username at_ err failed
    · exact rcptReal_final toLower net domain username at_ err failed
    all_goals cases failed; exact ⟨rfl, rfl⟩
  · exact rcptReal_final toLower net domain username at_ err failed

/-- The first connection to a host that comes to its recipients: the encrypted one, or
the plain one when the upgrade failed. -/
def connectHost (entry : Nat) (addr : String) : Except GoError Connection :=
  match refusal toLower net opts ⟨entry, addr, true⟩ with
  | none => .ok ⟨entry, addr, true⟩
  | some err =>
      if err.retryWithoutTLS then
        match refusal toLower net opts ⟨entry, addr, false⟩ with
        | none => .ok ⟨entry, addr, false⟩
        | some err => .error err
      else .error err

/-- The first connection of the hosts that comes to its recipients. -/
def connectHosts : Nat → List String → Option GoError → Except GoError Connection
  | _, [], lastErr => .error (lastErr.getD { text := "no mail server could be reached" })
  | entry, addr :: hosts, _ =>
      match connectHost toLower net opts entry addr with
      | .ok at_ => .ok at_
      | .error err =>
          if err.probe.isSome then .error err
          else match net.ctxErr entry with
            | some ended => .error ended
            | none => connectHosts (entry + 1) hosts (some err)

/-- The one connection on which a probe comes to its recipients, or why there is none. -/
def connect : Except GoError Connection :=
  match probeTargets net opts domain with
  | .error err => .error err
  | .ok hosts => connectHosts toLower net opts 0 hosts none

/-- The exchange names no recipient. -/
def Exchange.Preliminary (e : Exchange) : Prop :=
  ∀ recipient address, e.command ≠ .rcpt recipient address

/-- The answer is that of the recipient stage of `met`, after preliminaries. -/
def Answer.Concludes (answer : Answer) (met : Except GoError Connection) : Prop :=
  match met with
  | .error err => answer.result = .error err ∧ answer.Says Exchange.Preliminary
  | .ok at_ =>
      let stage := rcptStage toLower net opts domain username at_
      answer.result = stage.result ∧
        ∃ before, answer.log = before ++ stage.log ∧ ∀ e ∈ before, e.Preliminary

theorem probeHost_concludes (entry : Nat) (addr : String) :
    (probeHost toLower net opts domain username entry addr).Concludes toLower net opts domain
      username (connectHost toLower net opts entry addr) := by
  simp only [probeHost, probeOneHost, preliminaries_eq, connectHost]
  cases first : refusal toLower net opts ⟨entry, addr, true⟩ with
  | none =>
      have final := rcptStage_final toLower net opts domain username ⟨entry, addr, true⟩
      have stays : ∀ err, (rcptStage toLower net opts domain username ⟨entry, addr, true⟩).result =
          .error err → err.retryWithoutTLS = false := fun err failed => (final err failed).2
      simp only [Answer.Concludes]
      split
      · rename_i err failed
        rw [if_neg (by simp [stays err failed])]
        exact ⟨rfl, _, rfl, opening_says toLower net opts _⟩
      · exact ⟨rfl, _, rfl, opening_says toLower net opts _⟩
  | some err =>
      by_cases retry : err.retryWithoutTLS = true
      · simp only [retry, if_true]
        cases second : refusal toLower net opts ⟨entry, addr, false⟩ with
        | none =>
            refine ⟨rfl, opening toLower net opts ⟨entry, addr, true⟩ ++
              opening toLower net opts ⟨entry, addr, false⟩, by simp, ?_⟩
            intro e member
            rcases List.mem_append.1 member with h | h
            · exact opening_says toLower net opts _ e h
            · exact opening_says toLower net opts _ e h
        | some again =>
            refine ⟨rfl, ?_⟩
            intro e member
            rcases List.mem_append.1 member with h | h
            · exact opening_says toLower net opts _ e h
            · exact opening_says toLower net opts _ e h
      · simp only [retry, if_false, Bool.false_eq_true]
        exact ⟨rfl, opening_says toLower net opts _⟩

theorem probeHosts_concludes (entry : Nat) (hosts : List String) (lastErr : Option GoError) :
    (probeHosts toLower net opts domain username entry hosts lastErr).Concludes toLower net opts
      domain username (connectHosts toLower net opts entry hosts lastErr) := by
  induction hosts generalizing entry lastErr with
  | nil => exact ⟨rfl, says_done _ _⟩
  | cons addr hosts ih =>
      have here := probeHost_concludes toLower net opts domain username entry addr
      rw [connectHosts, probeHosts]
      cases met : connectHost toLower net opts entry addr with
      | ok at_ =>
          rw [met] at here
          obtain ⟨result, before, log, prior⟩ := here
          simp only [Answer.Concludes]
          cases concluded : (rcptStage toLower net opts domain username at_).result with
          | ok answer => rw [result, concluded]; exact ⟨rfl, before, log, prior⟩
          | error err =>
              have spoken := (rcptStage_final toLower net opts domain username at_ err concluded).1
              rw [result, concluded]
              simp only [spoken, if_true]
              exact ⟨trivial, before, log, prior⟩
      | error err =>
          rw [met] at here
          obtain ⟨result, prior⟩ := here
          simp only [result]
          by_cases spoken : err.probe.isSome = true
          · simp only [spoken, if_true]
            exact ⟨rfl, prior⟩
          · simp only [spoken, if_false, Bool.false_eq_true]
            cases net.ctxErr entry with
            | some ended => exact ⟨rfl, prior⟩
            | none =>
                have later := ih (entry + 1) (some err)
                simp only [Answer.Concludes] at later ⊢
                split at later
                · obtain ⟨rest, quiet⟩ := later
                  refine ⟨rest, ?_⟩
                  intro e member
                  rcases List.mem_append.1 member with h | h
                  · exact prior e h
                  · exact quiet e h
                · obtain ⟨rest, before, log, quiet⟩ := later
                  refine ⟨rest,
                    (probeHost toLower net opts domain username entry addr).log ++ before,
                    by rw [log, List.append_assoc], ?_⟩
                  intro e member
                  rcases List.mem_append.1 member with h | h
                  · exact prior e h
                  · exact quiet e h

/-- **A probe is its one recipient stage.**  It walks the hosts to the connection that
comes to its recipients, and what is said there is its answer. -/
theorem probeMailbox_concludes :
    (probeMailbox toLower net opts domain username).Concludes toLower net opts domain username
      (connect toLower net opts domain) := by
  simp only [probeMailbox, connect]
  cases probeTargets net opts domain with
  | error err => exact ⟨rfl, says_done _ _⟩
  | ok hosts => exact probeHosts_concludes toLower net opts domain username 0 hosts none

theorem probeMailbox_of_connect {at_ : Connection}
    (ready : connect toLower net opts domain = .ok at_) :
    (probeMailbox toLower net opts domain username).result =
      (rcptStage toLower net opts domain username at_).result := by
  have concludes := probeMailbox_concludes toLower net opts domain username
  rw [ready] at concludes
  exact concludes.1

/-! ## What a refused recipient leads to -/

theorem rcptReal_of_refused (at_ : Connection) {e : Exchange} {recipient : Recipient}
    {address : String} (member : e ∈ (rcptReal toLower net domain username at_).log)
    (names : e.command = .rcpt recipient address)
    (inconclusive : ¬ (classifyReply toLower e.err).1.Conclusive) :
    ∃ pe : ProbeError, (rcptReal toLower net domain username at_).result = .error pe.error := by
  rw [rcptReal] at member ⊢
  split at member
  · obtain rfl : e = _ := by simpa [ask, Answer.done] using member
    cases names
  · rename_i named
    rw [if_neg named]
    simp only [ask, Answer.done, List.mem_cons, List.not_mem_nil, or_false] at member ⊢
    rcases member with rfl | rfl
    · rcases ReplyKind.not_conclusive.1 inconclusive with kind | kind | kind <;>
        exact ⟨_, by rw [kind]⟩
    · cases names

/-- **A recipient answered by a policy block, a temporary failure or anything else ends
the probe in an error.** -/
theorem probeMailbox_of_refused {e : Exchange} {recipient : Recipient} {address : String}
    (member : e ∈ (probeMailbox toLower net opts domain username).log)
    (names : e.command = .rcpt recipient address)
    (inconclusive : ¬ (classifyReply toLower e.err).1.Conclusive) :
    ∃ pe : ProbeError,
      (probeMailbox toLower net opts domain username).result = .error pe.error := by
  have concludes := probeMailbox_concludes toLower net opts domain username
  cases met : connect toLower net opts domain with
  | error err =>
      rw [met] at concludes
      exact absurd names (concludes.2 e member recipient address)
  | ok at_ =>
      rw [met] at concludes
      obtain ⟨result, before, log, prior⟩ := concludes
      rw [result]
      rw [log] at member
      rcases List.mem_append.1 member with early | stage
      · exact absurd names (prior e early recipient address)
      · rw [rcptStage] at stage ⊢
        split at stage
        · rename_i tested
          rw [if_pos tested]
          simp only [ask, List.mem_cons] at stage ⊢
          rcases stage with rfl | stage
          · rcases ReplyKind.not_conclusive.1 inconclusive with kind | kind | kind <;>
              exact ⟨_, by rw [kind]; rfl⟩
          · split at stage
            · obtain rfl : e = _ := by simpa [Answer.done] using stage
              cases names
            · exact rcptReal_of_refused toLower net domain username at_ stage names inconclusive
            · exact rcptReal_of_refused toLower net domain username at_ stage names inconclusive
            · exact rcptReal_of_refused toLower net domain username at_ stage names inconclusive
            all_goals
              obtain rfl : e = _ := by simpa [Answer.done] using stage
              cases names
        · rename_i untested
          rw [if_neg untested]
          exact rcptReal_of_refused toLower net domain username at_ stage names inconclusive

end Connect

end Tozalist.Engine
