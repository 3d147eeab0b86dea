/-
# Tozalist.Engine.Conclusions -- what a probe may conclude from its conversation

A probe returns a result or an error, never both and never neither.  In Go these are two values,
of which every `return` of `smtpprobe.go` leaves one nil; `probeMailboxReturn` is the source
written so, and `probeMailboxReturn_eq` brings it to the answer of `Engine.Probe`.

A result speaks about the recipients of one connection, the last one of the probe:

* `rcptStage_cases` -- the three conversations that lead to a result;
* `probeHost_dials` -- how often a host is dialled, and when a second time;
* `probe_conclusions` -- what each flag of a result rests on.
-/
import Tozalist.Engine.Probe

namespace Tozalist.Engine

set_option autoImplicit false

/-- The errors of the network are values of other packages: neither the sentinel of the retry
without TLS nor a `probeError`. -/
def Foreign (net : Network) : Prop :=
  ∀ at_ command err, net.reply at_ command = some err →
    err.retryWithoutTLS = false ∧ err.probe = none

/-! ## The two values of a return -/

/-- `(*emailverifier.SMTP, error)`, with `none` for nil. -/
abbrev GoReturn : Type := Option SMTP × Option GoError

/-- A result or an error, as a return. -/
def goReturn : Except GoError SMTP → GoReturn
  | .ok result => (some result, none)
  | .error err => (none, some err)

section Return

variable (toLower : String → String) (net : Network) (opts : SmtpProbeOptions)
  (domain username : String)

/-- The end of `probeOneHost`, from the real recipient on. -/
def rcptRealReturn (at_ : Connection) : GoReturn :=
  if username = "" then (some {}, none)
  else
    let (kind, code) := classifyReply toLower
      (net.reply at_ (.rcpt .real (username ++ "@" ++ domain)))
    match kind with
    | .accepted => (some { deliverable := true }, none)
    | .unknown => (some { deliverable := false }, none)
    | .full => (some { fullInbox := true }, none)
    | .disabled => (some { disabled := true }, none)
    | .blocked | .temporary | .other => (none, some (ProbeError.mk "RCPT" kind code).error)

/-- The same from the random recipient on. -/
def rcptStageReturn (at_ : Connection) : GoReturn :=
  if opts.catchAll then
    let (kind, code) := classifyReply toLower
      (net.reply at_ (.rcpt .random (opts.randomSuffix domain)))
    match kind with
    | .accepted => (some { catchAll := true }, none)
    | .unknown | .full | .disabled => rcptRealReturn toLower net domain username at_
    | .blocked | .temporary | .other =>
        (none, some (ProbeError.mk "RCPT (catch-all test)" kind code).error)
  else rcptRealReturn toLower net domain username at_

/-- `probeOneHost`, by its returns. -/
def probeOneHostReturn (at_ : Connection) : GoReturn :=
  match net.reply at_ .dial with
  | some err => (none, some err)
  | none =>
  match net.reply at_ .greeting with
  | some err =>
      if err.textproto.isSome then (none, some (stageError toLower "greeting" err))
      else (none, some err)
  | none =>
  match net.reply at_ (.hello opts.helloDomain) with
  | some err => (none, some (stageError toLower "HELO" err))
  | none =>
  if net.offersStartTLS at_ && at_.tryTLS && (net.reply at_ .startTLS).isSome then
    (none, some errRetryWithoutTLS)
  else
  match net.reply at_ (.mail (sender opts)) with
  | some err => (none, some (stageError toLower "MAIL FROM" err))
  | none => rcptStageReturn toLower net opts domain username at_

/-- One host of the loop, with the retry without TLS. -/
def probeHostReturn (entry : Nat) (addr : String) : GoReturn :=
  let (result, err) := probeOneHostReturn toLower net opts domain username ⟨entry, addr, true⟩
  if (err.any fun err => err.retryWithoutTLS) = true then
    probeOneHostReturn toLower net opts domain username ⟨entry, addr, false⟩
  else (result, err)

/-- The host loop, by its returns. -/
def probeHostsReturn : Nat → List String → Option GoError → GoReturn
  | _, [], lastErr =>
      match lastErr with
      | none => (none, some { text := "no mail server could be reached" })
      | some err => (none, some err)
  | entry, addr :: hosts, _ =>
      let (result, err) := probeHostReturn toLower net opts domain username entry addr
      match err with
      | none => (result, none)
      | some err =>
          if err.probe.isSome then (none, some err)
          else match net.ctxErr entry with
            | some ended => (none, some ended)
            | none => probeHostsReturn (entry + 1) hosts (some err)

/-- `probeMailbox`, by its returns. -/
def probeMailboxReturn : GoReturn :=
  match probeTargets net opts domain with
  | .error err => (none, some err)
  | .ok hosts => probeHostsReturn toLower net opts domain username 0 hosts none

theorem rcptRealReturn_eq (at_ : Connection) :
    rcptRealReturn toLower net domain username at_ =
      goReturn (rcptReal toLower net domain username at_).result := by
  rw [rcptRealReturn, rcptReal]
  split
  · rfl
  · simp only [ask, Answer.done]
    cases (classifyReply toLower (net.reply at_ (.rcpt .real (username ++ "@" ++ domain)))).1 <;>
      rfl

theorem rcptStageReturn_eq (at_ : Connection) :
    rcptStageReturn toLower net opts domain username at_ =
      goReturn (rcptStage toLower net opts domain username at_).result := by
  rw [rcptStageReturn, rcptStage]
  split
  · simp only [ask, rcptRealReturn_eq]
    cases (classifyReply toLower (net.reply at_ (.rcpt .random (opts.randomSuffix domain)))).1 <;>
      rfl
  · exact rcptRealReturn_eq toLower net domain username at_

theorem probeOneHostReturn_eq (at_ : Connection) :
    probeOneHostReturn toLower net opts domain username at_ =
      goReturn (probeOneHost toLower net opts domain username at_).result := by
  rw [probeOneHostReturn, probeOneHost, preliminaries]
  simp only [ask]
  cases net.reply at_ .dial with
  | some err => rfl
  | none =>
      cases net.reply at_ .greeting with
      | some err =>
          dsimp only [Answer.done]
          split <;> rfl
      | none =>
          cases net.reply at_ (.hello opts.helloDomain) with
          | some err => rfl
          | none =>
              dsimp only
              have mail : (match net.reply at_ (.mail (sender opts)) with
                  | some err => (none, some (stageError toLower "MAIL FROM" err))
                  | none => rcptStageReturn toLower net opts domain username at_) =
                  goReturn (mailStage toLower net opts at_
                    (rcptStage toLower net opts domain username at_)).result := by
                rw [mailStage]
                simp only [ask]
                cases net.reply at_ (.mail (sender opts)) with
                | some err => rfl
                | none => exact rcptStageReturn_eq toLower net opts domain username at_
              rw [tlsStage, mail]
              by_cases upgrade : (net.offersStartTLS at_ && at_.tryTLS) = true
              · rw [upgrade, Bool.true_and, if_pos rfl]
                simp only [ask]
                cases net.reply at_ .startTLS with
                | some err => rfl
                | none => rfl
              · rw [if_neg upgrade, if_neg fun both => upgrade (Bool.and_eq_true_iff.1 both).1]

theorem probeHostReturn_eq (entry : Nat) (addr : String) :
    probeHostReturn toLower net opts domain username entry addr =
      goReturn (probeHost toLower net opts domain username entry addr).result := by
  rw [probeHostReturn, probeHost]
  simp only [probeOneHostReturn_eq]
  cases first : (probeOneHost toLower net opts domain username ⟨entry, addr, true⟩).result with
  | ok result =>
      dsimp only
      rw [first]
      rfl
  | error err =>
      by_cases retry : err.retryWithoutTLS = true
      · simp [goReturn, retry]
      · simp [goReturn, retry, first]

theorem probeHostsReturn_eq (hosts : List String) : ∀ (entry : Nat) (lastErr : Option GoError),
    probeHostsReturn toLower net opts domain username entry hosts lastErr =
      goReturn (probeHosts toLower net opts domain username entry hosts lastErr).result := by
  induction hosts with
  | nil =>
      intro entry lastErr
      cases lastErr <;> rfl
  | cons addr hosts ih =>
      intro entry lastErr
      rw [probeHostsReturn, probeHosts, probeHostReturn_eq]
      cases (probeHost toLower net opts domain username entry addr).result with
      | ok result => rfl
      | error err =>
          simp only [goReturn]
          split
          · rfl
          · cases net.ctxErr entry with
            | some ended => rfl
            | none => exact ih (entry + 1) (some err)

/-- **The two values of a probe** are those of its answer. -/
theorem probeMailboxReturn_eq :
    probeMailboxReturn toLower net opts domain username =
      goReturn (probeMailbox toLower net opts domain username).result := by
  rw [probeMailboxReturn, probeMailbox]
  cases probeTargets net opts domain with
  | error err => rfl
  | ok hosts => exact probeHostsReturn_eq toLower net opts domain username hosts 0 none

end Return

/-! ## Conversations with a result -/

/-- The server's answer was a 2xx reply. -/
def Exchange.Positive (e : Exchange) : Prop :=
  e.err = none ∨ ∃ err reply, e.err = some err ∧ err.textproto = some reply ∧
    200 ≤ reply.code ∧ reply.code < 300

theorem classify_accepted (toLower : String → String) (reply : TextprotoError) :
    classify toLower reply = .accepted ↔ 200 ≤ reply.code ∧ reply.code < 300 := by
  rw [classify]
  split
  · rename_i code
    exact iff_of_true rfl code
  · rename_i code
    refine iff_of_false ?_ code
    repeat' split
    all_goals decide

/-- A reply is classified as accepted exactly when it is 2xx. -/
theorem positive_iff (toLower : String → String) (e : Exchange) :
    e.Positive ↔ (classifyReply toLower e.err).1 = .accepted := by
  rw [Exchange.Positive]
  cases e.err with
  | none => exact iff_of_true (.inl rfl) rfl
  | some err =>
      cases reply : err.textproto with
      | none =>
          refine iff_of_false ?_ (by simp [classifyReply, reply])
          rintro (none_ | ⟨other, answer, same, text, _⟩)
          · cases none_
          · rw [← Option.some.inj same, reply] at text
            cases text
      | some answer =>
          simp only [classifyReply, reply, classify_accepted]
          constructor
          · rintro (none_ | ⟨other, other_, same, text, code⟩)
            · cases none_
            · rw [← Option.some.inj same, reply] at text
              rw [Option.some.inj text]
              exact code
          · exact fun code => .inr ⟨err, answer, rfl, reply, code⟩

/-- The random recipient is known not to exist: it was refused as unknown, full or disabled. -/
def ReplyKind.NoMailbox (kind : ReplyKind) : Prop :=
  kind = .unknown ∨ kind = .full ∨ kind = .disabled

/-- What the reply to the real recipient is reported as. -/
def mailbox : ReplyKind → Option SMTP
  | .accepted => some { deliverable := true }
  | .unknown => some { deliverable := false }
  | .full => some { fullInbox := true }
  | .disabled => some { disabled := true }
  | .blocked | .temporary | .other => none

/-- The reply to the real recipient is reported as one thing, and never as a catch-all. -/
theorem mailbox_some {kind : ReplyKind} {result : SMTP} (is : mailbox kind = some result) :
    result.catchAll = false ∧
      ¬ (result.deliverable = true ∧ result.fullInbox = true) ∧
      ¬ (result.deliverable = true ∧ result.disabled = true) ∧
      ¬ (result.fullInbox = true ∧ result.disabled = true) := by
  cases kind with
  | accepted => cases is; decide
  | unknown => cases is; decide
  | full => cases is; decide
  | disabled => cases is; decide
  | blocked => cases is
  | temporary => cases is
  | other => cases is

section Result

variable (toLower : String → String) (net : Network) (opts : SmtpProbeOptions)
  (domain username : String)

/-- The random recipient on a connection. -/
def randomRcpt (at_ : Connection) : Exchange :=
  ⟨at_, .rcpt .random (opts.randomSuffix domain),
    net.reply at_ (.rcpt .random (opts.randomSuffix domain))⟩

/-- The real recipient on a connection. -/
def realRcpt (at_ : Connection) : Exchange :=
  ⟨at_, .rcpt .real (username ++ "@" ++ domain),
    net.reply at_ (.rcpt .real (username ++ "@" ++ domain))⟩

def quitting (at_ : Connection) : Exchange := ⟨at_, .quit, net.reply at_ .quit⟩

/-- The random recipient, if the catch-all test is on. -/
def tested (at_ : Connection) : List Exchange :=
  if opts.catchAll then [randomRcpt net opts domain at_] else []

theorem rcptReal_log (at_ : Connection) :
    (rcptReal toLower net domain username at_).log =
      (if username = "" then [] else [realRcpt net domain username at_]) ++
        [quitting net at_] := by
  rw [rcptReal]
  split <;> rfl

theorem rcptReal_ok {at_ : Connection} {result : SMTP}
    (is : (rcptReal toLower net domain username at_).result = .ok result) :
    username = "" ∧ result = {} ∨ username ≠ "" ∧
      mailbox (classifyReply toLower (realRcpt net domain username at_).err).1 =
        some result := by
  rw [rcptReal] at is
  split at is
  · rename_i nobody
    exact .inl ⟨nobody, (Except.ok.inj is).symm⟩
  · rename_i somebody
    refine .inr ⟨somebody, ?_⟩
    simp only [ask, Answer.done] at is
    rw [realRcpt]
    dsimp only
    split at is <;> rename_i kind <;> rw [kind] <;> cases is <;> rfl

/-- **The conversations that lead to a result**: the random recipient is accepted, or it is not in
the way and the real one decides. -/
theorem rcptStage_cases {at_ : Connection} {result : SMTP}
    (is : (rcptStage toLower net opts domain username at_).result = .ok result) :
    (opts.catchAll = true ∧ (randomRcpt net opts domain at_).Positive ∧
        (rcptStage toLower net opts domain username at_).log =
          [randomRcpt net opts domain at_, quitting net at_] ∧
        result = { catchAll := true }) ∨
      (opts.catchAll = true →
          (classifyReply toLower (randomRcpt net opts domain at_).err).1.NoMailbox) ∧
        (rcptStage toLower net opts domain username at_).log = tested net opts domain at_ ++
          (rcptReal toLower net domain username at_).log ∧
        (rcptReal toLower net domain username at_).result = .ok result := by
  rw [rcptStage] at is ⊢
  rw [tested]
  cases on : opts.catchAll with
  | false =>
      rw [on, if_neg Bool.false_ne_true] at is
      refine .inr ⟨fun absurd_ => absurd absurd_ Bool.false_ne_true, ?_, is⟩
      rw [if_neg Bool.false_ne_true, if_neg Bool.false_ne_true, List.nil_append]
  | true =>
      rw [on, if_pos rfl] at is
      rw [if_pos rfl, if_pos rfl]
      simp only [ask, Answer.done] at is ⊢
      cases kind : (classifyReply toLower
          (net.reply at_ (.rcpt .random (opts.randomSuffix domain)))).1 with
      | accepted =>
          rw [kind] at is
          refine .inl ⟨trivial, ?_, rfl, (Except.ok.inj is).symm⟩
          rw [positive_iff toLower]
          exact kind
      | unknown =>
          rw [kind] at is
          exact .inr ⟨fun _ => .inl kind, rfl, is⟩
      | full =>
          rw [kind] at is
          exact .inr ⟨fun _ => .inr (.inl kind), rfl, is⟩
      | disabled =>
          rw [kind] at is
          exact .inr ⟨fun _ => .inr (.inr kind), rfl, is⟩
      | blocked =>
          rw [kind] at is
          cases is
      | temporary =>
          rw [kind] at is
          cases is
      | other =>
          rw [kind] at is
          cases is

theorem rcptReal_says (at_ : Connection) :
    (rcptReal toLower net domain username at_).Says fun e =>
      e = realRcpt net domain username at_ ∨ e = quitting net at_ := by
  intro e member
  rw [rcptReal_log] at member
  split at member
  · exact .inr (List.mem_singleton.1 member)
  · simpa using member

/-- On the connection that came to its recipients, nothing else is said. -/
theorem rcptStage_says (at_ : Connection) :
    (rcptStage toLower net opts domain username at_).Says fun e =>
      e = randomRcpt net opts domain at_ ∨ e = realRcpt net domain username at_ ∨
        e = quitting net at_ := by
  have real : ∀ e ∈ (rcptReal toLower net domain username at_).log,
      e = randomRcpt net opts domain at_ ∨ e = realRcpt net domain username at_ ∨
        e = quitting net at_ :=
    fun e member => .inr <| rcptReal_says toLower net domain username at_ e member
  have quit : ∀ result, (ask net at_ .quit fun _ => .done result).Says fun e =>
      e = randomRcpt net opts domain at_ ∨ e = realRcpt net domain username at_ ∨
        e = quitting net at_ := by
    intro result
    rw [says_ask]
    exact ⟨.inr (.inr rfl), says_done _ _⟩
  rw [rcptStage]
  split
  · rw [says_ask]
    refine ⟨.inl rfl, ?_⟩
    dsimp only
    split
    · exact quit _
    · exact real
    · exact real
    · exact real
    all_goals exact quit _
  · exact real

/-- A random recipient that is accepted is the finding. -/
theorem rcptStage_of_positive {at_ : Connection} (on : opts.catchAll = true)
    (positive : (randomRcpt net opts domain at_).Positive) :
    (rcptStage toLower net opts domain username at_).result = .ok { catchAll := true } := by
  have kind := (positive_iff toLower _).1 positive
  simp only [randomRcpt] at kind
  rw [rcptStage, if_pos on]
  simp only [ask, kind, Answer.done]

end Result

/-! ## Dials -/

section Dials

variable (toLower : String → String) (net : Network) (opts : SmtpProbeOptions)
  (domain username : String)

/-- Said on `at_`, once it was dialled. -/
def Exchange.Within (at_ : Connection) (e : Exchange) : Prop :=
  e.connection = at_ ∧ e.command ≠ .dial

/-- The dials of a host entry. -/
def dialled (log : List Exchange) (entry : Nat) : List Exchange :=
  log.filter fun e => e.connection.entry = entry ∧ e.command = .dial

/-- The entry was not dialled, dialled once, or a second time without TLS once STARTTLS had
failed. -/
def Dialled (log : List Exchange) (entry : Nat) : Prop :=
  dialled log entry = [] ∨
    (∃ addr err, dialled log entry = [⟨⟨entry, addr, true⟩, .dial, err⟩]) ∨
    ∃ addr before refused err after,
      log = before ++ ⟨⟨entry, addr, true⟩, .startTLS, some refused⟩ ::
        ⟨⟨entry, addr, false⟩, .dial, err⟩ :: after ∧
      (∃ first, dialled before entry = [⟨⟨entry, addr, true⟩, .dial, first⟩]) ∧
      dialled after entry = []

/-- What is said after `dial`, all of it on the one connection. -/
theorem preliminaries_says {at_ : Connection} {next : Answer}
    (rest : next.Says (Exchange.Within at_)) :
    ∃ after, (preliminaries toLower net opts at_ next).log =
        ⟨at_, .dial, net.reply at_ .dial⟩ :: after ∧ ∀ e ∈ after, e.Within at_ := by
  refine ⟨_, rfl, ?_⟩
  show Answer.Says (Exchange.Within at_) _
  cases net.reply at_ .dial with
  | some err => exact says_done _ _
  | none =>
      rw [says_ask]
      refine ⟨⟨rfl, (fun is => by cases is)⟩, ?_⟩
      cases net.reply at_ .greeting with
      | some err => exact says_done _ _
      | none =>
          rw [says_ask]
          refine ⟨⟨rfl, (fun is => by cases is)⟩, ?_⟩
          cases net.reply at_ (.hello opts.helloDomain) with
          | some err => exact says_done _ _
          | none =>
              have mail : (mailStage toLower net opts at_ next).Says (Exchange.Within at_) := by
                rw [mailStage, says_ask]
                refine ⟨⟨rfl, (fun is => by cases is)⟩, ?_⟩
                cases net.reply at_ (.mail (sender opts)) with
                | some err => exact says_done _ _
                | none => exact rest
              simp only [tlsStage]
              split
              · rw [says_ask]
                refine ⟨⟨rfl, (fun is => by cases is)⟩, ?_⟩
                cases net.reply at_ .startTLS with
                | some err => exact says_done _ _
                | none => exact mail
              · exact mail

theorem probeOneHost_log (at_ : Connection) :
    ∃ after, (probeOneHost toLower net opts domain username at_).log =
        ⟨at_, .dial, net.reply at_ .dial⟩ :: after ∧ ∀ e ∈ after, e.Within at_ := by
  apply preliminaries_says
  intro e member
  rcases rcptStage_says toLower net opts domain username at_ e member with rfl | rfl | rfl
  · exact ⟨rfl, nofun⟩
  · exact ⟨rfl, nofun⟩
  · exact ⟨rfl, nofun⟩

theorem stageError_retry (stage : String) {err : GoError} (not_ : err.retryWithoutTLS = false) :
    (stageError toLower stage err).retryWithoutTLS = false := by
  rw [stageError]
  dsimp only
  split
  · exact not_
  · split <;> rfl

/-- The retry is asked for by nothing but a failed upgrade, the last thing said. -/
theorem preliminaries_retry (foreign : Foreign net) {at_ : Connection} {next : Answer}
    {err : GoError} (is : (preliminaries toLower net opts at_ next).result = .error err)
    (retry : err.retryWithoutTLS = true)
    (not_ : ∀ other, next.result = .error other → other.retryWithoutTLS = false) :
    at_.tryTLS = true ∧ ∃ before refused,
      (preliminaries toLower net opts at_ next).log =
        before ++ [⟨at_, .startTLS, some refused⟩] := by
  have clash : ∀ {a : Bool}, a = false → ¬ a = true := fun no yes => by rw [no] at yes; cases yes
  rw [preliminaries] at is ⊢
  simp only [ask] at is ⊢
  cases dial : net.reply at_ .dial with
  | some failed =>
      rw [dial] at is
      rw [← Except.error.inj is] at retry
      exact absurd retry (clash (foreign _ _ _ dial).1)
  | none =>
  rw [dial] at is
  cases greeting : net.reply at_ .greeting with
  | some failed =>
      rw [greeting] at is
      rw [← Except.error.inj is] at retry
      have no := (foreign _ _ _ greeting).1
      split at retry
      · exact absurd retry (clash (stageError_retry toLower _ no))
      · exact absurd retry (clash no)
  | none =>
  rw [greeting] at is
  cases hello : net.reply at_ (.hello opts.helloDomain) with
  | some failed =>
      rw [hello] at is
      rw [← Except.error.inj is] at retry
      exact absurd retry (clash (stageError_retry toLower _ (foreign _ _ _ hello).1))
  | none =>
  rw [hello] at is
  dsimp only at is ⊢
  have mail : (mailStage toLower net opts at_ next).result ≠ .error err := by
    intro failed
    rw [mailStage] at failed
    simp only [ask] at failed
    cases sent : net.reply at_ (.mail (sender opts)) with
    | some other =>
        rw [sent] at failed
        rw [← Except.error.inj failed] at retry
        exact absurd retry (clash (stageError_retry toLower _ (foreign _ _ _ sent).1))
    | none =>
        rw [sent] at failed
        exact absurd retry (clash (not_ err failed))
  rw [tlsStage] at is ⊢
  split at is
  · rename_i upgrade
    rw [if_pos upgrade]
    simp only [ask] at is ⊢
    cases start : net.reply at_ .startTLS with
    | some refused =>
        exact ⟨(Bool.and_eq_true_iff.1 upgrade).2,
          [⟨at_, .dial, none⟩, ⟨at_, .greeting, none⟩, ⟨at_, .hello opts.helloDomain, none⟩],
          refused, rfl⟩
    | none =>
        rw [start] at is
        exact absurd is mail
  · exact absurd is mail

theorem dialled_within {log : List Exchange} {at_ : Connection}
    (within : ∀ e ∈ log, e.Within at_) (entry : Nat) : dialled log entry = [] := by
  apply List.filter_eq_nil_iff.2
  intro e member both
  exact (within e member).2 (of_decide_eq_true both).2

/-- **A host is dialled at most twice**, and the second time only in plain text and only after a
failed upgrade. -/
theorem probeHost_dials (foreign : Foreign net) (entry : Nat) (addr : String) :
    Dialled (probeHost toLower net opts domain username entry addr).log entry := by
  obtain ⟨after, log, within⟩ :=
    probeOneHost_log toLower net opts domain username ⟨entry, addr, true⟩
  have once : dialled (probeOneHost toLower net opts domain username ⟨entry, addr, true⟩).log
      entry = [⟨⟨entry, addr, true⟩, .dial, net.reply ⟨entry, addr, true⟩ .dial⟩] := by
    rw [log, dialled, List.filter_cons_of_pos (by simp)]
    exact congrArg _ (dialled_within within entry)
  rw [probeHost]
  dsimp only
  cases is : (probeOneHost toLower net opts domain username ⟨entry, addr, true⟩).result with
  | ok result => exact .inr (.inl ⟨addr, _, once⟩)
  | error err =>
      dsimp only
      by_cases retry : err.retryWithoutTLS = true
      · rw [if_pos retry]
        obtain ⟨-, before, refused, upgrade⟩ := preliminaries_retry toLower net opts foreign is
          retry fun other failed =>
            (rcptStage_final toLower net opts domain username _ other failed).2
        obtain ⟨again, plain, there⟩ :=
          probeOneHost_log toLower net opts domain username ⟨entry, addr, false⟩
        refine .inr (.inr ⟨addr, before, refused, net.reply ⟨entry, addr, false⟩ .dial, again, ?_,
          ⟨net.reply ⟨entry, addr, true⟩ .dial, ?_⟩, dialled_within there entry⟩)
        · dsimp only
          rw [plain, probeOneHost, upgrade, List.append_assoc]
          rfl
        · rw [probeOneHost, upgrade, dialled, List.filter_append] at once
          simpa [dialled] using once
      · rw [if_neg retry]
        exact .inr (.inl ⟨addr, _, once⟩)

/-- Everything said to a host is said on its connections. -/
theorem probeHost_entry (entry : Nat) (addr : String) :
    (probeHost toLower net opts domain username entry addr).Says
      fun e => e.connection.entry = entry ∧ e.connection.addr = addr := by
  have one : ∀ tls, (probeOneHost toLower net opts domain username ⟨entry, addr, tls⟩).Says
      fun e => e.connection.entry = entry ∧ e.connection.addr = addr := by
    intro tls e member
    obtain ⟨after, log, within⟩ :=
      probeOneHost_log toLower net opts domain username ⟨entry, addr, tls⟩
    rw [log] at member
    rcases List.mem_cons.1 member with rfl | member
    · exact ⟨rfl, rfl⟩
    · rw [(within e member).1]
      exact ⟨rfl, rfl⟩
  rw [probeHost]
  dsimp only
  split
  · split
    · intro e member
      rcases List.mem_append.1 member with here | here
      · exact one true e here
      · exact one false e here
    · exact one true
  · exact one true

theorem dialled_elsewhere {log : List Exchange} {entry : Nat}
    (elsewhere : ∀ e ∈ log, e.connection.entry ≠ entry) : dialled log entry = [] := by
  apply List.filter_eq_nil_iff.2
  intro e member both
  exact elsewhere e member (of_decide_eq_true both).1

theorem dialled_append (log later : List Exchange) (entry : Nat) :
    dialled (log ++ later) entry = dialled log entry ++ dialled later entry :=
  List.filter_append ..

theorem Dialled.before {log later : List Exchange} {entry : Nat} (here : Dialled later entry)
    (elsewhere : ∀ e ∈ log, e.connection.entry ≠ entry) : Dialled (log ++ later) entry := by
  have none_ := dialled_elsewhere elsewhere
  rcases here with never | ⟨addr, err, once⟩ | ⟨addr, before, refused, err, after, is, first, last⟩
  · exact .inl (by rw [dialled_append, none_, never, List.nil_append])
  · exact .inr (.inl ⟨addr, err, by rw [dialled_append, none_, once, List.nil_append]⟩)
  · refine .inr (.inr ⟨addr, log ++ before, refused, err, after, ?_, ?_, last⟩)
    · rw [is, List.append_assoc]
    · rw [dialled_append, none_, List.nil_append]
      exact first

theorem Dialled.after {log later : List Exchange} {entry : Nat} (here : Dialled log entry)
    (elsewhere : ∀ e ∈ later, e.connection.entry ≠ entry) : Dialled (log ++ later) entry := by
  have none_ := dialled_elsewhere elsewhere
  rcases here with never | ⟨addr, err, once⟩ | ⟨addr, before, refused, err, after, is, first, last⟩
  · exact .inl (by rw [dialled_append, none_, never, List.nil_append])
  · exact .inr (.inl ⟨addr, err, by rw [dialled_append, none_, once, List.append_nil]⟩)
  · refine .inr (.inr ⟨addr, before, refused, err, after ++ later, ?_, first, ?_⟩)
    · rw [is, List.append_assoc]
      rfl
    · rw [dialled_append, none_, last, List.nil_append]

/-- The loop, by its first host: what is said to it, and then to the others, if any. -/
theorem probeHosts_log (entry : Nat) (addr : String) (hosts : List String)
    (lastErr : Option GoError) :
    (probeHosts toLower net opts domain username entry (addr :: hosts) lastErr).log =
        (probeHost toLower net opts domain username entry addr).log ∨
      ∃ err, (probeHosts toLower net opts domain username entry (addr :: hosts) lastErr).log =
        (probeHost toLower net opts domain username entry addr).log ++
          (probeHosts toLower net opts domain username (entry + 1) hosts (some err)).log := by
  rw [probeHosts]
  dsimp only
  split
  · exact .inl rfl
  · rename_i err failed
    split
    · exact .inl rfl
    · split
      · exact .inl rfl
      · exact .inr ⟨err, rfl⟩

/-- The loop goes to later entries only. -/
theorem probeHosts_entries (hosts : List String) : ∀ (entry : Nat) (lastErr : Option GoError),
    (probeHosts toLower net opts domain username entry hosts lastErr).Says
      fun e => entry ≤ e.connection.entry := by
  induction hosts with
  | nil => exact fun entry lastErr => says_done _ _
  | cons addr hosts ih =>
      intro entry lastErr e member
      have first : e ∈ (probeHost toLower net opts domain username entry addr).log →
          entry ≤ e.connection.entry := fun here =>
        (probeHost_entry toLower net opts domain username entry addr e here).1.ge
      rcases probeHosts_log toLower net opts domain username entry addr hosts lastErr with
        log | ⟨err, log⟩
      · rw [log] at member
        exact first member
      · rw [log] at member
        rcases List.mem_append.1 member with here | here
        · exact first here
        · have later := ih (entry + 1) (some err) e here
          omega

theorem probeHosts_dials (foreign : Foreign net) (hosts : List String) :
    ∀ (entry : Nat) (lastErr : Option GoError) (j : Nat),
      Dialled (probeHosts toLower net opts domain username entry hosts lastErr).log j := by
  induction hosts with
  | nil => exact fun entry lastErr j => .inl rfl
  | cons addr hosts ih =>
      intro entry lastErr j
      have first : Dialled (probeHost toLower net opts domain username entry addr).log j := by
        by_cases here : j = entry
        · rw [here]
          exact probeHost_dials toLower net opts domain username foreign entry addr
        · refine .inl (dialled_elsewhere fun e member same => here ?_)
          exact same.symm.trans
            (probeHost_entry toLower net opts domain username entry addr e member).1
      rcases probeHosts_log toLower net opts domain username entry addr hosts lastErr with
        log | ⟨err, log⟩
      · rw [log]
        exact first
      · rw [log]
        by_cases here : j = entry
        · apply first.after
          intro e member
          have later := probeHosts_entries toLower net opts domain username hosts (entry + 1)
            (some err) e member
          omega
        · refine (ih (entry + 1) (some err) j).before fun e member same => here ?_
          exact same.symm.trans
            (probeHost_entry toLower net opts domain username entry addr e member).1

end Dials

/-! ## Conclusions -/

section Conclusions

variable (toLower : String → String) (net : Network) (opts : SmtpProbeOptions)
  (domain username : String)

/-- The connection a probe came to its answer on: that of the last thing said. -/
def Answer.deciding (answer : Answer) : Option Connection :=
  answer.log.getLast?.map fun e => e.connection

/-- What a result says about the mailbox. -/
def SMTP.Finding (result : SMTP) : Prop :=
  result.deliverable = true ∨ result.fullInbox = true ∨ result.disabled = true

/-- The real recipient was asked on the deciding connection; and before it, if the catch-all test
was on, the random one was refused as one that does not exist. -/
def Answer.AskedReal (answer : Answer) : Prop :=
  ∃ before real after, answer.log = before ++ real :: after ∧
    real.command = .rcpt .real (username ++ "@" ++ domain) ∧
    answer.deciding = some real.connection ∧
    (opts.catchAll = true → ∃ random ∈ before, random.connection = real.connection ∧
      random.command = .rcpt .random (opts.randomSuffix domain) ∧
      (classifyReply toLower random.err).1.NoMailbox)

theorem deciding_quit {answer : Answer} {before : List Exchange} {at_ : Connection}
    (log : answer.log = before ++ [quitting net at_]) : answer.deciding = some at_ := by
  rw [Answer.deciding, log, List.getLast?_concat]
  rfl

/-- A result comes from the recipients of one connection, after preliminaries. -/
theorem probeMailbox_ok {result : SMTP}
    (is : (probeMailbox toLower net opts domain username).result = .ok result) :
    ∃ at_ before, (rcptStage toLower net opts domain username at_).result = .ok result ∧
      (probeMailbox toLower net opts domain username).log =
        before ++ (rcptStage toLower net opts domain username at_).log ∧
      ∀ e ∈ before, e.Preliminary := by
  have concludes := probeMailbox_concludes toLower net opts domain username
  cases met : connect toLower net opts domain with
  | error err =>
      rw [met] at concludes
      rw [concludes.1] at is
      cases is
  | ok at_ =>
      rw [met] at concludes
      obtain ⟨same, before, log, prior⟩ := concludes
      exact ⟨at_, before, same.symm.trans is, log, prior⟩

/-- A random recipient in the log is that of the recipient stage. -/
theorem probeMailbox_of_random {e : Exchange} {address : String} (on : opts.catchAll = true)
    (member : e ∈ (probeMailbox toLower net opts domain username).log)
    (random : e.command = .rcpt .random address) (positive : e.Positive) :
    (probeMailbox toLower net opts domain username).result = .ok { catchAll := true } := by
  have concludes := probeMailbox_concludes toLower net opts domain username
  cases met : connect toLower net opts domain with
  | error err =>
      rw [met] at concludes
      exact absurd random (concludes.2 e member .random address)
  | ok at_ =>
      rw [met] at concludes
      obtain ⟨same, before, log, prior⟩ := concludes
      rw [log] at member
      rw [same]
      rcases List.mem_append.1 member with early | stage
      · exact absurd random (prior e early .random address)
      · rcases rcptStage_says toLower net opts domain username at_ e stage with rfl | rfl | rfl
        · exact rcptStage_of_positive toLower net opts domain username on positive
        · cases random
        · cases random

/-- **Catch-all is what an accepted random recipient is reported as**, and nothing else is. -/
theorem catchAll_iff :
    (∃ result, (probeMailbox toLower net opts domain username).result = .ok result ∧
        result.catchAll = true) ↔
      opts.catchAll = true ∧ ∃ e ∈ (probeMailbox toLower net opts domain username).log,
        (probeMailbox toLower net opts domain username).deciding = some e.connection ∧
        e.command = .rcpt .random (opts.randomSuffix domain) ∧ e.Positive := by
  constructor
  · rintro ⟨result, is, found⟩
    obtain ⟨at_, before, stage, log, prior⟩ := probeMailbox_ok toLower net opts domain username is
    rcases rcptStage_cases toLower net opts domain username stage with
      ⟨on, positive, said, -⟩ | ⟨-, -, real⟩
    · refine ⟨on, randomRcpt net opts domain at_, ?_, ?_, rfl, positive⟩
      · rw [log, said]
        exact List.mem_append_right _ List.mem_cons_self
      · rw [said] at log
        exact deciding_quit net (log.trans (List.append_cons ..))
    · rcases rcptReal_ok toLower net domain username real with ⟨-, rfl⟩ | ⟨-, reported⟩
      · cases found
      · rw [(mailbox_some reported).1] at found
        cases found
  · rintro ⟨on, e, member, -, random, positive⟩
    exact ⟨_, probeMailbox_of_random toLower net opts domain username on member random positive,
      rfl⟩

/-- What a result says about the mailbox, the real recipient's reply said. -/
theorem asked_of_finding {result : SMTP}
    (is : (probeMailbox toLower net opts domain username).result = .ok result)
    (finding : result.Finding) :
    (probeMailbox toLower net opts domain username).AskedReal toLower opts domain username := by
  obtain ⟨at_, before, stage, log, prior⟩ := probeMailbox_ok toLower net opts domain username is
  rcases rcptStage_cases toLower net opts domain username stage with
    ⟨-, -, -, rfl⟩ | ⟨refused, said, real⟩
  · rcases finding with yes | yes | yes <;> cases yes
  · rcases rcptReal_ok toLower net domain username real with ⟨-, rfl⟩ | ⟨somebody, -⟩
    · rcases finding with yes | yes | yes <;> cases yes
    · rw [said, rcptReal_log, if_neg somebody] at log
      refine ⟨before ++ tested net opts domain at_, realRcpt net domain username at_,
        [quitting net at_], ?_, rfl, ?_, fun on => ⟨randomRcpt net opts domain at_, ?_, rfl, rfl,
          refused on⟩⟩
      · rw [log, List.append_assoc]
        rfl
      · rw [← List.append_assoc, ← List.append_assoc] at log
        exact deciding_quit net log
      · rw [tested, if_pos on]
        exact List.mem_append_right _ List.mem_cons_self

/-- No result says two things about the mailbox. -/
theorem finding_unique {result : SMTP}
    (is : (probeMailbox toLower net opts domain username).result = .ok result) :
    ¬ (result.deliverable = true ∧ result.fullInbox = true) ∧
      ¬ (result.deliverable = true ∧ result.disabled = true) ∧
      ¬ (result.fullInbox = true ∧ result.disabled = true) := by
  obtain ⟨at_, before, stage, -, -⟩ := probeMailbox_ok toLower net opts domain username is
  rcases rcptStage_cases toLower net opts domain username stage with
    ⟨-, -, -, rfl⟩ | ⟨-, -, real⟩
  · decide
  · rcases rcptReal_ok toLower net domain username real with ⟨-, rfl⟩ | ⟨-, reported⟩
    · decide
    · exact (mailbox_some reported).2

/-- A catch-all finding was made without naming the real recipient. -/
theorem real_unsent {result : SMTP}
    (is : (probeMailbox toLower net opts domain username).result = .ok result)
    (found : result.catchAll = true) :
    ∀ e ∈ (probeMailbox toLower net opts domain username).log, ∀ address,
      e.command ≠ .rcpt .real address := by
  obtain ⟨at_, before, stage, log, prior⟩ := probeMailbox_ok toLower net opts domain username is
  rcases rcptStage_cases toLower net opts domain username stage with
    ⟨-, -, said, -⟩ | ⟨-, -, real⟩
  · intro e member address
    rw [log, said] at member
    rcases List.mem_append.1 member with early | late
    · exact prior e early .real address
    · rcases List.mem_cons.1 late with rfl | late
      · exact nofun
      · rw [List.mem_singleton.1 late]
        exact nofun
  · rcases rcptReal_ok toLower net domain username real with ⟨-, rfl⟩ | ⟨-, reported⟩
    · cases found
    · rw [(mailbox_some reported).1] at found
      cases found

theorem probeMailbox_dials (foreign : Foreign net) (entry : Nat) :
    Dialled (probeMailbox toLower net opts domain username).log entry := by
  rw [probeMailbox]
  cases probeTargets net opts domain with
  | error err => exact .inl rfl
  | ok hosts => exact probeHosts_dials toLower net opts domain username foreign hosts 0 none entry

/-- **What a probe may conclude.**  It returns a result or an error, and never both or neither.
Catch-all is reported exactly when the random recipient was accepted on the deciding connection,
and then the real one was not named; anything else said about the mailbox is one thing, said of
the real recipient on that connection after the random one was refused.  Each host is dialled at
most twice, and a second time only in plain text, after a failed STARTTLS. -/
theorem probe_conclusions (foreign : Foreign net) :
    ((probeMailboxReturn toLower net opts domain username).1.isSome =
        !(probeMailboxReturn toLower net opts domain username).2.isSome) ∧
      ((∃ result, (probeMailboxReturn toLower net opts domain username).1 = some result ∧
          result.catchAll = true) ↔
        opts.catchAll = true ∧ ∃ e ∈ (probeMailbox toLower net opts domain username).log,
          (probeMailbox toLower net opts domain username).deciding = some e.connection ∧
          e.command = .rcpt .random (opts.randomSuffix domain) ∧ e.Positive) ∧
      (∀ result, (probeMailboxReturn toLower net opts domain username).1 = some result →
        (¬ (result.deliverable = true ∧ result.fullInbox = true) ∧
          ¬ (result.deliverable = true ∧ result.disabled = true) ∧
          ¬ (result.fullInbox = true ∧ result.disabled = true)) ∧
        (result.Finding →
          (probeMailbox toLower net opts domain username).AskedReal toLower opts domain
            username) ∧
        (result.catchAll = true →
          ∀ e ∈ (probeMailbox toLower net opts domain username).log, ∀ address,
            e.command ≠ .rcpt .real address)) ∧
      ∀ entry, Dialled (probeMailbox toLower net opts domain username).log entry := by
  have ok : ∀ result, (probeMailboxReturn toLower net opts domain username).1 = some result ↔
      (probeMailbox toLower net opts domain username).result = .ok result := by
    intro result
    rw [probeMailboxReturn_eq]
    cases (probeMailbox toLower net opts domain username).result with
    | ok other => simp [goReturn]
    | error err => simp [goReturn]
  refine ⟨?_, ?_, ?_, probeMailbox_dials toLower net opts domain username foreign⟩
  · rw [probeMailboxReturn_eq]
    cases (probeMailbox toLower net opts domain username).result <;> rfl
  · simp only [ok]
    exact catchAll_iff toLower net opts domain username
  · intro result is
    have is := (ok result).1 is
    exact ⟨finding_unique toLower net opts domain username is,
      asked_of_finding toLower net opts domain username is,
      real_unsent toLower net opts domain username is⟩

/-- A network of one server, whose STARTTLS fails and whose mailboxes are known. -/
def upgradeless : Network where
  lookupMX := fun _ => .error { text := "no such host" }
  reply := fun _ command =>
    match command with
    | .startTLS => some { text := "tls: handshake failure" }
    | .rcpt .random _ => some (TextprotoError.error ⟨550, "5.1.1 no such user"⟩)
    | _ => none
  offersStartTLS := fun _ => true
  ctxErr := fun _ => none

theorem upgradeless_foreign : Foreign upgradeless := by
  intro at_ command err is
  cases command with
  | startTLS =>
      cases is
      exact ⟨rfl, rfl⟩
  | rcpt recipient address =>
      cases recipient with
      | random =>
          cases is
          exact ⟨rfl, rfl⟩
      | real => cases is
  | dial => cases is
  | greeting => cases is
  | hello _ => cases is
  | mail _ => cases is
  | quit => cases is

/-- The options of a probe of one server with the catch-all test. -/
def testing : SmtpProbeOptions :=
  { hosts := ["mx:25"], helloDomain := "probe.test", fromAddress := "<>", catchAll := true
    randomSuffix := fun domain => "random@" ++ domain }

theorem probe_conclusions_upgradeless :
    (∀ entry, Dialled
      (probeMailbox asciiToLower upgradeless testing "example.test" "alice").log entry) ∧
      (probeMailboxReturn asciiToLower upgradeless testing "example.test" "alice").1 =
        some { deliverable := true } :=
  ⟨(probe_conclusions asciiToLower upgradeless testing "example.test" "alice"
    upgradeless_foreign).2.2.2, by decide +kernel⟩

end Conclusions

end Tozalist.Engine
