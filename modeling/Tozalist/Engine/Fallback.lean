/-
# Tozalist.Engine.Fallback -- when a probe goes on to the next mail server

The loop over the hosts stops at a `probeError`, "the server answered", and goes on at any other
error.  The error is a `probeError` for every failure at HELO, MAIL FROM and RCPT, also for one
where the server did not answer: `classifyReply` reads a dropped connection as an unexpected reply
with code 0.

* `probeOneHost_ends` -- how a conversation ends, by the last thing said in it;
* `fallsBack_iff` -- the probe falls back as it should exactly when no connection was dropped at
  HELO, MAIL FROM or RCPT;
* `not_fallsBack` -- the refuted pole: a server that hangs up at HELO hides the next one.
-/
import Tozalist.Engine.Conclusions

namespace Tozalist.Engine

set_option autoImplicit false

/-! ## Steps and how they fail -/

/-- The stage a step is named by in a `probeError`. -/
def Command.stage : Command → Option String
  | .greeting => some "greeting"
  | .hello _ => some "HELO"
  | .mail _ => some "MAIL FROM"
  | .rcpt .random _ => some "RCPT (catch-all test)"
  | .rcpt .real _ => some "RCPT"
  | .dial | .startTLS | .quit => none

/-- The server's reply to the step, if it sent one that was not the expected one. -/
def Exchange.answer (e : Exchange) : Option TextprotoError :=
  if e.command = .dial then none else e.err.bind fun err => err.textproto

/-- The step failed without a reply: the dial failed, or the connection was dropped or timed
out. -/
def Exchange.Unanswered (e : Exchange) : Prop :=
  e.err.isSome = true ∧ e.answer = none

/-- The step was answered by a 4xx or a 5xx reply. -/
def Exchange.Refused (e : Exchange) : Prop :=
  ∃ reply, e.answer = some reply ∧ 400 ≤ reply.code ∧ reply.code < 600

/-- The steps at which the loop takes every failure for an answer. -/
def Command.Late : Command → Prop
  | .hello _ | .mail _ | .rcpt _ _ => True
  | .dial | .greeting | .startTLS | .quit => False

/-- The connection was dropped or timed out at HELO, MAIL FROM or RCPT. -/
def Exchange.Dropped (e : Exchange) : Prop :=
  e.command.Late ∧ e.Unanswered

/-- The last thing said to a host before the goodbye. -/
def lastWord (log : List Exchange) (entry : Nat) : Option Exchange :=
  (log.filter fun e => e.connection.entry = entry ∧ e.command ≠ .quit).getLast?

/-- What falling back means for a probe of `hosts`. -/
structure FallsBack (toLower : String → String) (net : Network) (opts : SmtpProbeOptions)
    (domain username : String) (hosts : List String) (answer : Answer) : Prop where
  /-- The hosts are those configured, or the domain's by preference. -/
  preferred : opts.hosts = [] → ∃ records sorted : List MxRecord,
    net.lookupMX domain = .ok records ∧ sorted.Perm records ∧
    sorted.Pairwise (fun i j => i.pref ≤ j.pref) ∧ hosts = sorted.map fun r => hostAddr r.host
  /-- After a host that failed without a reply, the next one is tried. -/
  onward : ∀ entry last next, lastWord answer.log entry = some last → last.Unanswered →
    hosts[entry + 1]? = some next →
    ∃ e ∈ answer.log, e.connection.entry = entry + 1 ∧ e.connection.addr = next
  /-- After a host that refused a step, none is. -/
  refused : ∀ entry last, lastWord answer.log entry = some last → last.Refused →
    ∀ e ∈ answer.log, e.connection.entry ≤ entry
  /-- After a conclusion, none is. -/
  concluded : ∀ entry addr result, (∃ e ∈ answer.log, e.connection = ⟨entry, addr, true⟩) →
    (probeHost toLower net opts domain username entry addr).result = .ok result →
    ∀ e ∈ answer.log, e.connection.entry ≤ entry
  /-- A refusal that is reported was sent. -/
  honest : ∀ err pe, answer.result = .error err → err.probe = some pe →
    ∃ entry last reply, lastWord answer.log entry = some last ∧
      last.command.stage = some pe.stage ∧ last.answer = some reply ∧ reply.code = pe.code

/-! ## How a conversation ends -/

/-- What the result of a conversation owes to the last thing said in it. -/
inductive Ended (last : Exchange) : Except GoError SMTP → Prop where
  | concluded (result : SMTP) (answered : ¬ last.Unanswered) : Ended last (.ok result)
  /-- The upgrade failed; the host is dialled again. -/
  | upgrade (err : GoError) (retry : err.retryWithoutTLS = true)
      (command : last.command = .startTLS) : Ended last (.error err)
  /-- The loop goes on: an early failure, or an unexpected 2xx reply. -/
  | onward (err : GoError) (none_ : err.probe = none) (final : err.retryWithoutTLS = false)
      (early : ¬ last.Dropped)
      (positive : ∀ reply, last.answer = some reply → 200 ≤ reply.code ∧ reply.code < 300) :
      Ended last (.error err)
  /-- The loop stops: the server refused the step. -/
  | answered (pe : ProbeError) (reply : TextprotoError) (stage : last.command.stage = some pe.stage)
      (sent : last.answer = some reply) (code : reply.code = pe.code) :
      Ended last (.error pe.error)
  /-- The loop stops as well: the connection was dropped. -/
  | dropped (pe : ProbeError) (stage : last.command.stage = some pe.stage) (silent : last.Dropped)
      (code : pe.code = 0) : Ended last (.error pe.error)

/-- The answer ends as its last word has it, with nothing dropped before and only a goodbye
after. -/
def Answer.Ends (answer : Answer) : Prop :=
  ∃ before last after, answer.log = before ++ last :: after ∧
    (∀ e ∈ before, ¬ e.Dropped) ∧ (∀ e ∈ after, e.command = .quit) ∧ last.command ≠ .quit ∧
    Ended last answer.result

theorem Answer.Ends.cons {log : List Exchange} {result : Except GoError SMTP} {e : Exchange}
    (ends : Answer.Ends ⟨log, result⟩) (kept : ¬ e.Dropped) : Answer.Ends ⟨e :: log, result⟩ := by
  obtain ⟨before, last, after, is, prior, rest, word, ended⟩ := ends
  refine ⟨e :: before, last, after, congrArg (e :: ·) is, ?_, rest, word, ended⟩
  intro other member
  rcases List.mem_cons.1 member with rfl | member
  · exact kept
  · exact prior other member

theorem Answer.Ends.last {e : Exchange} {after : List Exchange} {result : Except GoError SMTP}
    (ended : Ended e result) (word : e.command ≠ .quit) (rest : ∀ e ∈ after, e.command = .quit) :
    Answer.Ends ⟨e :: after, result⟩ :=
  ⟨[], e, after, rfl, fun _ member => absurd member List.not_mem_nil, rest, word, ended⟩

theorem Exchange.not_unanswered_of_none {e : Exchange} (accepted : e.err = none) :
    ¬ e.Unanswered := by
  intro unanswered
  have failed := unanswered.1
  rw [accepted] at failed
  cases failed

theorem Exchange.not_dropped_of_none {e : Exchange} (accepted : e.err = none) : ¬ e.Dropped :=
  fun dropped => Exchange.not_unanswered_of_none accepted dropped.2

section Ends

variable (toLower : String → String) (net : Network) (opts : SmtpProbeOptions)
  (domain username : String)

/-- A preliminary that fails, read as an answer. -/
theorem ended_stageError (foreign : Foreign net) {at_ : Connection} {command : Command}
    {stage : String} {err : GoError} (failed : net.reply at_ command = some err)
    (named : command.stage = some stage) (late : err.textproto = none → command.Late) :
    Ended ⟨at_, command, some err⟩ (.error (stageError toLower stage err)) := by
  have dialled : command ≠ .dial := by
    rintro rfl
    cases named
  have answer : (Exchange.mk at_ command (some err)).answer = err.textproto := by
    rw [Exchange.answer, if_neg dialled]
    rfl
  rw [stageError, classifyReply]
  cases sent : err.textproto with
  | none =>
      refine .dropped ⟨stage, .other, 0⟩ named ⟨late sent, rfl, answer.trans sent⟩ rfl
  | some reply =>
      dsimp only
      by_cases accepted : classify toLower reply = .accepted
      · rw [if_pos accepted]
        obtain ⟨none_, alone⟩ := (foreign _ _ _ failed).symm
        refine .onward err none_ alone (fun dropped => ?_) fun other is => ?_
        · have silent := dropped.2.2
          rw [answer, sent] at silent
          cases silent
        · rw [answer, sent] at is
          rw [← Option.some.inj is]
          exact (classify_accepted toLower reply).1 accepted
      · rw [if_neg accepted]
        split
        · exact .answered ⟨stage, .other, reply.code⟩ reply named (answer.trans sent) rfl
        · exact .answered ⟨stage, _, reply.code⟩ reply named (answer.trans sent) rfl

/-- A recipient that is neither accepted nor known to be missing, read as an answer. -/
theorem ended_rcpt {e : Exchange} {recipient : Recipient} {address : String} {stage : String}
    (is : e.command = .rcpt recipient address) (named : e.command.stage = some stage)
    {kind : ReplyKind} (inconclusive : ¬ kind.Conclusive)
    (classified : (classifyReply toLower e.err).1 = kind) :
    Ended e (.error (ProbeError.mk stage kind (classifyReply toLower e.err).2).error) := by
  have answer : e.answer = e.err.bind fun err => err.textproto := by
    rw [Exchange.answer, is, if_neg nofun]
  cases failed : e.err with
  | none =>
      rw [failed] at classified
      exact absurd (.inl classified.symm) inconclusive
  | some err =>
      rw [failed] at answer
      cases sent : err.textproto with
      | none =>
          have late : e.command.Late := by
            rw [is]
            exact trivial
          have silent : e.Unanswered := ⟨by rw [failed]; rfl, answer.trans sent⟩
          refine .dropped _ named ⟨late, silent⟩ ?_
          simp only [classifyReply, sent]
      | some reply =>
          refine .answered _ reply named (answer.trans sent) ?_
          simp only [classifyReply, sent]

/-- A recipient the server has judged. -/
theorem not_unanswered_of_conclusive {e : Exchange}
    (conclusive : (classifyReply toLower e.err).1.Conclusive) {recipient : Recipient}
    {address : String} (is : e.command = .rcpt recipient address) : ¬ e.Unanswered := by
  rintro ⟨failed, silent⟩
  rw [Exchange.answer, is, if_neg nofun] at silent
  cases is : e.err with
  | none =>
      rw [is] at failed
      cases failed
  | some err =>
      rw [is] at silent conclusive
      have silent : err.textproto = none := silent
      simp only [classifyReply, silent] at conclusive
      revert conclusive
      decide

/-- The real recipient's reply decides; with no real recipient, what came before it. -/
theorem rcptReal_ends (at_ : Connection) {prior : Exchange} (word : prior.command ≠ .quit)
    (answered : ¬ prior.Unanswered) :
    Answer.Ends ⟨prior :: (rcptReal toLower net domain username at_).log,
      (rcptReal toLower net domain username at_).result⟩ := by
  rw [rcptReal]
  split
  · refine .last (.concluded _ answered) word fun e member => ?_
    rw [List.mem_singleton.1 member]
  · simp only [ask, Answer.done]
    refine Answer.Ends.cons ?_ fun dropped => answered dropped.2
    have goodbye : ∀ e ∈ [quitting net at_], e.command = .quit := fun e member => by
      rw [List.mem_singleton.1 member]
      rfl
    have judged : (classifyReply toLower (realRcpt net domain username at_).err).1.Conclusive →
        ¬ (realRcpt net domain username at_).Unanswered := fun conclusive =>
      not_unanswered_of_conclusive toLower conclusive rfl
    refine .last ?_ (fun is => by cases is) goodbye
    change Ended (realRcpt net domain username at_) _
    cases kind : (classifyReply toLower (net.reply at_
        (.rcpt .real (username ++ "@" ++ domain)))).1 with
    | accepted => exact .concluded _ (judged (.inl kind))
    | unknown => exact .concluded _ (judged (.inr (.inl kind)))
    | full => exact .concluded _ (judged (.inr (.inr (.inl kind))))
    | disabled => exact .concluded _ (judged (.inr (.inr (.inr kind))))
    | blocked => exact ended_rcpt toLower rfl rfl (by decide) kind
    | temporary => exact ended_rcpt toLower rfl rfl (by decide) kind
    | other => exact ended_rcpt toLower rfl rfl (by decide) kind

/-- The same from the random recipient on. -/
theorem rcptStage_ends (at_ : Connection) {prior : Exchange} (word : prior.command ≠ .quit)
    (answered : ¬ prior.Unanswered) :
    Answer.Ends ⟨prior :: (rcptStage toLower net opts domain username at_).log,
      (rcptStage toLower net opts domain username at_).result⟩ := by
  have kept : ¬ prior.Dropped := fun dropped => answered dropped.2
  have goodbye : ∀ e ∈ [quitting net at_], e.command = .quit := fun e member => by
    rw [List.mem_singleton.1 member]
    rfl
  have judged : (classifyReply toLower (randomRcpt net opts domain at_).err).1.Conclusive →
      ¬ (randomRcpt net opts domain at_).Unanswered := fun conclusive =>
    not_unanswered_of_conclusive toLower conclusive rfl
  have real : ¬ (randomRcpt net opts domain at_).Unanswered →
      Answer.Ends ⟨randomRcpt net opts domain at_ ::
          (rcptReal toLower net domain username at_).log,
        (rcptReal toLower net domain username at_).result⟩ :=
    rcptReal_ends toLower net domain username at_ (fun is => by cases is)
  rw [rcptStage]
  split
  · simp only [ask, Answer.done]
    refine Answer.Ends.cons ?_ kept
    cases kind : (classifyReply toLower (net.reply at_
        (.rcpt .random (opts.randomSuffix domain)))).1 with
    | accepted => exact .last (.concluded _ (judged (.inl kind))) (fun is => by cases is) goodbye
    | unknown => exact real (judged (.inr (.inl kind)))
    | full => exact real (judged (.inr (.inr (.inl kind))))
    | disabled => exact real (judged (.inr (.inr (.inr kind))))
    | blocked =>
        refine .last ?_ (fun is => by cases is) goodbye
        change Ended (randomRcpt net opts domain at_) _
        exact ended_rcpt toLower rfl rfl (by decide) kind
    | temporary =>
        refine .last ?_ (fun is => by cases is) goodbye
        change Ended (randomRcpt net opts domain at_) _
        exact ended_rcpt toLower rfl rfl (by decide) kind
    | other =>
        refine .last ?_ (fun is => by cases is) goodbye
        change Ended (randomRcpt net opts domain at_) _
        exact ended_rcpt toLower rfl rfl (by decide) kind
  · exact rcptReal_ends toLower net domain username at_ word answered

/-- **How a conversation ends**, by the last thing said in it. -/
theorem probeOneHost_ends (foreign : Foreign net) (at_ : Connection) :
    (probeOneHost toLower net opts domain username at_).Ends := by
  have quiet : ∀ e ∈ ([] : List Exchange), e.command = .quit := fun _ member =>
    absurd member List.not_mem_nil
  rw [probeOneHost, preliminaries]
  simp only [ask]
  cases dial : net.reply at_ .dial with
  | some err =>
      dsimp only [Answer.done]
      obtain ⟨alone, none_⟩ := foreign _ _ _ dial
      refine .last ?_ (fun is => by cases is) quiet
      refine .onward err none_ alone (fun dropped => dropped.1) fun reply sent => ?_
      cases sent
  | none =>
  refine .cons ?_ (Exchange.not_dropped_of_none rfl)
  dsimp only
  cases greeting : net.reply at_ .greeting with
  | some err =>
      dsimp only [Answer.done]
      refine .last ?_ (fun is => by cases is) quiet
      by_cases sent : err.textproto.isSome = true
      · rw [if_pos sent]
        apply ended_stageError toLower net foreign greeting rfl
        intro silent
        rw [silent] at sent
        cases sent
      · rw [if_neg sent]
        obtain ⟨alone, none_⟩ := foreign _ _ _ greeting
        refine .onward err none_ alone (fun dropped => dropped.1) fun reply is => ?_
        have is : err.textproto = some reply := is
        rw [is] at sent
        exact absurd rfl sent
  | none =>
  refine .cons ?_ (Exchange.not_dropped_of_none rfl)
  dsimp only
  cases hello : net.reply at_ (.hello opts.helloDomain) with
  | some err =>
      exact .last (ended_stageError toLower net foreign hello rfl fun _ => trivial)
        (fun is => by cases is) quiet
  | none =>
  refine .cons ?_ (Exchange.not_dropped_of_none rfl)
  dsimp only
  have mail : (mailStage toLower net opts at_
      (rcptStage toLower net opts domain username at_)).Ends := by
    rw [mailStage]
    simp only [ask]
    cases sent : net.reply at_ (.mail (sender opts)) with
    | some err =>
        exact .last (ended_stageError toLower net foreign sent rfl fun _ => trivial)
          (fun is => by cases is) quiet
    | none =>
        exact rcptStage_ends toLower net opts domain username at_ (fun is => by cases is)
          (Exchange.not_unanswered_of_none rfl)
  rw [tlsStage]
  split
  · simp only [ask]
    cases start : net.reply at_ .startTLS with
    | some err => exact .last (.upgrade _ rfl rfl) (fun is => by cases is) quiet
    | none => exact mail.cons (Exchange.not_dropped_of_none rfl)
  · exact mail

/-- A host ends as its last connection does. -/
theorem probeHost_ends (foreign : Foreign net) (entry : Nat) (addr : String) :
    (probeHost toLower net opts domain username entry addr).Ends ∧
      ∀ err, (probeHost toLower net opts domain username entry addr).result = .error err →
        err.retryWithoutTLS = false := by
  have plain : ∀ err, (probeOneHost toLower net opts domain username ⟨entry, addr, false⟩).result =
      .error err → err.retryWithoutTLS = false := by
    intro err failed
    by_contra retry
    have tls := (preliminaries_retry toLower net opts foreign failed (Bool.eq_true_of_not_eq_false
      retry) fun other is => (rcptStage_final toLower net opts domain username _ other is).2).1
    cases tls
  have first := probeOneHost_ends toLower net opts domain username foreign ⟨entry, addr, true⟩
  have second := probeOneHost_ends toLower net opts domain username foreign ⟨entry, addr, false⟩
  rw [probeHost]
  dsimp only
  split
  · rename_i err failed
    by_cases retry : err.retryWithoutTLS = true
    · rw [if_pos retry]
      refine ⟨?_, plain⟩
      have early : ∀ e ∈ (probeOneHost toLower net opts domain username ⟨entry, addr, true⟩).log,
          ¬ e.Dropped := by
        obtain ⟨before, last, after, log, prior, rest, word, ended⟩ := first
        rw [failed] at ended
        intro e member
        rw [log] at member
        rcases List.mem_append.1 member with member | member
        · exact prior e member
        · rcases List.mem_cons.1 member with rfl | member
          · intro dropped
            cases ended with
            | upgrade _ _ command =>
                have late := dropped.1
                rw [command] at late
                exact late
            | onward _ _ _ early => exact early dropped
            | answered pe => cases retry
            | dropped pe => cases retry
          · intro dropped
            have late := dropped.1
            rw [rest e member] at late
            exact late
      obtain ⟨before, last, after, log, prior, rest, word, ended⟩ := second
      refine ⟨(probeOneHost toLower net opts domain username ⟨entry, addr, true⟩).log ++ before,
        last, after, ?_, ?_, rest, word, ended⟩
      · dsimp only
        rw [log, List.append_assoc]
      · intro e member
        rcases List.mem_append.1 member with member | member
        · exact early e member
        · exact prior e member
    · rw [if_neg retry]
      refine ⟨first, ?_⟩
      intro other is
      rw [failed] at is
      rw [← Except.error.inj is]
      exact Bool.eq_false_of_not_eq_true retry
  · rename_i result is
    refine ⟨first, ?_⟩
    intro err failed
    rw [is] at failed
    cases failed

end Ends

/-! ## The last word of a host -/

theorem lastWord_mem {log : List Exchange} {entry : Nat} {last : Exchange}
    (is : lastWord log entry = some last) : last ∈ log ∧ last.connection.entry = entry := by
  obtain ⟨member, here⟩ := List.mem_filter.1 (List.mem_of_getLast? is)
  exact ⟨member, (of_decide_eq_true here).1⟩

theorem lastWord_before {log later : List Exchange} {entry : Nat}
    (elsewhere : ∀ e ∈ later, e.connection.entry ≠ entry) :
    lastWord (log ++ later) entry = lastWord log entry := by
  have none_ : later.filter (fun e => e.connection.entry = entry ∧ e.command ≠ .quit) = [] :=
    List.filter_eq_nil_iff.2 fun e member both =>
      elsewhere e member (of_decide_eq_true both).1
  rw [lastWord, List.filter_append, none_, List.append_nil]
  rfl

theorem lastWord_after {log later : List Exchange} {entry : Nat}
    (elsewhere : ∀ e ∈ log, e.connection.entry ≠ entry) :
    lastWord (log ++ later) entry = lastWord later entry := by
  have none_ : log.filter (fun e => e.connection.entry = entry ∧ e.command ≠ .quit) = [] :=
    List.filter_eq_nil_iff.2 fun e member both =>
      elsewhere e member (of_decide_eq_true both).1
  rw [lastWord, List.filter_append, none_, List.nil_append]
  rfl

/-- The last word of a conversation is the one it ends with, and only it can have been
dropped. -/
theorem Answer.Ends.lastWord {answer : Answer} {entry : Nat} (ends : answer.Ends)
    (only : ∀ e ∈ answer.log, e.connection.entry = entry) :
    ∃ last, lastWord answer.log entry = some last ∧ Ended last answer.result ∧
      ∀ e ∈ answer.log, e.Dropped → e = last := by
  obtain ⟨before, last, after, log, prior, rest, word, ended⟩ := ends
  refine ⟨last, ?_, ended, ?_⟩
  · have here := only last (by rw [log]; exact List.mem_append_right _ List.mem_cons_self)
    have kept : decide (last.connection.entry = entry ∧ last.command ≠ .quit) = true :=
      decide_eq_true ⟨here, word⟩
    have gone : after.filter (fun e => e.connection.entry = entry ∧ e.command ≠ .quit) = [] :=
      List.filter_eq_nil_iff.2 fun e member both =>
        (of_decide_eq_true both).2 (rest e member)
    have ends : (last :: after).filter
        (fun e => e.connection.entry = entry ∧ e.command ≠ .quit) = [last] := by
      rw [List.filter_cons, if_pos kept, gone]
    rw [Engine.lastWord, log, List.filter_append, ends, List.getLast?_concat]
  · intro e member dropped
    rw [log] at member
    rcases List.mem_append.1 member with member | member
    · exact absurd dropped (prior e member)
    · rcases List.mem_cons.1 member with rfl | member
      · rfl
      · have late := dropped.1
        rw [rest e member] at late
        exact late.elim

/-! ## The loop -/

section Loop

variable (toLower : String → String) (net : Network) (opts : SmtpProbeOptions)
  (domain username : String)

theorem probeTargets_preferred {hosts : List String}
    (targets : probeTargets net opts domain = .ok hosts) (none_ : opts.hosts = []) :
    ∃ records sorted : List MxRecord, net.lookupMX domain = .ok records ∧ sorted.Perm records ∧
      sorted.Pairwise (fun i j => i.pref ≤ j.pref) ∧ hosts = sorted.map fun r => hostAddr r.host := by
  rw [probeTargets, if_neg (not_not_intro none_)] at targets
  split at targets
  · cases targets
  · cases targets
  · rename_i records _ found
    refine ⟨records, _, found, List.mergeSort_perm records _, ?_, (Except.ok.inj targets).symm⟩
    have trans : ∀ a b c : MxRecord, decide (a.pref ≤ b.pref) = true →
        decide (b.pref ≤ c.pref) = true → decide (a.pref ≤ c.pref) = true := by
      intro a b c first second
      have first := of_decide_eq_true first
      have second := of_decide_eq_true second
      exact decide_eq_true (by omega)
    have total : ∀ a b : MxRecord,
        (decide (a.pref ≤ b.pref) || decide (b.pref ≤ a.pref)) = true := by
      intro a b
      rcases Nat.le_total a.pref b.pref with le | le
      · simp [le]
      · simp [le]
    have sorted := List.pairwise_mergeSort trans total records
    exact sorted.imp fun le => of_decide_eq_true le

/-- What the host at the head of the loop contributes: its last word and how it ends. -/
theorem host_lastWord (foreign : Foreign net) (entry : Nat) (addr : String) :
    ∃ last, lastWord (probeHost toLower net opts domain username entry addr).log entry =
        some last ∧
      Ended last (probeHost toLower net opts domain username entry addr).result ∧
      ∀ e ∈ (probeHost toLower net opts domain username entry addr).log, e.Dropped → e = last :=
  (probeHost_ends toLower net opts domain username foreign entry addr).1.lastWord
    fun e member => (probeHost_entry toLower net opts domain username entry addr e member).1

/-- The host is dialled first of all. -/
theorem host_dialled (entry : Nat) (addr : String) :
    ∃ e ∈ (probeHost toLower net opts domain username entry addr).log,
      e.connection = ⟨entry, addr, true⟩ := by
  obtain ⟨after, log, -⟩ :=
    probeOneHost_log toLower net opts domain username ⟨entry, addr, true⟩
  have member : ⟨⟨entry, addr, true⟩, .dial, net.reply ⟨entry, addr, true⟩ .dial⟩ ∈
      (probeOneHost toLower net opts domain username ⟨entry, addr, true⟩).log := by
    rw [log]
    exact List.mem_cons_self
  rw [probeHost]
  dsimp only
  split
  · split
    · exact ⟨_, List.mem_append_left _ member, rfl⟩
    · exact ⟨_, member, rfl⟩
  · exact ⟨_, member, rfl⟩

/-- A connection dropped at a late step ends the probe, in an error that names a reply nobody
sent. -/
theorem probeHosts_of_dropped (foreign : Foreign net) (alive : ∀ entry, net.ctxErr entry = none)
    (hosts : List String) : ∀ (entry : Nat) (lastErr : Option GoError) (e : Exchange),
      e ∈ (probeHosts toLower net opts domain username entry hosts lastErr).log → e.Dropped →
      ∃ pe : ProbeError, pe.code = 0 ∧
        (probeHosts toLower net opts domain username entry hosts lastErr).result =
          .error pe.error ∧
        ∀ k last reply,
          lastWord (probeHosts toLower net opts domain username entry hosts lastErr).log k =
            some last → last.answer = some reply → reply.code ≠ 0 := by
  induction hosts with
  | nil => exact fun entry lastErr e member => absurd member List.not_mem_nil
  | cons addr hosts ih =>
      intro entry lastErr e member dropped
      obtain ⟨word, is, ended, only⟩ :=
        host_lastWord toLower net opts domain username foreign entry addr
      have inHost := fun e member =>
        (probeHost_entry toLower net opts domain username entry addr e member).1
      rw [probeHosts] at member ⊢
      dsimp only at member ⊢
      cases result : (probeHost toLower net opts domain username entry addr).result with
      | ok found =>
          rw [result] at member ended
          dsimp only at member
          obtain rfl := only e member dropped
          cases ended with
          | concluded _ answered => exact absurd dropped.2 answered
      | error err =>
          rw [result] at member ended
          dsimp only at member ⊢
          cases ended with
          | upgrade _ retry =>
              rw [(probeHost_ends toLower net opts domain username foreign entry addr).2 _ result]
                at retry
              cases retry
          | onward _ none_ _ early positive =>
              rw [none_, alive] at member ⊢
              rw [if_neg (by decide)] at member ⊢
              dsimp only at member ⊢
              rcases List.mem_append.1 member with member | member
              · rw [only e member dropped] at dropped
                exact absurd dropped early
              · obtain ⟨pe, code, named, words⟩ := ih (entry + 1) (some err) e member dropped
                refine ⟨pe, code, named, ?_⟩
                intro k last reply is' answer
                by_cases here : k = entry
                · subst here
                  rw [lastWord_before fun e member => ?_, is] at is'
                  · rw [← Option.some.inj is'] at answer
                    have range := positive reply answer
                    omega
                  · have later := probeHosts_entries toLower net opts domain username hosts
                      (k + 1) (some err) e member
                    omega
                · rw [lastWord_after fun e member same => here (same.symm.trans
                    (inHost e member))] at is'
                  exact words k last reply is' answer
          | answered pe reply _ sent =>
              have member : e ∈ (probeHost toLower net opts domain username entry addr).log :=
                member
              rw [only e member dropped] at dropped
              have silent := dropped.2.2
              rw [sent] at silent
              cases silent
          | dropped pe _ silent code =>
              refine ⟨pe, code, rfl, ?_⟩
              intro k last reply is' answer
              have is' : lastWord (probeHost toLower net opts domain username entry addr).log k =
                  some last := is'
              obtain ⟨member, here⟩ := lastWord_mem is'
              have same : k = entry := here.symm.trans (inHost last member)
              rw [same, is] at is'
              rw [← Option.some.inj is', silent.2.2] at answer
              cases answer

/-- A probe that stops at its first host falls back as it should, unless the host was silent. -/
theorem fallsBack_stop {hosts : List String} {entry : Nat} {addr : String} {word : Exchange}
    (preferred : opts.hosts = [] → ∃ records sorted : List MxRecord,
      net.lookupMX domain = .ok records ∧ sorted.Perm records ∧
      sorted.Pairwise (fun i j => i.pref ≤ j.pref) ∧ hosts = sorted.map fun r => hostAddr r.host)
    (is : lastWord (probeHost toLower net opts domain username entry addr).log entry = some word)
    (answered : ¬ word.Unanswered) {result : Except GoError SMTP}
    (honest : ∀ err pe, result = .error err → err.probe = some pe → ∃ reply,
      word.command.stage = some pe.stage ∧ word.answer = some reply ∧ reply.code = pe.code) :
    FallsBack toLower net opts domain username hosts
      ⟨(probeHost toLower net opts domain username entry addr).log, result⟩ := by
  have inHost := fun e member =>
    (probeHost_entry toLower net opts domain username entry addr e member).1
  refine ⟨preferred, ?_, ?_, ?_, ?_⟩
  · intro k last next is' silent
    obtain ⟨member, here⟩ := lastWord_mem is'
    rw [← here, inHost last member, is] at is'
    rw [← Option.some.inj is'] at silent
    exact absurd silent answered
  · intro k last is' _ e member
    obtain ⟨member', here⟩ := lastWord_mem is'
    rw [inHost e member, ← here, inHost last member']
  · rintro k other found ⟨first, member, here⟩ _ e member'
    have same := inHost first member
    rw [here] at same
    rw [inHost e member']
    exact same.ge
  · intro err pe failed named
    obtain ⟨reply, stage, answer, code⟩ := honest err pe failed named
    exact ⟨entry, word, reply, is, stage, answer, code⟩

/-- A probe that goes on from a host falls back as it should if it does from there. -/
theorem fallsBack_cons {full hosts : List String} {entry : Nat} {addr : String} {word : Exchange}
    {err : GoError}
    (failed : (probeHost toLower net opts domain username entry addr).result = .error err)
    (is : lastWord (probeHost toLower net opts domain username entry addr).log entry = some word)
    (positive : ∀ reply, word.answer = some reply → 200 ≤ reply.code ∧ reply.code < 300)
    (here : full.drop entry = addr :: hosts)
    (rest : FallsBack toLower net opts domain username full
      (probeHosts toLower net opts domain username (entry + 1) hosts (some err))) :
    FallsBack toLower net opts domain username full
      ⟨(probeHost toLower net opts domain username entry addr).log ++
          (probeHosts toLower net opts domain username (entry + 1) hosts (some err)).log,
        (probeHosts toLower net opts domain username (entry + 1) hosts (some err)).result⟩ := by
  have inHost := fun e member =>
    (probeHost_entry toLower net opts domain username entry addr e member).1
  have later := probeHosts_entries toLower net opts domain username hosts (entry + 1) (some err)
  have afterwards : ∀ k, k ≠ entry →
      ∀ e ∈ (probeHost toLower net opts domain username entry addr).log,
        e.connection.entry ≠ k := fun k other e member same =>
    other (same.symm.trans (inHost e member))
  have first : lastWord ((probeHost toLower net opts domain username entry addr).log ++
      (probeHosts toLower net opts domain username (entry + 1) hosts (some err)).log) entry =
      some word := by
    rw [lastWord_before fun e member => ?_, is]
    have beyond := later e member
    omega
  refine ⟨rest.preferred, ?_, ?_, ?_, ?_⟩
  · intro k last next is' silent more
    by_cases at_ : k = entry
    · subst at_
      have next_ : hosts[0]? = some next := by
        have shifted : (full.drop k)[1]? = full[k + 1]? := List.getElem?_drop
        rw [← more, ← shifted, here]
        rfl
      obtain ⟨tail, rfl⟩ : ∃ tail, hosts = next :: tail := by
        cases hosts with
        | nil => cases next_
        | cons first tail => exact ⟨tail, by rw [Option.some.inj next_]⟩
      obtain ⟨e, member, same⟩ := host_dialled toLower net opts domain username (k + 1) next
      refine ⟨e, List.mem_append_right _ ?_, by rw [same], by rw [same]⟩
      rcases probeHosts_log toLower net opts domain username (k + 1) next tail (some err) with
        log | ⟨_, log⟩
      · rw [log]
        exact member
      · rw [log]
        exact List.mem_append_left _ member
    · rw [lastWord_after (afterwards k at_)] at is'
      obtain ⟨e, member, same⟩ := rest.onward k last next is' silent more
      exact ⟨e, List.mem_append_right _ member, same⟩
  · intro k last is' no
    by_cases at_ : k = entry
    · rw [at_, first] at is'
      obtain ⟨reply, answer, low, high⟩ := no
      rw [← Option.some.inj is'] at answer
      have range := positive reply answer
      omega
    · rw [lastWord_after (afterwards k at_)] at is'
      obtain ⟨member, same⟩ := lastWord_mem is'
      have beyond := later last member
      intro e member
      rcases List.mem_append.1 member with member | member
      · have in_ := inHost e member
        omega
      · exact rest.refused k last is' no e member
  · rintro k other found ⟨dial, member, same⟩ concluded
    rcases List.mem_append.1 member with member | member
    · obtain ⟨entry_, addr_⟩ : dial.connection.entry = entry ∧ dial.connection.addr = addr :=
        probeHost_entry toLower net opts domain username entry addr dial member
      rw [same] at entry_ addr_
      dsimp only at entry_ addr_
      rw [entry_, addr_, failed] at concluded
      cases concluded
    · have beyond := later dial member
      have at_ : dial.connection.entry = k := by rw [same]
      intro e member'
      rcases List.mem_append.1 member' with member' | member'
      · have in_ := inHost e member'
        omega
      · exact rest.concluded k other found ⟨dial, member, same⟩ concluded e member'
  · intro other pe failed named
    obtain ⟨k, last, reply, is', named⟩ := rest.honest other pe failed named
    obtain ⟨member, same⟩ := lastWord_mem is'
    have beyond := later last member
    exact ⟨k, last, reply, (lastWord_after (afterwards k (by omega))).trans is', named⟩

/-- **With no connection dropped at a late step, the loop falls back as it should.** -/
theorem probeHosts_fallsBack (foreign : Foreign net) (alive : ∀ entry, net.ctxErr entry = none)
    {full : List String}
    (preferred : opts.hosts = [] → ∃ records sorted : List MxRecord,
      net.lookupMX domain = .ok records ∧ sorted.Perm records ∧
      sorted.Pairwise (fun i j => i.pref ≤ j.pref) ∧ full = sorted.map fun r => hostAddr r.host)
    (hosts : List String) : ∀ (entry : Nat) (lastErr : Option GoError),
      full.drop entry = hosts → (∀ err, lastErr = some err → err.probe = none) →
      (∀ e ∈ (probeHosts toLower net opts domain username entry hosts lastErr).log,
        ¬ e.Dropped) →
      FallsBack toLower net opts domain username full
        (probeHosts toLower net opts domain username entry hosts lastErr) := by
  induction hosts with
  | nil =>
      intro entry lastErr _ plain _
      refine ⟨preferred, fun k last next is => ?_, fun k last is => ?_,
        fun k other found early => ?_, fun err pe failed named => ?_⟩
      · cases is
      · cases is
      · obtain ⟨e, member, -⟩ := early
        exact absurd member List.not_mem_nil
      have failed : .error (lastErr.getD { text := "no mail server could be reached" }) =
          (.error err : Except GoError SMTP) := failed
      rw [← Except.error.inj failed] at named
      cases lastErr with
      | none => cases named
      | some other =>
          rw [Option.getD_some, plain other rfl] at named
          cases named
  | cons addr hosts ih =>
      intro entry lastErr here _ kept
      obtain ⟨word, is, ended, -⟩ :=
        host_lastWord toLower net opts domain username foreign entry addr
      rw [probeHosts] at kept ⊢
      dsimp only at kept ⊢
      cases result : (probeHost toLower net opts domain username entry addr).result with
      | ok found =>
          rw [result] at ended
          cases ended with
          | concluded _ answered =>
              exact fallsBack_stop toLower net opts domain username preferred is answered
                fun _ _ is => by cases is
      | error err =>
          rw [result] at kept ended
          dsimp only at kept ⊢
          cases ended with
          | upgrade _ retry =>
              rw [(probeHost_ends toLower net opts domain username foreign entry addr).2 _ result]
                at retry
              cases retry
          | onward _ none_ _ early positive =>
              rw [none_, alive] at kept ⊢
              rw [if_neg (by decide)] at kept ⊢
              dsimp only at kept ⊢
              apply fallsBack_cons toLower net opts domain username result is positive here
              apply ih
              · rw [← List.drop_drop, here, List.drop_one, List.tail_cons]
              · intro other same
                rw [← Option.some.inj same]
                exact none_
              · exact fun e member => kept e (List.mem_append_right _ member)
          | answered pe reply stage sent code =>
              refine fallsBack_stop toLower net opts domain username preferred is
                (fun silent => ?_) fun other pe' failed named => ?_
              · rw [silent.2] at sent
                cases sent
              · rw [← Except.error.inj failed] at named
                cases named
                exact ⟨reply, stage, sent, code⟩
          | dropped pe _ silent =>
              exact absurd silent (kept word (lastWord_mem is).1)

/-- **When a probe falls back as it should**: exactly when no server drops the connection, or lets
it time out, at HELO, MAIL FROM or RCPT. -/
theorem fallsBack_iff (foreign : Foreign net) (alive : ∀ entry, net.ctxErr entry = none)
    {hosts : List String} (targets : probeTargets net opts domain = .ok hosts) :
    FallsBack toLower net opts domain username hosts
        (probeMailbox toLower net opts domain username) ↔
      ∀ e ∈ (probeMailbox toLower net opts domain username).log, ¬ e.Dropped := by
  have is : probeMailbox toLower net opts domain username =
      probeHosts toLower net opts domain username 0 hosts none := by
    rw [probeMailbox, targets]
  rw [is]
  constructor
  · intro falls e member dropped
    obtain ⟨pe, zero, failed, words⟩ := probeHosts_of_dropped toLower net opts domain username
      foreign alive hosts 0 none e member dropped
    obtain ⟨k, last, reply, word, -, answer, code⟩ := falls.honest pe.error pe failed rfl
    exact words k last reply word answer (code.trans zero)
  · exact probeHosts_fallsBack toLower net opts domain username foreign alive
      (probeTargets_preferred net opts domain targets) hosts 0 none rfl (fun _ is => by cases is)

/-- Two servers, of which the first hangs up at HELO. -/
def hangsUp : Network where
  lookupMX := fun _ => .error { text := "no such host" }
  reply := fun at_ command =>
    match at_.entry, command with
    | 0, .hello _ => some { text := "EOF" }
    | _, _ => none
  offersStartTLS := fun _ => false
  ctxErr := fun _ => none

/-- Options of a probe of two servers. -/
def twoHosts : SmtpProbeOptions :=
  { hosts := ["mx1:25", "mx2:25"], helloDomain := "probe.test", fromAddress := "<>"
    catchAll := false, randomSuffix := fun domain => "random@" ++ domain }

/-- **Refuted**: the second server is never tried, and the error speaks of a reply. -/
theorem not_fallsBack :
    Foreign hangsUp ∧ (∀ entry, hangsUp.ctxErr entry = none) ∧
      (probeMailbox asciiToLower hangsUp twoHosts "example.test" "alice").result =
        .error { text := "mail server gave an unexpected reply at HELO (0)"
                 probe := some ⟨"HELO", .other, 0⟩ } ∧
      ¬ FallsBack asciiToLower hangsUp twoHosts "example.test" "alice" ["mx1:25", "mx2:25"]
        (probeMailbox asciiToLower hangsUp twoHosts "example.test" "alice") := by
  refine ⟨fun at_ command err is => ?_, fun _ => rfl, by decide +kernel, fun falls => ?_⟩
  · simp only [hangsUp] at is
    split at is
    · cases is
      exact ⟨rfl, rfl⟩
    · cases is
  have silent : (Exchange.mk ⟨0, "mx1:25", true⟩ (.hello "probe.test")
      (some { text := "EOF" })).Unanswered := ⟨rfl, rfl⟩
  obtain ⟨e, member, second, -⟩ := falls.onward 0 _ "mx2:25" (by decide +kernel) silent rfl
  have never : ∀ e ∈ (probeMailbox asciiToLower hangsUp twoHosts "example.test" "alice").log,
      e.connection.entry = 0 := by decide +kernel
  rw [never e member] at second
  cases second

/-- A server that cannot be dialled is passed over for the next one. -/
def unreachable : Network where
  lookupMX := fun _ => .error { text := "no such host" }
  reply := fun at_ command =>
    match at_.entry, command with
    | 0, .dial => some { text := "connection refused" }
    | _, _ => none
  offersStartTLS := fun _ => false
  ctxErr := fun _ => none

theorem unreachable_foreign : Foreign unreachable := by
  intro at_ command err is
  simp only [unreachable] at is
  split at is
  · cases is
    exact ⟨rfl, rfl⟩
  · cases is

theorem fallsBack_unreachable :
    FallsBack asciiToLower unreachable twoHosts "example.test" "alice" ["mx1:25", "mx2:25"]
      (probeMailbox asciiToLower unreachable twoHosts "example.test" "alice") :=
  (fallsBack_iff asciiToLower unreachable twoHosts "example.test" "alice" unreachable_foreign
    (fun _ => rfl) rfl).2 (by
      have answered : ∀ e ∈
          (probeMailbox asciiToLower unreachable twoHosts "example.test" "alice").log,
          e.command = .dial ∨ e.err = none := by decide +kernel
      intro e member dropped
      rcases answered e member with dial | accepted
      · have late := dropped.1
        rw [dial] at late
        exact late
      · exact Exchange.not_dropped_of_none accepted dropped)

end Loop

end Tozalist.Engine
