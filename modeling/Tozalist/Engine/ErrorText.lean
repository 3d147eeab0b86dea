/-
# Tozalist.Engine.ErrorText -- what the server said must not reach the response

`smtp.error` names a stage, a category and a code.  Two networks that differ in nothing but the
words of the server's replies (`Reworded`) should therefore leave the same string.  They do unless
the last thing said is one of two errors that the probe hands on as they are: a greeting that is
not a reply at all, and a 2xx reply that was not the expected one (`Exchange.Leaky`).

* `probeHosts_alike` -- two such probes say the same things and return the same, or the two raw
  errors of the last reply;
* `errorText_iff` -- the string is independent of the words exactly when no such reply was the
  last;
* `greeting_echoed` -- the refuted pole.
-/
import Tozalist.Engine.Conclusions
import Tozalist.Engine.Verify

namespace Tozalist.Engine

set_option autoImplicit false

/-! ## Replies in other words -/

/-- What is wrong with a line that is not a reply. -/
inductive LineFault where
  | short
  | invalidCode
  deriving DecidableEq, Repr

def LineFault.label : LineFault → String
  | .short => "short response: "
  | .invalidCode => "invalid response code: "

/-- `textproto.ProtocolError`, which carries the malformed line. -/
def protocolError (fault : LineFault) (line : String) : GoError :=
  { text := fault.label ++ line }

/-- The two outcomes of a step differ at most in the words of the server: the same code and kind
in other words, or two lines that are no replies. -/
inductive Reworded (toLower : String → String) : Option GoError → Option GoError → Prop where
  | same (err : Option GoError) : Reworded toLower err err
  | malformed (fault fault' : LineFault) (line line' : String) :
      Reworded toLower (some (protocolError fault line)) (some (protocolError fault' line'))
  | reply (reply reply' : TextprotoError) (code : reply.code = reply'.code)
      (kind : classify toLower reply = classify toLower reply') :
      Reworded toLower (some reply.error) (some reply'.error)

/-- The steps whose replies are put in other words. -/
def Command.Worded : Command → Prop
  | .greeting | .hello _ | .mail _ | .rcpt _ _ => True
  | .dial | .startTLS | .quit => False

/-- The network `net'` is `net` with some replies in other words. -/
structure Rewording (toLower : String → String) (net net' : Network) : Prop where
  lookupMX : net'.lookupMX = net.lookupMX
  offersStartTLS : net'.offersStartTLS = net.offersStartTLS
  ctxErr : net'.ctxErr = net.ctxErr
  unworded : ∀ at_ command, ¬ command.Worded → net'.reply at_ command = net.reply at_ command
  worded : ∀ at_ command, Reworded toLower (net.reply at_ command) (net'.reply at_ command)

section Reworded

variable {toLower : String → String}

theorem Reworded.none_iff {err err' : Option GoError} (words : Reworded toLower err err') :
    err = none ↔ err' = none := by
  cases words with
  | same => exact Iff.rfl
  | malformed => exact iff_of_false nofun nofun
  | reply => exact iff_of_false nofun nofun

/-- The classifier reads the code and the kind, never the words. -/
theorem Reworded.classifyReply_eq {err err' : Option GoError} (words : Reworded toLower err err') :
    classifyReply toLower err' = classifyReply toLower err := by
  cases words with
  | same => rfl
  | malformed => rfl
  | reply reply reply' code kind =>
      show (classify toLower reply', reply'.code) = (classify toLower reply, reply.code)
      rw [code, kind]

end Reworded

/-! ## The raw errors -/

/-- An unexpected 2xx reply. -/
def GoError.Positive (err : GoError) : Prop :=
  ∃ reply, err = TextprotoError.error reply ∧ 200 ≤ reply.code ∧ reply.code < 300

/-- The answer to the step is handed on in the server's words. -/
def Exchange.Leaky (e : Exchange) : Prop :=
  (e.command = .greeting ∧ ∃ fault line, e.err = some (protocolError fault line)) ∨
    e.command.Worded ∧ (∀ recipient address, e.command ≠ .rcpt recipient address) ∧
      ∃ err, e.err = some err ∧ err.Positive

/-- A reply that is handed on, and reaches the caller: the request was still alive. -/
def Exchange.Exposed (net : Network) (e : Exchange) : Prop :=
  e.Leaky ∧ net.ctxErr e.connection.entry = none

section Alike

variable (toLower : String → String) (net net' : Network) (opts : SmtpProbeOptions)
  (domain username : String)

/-- The same step of the other network. -/
def Exchange.reasked (e : Exchange) : Exchange :=
  ⟨e.connection, e.command, net'.reply e.connection e.command⟩

/-- Two results that are the two answers to a step, handed on. -/
def RawAlike (e : Exchange) (result result' : Except GoError SMTP) : Prop :=
  ∃ err err', e.err = some err ∧ (e.reasked net').err = some err' ∧
    result = .error err ∧ result' = .error err' ∧
    err.probe = none ∧ err'.probe = none ∧
    err.retryWithoutTLS = false ∧ err'.retryWithoutTLS = false

/-- Two conversations of the same steps, with the same result unless the last step is leaky. -/
def Alike (answer answer' : Answer) : Prop :=
  answer'.log = answer.log.map (Exchange.reasked net') ∧
    ∃ e, answer.log.getLast? = some e ∧
      (¬ e.Leaky ∧ answer'.result = answer.result ∨
        e.Leaky ∧ RawAlike net' e answer.result answer'.result)

variable {net'}

theorem Alike.cons {log log' : List Exchange} {result result' : Except GoError SMTP}
    {e : Exchange} (alike : Alike net' ⟨log, result⟩ ⟨log', result'⟩) :
    Alike net' ⟨e :: log, result⟩ ⟨e.reasked net' :: log', result'⟩ := by
  obtain ⟨same, last, is, ends⟩ := alike
  refine ⟨congrArg (e.reasked net' :: ·) same, last, ?_, ends⟩
  exact List.getLast?_cons_of_ne_nil (fun nil => by
    rw [show log = [] from nil] at is
    cases is) |>.trans is

theorem Alike.plain {e : Exchange} {result : Except GoError SMTP} (not_ : ¬ e.Leaky) :
    Alike net' ⟨[e], result⟩ ⟨[e.reasked net'], result⟩ :=
  ⟨rfl, e, rfl, .inl ⟨not_, rfl⟩⟩

/-- Of a refused preliminary only the classification is reported. -/
theorem stageError_congr (stage : String) {err err' : GoError}
    (same : classifyReply toLower (some err') = classifyReply toLower (some err))
    (refused : (classifyReply toLower (some err)).1 ≠ .accepted) :
    stageError toLower stage err' = stageError toLower stage err := by
  rw [stageError, stageError, same]
  dsimp only
  rw [if_neg refused, if_neg refused]

/-- **A refused preliminary** is reported alike, save for the one reply that passes for accepted. -/
theorem stageError_alike (stage : String) {err err' : GoError}
    (words : Reworded toLower (some err) (some err')) :
    (err.Positive ∧ err'.Positive ∧ stageError toLower stage err = err ∧
        stageError toLower stage err' = err') ∨
      ¬ err.Positive ∧ stageError toLower stage err' = stageError toLower stage err := by
  have raw : ∀ {other : GoError}, other.Positive → stageError toLower stage other = other := by
    rintro _ ⟨reply, rfl, low, high⟩
    have kind : (classifyReply toLower (some reply.error)).1 = .accepted :=
      (classify_accepted toLower reply).2 ⟨low, high⟩
    rw [stageError]
    exact if_pos kind
  by_cases positive : err.Positive
  · refine .inl ⟨positive, ?_, raw positive, ?_⟩
    all_goals
      have again : err'.Positive := by
        obtain ⟨reply, is, low, high⟩ := positive
        cases words with
        | same => exact ⟨reply, is, low, high⟩
        | malformed fault fault' line line' =>
            have none_ : (protocolError fault line).textproto = some reply := by
              rw [is]
              rfl
            cases none_
        | reply first second code kind =>
            have texts := congrArg GoError.textproto is
            have same : first = reply := Option.some.inj texts
            refine ⟨second, rfl, ?_, ?_⟩
            · rw [← code, same]
              exact low
            · rw [← code, same]
              exact high
    · exact again
    · exact raw again
  · refine .inr ⟨positive, ?_⟩
    cases words with
    | same => rfl
    | malformed => rfl
    | reply reply reply' code kind =>
        apply stageError_congr toLower stage (Reworded.reply reply reply' code kind).classifyReply_eq
        intro accepted
        exact positive ⟨reply, rfl, (classify_accepted toLower reply).1 accepted⟩

theorem GoError.Positive.plain {err : GoError} (positive : err.Positive) :
    err.probe = none ∧ err.retryWithoutTLS = false := by
  obtain ⟨reply, rfl, -⟩ := positive
  exact ⟨rfl, rfl⟩

variable {toLower net opts domain username}

/-- A preliminary other than the greeting that fails. -/
theorem alike_stageError (words : Rewording toLower net net') {at_ : Connection}
    {command : Command} (stage : String) {err : GoError}
    (failed : net.reply at_ command = some err) (worded : command.Worded)
    (rcpt : ∀ recipient address, command ≠ .rcpt recipient address)
    (plain : command = .greeting → ∀ fault line, err ≠ protocolError fault line) :
    ∃ err', net'.reply at_ command = some err' ∧
      Alike net' ⟨[⟨at_, command, some err⟩], .error (stageError toLower stage err)⟩
        ⟨[⟨at_, command, some err'⟩], .error (stageError toLower stage err')⟩ := by
  have reworded := words.worded at_ command
  rw [failed] at reworded
  cases answered : net'.reply at_ command with
  | none =>
      rw [answered] at reworded
      cases reworded.none_iff.2 rfl
  | some err' =>
      rw [answered] at reworded
      have step : Exchange.reasked net' ⟨at_, command, some err⟩ = ⟨at_, command, some err'⟩ := by
        rw [Exchange.reasked, answered]
      refine ⟨err', rfl, ?_, ⟨at_, command, some err⟩, rfl, ?_⟩
      · rw [List.map_singleton, step]
      · rcases stageError_alike toLower stage reworded with
          ⟨positive, positive', raw, raw'⟩ | ⟨refused, same⟩
        · refine .inr ⟨.inr ⟨worded, rcpt, err, rfl, positive⟩, err, err', rfl, ?_, ?_, ?_,
            positive.plain.1, positive'.plain.1, positive.plain.2, positive'.plain.2⟩
          · rw [step]
          · rw [raw]
          · rw [raw']
        · refine .inl ⟨?_, congrArg Except.error same⟩
          rintro (⟨greeting, fault, line, is⟩ | ⟨_, _, other, is, positive⟩)
          · exact plain greeting fault line (Option.some.inj is)
          · rw [← Option.some.inj is] at positive
            exact refused positive

/-- What is said to a recipient counts by its classification only. -/
theorem rcptReal_reworded (words : Rewording toLower net net') (at_ : Connection) :
    rcptReal toLower net' domain username at_ =
      ⟨(rcptReal toLower net domain username at_).log.map (Exchange.reasked net'),
        (rcptReal toLower net domain username at_).result⟩ := by
  rw [rcptReal, rcptReal]
  split
  · rfl
  · simp only [ask, Answer.done]
    rw [(words.worded at_ (.rcpt .real (username ++ "@" ++ domain))).classifyReply_eq]
    rfl

theorem rcptStage_reworded (words : Rewording toLower net net') (at_ : Connection) :
    rcptStage toLower net' opts domain username at_ =
      ⟨(rcptStage toLower net opts domain username at_).log.map (Exchange.reasked net'),
        (rcptStage toLower net opts domain username at_).result⟩ := by
  rw [rcptStage, rcptStage]
  split
  · simp only [ask, Answer.done]
    rw [(words.worded at_ (.rcpt .random (opts.randomSuffix domain))).classifyReply_eq]
    split
    · rfl
    · rw [rcptReal_reworded words]
      rfl
    · rw [rcptReal_reworded words]
      rfl
    · rw [rcptReal_reworded words]
      rfl
    all_goals rfl
  · exact rcptReal_reworded words at_

/-- The last thing said is the goodbye. -/
theorem rcptStage_quits (at_ : Connection) :
    (rcptStage toLower net opts domain username at_).log.getLast? = some (quitting net at_) := by
  have real : ∀ e, (e :: (rcptReal toLower net domain username at_).log).getLast? =
      some (quitting net at_) := by
    intro e
    rw [rcptReal_log, ← List.cons_append, List.getLast?_concat]
  rw [rcptStage]
  split
  · simp only [ask, Answer.done]
    split
    · rfl
    · exact real _
    · exact real _
    · exact real _
    all_goals rfl
  · rw [rcptReal_log, List.getLast?_concat]

theorem quitting_not_leaky (at_ : Connection) : ¬ (quitting net at_).Leaky := by
  rintro (⟨greeting, _⟩ | ⟨worded, _⟩)
  · cases greeting
  · exact worded

theorem alike_rcptStage (words : Rewording toLower net net') (at_ : Connection) :
    Alike net' (rcptStage toLower net opts domain username at_)
      (rcptStage toLower net' opts domain username at_) := by
  rw [rcptStage_reworded words]
  exact ⟨rfl, _, rcptStage_quits at_, .inl ⟨quitting_not_leaky at_, rfl⟩⟩

/-- An accepted step is accepted in both. -/
theorem Rewording.accepted (words : Rewording toLower net net') {at_ : Connection}
    {command : Command} (is : net.reply at_ command = none) : net'.reply at_ command = none := by
  have reworded := words.worded at_ command
  rw [is] at reworded
  exact reworded.none_iff.1 rfl

/-- What becomes of a failed greeting. -/
def greetingError (toLower : String → String) (err : GoError) : GoError :=
  if err.textproto.isSome then stageError toLower "greeting" err else err

theorem alike_greeting (words : Rewording toLower net net') {at_ : Connection} {err : GoError}
    (failed : net.reply at_ .greeting = some err) :
    ∃ err', net'.reply at_ .greeting = some err' ∧
      Alike net' ⟨[⟨at_, .greeting, some err⟩], .error (greetingError toLower err)⟩
        ⟨[⟨at_, .greeting, some err'⟩], .error (greetingError toLower err')⟩ := by
  have reworded := words.worded at_ .greeting
  by_cases sent : err.textproto.isSome = true
  · obtain ⟨err', answered, alike⟩ := alike_stageError words "greeting" failed trivial nofun
      fun _ fault line is => by
        rw [is] at sent
        cases sent
    have sent' : err'.textproto.isSome = true := by
      rw [failed, answered] at reworded
      cases reworded with
      | same => exact sent
      | malformed => cases sent
      | reply => rfl
    refine ⟨err', answered, ?_⟩
    rw [greetingError, greetingError, if_pos sent, if_pos sent']
    exact alike
  · rw [failed] at reworded
    generalize is : net'.reply at_ .greeting = answered at reworded
    have silent : ∀ other : GoError, other.Positive → err ≠ other := by
      rintro _ ⟨reply, rfl, -⟩ rfl
      exact sent rfl
    -- A line that is no reply is passed on, in both.
    have raw : ∀ fault line fault' line', err = protocolError fault line →
        net'.reply at_ .greeting = some (protocolError fault' line') →
        Alike net' ⟨[⟨at_, .greeting, some err⟩], .error (greetingError toLower err)⟩
          ⟨[⟨at_, .greeting, some (protocolError fault' line')⟩],
            .error (greetingError toLower (protocolError fault' line'))⟩ := by
      rintro fault line fault' line' rfl answered'
      have step : Exchange.reasked net' ⟨at_, .greeting, some (protocolError fault line)⟩ =
          ⟨at_, .greeting, some (protocolError fault' line')⟩ := by
        rw [Exchange.reasked, answered']
      refine ⟨by rw [List.map_singleton, step], _, rfl, .inr ⟨.inl ⟨rfl, fault, line, rfl⟩, ?_⟩⟩
      refine ⟨protocolError fault line, protocolError fault' line', rfl, ?_, rfl, rfl, rfl, rfl,
        rfl, rfl⟩
      exact congrArg Exchange.err step
    cases reworded with
    | same =>
        refine ⟨err, rfl, ?_⟩
        by_cases malformed : ∃ fault line, err = protocolError fault line
        · obtain ⟨fault, line, rfl⟩ := malformed
          exact raw fault line fault line rfl is
        · have step : Exchange.reasked net' ⟨at_, .greeting, some err⟩ =
              ⟨at_, .greeting, some err⟩ := by
            rw [Exchange.reasked, is]
          have plain : Alike net' ⟨[⟨at_, .greeting, some err⟩], .error (greetingError toLower err)⟩
              ⟨[Exchange.reasked net' ⟨at_, .greeting, some err⟩],
                .error (greetingError toLower err)⟩ := by
            apply Alike.plain
            rintro (⟨_, fault, line, same⟩ | ⟨_, _, other, same, positive⟩)
            · exact malformed ⟨fault, line, Option.some.inj same⟩
            · exact silent other positive (Option.some.inj same)
          rwa [step] at plain
    | malformed fault fault' line line' =>
        exact ⟨_, rfl, raw fault line fault' line' rfl is⟩
    | reply => exact absurd rfl sent

/-- **Two conversations in other words** take the same steps, to the same result or to the raw
errors of the last one. -/
theorem alike_probeOneHost (words : Rewording toLower net net') (at_ : Connection) :
    Alike net' (probeOneHost toLower net opts domain username at_)
      (probeOneHost toLower net' opts domain username at_) := by
  have go : ∀ {command : Command} {answer answer' : Answer}, net.reply at_ command = none →
      Alike net' answer answer' →
      Alike net' ⟨⟨at_, command, none⟩ :: answer.log, answer.result⟩
        ⟨⟨at_, command, none⟩ :: answer'.log, answer'.result⟩ := by
    intro command answer answer' is alike
    have step : Exchange.reasked net' ⟨at_, command, none⟩ = ⟨at_, command, none⟩ := by
      rw [Exchange.reasked, words.accepted is]
    have consed : Alike net' ⟨⟨at_, command, none⟩ :: answer.log, answer.result⟩
        ⟨Exchange.reasked net' ⟨at_, command, none⟩ :: answer'.log, answer'.result⟩ := alike.cons
    rwa [step] at consed
  have mail : Alike net'
      (mailStage toLower net opts at_ (rcptStage toLower net opts domain username at_))
      (mailStage toLower net' opts at_ (rcptStage toLower net' opts domain username at_)) := by
    rw [mailStage, mailStage]
    simp only [ask]
    cases sent : net.reply at_ (.mail (sender opts)) with
    | some err =>
        obtain ⟨err', answered, alike⟩ :=
          alike_stageError words "MAIL FROM" sent trivial (fun _ _ is => by cases is)
            fun is => by cases is
        rw [answered]
        exact alike
    | none =>
        rw [words.accepted sent]
        exact go sent (alike_rcptStage words at_)
  rw [probeOneHost, probeOneHost, preliminaries, preliminaries]
  simp only [ask]
  cases dial : net.reply at_ .dial with
  | some err =>
      rw [words.unworded at_ .dial id, dial]
      have step : Exchange.reasked net' ⟨at_, .dial, some err⟩ = ⟨at_, .dial, some err⟩ := by
        rw [Exchange.reasked, words.unworded at_ .dial id, dial]
      have plain : Alike net' ⟨[⟨at_, .dial, some err⟩], .error err⟩
          ⟨[Exchange.reasked net' ⟨at_, .dial, some err⟩], .error err⟩ := by
        apply Alike.plain
        rintro (⟨greeting, _⟩ | ⟨worded, _⟩)
        · cases greeting
        · exact worded
      rwa [step] at plain
  | none =>
  rw [words.accepted dial]
  apply go dial
  dsimp only
  cases greeting : net.reply at_ .greeting with
  | some err =>
      obtain ⟨err', answered, alike⟩ := alike_greeting words greeting
      rw [answered]
      exact alike
  | none =>
  rw [words.accepted greeting]
  apply go greeting
  dsimp only
  cases hello : net.reply at_ (.hello opts.helloDomain) with
  | some err =>
      obtain ⟨err', answered, alike⟩ :=
        alike_stageError words "HELO" hello trivial (fun _ _ is => by cases is)
          fun is => by cases is
      rw [answered]
      exact alike
  | none =>
  rw [words.accepted hello]
  apply go hello
  dsimp only
  rw [tlsStage, tlsStage, words.offersStartTLS]
  split
  · simp only [ask]
    rw [words.unworded at_ .startTLS id]
    cases start : net.reply at_ .startTLS with
    | some err =>
        have step : Exchange.reasked net' ⟨at_, .startTLS, some err⟩ =
            ⟨at_, .startTLS, some err⟩ := by
          rw [Exchange.reasked, words.unworded at_ .startTLS id, start]
        have plain : Alike net' ⟨[⟨at_, .startTLS, some err⟩], .error errRetryWithoutTLS⟩
            ⟨[Exchange.reasked net' ⟨at_, .startTLS, some err⟩], .error errRetryWithoutTLS⟩ := by
          apply Alike.plain
          rintro (⟨greeting, _⟩ | ⟨worded, _⟩)
          · cases greeting
          · exact worded
        rwa [step] at plain
    | none => exact go start mail
  · exact mail

/-! ## The hosts -/

theorem Alike.after {log : List Exchange} {answer answer' : Answer}
    (alike : Alike net' answer answer') :
    Alike net' ⟨log ++ answer.log, answer.result⟩
      ⟨log.map (Exchange.reasked net') ++ answer'.log, answer'.result⟩ := by
  obtain ⟨same, last, is, ends⟩ := alike
  refine ⟨?_, last, ?_, ends⟩
  · rw [same, List.map_append]
  · have some_ : answer.log ≠ [] := fun nil => by
      rw [nil] at is
      cases is
    rw [List.getLast?_append_of_ne_nil _ some_, is]

theorem alike_probeHost (words : Rewording toLower net net') (entry : Nat) (addr : String) :
    Alike net' (probeHost toLower net opts domain username entry addr)
      (probeHost toLower net' opts domain username entry addr) := by
  have first : Alike net' (probeOneHost toLower net opts domain username ⟨entry, addr, true⟩)
      (probeOneHost toLower net' opts domain username ⟨entry, addr, true⟩) :=
    alike_probeOneHost words ⟨entry, addr, true⟩
  have second : Alike net' (probeOneHost toLower net opts domain username ⟨entry, addr, false⟩)
      (probeOneHost toLower net' opts domain username ⟨entry, addr, false⟩) :=
    alike_probeOneHost words ⟨entry, addr, false⟩
  obtain ⟨log, last, is, ⟨not_, same⟩ | ⟨leaky, err, err', here, there, failed, failed', plain⟩⟩ :=
    first
  · rw [probeHost, probeHost]
    dsimp only
    rw [same, log]
    cases result : (probeOneHost toLower net opts domain username ⟨entry, addr, true⟩).result with
    | ok found => exact ⟨log, last, is, .inl ⟨not_, same⟩⟩
    | error err =>
        dsimp only
        split
        · exact second.after
        · exact ⟨log, last, is, .inl ⟨not_, same⟩⟩
  · rw [probeHost, probeHost]
    dsimp only
    rw [failed, failed']
    dsimp only
    rw [if_neg (by rw [plain.2.2.1]; decide), if_neg (by rw [plain.2.2.2]; decide)]
    exact ⟨log, last, is, .inr ⟨leaky, err, err', here, there, failed, failed', plain⟩⟩

/-- Two probes of the same steps, with the same result unless the last step is exposed. -/
def AlikeRun (net net' : Network) (log : List Exchange) (result result' : Except GoError SMTP) :
    Prop :=
  (∀ e, log.getLast? = some e → ¬ e.Exposed net) ∧ result' = result ∨
    ∃ e, log.getLast? = some e ∧ e.Exposed net ∧ RawAlike net' e result result'

variable (opts domain username)

/-- **Two runs of the loop in other words.** -/
theorem probeHosts_alike (words : Rewording toLower net net') (hosts : List String) :
    ∀ (entry : Nat) (lastErr lastErr' : Option GoError) (prior : List Exchange),
      AlikeRun net net' prior
        (.error (lastErr.getD { text := "no mail server could be reached" }))
        (.error (lastErr'.getD { text := "no mail server could be reached" })) →
      (probeHosts toLower net' opts domain username entry hosts lastErr').log =
          (probeHosts toLower net opts domain username entry hosts lastErr).log.map
            (Exchange.reasked net') ∧
        AlikeRun net net'
          (prior ++ (probeHosts toLower net opts domain username entry hosts lastErr).log)
          (probeHosts toLower net opts domain username entry hosts lastErr).result
          (probeHosts toLower net' opts domain username entry hosts lastErr').result := by
  induction hosts with
  | nil =>
      intro entry lastErr lastErr' prior alike
      refine ⟨rfl, ?_⟩
      show AlikeRun net net' (prior ++ []) _ _
      rw [List.append_nil]
      exact alike
  | cons addr hosts ih =>
      intro entry lastErr lastErr' prior _
      have host : Alike net' (probeHost toLower net opts domain username entry addr)
          (probeHost toLower net' opts domain username entry addr) :=
        alike_probeHost words entry addr
      obtain ⟨log, last, is, ends⟩ := host
      have inHost : last.connection.entry = entry :=
        (probeHost_entry toLower net opts domain username entry addr last
          (List.mem_of_getLast? is)).1
      have whole : (prior ++ (probeHost toLower net opts domain username entry addr).log).getLast? =
          some last := by
        rw [List.getLast?_append_of_ne_nil, is]
        intro nil
        rw [nil] at is
        cases is
      have kept : ∀ result, ¬ last.Exposed net → AlikeRun net net'
          (prior ++ (probeHost toLower net opts domain username entry addr).log) result result := by
        refine fun result not_ => .inl ⟨fun e same => ?_, rfl⟩
        rw [whole] at same
        rw [← Option.some.inj same]
        exact not_
      rw [probeHosts, probeHosts]
      dsimp only
      rw [words.ctxErr]
      rcases ends with ⟨not_, same⟩ | ⟨leaky, err, err', here, there, failed, failed', plain⟩
      · rw [same]
        have quiet : ¬ last.Exposed net := fun exposed => not_ exposed.1
        cases result : (probeHost toLower net opts domain username entry addr).result with
        | ok found => exact ⟨log, kept _ quiet⟩
        | error err =>
            dsimp only
            split
            · exact ⟨log, kept _ quiet⟩
            · cases net.ctxErr entry with
              | some ended => exact ⟨log, kept _ quiet⟩
              | none =>
                  obtain ⟨rest, run⟩ := ih (entry + 1) (some err) (some err)
                    (prior ++ (probeHost toLower net opts domain username entry addr).log)
                    (kept _ quiet)
                  refine ⟨?_, ?_⟩
                  · dsimp only
                    rw [rest, log, List.map_append]
                  · rw [← List.append_assoc]
                    exact run
      · rw [failed, failed']
        dsimp only
        rw [plain.1, plain.2.1, if_neg (by decide), if_neg (by decide)]
        cases alive : net.ctxErr entry with
        | some ended =>
            refine ⟨log, kept _ fun exposed => ?_⟩
            have none_ := exposed.2
            rw [inHost, alive] at none_
            cases none_
        | none =>
            have exposed : last.Exposed net := ⟨leaky, by rw [inHost]; exact alive⟩
            obtain ⟨rest, run⟩ := ih (entry + 1) (some err) (some err')
              (prior ++ (probeHost toLower net opts domain username entry addr).log)
              (.inr ⟨last, whole, exposed, err, err', here, there, rfl, rfl, plain⟩)
            refine ⟨?_, ?_⟩
            · dsimp only
              rw [rest, log, List.map_append]
            · rw [← List.append_assoc]
              exact run

/-- **Two probes in other words** say the same things and return the same, or the two raw errors
of the last reply. -/
theorem probeMailbox_alike (words : Rewording toLower net net') :
    (probeMailbox toLower net' opts domain username).log =
        (probeMailbox toLower net opts domain username).log.map (Exchange.reasked net') ∧
      AlikeRun net net' (probeMailbox toLower net opts domain username).log
        (probeMailbox toLower net opts domain username).result
        (probeMailbox toLower net' opts domain username).result := by
  have targets : probeTargets net' opts domain = probeTargets net opts domain := by
    rw [probeTargets, probeTargets, words.lookupMX]
  rw [probeMailbox, probeMailbox, targets]
  have start : ∀ result, AlikeRun net net' [] result result := fun result =>
    .inl ⟨fun e none_ => (by cases none_), rfl⟩
  cases probeTargets net opts domain with
  | error err => exact ⟨rfl, start _⟩
  | ok hosts =>
      obtain ⟨log, run⟩ :=
        probeHosts_alike opts domain username words hosts 0 none none [] (start _)
      rw [List.nil_append] at run
      exact ⟨log, run⟩

theorem Rewording.refl (net : Network) : Rewording toLower net net :=
  ⟨rfl, rfl, rfl, fun _ _ _ => rfl, fun _ _ => .same _⟩

/-- What stands in the log is what the network answered. -/
theorem probeMailbox_reply {e : Exchange}
    (member : e ∈ (probeMailbox toLower net opts domain username).log) :
    e.err = net.reply e.connection e.command := by
  have words : Rewording toLower net net := Rewording.refl net
  have same := (probeMailbox_alike opts domain username words).1
  have each := List.map_eq_map_iff.1 ((List.map_id _).trans same) e member
  exact congrArg Exchange.err each

/-! ## The string in the response -/

section Response

variable (toLower randomEmail : String → String) (cfg : Config) (base : Verifier)
  (req : VerifyRequest) (durationMs : Nat)

/-- `smtp.error` of the response, when the engine probes through `net`. -/
def smtpError (net : Network) : Option String :=
  (runVerify toLower (aftershipVerifier toLower randomEmail net cfg base) cfg req
    durationMs).smtp.map fun smtp => smtp.error

/-- The probe of the request. -/
def probed (net : Network) : Answer :=
  probeMailbox toLower net (aftershipOptions cfg randomEmail req.catchAll)
    (base.parseAddress req.email).domain (base.parseAddress req.email).username

/-- The request comes to a probe: it asks for one, it may have one, and the domain has a mail
server for all that is known. -/
structure Probes : Prop where
  valid : (base.parseAddress req.email).valid = true
  asked : req.smtp = true
  enabled : cfg.smtpEnabled = true
  clear : (lookupMX toLower base cfg (base.parseAddress req.email).domain).error = ""
  mx : (lookupMX toLower base cfg (base.parseAddress req.email).domain).hasMx ≠ some false

theorem smtpError_of_valid (valid : (base.parseAddress req.email).valid = true) (net : Network) :
    smtpError toLower randomEmail cfg base req durationMs net =
      (if req.smtp then some (probeSMTP toLower
        (aftershipVerifier toLower randomEmail net cfg base) cfg
        (base.parseAddress req.email) req.catchAll
        (lookupMX toLower base cfg (base.parseAddress req.email).domain)) else none).map
        fun smtp => smtp.error := by
  have valid : ((aftershipVerifier toLower randomEmail net cfg base).parseAddress
      req.email).valid = true := valid
  rw [smtpError, runVerify_of_valid toLower _ cfg durationMs valid]
  rfl

/-- The string is what becomes of the probe's error. -/
theorem smtpError_of_probes (probes : Probes toLower cfg base req) (net : Network) :
    smtpError toLower randomEmail cfg base req durationMs net =
      match (probed toLower randomEmail cfg base req net).result with
      | .error err => some (describeLookupError toLower cfg err)
      | .ok _ => some "" := by
  rw [smtpError_of_valid toLower randomEmail cfg base req durationMs probes.valid,
    if_pos probes.asked, Option.map_some, probeSMTP, if_neg (by rw [probes.enabled]; decide),
    if_neg (not_not_intro probes.clear), if_neg probes.mx]
  have answer : (aftershipVerifier toLower randomEmail net cfg base).checkSMTP
      (base.parseAddress req.email).domain (base.parseAddress req.email).username req.catchAll =
      (probed toLower randomEmail cfg base req net).result.map some := rfl
  rw [answer]
  cases (probed toLower randomEmail cfg base req net).result <;> rfl

/-- A request that comes to no probe learns nothing from the mail servers. -/
theorem smtpError_of_not_probes (not_ : ¬ Probes toLower cfg base req) (net net' : Network) :
    smtpError toLower randomEmail cfg base req durationMs net' =
      smtpError toLower randomEmail cfg base req durationMs net := by
  cases valid : (base.parseAddress req.email).valid with
  | false =>
      have plain : ∀ net, smtpError toLower randomEmail cfg base req durationMs net =
          (if req.smtp then some (smtpResult false false "") else none).map
            fun smtp => smtp.error := by
        intro net
        have invalid : (!((aftershipVerifier toLower randomEmail net cfg base).parseAddress
            req.email).valid) = true := by
          show (!(base.parseAddress req.email).valid) = true
          rw [valid]
          rfl
        rw [smtpError, runVerify]
        dsimp only
        rw [if_pos invalid]
      rw [plain, plain]
  | true =>
      rw [smtpError_of_valid toLower randomEmail cfg base req durationMs valid,
        smtpError_of_valid toLower randomEmail cfg base req durationMs valid]
      cases asked : req.smtp with
      | false => rfl
      | true =>
          cases enabled : cfg.smtpEnabled with
          | false => simp only [probeSMTP, enabled, Bool.not_false, if_true]
          | true =>
              by_cases clear :
                  (lookupMX toLower base cfg (base.parseAddress req.email).domain).error = ""
              · by_cases mx :
                    (lookupMX toLower base cfg (base.parseAddress req.email).domain).hasMx =
                      some false
                · simp only [probeSMTP, clear, mx, ne_eq, not_true, if_false, if_true]
                · exact absurd ⟨valid, asked, enabled, clear, mx⟩ not_
              · simp only [probeSMTP, clear, ne_eq, not_false_eq_true, if_true]

/-- The string carries the words of a raw error: one letter more is seen. -/
theorem describeLookupError_words {text : String} {err err' : GoError}
    (plain : err.deadlineExceeded = false ∧ err.canceled = false ∧ err.probe = none)
    (plain' : err'.deadlineExceeded = false ∧ err'.canceled = false ∧ err'.probe = none)
    (is : err.text = text) (more : err'.text = text ++ "x") :
    describeLookupError toLower cfg err' ≠ describeLookupError toLower cfg err := by
  have form : ∀ {err : GoError},
      err.deadlineExceeded = false ∧ err.canceled = false ∧ err.probe = none →
      describeLookupError toLower cfg err = "timeout: " ++ err.text ∨
        describeLookupError toLower cfg err = "lookup failed: " ++ err.text := by
    rintro err ⟨deadline, canceled, probe⟩
    rw [describeLookupError, deadline, canceled, probe, if_neg (by decide), if_neg (by decide)]
    dsimp only
    split
    · exact .inl rfl
    · exact .inr rfl
  intro same
  have letters := congrArg String.toList same
  have sizes := congrArg List.length letters
  rcases form plain with first | first <;> rcases form plain' with second | second <;>
    rw [first, second, is, more] at letters sizes
  · simp at sizes
  · simp at letters
  · simp at letters
  · simp at sizes

/-- One step answered otherwise. -/
def Network.reword (net : Network) (e : Exchange) (err : GoError) : Network :=
  { net with
    reply := fun at_ command =>
      if at_ = e.connection ∧ command = e.command then some err else net.reply at_ command }

theorem Network.reword_reply (net : Network) (e : Exchange) (err : GoError) :
    (net.reword e err).reply e.connection e.command = some err :=
  if_pos ⟨rfl, rfl⟩

theorem rewording_reword {e : Exchange} {err : GoError}
    (words : Reworded toLower (net.reply e.connection e.command) (some err))
    (worded : e.command.Worded) : Rewording toLower net (net.reword e err) := by
  refine ⟨rfl, rfl, rfl, ?_, ?_⟩
  · intro at_ command not_
    refine if_neg fun here => not_ ?_
    rw [here.2]
    exact worded
  · intro at_ command
    by_cases here : at_ = e.connection ∧ command = e.command
    · rw [here.1, here.2, net.reword_reply]
      exact words
    · have same : (net.reword e err).reply at_ command = net.reply at_ command := if_neg here
      rw [same]
      exact .same _

/-- A leaky answer can be put in one letter more. -/
theorem Exchange.Leaky.longer {e : Exchange} (leaky : e.Leaky) :
    ∃ err err', e.err = some err ∧ Reworded toLower (some err) (some err') ∧ e.command.Worded ∧
      (err.deadlineExceeded = false ∧ err.canceled = false ∧ err.probe = none) ∧
      (err'.deadlineExceeded = false ∧ err'.canceled = false ∧ err'.probe = none) ∧
      err'.text = err.text ++ "x" := by
  rcases leaky with ⟨greeting, fault, line, is⟩ | ⟨worded, _, _, is, reply, rfl, range⟩
  · refine ⟨_, protocolError fault (line ++ "x"), is, .malformed .., ?_, ⟨rfl, rfl, rfl⟩,
      ⟨rfl, rfl, rfl⟩, ?_⟩
    · rw [greeting]
      exact trivial
    · exact (String.append_assoc ..).symm
  · refine ⟨_, TextprotoError.error ⟨reply.code, reply.msg ++ "x"⟩, is, .reply _ _ rfl ?_, worded,
      ⟨rfl, rfl, rfl⟩, ⟨rfl, rfl, rfl⟩, ?_⟩
    · exact ((classify_accepted toLower _).2 range).trans
        ((classify_accepted toLower ⟨reply.code, reply.msg ++ "x"⟩).2 range).symm
    · exact (String.append_assoc ..).symm

/-- **When `smtp.error` is independent of the server's words**: exactly when the request comes to
no probe, or the probe does not end on a greeting that is no reply, or on an unexpected 2xx reply,
while the request is alive. -/
theorem errorText_iff (net : Network) :
    (∀ net', Rewording toLower net net' →
        smtpError toLower randomEmail cfg base req durationMs net' =
          smtpError toLower randomEmail cfg base req durationMs net) ↔
      (Probes toLower cfg base req → ∀ e,
        (probed toLower randomEmail cfg base req net).log.getLast? = some e →
        ¬ e.Exposed net) := by
  constructor
  · intro same probes e last exposed
    obtain ⟨err, err', is, words, worded, plain, plain', more⟩ := exposed.1.longer toLower
    have here : net.reply e.connection e.command = some err :=
      (probeMailbox_reply _ _ _ (List.mem_of_getLast? last)).symm.trans is
    have rewording : Rewording toLower net (net.reword e err') :=
      rewording_reword toLower (by rw [here]; exact words) worded
    have equal := same _ rewording
    rw [smtpError_of_probes toLower randomEmail cfg base req durationMs probes,
      smtpError_of_probes toLower randomEmail cfg base req durationMs probes] at equal
    obtain ⟨-, run⟩ := probeMailbox_alike (aftershipOptions cfg randomEmail req.catchAll)
      (base.parseAddress req.email).domain (base.parseAddress req.email).username rewording
    rcases run with ⟨quiet, _⟩ | ⟨f, last', _, first, second, a, b, failed, failed', _⟩
    · exact quiet e last exposed
    · have same_ : f = e := Option.some.inj (last'.symm.trans last)
      subst same_
      have first_ : first = err := Option.some.inj (a.symm.trans is)
      have second_ : second = err' :=
        Option.some.inj (b.symm.trans (net.reword_reply f err'))
      have one : (probed toLower randomEmail cfg base req net).result = .error err :=
        failed.trans (congrArg Except.error first_)
      have two : (probed toLower randomEmail cfg base req (net.reword f err')).result =
          .error err' :=
        failed'.trans (congrArg Except.error second_)
      rw [one, two] at equal
      exact describeLookupError_words toLower cfg plain plain' rfl more (Option.some.inj equal)
  · intro quiet net' words
    by_cases probes : Probes toLower cfg base req
    · obtain ⟨-, run⟩ := probeMailbox_alike (aftershipOptions cfg randomEmail req.catchAll)
        (base.parseAddress req.email).domain (base.parseAddress req.email).username words
      rcases run with ⟨_, same⟩ | ⟨e, last, exposed, _⟩
      · have same : (probed toLower randomEmail cfg base req net').result =
            (probed toLower randomEmail cfg base req net).result := same
        rw [smtpError_of_probes toLower randomEmail cfg base req durationMs probes,
          smtpError_of_probes toLower randomEmail cfg base req durationMs probes, same]
      · exact absurd exposed (quiet probes e last)
    · exact smtpError_of_not_probes toLower randomEmail cfg base req durationMs probes net net'

/-- One mail server, which greets with a line that is no reply. -/
def garbled (line : String) : Network where
  lookupMX := fun _ => .ok [⟨"mx.example.test.", 10⟩]
  reply := fun _ command =>
    match command with
    | .greeting => some (protocolError .short line)
    | _ => none
  offersStartTLS := fun _ => false
  ctxErr := fun _ => none

/-- Every address is valid, and every domain has a mail server. -/
def known : Verifier where
  parseAddress := fun _ => ⟨"alice", "example.test", true⟩
  isFreeDomain := fun _ => false
  isRoleAccount := fun _ => false
  isDisposable := fun _ => false
  checkMX := fun _ => .ok ⟨true, [some ⟨"mx.example.test.", 10⟩]⟩
  checkSMTP := fun _ _ _ => .ok none

def probingConfig : Config := ⟨true, "probe.test", "<>", "15s"⟩

/-- **Refuted**: a greeting that is no reply is echoed, word for word. -/
theorem greeting_echoed :
    Rewording asciiToLower (garbled "mx ready") (garbled "no service for 203.0.113.9") ∧
      smtpError asciiToLower id probingConfig known ⟨"alice@example.test", true, false⟩ 7
          (garbled "no service for 203.0.113.9") =
        some "lookup failed: short response: no service for 203.0.113.9" ∧
      smtpError asciiToLower id probingConfig known ⟨"alice@example.test", true, false⟩ 7
          (garbled "no service for 203.0.113.9") ≠
        smtpError asciiToLower id probingConfig known ⟨"alice@example.test", true, false⟩ 7
          (garbled "mx ready") := by
  refine ⟨⟨rfl, rfl, rfl, ?_, ?_⟩, by decide +kernel, by decide +kernel⟩
  · intro at_ command not_
    cases command with
    | greeting => exact absurd trivial not_
    | dial => rfl
    | hello _ => rfl
    | startTLS => rfl
    | mail _ => rfl
    | rcpt _ _ => rfl
    | quit => rfl
  · intro at_ command
    cases command with
    | greeting => exact .malformed ..
    | dial => exact .same _
    | hello _ => exact .same _
    | startTLS => exact .same _
    | mail _ => exact .same _
    | rcpt _ _ => exact .same _
    | quit => exact .same _

end Response

end Alike

end Tozalist.Engine
