/-
# Tozalist.Engine.Reply -- what the engine reads into one SMTP reply

`classifyReply` of `services/engine/smtpprobe.go`, with the error values it
inspects.  A reply carries a code and a free text; the classifier looks at the
code, at an RFC 3463 enhanced status code when the text begins with one, and at
words anywhere in the lower-cased text.  The 4xx arm and the 5xx arm test these in
different orders.

`strings.ToLower` depends on the Unicode tables and is a parameter: nothing below
assumes anything about it.
-/
import Mathlib.Data.List.Infix
import Mathlib.Tactic.Common

namespace Tozalist.Engine

set_option autoImplicit false

/-- `replyKind`: the coarse classification of one SMTP reply. -/
inductive ReplyKind where
  | accepted
  | unknown
  | full
  | disabled
  | blocked
  | temporary
  | other
  deriving DecidableEq, Repr

/-- `*textproto.Error`: a reply whose code was not the expected one. -/
structure TextprotoError where
  code : Nat
  msg : String
  deriving DecidableEq, Repr

/-- `*probeError`: a probe that could not reach a conclusion. -/
structure ProbeError where
  stage : String
  kind : ReplyKind
  code : Nat
  deriving DecidableEq, Repr

/-- A Go error value, by what `err.Error()`, `errors.Is` and `errors.As` answer on
it and on the chain it wraps. -/
structure GoError where
  text : String
  /-- `errors.Is(err, context.DeadlineExceeded)` -/
  deadlineExceeded : Bool := false
  /-- `errors.Is(err, context.Canceled)` -/
  canceled : Bool := false
  /-- `errors.Is(err, errRetryWithoutTLS)` -/
  retryWithoutTLS : Bool := false
  /-- `errors.As(err, *net.DNSError)`, with its `IsNotFound` -/
  dnsNotFound : Option Bool := none
  /-- `errors.As(err, *textproto.Error)` -/
  textproto : Option TextprotoError := none
  /-- `errors.As(err, *probeError)` -/
  probe : Option ProbeError := none
  deriving DecidableEq, Repr

/-- The error `net/textproto` returns for an unexpected reply. -/
def TextprotoError.error (reply : TextprotoError) : GoError :=
  { text := toString reply.code ++ " " ++ reply.msg, textproto := some reply }

/-! ## The enhanced status code -/

/-- The three fields of a leading `class.subject.detail`. -/
structure EnhancedCode where
  class_ : Char
  subject : List Char
  detail : List Char
  deriving DecidableEq, Repr

/-- RE2's `\s`. -/
def isRegexpSpace (c : Char) : Bool :=
  c = ' ' || c = '\t' || c = '\n' || c = '\r' || c.toNat = 12

/-- RE2's `\d`. -/
def isRegexpDigit (c : Char) : Bool :=
  '0' ≤ c && c ≤ '9'

/-- `enhancedCodePattern`: `^\s*(\d)\.(\d+)\.(\d+)`. -/
def enhancedCodePattern (msg : List Char) : Option EnhancedCode :=
  match msg.dropWhile isRegexpSpace with
  | class_ :: '.' :: rest =>
      let subject := rest.takeWhile isRegexpDigit
      match rest.dropWhile isRegexpDigit with
      | '.' :: tail =>
          let detail := tail.takeWhile isRegexpDigit
          if isRegexpDigit class_ && !subject.isEmpty && !detail.isEmpty then
            some ⟨class_, subject, detail⟩
          else none
      | _ => none
  | _ => none

/-- `m[1] + "." + m[2] + "." + m[3]`. -/
def EnhancedCode.text (code : EnhancedCode) : List Char :=
  code.class_ :: '.' :: (code.subject ++ '.' :: code.detail)

/-- The local `enhanced` of `classifyReply`: empty when the pattern does not match. -/
def enhanced (msg : String) : List Char :=
  match enhancedCodePattern msg.toList with
  | some code => code.text
  | none => []

/-! ## The word lists -/

def blockedWords : List String :=
  ["blocked", "blacklist", "block list", "spamhaus", "denied", "policy", "spam", "reputation",
    "not permitted", "banned"]

def fullWords : List String :=
  ["full", "quota", "over limit", "storage"]

def disabledWords : List String :=
  ["disabled", "suspended", "inactive", "deactivated", "locked"]

def unknownWords : List String :=
  ["does not exist", "no such user", "unknown user", "user unknown", "no such recipient",
    "recipient rejected", "not found", "invalid recipient", "unknown recipient", "no mailbox",
    "bad destination"]

/-- The local `contains`: some word of the list occurs in the lower-cased text. -/
def contains (msg : String) (words : List String) : Bool :=
  words.any fun w => w.toList <:+: msg.toList

/-- `strings.HasPrefix(enhanced, prefix)`. -/
def hasPrefix (text : List Char) (prefix_ : String) : Bool :=
  prefix_.toList <+: text

/-- `strings.ToLower` on ASCII text, for concrete replies. -/
def asciiToLower (text : String) : String :=
  String.ofList (text.toList.map Char.toLower)

/-! ## The classifier -/

/-- The `switch` of `classifyReply` on a reply with a code and a text. -/
def classify (toLower : String → String) (reply : TextprotoError) : ReplyKind :=
  let msg := toLower reply.msg
  let enhanced := enhanced reply.msg
  if 200 ≤ reply.code ∧ reply.code < 300 then .accepted
  else if 400 ≤ reply.code ∧ reply.code < 500 then
    if hasPrefix enhanced "4.2.2" || contains msg fullWords then .full
    -- Some servers answer unknown recipients with the temporary form.
    else if hasPrefix enhanced "4.1.1" || contains msg unknownWords then .unknown
    else .temporary
  else if hasPrefix enhanced "5.7." || contains msg blockedWords then .blocked
  else if hasPrefix enhanced "5.2.2" || contains msg fullWords then .full
  else if hasPrefix enhanced "5.2.1" || contains msg disabledWords then .disabled
  else if hasPrefix enhanced "5.1." || contains msg unknownWords || reply.code = 550 ||
      reply.code = 551 || reply.code = 553 then .unknown
  else .other

/-- `classifyReply`; a nil error is a 2xx reply. -/
def classifyReply (toLower : String → String) : Option GoError → ReplyKind × Nat
  | none => (.accepted, 250)
  | some err =>
      match err.textproto with
      | none => (.other, 0)
      | some reply => (classify toLower reply, reply.code)

/-- The kinds that report something about the mailbox rather than about the probe. -/
def ReplyKind.Conclusive (kind : ReplyKind) : Prop :=
  kind = .accepted ∨ kind = .unknown ∨ kind = .full ∨ kind = .disabled

instance (kind : ReplyKind) : Decidable kind.Conclusive :=
  inferInstanceAs (Decidable (_ ∨ _))

/-- A reply concludes nothing exactly when it is blocked, temporary or other. -/
theorem ReplyKind.not_conclusive {kind : ReplyKind} :
    ¬ kind.Conclusive ↔ kind = .blocked ∨ kind = .temporary ∨ kind = .other := by
  cases kind <;> simp [Conclusive]

/-- In the 4xx arm the two word lists and two enhanced codes decide; nothing there
looks for a policy code. -/
theorem classify_temporary (toLower : String → String) {reply : TextprotoError}
    (low : 400 ≤ reply.code) (high : reply.code < 500) :
    ¬ (classify toLower reply).Conclusive ↔
      hasPrefix (enhanced reply.msg) "4.2.2" = false ∧
        hasPrefix (enhanced reply.msg) "4.1.1" = false ∧
        contains (toLower reply.msg) fullWords = false ∧
        contains (toLower reply.msg) unknownWords = false := by
  have notAccepted : ¬ (200 ≤ reply.code ∧ reply.code < 300) := by omega
  simp only [classify, if_neg notAccepted, if_pos (And.intro low high)]
  cases hasPrefix (enhanced reply.msg) "4.2.2" <;>
    cases hasPrefix (enhanced reply.msg) "4.1.1" <;>
    cases contains (toLower reply.msg) fullWords <;>
    cases contains (toLower reply.msg) unknownWords <;>
    simp [ReplyKind.Conclusive]

/-- In the 5xx arm a policy code is tested first, whatever the text says. -/
theorem classify_policy (toLower : String → String) {reply : TextprotoError}
    (high : 500 ≤ reply.code) (policy : hasPrefix (enhanced reply.msg) "5.7." = true) :
    classify toLower reply = .blocked := by
  have notAccepted : ¬ (200 ≤ reply.code ∧ reply.code < 300) := by omega
  have notTemporary : ¬ (400 ≤ reply.code ∧ reply.code < 500) := by omega
  simp only [classify, if_neg notAccepted, if_neg notTemporary, policy, Bool.true_or, if_true]

end Tozalist.Engine
