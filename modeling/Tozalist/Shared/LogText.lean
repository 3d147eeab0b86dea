/-
# Tozalist.Shared.LogText -- the text part of the log redactor

Free text is scrubbed in passes: addresses degrade to `domain#hash`, shaped secrets and the values
of labelled secrets become the one censor token.  The patterns are run by `Theory.Regex`; SHA-256
comes from the platform and is a parameter.

* `matches_email` -- the words of the address pattern;
* `occurs_redactEmailsInText` -- when an address is left after the first pass, exactly: `Chained`;
* `occurs_redactSecretsInText` -- the later passes leave no address that the first did not.

What the first pass leaves is two addresses that share a middle: of `a@b.co@c.de` it reads
`a@b.co`, and the hash that it writes after `b.co#` is the local part of a new address `…@c.de`.
-/
import Tozalist.Theory.Regex
import Tozalist.Js.Text

namespace Tozalist.Shared.LogText

open Tozalist.Theory Tozalist.Theory.Regex

set_option autoImplicit false

/-! ## Letters -/

/-- `[A-Za-z0-9]` -/
def isAlnum (u : UInt16) : Bool := (48 ≤ u && u ≤ 57) || (65 ≤ u && u ≤ 90) || (97 ≤ u && u ≤ 122)

/-- `\w` -/
def isWord (u : UInt16) : Bool := isAlnum u || u == 95

/-- `[\w.+-]` -/
def isLocal (u : UInt16) : Bool := isWord u || u == 46 || u == 43 || u == 45

/-- `[\w-]` -/
def isHost (u : UInt16) : Bool := isWord u || u == 45

/-- Lower case, for ASCII. -/
def lower (u : UInt16) : UInt16 := if 65 ≤ u && u ≤ 90 then u + 32 else u

/-- Two letters are one without regard to case (the `i` flag joins no other unit to an ASCII
letter). -/
def sameLetter (u v : UInt16) : Bool := lower u == lower v

/-- One of the letters of a text. -/
def oneOf (letters : String) (u : UInt16) : Bool := (Js.ofString letters).contains u

/-! ## Patterns -/

/-- A text in a pattern. -/
def literal (text : String) : Regex UInt16 := word (· == ·) (Js.ofString text)

/-- A text in a pattern with the `i` flag. -/
def literalI (text : String) : Regex UInt16 := word sameLetter (Js.ofString text)

/-- `\b` -/
def boundary : Regex UInt16 := .edge isWord

/-- `EMAIL_PATTERN`: `[A-Za-z0-9][\w.+-]*@[A-Za-z0-9][\w-]*(?:\.[A-Za-z0-9][\w-]*)+`. -/
def emailPattern : Regex UInt16 :=
  inOrder [.one isAlnum, .many (.one isLocal), .one (· == 64), .one isAlnum, .many (.one isHost),
    plus (inOrder [.one (· == 46), .one isAlnum, .many (.one isHost)])]

/-- `SECRET_TEXT_PATTERNS`, in order. -/
def secretTextPatterns : List (Regex UInt16) :=
  [ inOrder [boundary, literal "tzl_live_", atLeast 8 (.one isAlnum), boundary],
    inOrder [boundary, literal "whsec_", atLeast 8 (.one isAlnum), boundary],
    inOrder [boundary, literal "AKIA",
      exactly 16 (.one fun u => (48 ≤ u && u ≤ 57) || (65 ≤ u && u ≤ 90)), boundary],
    inOrder [boundary, literal "gh", .one (oneOf "pousr"), literal "_",
      atLeast 20 (.one isAlnum), boundary],
    inOrder [boundary, literal "xox", .one (oneOf "baprs"), literal "-",
      atLeast 10 (.one fun u => isAlnum u || u == 45), boundary],
    inOrder [boundary, literal "AIza", exactly 35 (.one isHost), boundary],
    inOrder [literal "-----BEGIN ",
      optional (anyOf [literal "RSA ", literal "EC ", literal "OPENSSH ", literal "PGP "]),
      literal "PRIVATE KEY-----", .few (.one fun _ => true), literal "-----END ",
      .many (.one fun u => u != 45), literal "-----"],
    inOrder [boundary, anyOf [literalI "Bearer", literalI "Basic"], plus (.one Js.isSpace),
      atLeast 8 (.one fun u => isAlnum u || oneOf "._~+/=-" u)] ]

/-- `[ _-]?` -/
def separator : Regex UInt16 := optional (.one (oneOf " _-"))

/-- `s?`, with the `i` flag. -/
def plural : Regex UInt16 := optional (literalI "s")

/-- `SECRET_LABEL` -/
def secretLabel : Regex UInt16 :=
  anyOf
    [ inOrder [literalI "password", plural],
      literalI "passwd",
      literalI "pwd",
      inOrder [literalI "api", separator, literalI "key", plural],
      inOrder [literalI "access", separator, literalI "key", plural],
      inOrder [literalI "secret", separator, literalI "key", plural],
      inOrder [literalI "webhook", separator, literalI "secret", plural],
      inOrder [literalI "client", separator, literalI "secret", plural],
      inOrder [literalI "secret", plural],
      inOrder [literalI "token", plural],
      literalI "authorization",
      literalI "auth",
      inOrder [literalI "cookie", plural],
      inOrder [literalI "mfa", optional (inOrder [separator, literalI "code", plural])],
      inOrder [literalI "recovery", separator, literalI "code", plural],
      inOrder [literalI "credential", plural],
      inOrder [literalI "private", separator, literalI "key", plural] ]

/-- `\S` -/
def nonSpace : Regex UInt16 := .one fun u => !Js.isSpace u

/-- What `LABELLED_DELIMITED` keeps: the label and its `=` or `:`.  The value is `\S+`. -/
def labelledDelimited : Regex UInt16 :=
  inOrder [boundary, secretLabel, .many (.one Js.isSpace), .one (oneOf ":="),
    .many (.one Js.isSpace)]

/-- What `LABELLED_WHITESPACE` keeps: the label and the gap.  The value is `\S{6,}`. -/
def labelledWhitespace : Regex UInt16 :=
  inOrder [boundary, secretLabel, plus (.one Js.isSpace)]

/-! ## The passes -/

/-- SHA-256 as `digest('hex')` gives it. -/
structure Digest where
  hex : JsString → JsString
  length_hex : ∀ text, (hex text).length = 64
  hex_digits : ∀ text, ∀ u ∈ hex text, (48 ≤ u && u ≤ 57) || (97 ≤ u && u ≤ 102)

/-- `CENSOR` -/
def censor : JsString := Js.ofString "[REDACTED]"

/-- `redactEmail`: `person@example.com` becomes `example.com#a1b2c3d4e5`. -/
def redactEmail (sha256 : Digest) (email : JsString) : JsString :=
  match Js.lastIndexOf email 64 with
  | some at_ => email.drop (at_ + 1) ++ 35 :: (sha256.hex (email.take at_)).take 10
  -- `slice(0, -1)` and `slice(0)`, where there is no `@`
  | none => email ++ 35 :: (sha256.hex email.dropLast).take 10

/-- `redactEmailsInText` -/
def redactEmailsInText (sha256 : Digest) (text : JsString) : JsString :=
  replaceAll (replaced emailPattern (redactEmail sha256)) text

/-- `redactSecretsInText` -/
def redactSecretsInText (sha256 : Digest) (text : JsString) : JsString :=
  let out := redactEmailsInText sha256 text
  let out := secretTextPatterns.foldl
    (fun out pattern => replaceAll (replaced pattern fun _ => censor) out) out
  let out := replaceAll (replacedValue labelledDelimited (plus nonSpace) censor) out
  replaceAll (replacedValue labelledWhitespace (atLeast 6 nonSpace) censor) out

/-! ## Addresses -/

/-- A word of two classes: one letter of the first, then any of the second. -/
def Headed (p q : UInt16 → Bool) (m : JsString) : Prop :=
  ∃ x rest, m = x :: rest ∧ p x = true ∧ ∀ u ∈ rest, q u = true

def Local (m : JsString) : Prop := Headed isAlnum isLocal m

def Label (m : JsString) : Prop := Headed isAlnum isHost m

/-- Labels, at least two, with dots between them. -/
def Domain (m : JsString) : Prop :=
  ∃ first dotted, m = first ++ List.flatten dotted ∧ Label first ∧ dotted ≠ [] ∧
    ∀ part ∈ dotted, ∃ label, part = 46 :: label ∧ Label label

/-- The words of `EMAIL_PATTERN`. -/
def Address (m : JsString) : Prop := ∃ l d, m = l ++ 64 :: d ∧ Local l ∧ Domain d

theorem matches_headed {p q : UInt16 → Bool} {rest : List (Regex UInt16)} {m : JsString} :
    Matches (inOrder (.one p :: .many (.one q) :: rest)) m ↔
      ∃ a b, m = a ++ b ∧ Headed p q a ∧ Matches (inOrder rest) b := by
  constructor
  · rintro ⟨_, _, rfl, ⟨x, holds, rfl⟩, middle, b, rfl, all, words⟩
    exact ⟨x :: middle, b, rfl, ⟨x, middle, rfl, holds, matches_many_one.1 all⟩, words⟩
  · rintro ⟨_, b, rfl, ⟨x, middle, rfl, holds, all⟩, words⟩
    exact ⟨[x], middle ++ b, rfl, ⟨x, holds, rfl⟩, middle, b, rfl, matches_many_one.2 all, words⟩

theorem matches_dotted {m : JsString} :
    Matches (inOrder [.one (· == 46), .one isAlnum, .many (.one isHost)]) m ↔
      ∃ label, m = 46 :: label ∧ Label label := by
  constructor
  · rintro ⟨_, b, rfl, ⟨x, dot, rfl⟩, words⟩
    obtain ⟨label, _, rfl, headed, rfl⟩ := matches_headed.1 words
    exact ⟨label, by simp [eq_of_beq dot], headed⟩
  · rintro ⟨label, rfl, headed⟩
    refine ⟨[46], label, rfl, ⟨46, rfl, rfl⟩, matches_headed.2 ⟨label, [], by simp, headed, rfl⟩⟩

/-- **The address pattern reads addresses.** -/
theorem matches_email {m : JsString} : Matches emailPattern m ↔ Address m := by
  rw [emailPattern, matches_headed]
  constructor
  · rintro ⟨l, _, rfl, local_, _, b, rfl, ⟨x, sign, rfl⟩, words⟩
    obtain ⟨first, _, rfl, label, _, _, rfl, ⟨one, _, rfl, dotted, parts, rfl, others⟩, rfl⟩ :=
      matches_headed.1 words
    refine ⟨l, first ++ (one :: parts).flatten, by simp [eq_of_beq sign], local_,
      first, one :: parts, rfl, label, List.cons_ne_nil _ _, ?_⟩
    intro part member
    rcases List.mem_cons.1 member with rfl | old
    · exact matches_dotted.1 dotted
    · exact matches_dotted.1 (others part old)
  · rintro ⟨l, _, rfl, local_, first, dotted, rfl, label, some_, parts⟩
    refine ⟨l, _, rfl, local_, [64], first ++ dotted.flatten, rfl, ⟨64, rfl, rfl⟩, ?_⟩
    refine matches_headed.2 ⟨first, dotted.flatten, rfl, label, dotted.flatten, [], by simp, ?_, rfl⟩
    cases dotted with
    | nil => exact absurd rfl some_
    | cons one dotted =>
        obtain ⟨here, others⟩ := List.forall_mem_cons.1 parts
        exact ⟨one, dotted.flatten, rfl, matches_dotted.2 here, dotted, rfl,
          fun part member => matches_dotted.2 (others part member)⟩

theorem isHost_of_isAlnum {u : UInt16} (alnum : isAlnum u = true) : isHost u = true := by
  rw [isHost, isWord, alnum, Bool.true_or, Bool.true_or]

theorem isLocal_of_isHost {u : UInt16} (host : isHost u = true) : isLocal u = true := by
  simp only [isHost, isLocal, Bool.or_eq_true] at host ⊢
  tauto

theorem isLocal_of_isAlnum {u : UInt16} (alnum : isAlnum u = true) : isLocal u = true :=
  isLocal_of_isHost (isHost_of_isAlnum alnum)

theorem Headed.all {p q : UInt16 → Bool} {m : JsString} (headed : Headed p q m)
    (sub : ∀ u, p u = true → q u = true) : ∀ u ∈ m, q u = true := by
  obtain ⟨x, rest, rfl, head, all⟩ := headed
  exact List.forall_mem_cons.2 ⟨sub x head, all⟩

theorem Local.all {m : JsString} (local_ : Local m) : ∀ u ∈ m, isLocal u = true :=
  Headed.all local_ fun _ => isLocal_of_isAlnum

theorem Local.append {m more : JsString} (local_ : Local m) (all : ∀ u ∈ more, isLocal u = true) :
    Local (m ++ more) := by
  obtain ⟨x, rest, rfl, head, rest_⟩ := local_
  exact ⟨x, rest ++ more, rfl, head, List.forall_mem_append.2 ⟨rest_, all⟩⟩

/-- What a local part begins with is one. -/
theorem Local.left {m more : JsString} (local_ : Local (m ++ more)) (some_ : m ≠ []) : Local m := by
  obtain ⟨x, rest, is, head, all⟩ := local_
  cases m with
  | nil => exact absurd rfl some_
  | cons y m =>
      cases is
      exact ⟨x, m, rfl, head, fun u member => all u (List.mem_append_left _ member)⟩

theorem local_of_alnum {m : JsString} (some_ : m ≠ []) (all : ∀ u ∈ m, isAlnum u = true) :
    Local m := by
  cases m with
  | nil => exact absurd rfl some_
  | cons x m =>
      obtain ⟨head, rest⟩ := List.forall_mem_cons.1 all
      exact ⟨x, m, rfl, head, fun u member => isLocal_of_isAlnum (rest u member)⟩

/-- A domain could be a local part. -/
theorem Domain.local {m : JsString} (domain : Domain m) : Local m := by
  obtain ⟨first, dotted, rfl, ⟨x, rest, rfl, head, host⟩, _, parts⟩ := domain
  apply Local.append ⟨x, rest, rfl, head, fun u member => isLocal_of_isHost (host u member)⟩
  intro u member
  obtain ⟨part, listed, inside⟩ := List.mem_flatten.1 member
  obtain ⟨label, rfl, labelled⟩ := parts part listed
  rcases List.mem_cons.1 inside with rfl | inside
  · decide
  · exact isLocal_of_isHost (Headed.all labelled (fun _ => isHost_of_isAlnum) u inside)

theorem Local.ne_nil {m : JsString} (local_ : Local m) : m ≠ [] := by
  obtain ⟨x, rest, rfl, _⟩ := local_
  exact List.cons_ne_nil x rest

theorem Local.free {m : JsString} (local_ : Local m) {x : UInt16} (other : isLocal x = false) :
    x ∉ m := by
  intro member
  have is := local_.all x member
  rw [other] at is
  cases is

/-- An address has only local letters and its sign. -/
theorem address_free {x : UInt16} (other : isLocal x = false) (sign : x ≠ 64) :
    ∀ m, Address m → x ∉ m := by
  rintro _ ⟨l, d, rfl, local_, domain⟩ member
  rcases List.mem_append.1 member with inside | inside
  · exact local_.free other inside
  · rcases List.mem_cons.1 inside with is | inside
    · exact sign is
    · exact domain.local.free other inside

theorem address_sign {m : JsString} (address : Address m) : (64 : UInt16) ∈ m := by
  obtain ⟨l, d, rfl, _⟩ := address
  exact List.mem_append_right _ List.mem_cons_self

/-! ## What the first pass leaves -/

/-- A local part and its sign are right before a place. -/
def EndsAtSign (before : JsString) : Prop :=
  ∃ l rest, Local l ∧ before = 64 :: (l.reverse ++ rest)

/-- A sign and a domain are right after a place, with no more than `_`, `.`, `+` and `-` between. -/
def Follows (after : JsString) : Prop :=
  ∃ r d rest, (∀ u ∈ r, isLocal u = true ∧ isAlnum u = false) ∧ Domain d ∧
    after = r ++ 64 :: (d ++ rest)

theorem Follows.append_right {after : JsString} (follows : Follows after) (more : JsString) :
    Follows (after ++ more) := by
  obtain ⟨r, d, rest, letters, domain, rfl⟩ := follows
  exact ⟨r, d, rest ++ more, letters, domain, by simp⟩

/-- What a match of the address pattern has around it. -/
def Shares (found : Place UInt16 × Place UInt16) : Prop :=
  EndsAtSign found.1.before ∨ Follows found.2.after

/-- **Addresses that share a middle**: a match of the address pattern has a local part and a sign
right before it, or a sign and a domain right after it. -/
def Chained (text : JsString) : Prop :=
  ∃ found ∈ allMatches emailPattern text, Shares found

/-- No address begins in the gap `g`, before the rest `t`. -/
def Unmatched (g t : JsString) : Prop :=
  ∀ a b, g = a ++ b → b ≠ [] → ∀ m rest, Address m → b ++ t ≠ m ++ rest

/-- A letter of the middle is in the middle. -/
theorem split_middle {x : UInt16} {h g k p q : JsString} (left : x ∉ h) (right : x ∉ k)
    (is : h ++ g ++ k = p ++ x :: q) :
    ∃ g₁ g₂, g = g₁ ++ x :: g₂ ∧ p = h ++ g₁ ∧ q = g₂ ++ k := by
  rw [List.append_assoc] at is
  have inner : ∃ p', p = h ++ p' ∧ g ++ k = p' ++ x :: q := by
    rcases List.append_eq_append_iff.1 is with ⟨p', rfl, rest⟩ | ⟨h', rfl, rest⟩
    · exact ⟨p', rfl, rest⟩
    · cases h' with
      | nil => exact ⟨[], by simp, by simpa using rest.symm⟩
      | cons y h' =>
          cases rest
          exact absurd (List.mem_append_right _ List.mem_cons_self) left
  obtain ⟨p', rfl, rest⟩ := inner
  rcases List.append_eq_append_iff.1 rest with ⟨k', rfl, rest'⟩ | ⟨g', rfl, rest'⟩
  · rw [rest'] at right
    exact absurd (List.mem_append_right _ List.mem_cons_self) right
  · cases g' with
    | nil =>
        rw [List.nil_append] at rest'
        rw [← rest'] at right
        exact absurd List.mem_cons_self right
    | cons y g₂ =>
        cases rest'
        exact ⟨p', g₂, rfl, rfl, rfl⟩

/-- A local part that ends where `h ++ g` does is in `g`, or all of `g` continues it. -/
theorem local_tail {h g a l : JsString} (local_ : Local l) (is : h ++ g = a ++ l) :
    (∃ a', g = a' ++ l) ∨ h ≠ [] ∧ ∀ u ∈ g, isLocal u = true := by
  rcases List.append_eq_append_iff.1 is with ⟨a', _, rfl⟩ | ⟨h', rfl, rfl⟩
  · exact .inl ⟨a', rfl⟩
  · cases h' with
    | nil => exact .inl ⟨[], rfl⟩
    | cons y h' =>
        exact .inr ⟨by simp, fun u member => local_.all u (List.mem_append_right _ member)⟩

/-- Of local letters, either none begins a local part or a local part ends them. -/
theorem local_suffix {g : JsString} (all : ∀ u ∈ g, isLocal u = true) :
    (∀ u ∈ g, isLocal u = true ∧ isAlnum u = false) ∨ ∃ a l, g = a ++ l ∧ Local l := by
  by_cases some_ : ∃ u ∈ g, isAlnum u = true
  · obtain ⟨u, member, alnum⟩ := some_
    obtain ⟨a, b, rfl⟩ := List.append_of_mem member
    exact .inr ⟨a, u :: b, rfl, u, b, rfl, alnum, fun v inside =>
      all v (List.mem_append_right _ (List.mem_cons_of_mem u inside))⟩
  · refine .inl fun u member => ⟨all u member, ?_⟩
    by_contra alnum
    exact some_ ⟨u, member, by simpa using alnum⟩

/-- The gap ends with the sign of a local part, which may reach into what is open before it. -/
def Signed (h g : JsString) : Prop :=
  ∃ g₁, g = g₁ ++ [64] ∧
    ((∃ a l, g₁ = a ++ l ∧ Local l) ∨ h ≠ [] ∧ ∀ u ∈ g₁, isLocal u = true)

/-- No local part ends the gap before a match: it would have been read with it. -/
theorem Unmatched.not_local {a b l₀ d₀ rest₀ : JsString} (local₀ : Local l₀) (domain₀ : Domain d₀)
    (unmatched : Unmatched (a ++ b) (l₀ ++ 64 :: (d₀ ++ rest₀))) : ¬ Local b := by
  intro local_
  refine unmatched a b rfl local_.ne_nil (b ++ l₀ ++ 64 :: d₀) rest₀
    ⟨b ++ l₀, d₀, rfl, local_.append local₀.all, domain₀⟩ ?_
  simp

section Pending

/- What was written for the last match and is still open is `h`: nothing, or the hash. -/
variable {h g t : JsString} (alnum : ∀ u ∈ h, isAlnum u = true)
include alnum

theorem sign_not_mem : (64 : UInt16) ∉ h := by
  intro member
  have is := alnum 64 member
  revert is
  decide

/-- **An address ends in the gap** only by continuing what is open. -/
theorem occurs_gap (unmatched : Unmatched g t) :
    Occurs Address (h ++ g) ↔ h ≠ [] ∧ Follows g := by
  constructor
  · rintro ⟨a, _, b, is, l, d, rfl, local_, domain⟩
    have is' : h ++ g ++ [] = (a ++ l) ++ 64 :: (d ++ b) := by
      rw [List.append_nil, is]
      simp only [List.append_assoc, List.cons_append]
    obtain ⟨g₁, g₂, rfl, front, rest⟩ := split_middle (sign_not_mem alnum) List.not_mem_nil is'
    rw [List.append_nil] at rest
    -- a local part inside the gap would have been read
    have outside : ∀ a' l', g₁ = a' ++ l' → ¬ Local l' := by
      rintro a' l' rfl inside
      refine unmatched a' (l' ++ 64 :: g₂) (by simp) (by simp) (l' ++ 64 :: d) (b ++ t)
        ⟨l', d, rfl, inside, domain⟩ ?_
      rw [← rest]
      simp
    rcases local_tail local_ front.symm with ⟨a', within⟩ | ⟨open_, all⟩
    · exact absurd local_ (outside a' l within)
    · rcases local_suffix all with none_ | ⟨a', l', within, inside⟩
      · exact ⟨open_, g₁, d, b, none_, domain, by rw [rest]⟩
      · exact absurd inside (outside a' l' within)
  · rintro ⟨open_, r, d, rest, letters, domain, rfl⟩
    refine ⟨[], h ++ r ++ 64 :: d, rest, by simp, h ++ r, d, rfl, ?_, domain⟩
    exact (local_of_alnum open_ alnum).append fun u member => (letters u member).1

/-- **An address ends in the next domain** only with a sign right before the match. -/
theorem occurs_domain {l₀ d₀ rest₀ : JsString} (local₀ : Local l₀) (domain₀ : Domain d₀)
    (unmatched : Unmatched g (l₀ ++ 64 :: (d₀ ++ rest₀))) :
    Occurs Address (h ++ g ++ d₀) ↔ Occurs Address (h ++ g) ∨ Signed h g := by
  constructor
  · rintro ⟨a, _, b, is, l, d, rfl, local_, domain⟩
    have is' : h ++ g ++ d₀ = (a ++ l) ++ 64 :: (d ++ b) := by
      rw [is]
      simp only [List.append_assoc, List.cons_append]
    obtain ⟨g₁, g₂, rfl, front, rest⟩ :=
      split_middle (sign_not_mem alnum) (domain₀.local.free (by decide)) is'
    rcases List.append_eq_append_iff.1 rest with ⟨g₂', rfl, _⟩ | ⟨d', rfl, within⟩
    · -- the whole of it is in the gap
      refine .inl ⟨a, l ++ 64 :: d, g₂', ?_, l, d, rfl, local_, domain⟩
      rw [← List.append_assoc, ← front]
      simp
    · cases g₂ with
      | nil =>
          refine .inr ⟨g₁, rfl, ?_⟩
          rcases local_tail local_ front.symm with ⟨a', within'⟩ | reaching
          · exact .inl ⟨a', l, within', local_⟩
          · exact .inr reaching
      | cons x g₂ =>
          rw [List.append_cons] at unmatched
          exact absurd (domain.local.left (List.cons_ne_nil x g₂))
            (unmatched.not_local local₀ domain₀)
  · rintro (here | ⟨g₁, rfl, signed⟩)
    · exact here.append_right d₀
    · rcases signed with ⟨a, l, rfl, local_⟩ | ⟨open_, all⟩
      · exact ⟨h ++ a, l ++ 64 :: d₀, [], by simp, l, d₀, rfl, local_, domain₀⟩
      · exact ⟨[], h ++ g₁ ++ 64 :: d₀, [], by simp, h ++ g₁, d₀, rfl,
          (local_of_alnum open_ alnum).append all, domain₀⟩

end Pending

/-- What was read is `past`; it ends with the domain whose hash is open. -/
def Past (h past : JsString) : Prop :=
  h = [] ∧ past = [] ∨ h ≠ [] ∧ ∃ d q, Domain d ∧ past = d.reverse ++ q

theorem endsAtSign_iff {h g past : JsString} (open_ : Past h past) :
    EndsAtSign (g.reverse ++ past) ↔ Signed h g := by
  constructor
  · rintro ⟨l, rest, local_, is⟩
    rcases List.eq_nil_or_concat g with rfl | ⟨g₁, x, rfl⟩
    · rcases open_ with ⟨_, rfl⟩ | ⟨_, d, q, domain, rfl⟩
      · cases is
      · rcases List.eq_nil_or_concat d with rfl | ⟨d', y, rfl⟩
        · exact absurd rfl domain.local.ne_nil
        · simp only [List.reverse_nil, List.nil_append, List.concat_eq_append, List.reverse_append,
            List.reverse_singleton, List.cons_append, List.cons.injEq] at is
          rw [is.1] at domain
          exact absurd (by simp) (domain.local.free (x := 64) (by decide))
    · rw [List.concat_eq_append, List.reverse_append, List.reverse_singleton, List.append_assoc,
        List.singleton_append, List.cons.injEq] at is
      obtain ⟨rfl, inner⟩ := is
      refine ⟨g₁, List.concat_eq_append, ?_⟩
      rcases List.append_eq_append_iff.1 inner with ⟨a, is, rfl⟩ | ⟨a, is, _⟩
      · have whole : l = a.reverse ++ g₁ := by
          rw [← List.reverse_reverse l, is, List.reverse_append, List.reverse_reverse]
        subst whole
        cases a with
        | nil => exact .inl ⟨[], g₁, rfl, local_⟩
        | cons y a =>
            refine .inr ⟨?_, fun u member => local_.all u (List.mem_append_right _ member)⟩
            rcases open_ with ⟨_, none_⟩ | ⟨some_, _⟩
            · cases none_
            · exact some_
      · refine .inl ⟨a.reverse, l, ?_, local_⟩
        rw [← List.reverse_reverse g₁, is, List.reverse_append, List.reverse_reverse]
  · rintro ⟨g₁, rfl, ⟨a, l, rfl, local_⟩ | ⟨some_, all⟩⟩
    · exact ⟨l, a.reverse ++ past, local_, by simp⟩
    · rcases open_ with ⟨none_, _⟩ | ⟨_, d, q, domain, rfl⟩
      · exact absurd none_ some_
      · exact ⟨d ++ g₁, q, domain.local.append all, by simp⟩

/-- What follows an open hash is in the gap, or its sign is right before the match. -/
theorem follows_match {h g l₀ d₀ rest₀ : JsString} (local₀ : Local l₀) (domain₀ : Domain d₀)
    (unmatched : Unmatched g (l₀ ++ 64 :: (d₀ ++ rest₀))) (some_ : h ≠ [])
    (follows : Follows (g ++ (l₀ ++ 64 :: (d₀ ++ rest₀)))) : Follows g ∨ Signed h g := by
  obtain ⟨r, d, rest, letters, domain, is⟩ := follows
  obtain ⟨x, l, rfl, head, _⟩ := id local₀
  rcases List.append_eq_append_iff.1 is with ⟨r', rfl, within⟩ | ⟨g', rfl, within⟩
  · -- the letters before the sign would reach into the match
    cases r' with
    | nil =>
        have sign : x = 64 := (List.cons.inj within).1
        rw [sign] at head
        exact absurd head (by decide)
    | cons y r' =>
        obtain rfl : x = y := (List.cons.inj within).1
        have other := (letters x (List.mem_append_right _ List.mem_cons_self)).2
        rw [head] at other
        cases other
  · cases g' with
    | nil =>
        have sign : 64 = x := (List.cons.inj within).1
        rw [← sign] at head
        exact absurd head (by decide)
    | cons y g₂ =>
        obtain ⟨rfl, inner⟩ := List.cons.inj within
        rcases List.append_eq_append_iff.1 inner.symm with ⟨d', rfl, _⟩ | ⟨d', rfl, _⟩
        · cases g₂ with
          | nil => exact .inr ⟨r, rfl, .inr ⟨some_, fun u member => (letters u member).1⟩⟩
          | cons z g₂ =>
              rw [List.append_cons] at unmatched
              exact absurd (domain.local.left (List.cons_ne_nil z g₂))
                (unmatched.not_local local₀ domain₀)
        · exact .inl ⟨r, d, d', letters, domain, by simp⟩

theorem redactEmail_address (sha256 : Digest) {l d : JsString} (domain : Domain d) :
    redactEmail sha256 (l ++ 64 :: d) = d ++ 35 :: (sha256.hex l).take 10 := by
  rw [redactEmail, Js.lastIndexOf_append_cons (domain.local.free (by decide))]
  simp [List.drop_append]

theorem Digest.isAlnum_hex (sha256 : Digest) (text : JsString) :
    ∀ u ∈ (sha256.hex text).take 10, isAlnum u = true := by
  intro u member
  have digit := sha256.hex_digits text u (List.mem_of_mem_take member)
  simp only [isAlnum, Bool.or_eq_true, Bool.and_eq_true, decide_eq_true_eq,
    UInt16.le_iff_toNat_le] at digit ⊢
  rcases digit with decimal | ⟨from_, to_⟩
  · exact .inl (.inl decimal)
  · exact .inr ⟨from_, Nat.le_trans to_ (by decide)⟩

theorem Digest.hex_ne_nil (sha256 : Digest) (text : JsString) : (sha256.hex text).take 10 ≠ [] := by
  intro none_
  have length := congrArg List.length none_
  rw [List.length_take, sha256.length_hex] at length
  cases length

/-- No address begins where the pattern finds none. -/
theorem no_address {c : Place UInt16} (none_ : first emailPattern c = none) :
    ∀ m rest, Address m → c.after ≠ m ++ rest := by
  intro m rest address is
  have read := run_complete emailPattern (by simp [emailPattern, Edgeless, inOrder, plus]) c m rest
    (matches_email.2 address) is
  rw [first, List.head?_eq_none_iff] at none_
  rw [none_] at read
  cases read

theorem unmatched_nil (t : JsString) : Unmatched [] t :=
  fun _ _ is some_ => absurd (List.append_eq_nil_iff.1 is.symm).2 some_

/-- The gap grows by a letter at which the pattern finds nothing. -/
theorem Unmatched.snoc {g rest : JsString} {x : UInt16} (unmatched : Unmatched g (x :: rest))
    (none_ : ∀ m more, Address m → x :: rest ≠ m ++ more) : Unmatched (g ++ [x]) rest := by
  intro a b is some_ m more address
  rcases List.eq_nil_or_concat b with rfl | ⟨b', y, rfl⟩
  · exact absurd rfl some_
  · rw [List.concat_eq_append, ← List.append_assoc] at is
    obtain ⟨rfl, same⟩ := List.append_inj' is rfl
    obtain rfl : x = y := (List.cons.inj same).1
    rw [List.concat_eq_append, List.append_assoc, List.singleton_append]
    cases b' with
    | nil => exact none_ m more address
    | cons z b' => exact unmatched a (z :: b') rfl (List.cons_ne_nil z b') m more address

/-- **Before the hash of a match** an address is left when a sign is right before the match, or
when an open hash is continued. -/
theorem occurs_before_match {h g past l₀ d₀ rest₀ : JsString} (alnum : ∀ u ∈ h, isAlnum u = true)
    (open_ : Past h past) (local₀ : Local l₀) (domain₀ : Domain d₀)
    (unmatched : Unmatched g (l₀ ++ 64 :: (d₀ ++ rest₀))) :
    Occurs Address (h ++ g ++ d₀) ↔ EndsAtSign (g.reverse ++ past) ∨
      h ≠ [] ∧ Follows (g ++ (l₀ ++ 64 :: (d₀ ++ rest₀))) := by
  rw [occurs_domain alnum local₀ domain₀ unmatched, occurs_gap alnum unmatched,
    endsAtSign_iff open_]
  constructor
  · rintro (⟨some_, follows⟩ | signed)
    · exact .inr ⟨some_, follows.append_right _⟩
    · exact .inl signed
  · rintro (signed | ⟨some_, follows⟩)
    · exact .inr signed
    · rcases follows_match local₀ domain₀ unmatched some_ follows with inside | signed
      · exact .inl ⟨some_, inside⟩
      · exact .inr signed

/-- The pass from a place on, with `h` open and the gap `g` since. -/
theorem occurs_rewrite (sha256 : Digest) (n : ℕ) : ∀ (c : Place UInt16) (h g past : JsString),
    c.after.length ≤ n → (∀ u ∈ h, isAlnum u = true) → Past h past →
    c.before = g.reverse ++ past → Unmatched g c.after →
    (Occurs Address (h ++ g ++ rewrite (replaced emailPattern (redactEmail sha256)) n c) ↔
      (∃ found ∈ matchesFrom emailPattern n c, Shares found) ∨ h ≠ [] ∧ Follows (g ++ c.after)) := by
  induction n with
  | zero =>
      intro c h g past enough alnum _ _ unmatched
      have over_ : c.after = [] := List.eq_nil_of_length_eq_zero (Nat.le_zero.1 enough)
      rw [rewrite, matchesFrom, over_, List.append_nil, List.append_nil, occurs_gap alnum unmatched]
      simp
  | succ n ih =>
      intro c h g past enough alnum open_ before unmatched
      rw [rewrite, matchesFrom, replaced]
      cases found : first emailPattern c with
      | some d =>
          obtain ⟨m, reads, word⟩ := run_sound emailPattern c d (List.mem_of_mem_head? found)
          obtain ⟨l, dom, rfl, local_, domain⟩ := matches_email.1 word
          have after : c.after = l ++ 64 :: (dom ++ d.after) := by
            rw [reads.1, List.append_assoc, List.cons_append]
          have shorter : d.after.length ≤ n := by
            rw [after, List.length_append, List.length_cons, List.length_append] at enough
            omega
          have open' : Past ((sha256.hex l).take 10) d.before := by
            refine .inr ⟨sha256.hex_ne_nil l, dom, 64 :: (l.reverse ++ c.before), domain, ?_⟩
            rw [reads.2]
            simp [Place.past]
          have onward := ih d _ [] d.before shorter (sha256.isAlnum_hex l) open' rfl
            (unmatched_nil d.after)
          rw [List.append_nil, List.nil_append, and_iff_right (sha256.hex_ne_nil l)] at onward
          rw [after] at unmatched ⊢
          simp only [Option.map_some, between_of_reads reads, redactEmail_address sha256 domain,
            List.append_assoc, List.cons_append]
          rw [← List.append_assoc, ← List.append_assoc,
            occurs_append_cons (address_free (by decide) (by decide)),
            occurs_before_match alnum open_ local_ domain unmatched, onward, ← before]
          simp only [List.mem_cons, exists_eq_or_imp, Shares]
          constructor
          · rintro ((sign | continued) | later | follows)
            · exact .inl (.inl (.inl sign))
            · exact .inr continued
            · exact .inl (.inr later)
            · exact .inl (.inl (.inr follows))
          · rintro (((sign | follows) | later) | continued)
            · exact .inl (.inl sign)
            · exact .inr (.inr follows)
            · exact .inr (.inl later)
            · exact .inl (.inr continued)
      | none =>
          rw [Option.map_none]
          dsimp only
          cases after : c.after with
          | nil =>
              rw [after] at unmatched
              dsimp only
              rw [List.append_nil, List.append_nil, occurs_gap alnum unmatched]
              simp
          | cons x rest =>
              have none_ := no_address found
              rw [after] at unmatched none_ enough
              have onward := ih ⟨x :: c.before, rest⟩ h (g ++ [x]) past
                (Nat.le_of_succ_le_succ enough) alnum open_ (by simp [before])
                (unmatched.snoc none_)
              rw [← List.append_assoc] at onward
              simpa only [List.append_assoc, List.singleton_append] using onward

/-- **What the first pass leaves**: an address, when and only when matches share a middle. -/
theorem occurs_redactEmailsInText (sha256 : Digest) (text : JsString) :
    Occurs Address (redactEmailsInText sha256 text) ↔ Chained text := by
  have whole := occurs_rewrite sha256 text.length ⟨[], text⟩ [] [] [] (Nat.le_refl _) nofun
    (.inl ⟨rfl, rfl⟩) rfl (unmatched_nil text)
  rw [List.nil_append, List.nil_append] at whole
  rw [redactEmailsInText, replaceAll, whole, Chained, allMatches]
  simp

/-- Matches that share a middle have two signs. -/
theorem two_signs {text : JsString} (chained : Chained text) : 2 ≤ text.count 64 := by
  obtain ⟨⟨c, d⟩, member, shares⟩ := chained
  obtain ⟨same, m, reads, word⟩ := matchesFrom_sound emailPattern _ _ _ member
  obtain ⟨l, dom, rfl, _⟩ := matches_email.1 word
  have whole : text = c.before.reverse ++ (l ++ 64 :: dom ++ d.after) := by
    rw [← reads.1]
    exact same.symm
  rw [whole]
  rcases shares with ⟨l', rest, _, before⟩ | ⟨r, d', rest, _, _, after⟩
  · rw [show c.before = _ from before]
    simp only [List.count_append, List.count_reverse, List.count_cons_self]
    omega
  · rw [show d.after = _ from after]
    simp only [List.count_append, List.count_cons_self]
    omega

/-! ## The later passes -/

/-- A replacement that keeps the beginning of what it reads, and censors the rest. -/
def Censors (find : Place UInt16 → Option (JsString × Place UInt16)) : Prop :=
  ∀ c new d, find c = some (new, d) → ∃ kept read, new = kept ++ censor ∧
    c.after = kept ++ (read ++ d.after)

theorem censors_replaced (pattern : Regex UInt16) : Censors (replaced pattern fun _ => censor) := by
  intro c new d found
  obtain ⟨e, is, same⟩ := Option.map_eq_some_iff.1 found
  cases same
  obtain ⟨m, reads, _⟩ := run_sound pattern c d (List.mem_of_mem_head? is)
  exact ⟨[], m, rfl, reads.1⟩

theorem censors_replacedValue (kept value : Regex UInt16) :
    Censors (replacedValue kept value censor) := by
  intro c new d found
  obtain ⟨⟨e, f⟩, is, same⟩ := Option.map_eq_some_iff.1 found
  cases same
  obtain ⟨e', listed, inside⟩ := List.mem_flatMap.1 (List.mem_of_mem_head? is)
  obtain ⟨f', listed', same⟩ := List.mem_map.1 inside
  cases same
  obtain ⟨m, reads, _⟩ := run_sound kept c e listed
  obtain ⟨v, reads', _⟩ := run_sound value e d listed'
  exact ⟨m, v, by rw [between_of_reads reads], by rw [reads.1, reads'.1]⟩

/-- No address is in the censor token. -/
theorem not_occurs_censored : ¬ Occurs Address (Js.ofString "REDACTED") := by
  rintro ⟨a, m, b, is, address⟩
  have inside : (64 : UInt16) ∈ Js.ofString "REDACTED" := by
    rw [is]
    exact List.mem_append_left _ (List.mem_append_right _ (address_sign address))
  revert inside
  decide

theorem occurs_censor {a b : JsString} :
    Occurs Address (a ++ censor ++ b) ↔ Occurs Address a ∨ Occurs Address b := by
  have parts : a ++ censor ++ b = a ++ 91 :: (Js.ofString "REDACTED" ++ 93 :: b) := by
    rw [List.append_assoc]
    rfl
  rw [parts, occurs_append_cons (address_free (by decide) (by decide)),
    occurs_append_cons (address_free (by decide) (by decide))]
  have none_ := not_occurs_censored
  tauto

/-- A censoring pass makes no address. -/
theorem occurs_censored {find : Place UInt16 → Option (JsString × Place UInt16)}
    (censors : Censors find) (n : ℕ) : ∀ (c : Place UInt16) (w : JsString),
      Occurs Address (w ++ rewrite find n c) → Occurs Address (w ++ c.after) := by
  induction n with
  | zero => exact fun c w occurs => occurs
  | succ n ih =>
      intro c w occurs
      rw [rewrite] at occurs
      cases found : find c with
      | some replacement =>
          obtain ⟨new, d⟩ := replacement
          obtain ⟨kept, read, rfl, after⟩ := censors c new d found
          rw [found] at occurs
          have split_ : Occurs Address (w ++ kept ++ censor ++ rewrite find n d) := by
            simpa only [List.append_assoc] using occurs
          rw [after, ← List.append_assoc]
          rcases occurs_censor.1 split_ with left | right
          · exact left.append_right _
          · exact ((ih d [] right).append_left read).append_left (w ++ kept)
      | none =>
          rw [found] at occurs
          cases after : c.after with
          | nil =>
              rw [after] at occurs
              exact occurs
          | cons x rest =>
              rw [after] at occurs
              have onward := ih ⟨x :: c.before, rest⟩ (w ++ [x])
              simp only [List.append_assoc, List.singleton_append] at onward
              exact onward occurs

theorem occurs_replaceAll {find : Place UInt16 → Option (JsString × Place UInt16)}
    (censors : Censors find) {text : JsString} (occurs : Occurs Address (replaceAll find text)) :
    Occurs Address text :=
  occurs_censored censors text.length ⟨[], text⟩ [] occurs

/-- **What is left at the end** the first pass has left. -/
theorem occurs_redactSecretsInText (sha256 : Digest) {text : JsString}
    (occurs : Occurs Address (redactSecretsInText sha256 text)) : Chained text := by
  have labelled := occurs_replaceAll (censors_replacedValue _ _)
    (occurs_replaceAll (censors_replacedValue _ _) occurs)
  have shaped : ∀ (patterns : List (Regex UInt16)) (out : JsString),
      Occurs Address (patterns.foldl
        (fun out pattern => replaceAll (replaced pattern fun _ => censor) out) out) →
      Occurs Address out := by
    intro patterns
    induction patterns with
    | nil => exact fun out occurs => occurs
    | cons pattern patterns ih =>
        exact fun out occurs => occurs_replaceAll (censors_replaced pattern) (ih _ occurs)
  exact (occurs_redactEmailsInText sha256 text).1 (shaped _ _ labelled)

end Tozalist.Shared.LogText
