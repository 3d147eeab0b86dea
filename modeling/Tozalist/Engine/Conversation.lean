/-
# Tozalist.Engine.Conversation -- a verification, over the wire

What `EngineClient.verify` sends, the engine reads; what the engine writes, the client reads.  Both
sides are strict, and each has strings of its own: a string of JavaScript reaches the engine made
well formed, and a string of the engine comes back as it is.

* `decode_requestBody`, `read_response` -- the two directions;
* `verify_over_the_wire` -- what a call of the client comes to, whatever becomes of its attempts;
* `verify_request_strict` -- what the engine takes for a request, from anyone, and what its refusals
  say.
-/
import Tozalist.Engine.Wire
import Tozalist.Shared.Contract

namespace Tozalist.Engine

set_option autoImplicit false

open Core (EngineMx EngineResponse EngineSmtp EngineSyntax)
open Js (quote)
open Shared.EngineVerify
open Theory (Json)
open Theory.Json (first map mapItems mapMembers skip)

/-! ## What the client makes of a response -/

theorem ofString_inj {s t : String} : Js.ofString s = Js.ofString t ↔ s = t :=
  ⟨Js.ofString_injective, congrArg Js.ofString⟩

section Read

variable {ν : Type} (num : ℕ → ν)

theorem mapItems_strings (records : List String) :
    strings (map num Js.ofString (.array (records.map .string))) =
      some (records.map Js.ofString) := by
  rw [map, strings]
  induction records with
  | nil => rfl
  | cons s records ih =>
      rw [List.map_cons, mapItems, map, List.mapM_cons, ih]
      rfl

theorem read_syntax (s : EngineSyntax) :
    engineSyntaxSchema (map num Js.ofString (syntaxJson s)) = some (.of s) := by
  simp [engineSyntaxSchema, syntaxJson, map, mapMembers, strictObject, field, boolean, string,
    ofString_inj, SyntaxData.of]

theorem read_mx (mx : EngineMx) :
    engineMxSchema (map num Js.ofString (mxJson mx)) = some (.of mx) := by
  have records := mapItems_strings num mx.records
  rw [map] at records
  rcases mx with ⟨_ | b, _, _⟩ <;>
  · dsimp only at records
    simp [engineMxSchema, mxJson, map, mapMembers, strictObject, field, boolean, string, nullable,
      ofString_inj, MxData.of, records]

theorem read_smtp (smtp : EngineSmtp) :
    engineSmtpSchema (map num Js.ofString (smtpJson smtp)) = some (.of smtp) := by
  simp [engineSmtpSchema, smtpJson, map, mapMembers, strictObject, field, boolean, string,
    ofString_inj, SmtpData.of]

end Read

variable {ν : Type} (doubles : Doubles ν) (issues : Json ν JsString → List Issue)

/-- The client reads a response of the engine as it is. -/
theorem read_response (r : EngineResponse) (int64 : r.durationMs < 2 ^ 63) :
    engineResponseSchema doubles.isFinite
      (map (fun n => doubles.nearest (Nat.toDigits 10 n)) Js.ofString (verifyResponse r)) =
        some (.of doubles r) := by
  have smtp : nullable engineSmtpSchema
      (map (fun n => doubles.nearest (Nat.toDigits 10 n)) Js.ofString
        (r.smtp.elim .null smtpJson)) = some (r.smtp.map .of) := by
    cases r.smtp with
    | none => rfl
    | some smtp =>
        exact congrArg (Option.map some)
          (read_smtp (fun n => doubles.nearest (Nat.toDigits 10 n)) smtp)
  simp [engineResponseSchema, verifyResponse, map, mapMembers, strictObject, field, boolean,
    string, number, ofString_inj, ResponseData.of, doubles.int64 _ int64, read_syntax, read_mx,
    smtp]

/-- `JSON.parse` of what the engine writes; the line feed behind it is white space. -/
theorem parse_encode (v : Json ℕ String) :
    Js.parse doubles.nearest (encode v) =
      some (map (fun n => doubles.nearest (Nat.toDigits 10 n)) Js.ofString v) := by
  have ends : Json.Ends ['\n'] := Json.ends_cons ⟨rfl, by decide, by decide, by decide⟩
  have same : Js.ofPieces ∘ goSpelled = Js.ofString := funext ofPieces_goSpelled
  rw [Js.parse, Json.parse, encode,
    Json.first_text Json.isNumeral_toDigits isQuoted_quoteString v ends, Option.bind_eq_bind,
    Option.bind_some]
  dsimp only
  rw [if_pos (show Json.skip ['\n'] = [] from rfl), Option.map_some, Json.map_map, same]
  rfl

theorem contract_parse (v : Json ℕ String) :
    (contract doubles issues).parse (String.ofList (encode v)) =
      some (map (fun n => doubles.nearest (Nat.toDigits 10 n)) Js.ofString v) := by
  rw [← parse_encode, contract]
  exact congrArg (Js.parse doubles.nearest) String.toList_ofList

theorem contract_safeParse {r : EngineResponse} (int64 : r.durationMs < 2 ^ 63) :
    (contract doubles issues).safeParse
      (map (fun n => doubles.nearest (Nat.toDigits 10 n)) Js.ofString (verifyResponse r)) =
        .ok (.of doubles r) := by
  rw [contract]
  dsimp only
  rw [read_response doubles r int64]

/-! ## What the engine makes of a request -/

/-- A string of the client, as the engine has it. -/
def received (s : JsString) : String := String.ofList (Js.toWellFormed s)

theorem received_ofString (s : String) : received (Js.ofString s) = s := by
  rw [received, Js.toWellFormed_ofString, String.ofList_toList]

theorem goString_spelled (s : JsString) : goString (Js.spelled s) = received s := by
  rw [goString, goText_spelled, received]

theorem length_ofString (s : String) : (Js.ofString s).length ≤ 2 * s.length := by
  rw [Js.ofString, ← String.length_toList]
  induction s.toList with
  | nil => exact le_rfl
  | cons c text ih =>
      have units : (Js.unitsOf c).length ≤ 2 := by
        rw [Js.unitsOf]
        split <;> simp
      rw [List.flatMap_cons, List.length_append, List.length_cons]
      omega

/-- **An address that the API accepts fits**: it has at most 320 units, and each takes at most six
bytes. -/
theorem requestBody_fits {email : JsString} (short : email.length ≤ 320) (smtp catchAll : Bool) :
    byteSize (requestBody email smtp catchAll) ≤ maxVerifyBodyBytes := by
  have key (k : String) : byteSize (quote (Js.ofString k)) ≤ 12 * k.length + 2 := by
    have size := byteSize_quote (Js.ofString k)
    have units := length_ofString k
    omega
  have flag (b : Bool) :
      byteSize ((.bool b : Json ℕ JsString).text (Nat.toDigits 10) quote) ≤ 5 := by
    cases b <;> decide
  have address := byteSize_quote email
  have first := key "email"
  have second := key "smtp"
  have third := key "catch_all"
  have smtpFlag := flag smtp
  have catchAllFlag := flag catchAll
  simp only [show "email".length = 5 from rfl, show "smtp".length = 4 from rfl,
    show "catch_all".length = 9 from rfl] at first second third
  simp only [requestBody, Js.stringify, Json.text, Json.membersText, byteSize_cons,
    byteSize_append, byteSize_nil, show '{'.utf8Size = 1 from rfl, show ':'.utf8Size = 1 from rfl,
    show ','.utf8Size = 1 from rfl, show '}'.utf8Size = 1 from rfl, maxVerifyBodyBytes]
  omega

/-- **What the engine reads** of a request that fits. -/
theorem decode_requestBody (strconvQuote : String → String) {email : JsString}
    {smtp catchAll : Bool}
    (fits : byteSize (requestBody email smtp catchAll) ≤ maxVerifyBodyBytes) :
    decodeVerifyRequest strconvQuote "application/json" (requestBody email smtp catchAll) =
      if Blank (received email) then .error "email is required"
      else .ok ⟨received email, smtp, catchAll⟩ := by
  have same : goString ∘ Js.spelled = received := funext goString_spelled
  have read : Json.first (requestBody email smtp catchAll) = _ :=
    (congrArg Json.first (List.append_nil _).symm).trans
      (Json.first_text Json.isNumeral_toDigits Js.isQuoted_quote
        (.object [(Js.ofString "email", .string email), (Js.ofString "smtp", .bool smtp),
          (Js.ofString "catch_all", .bool catchAll)]) Json.ends_nil)
  rw [decodeVerifyRequest, if_neg fun other => other.2 (List.prefix_refl _),
    limited_of_fits fits, read]
  dsimp only
  rw [Json.map_map, same]
  simp only [map, mapMembers, received_ofString]
  have decoded : unmarshal (.object [("email", .string (received email)), ("smtp", .bool smtp),
      ("catch_all", .bool catchAll)]) = ⟨⟨received email, smtp, catchAll⟩, none⟩ := rfl
  rw [decoded]
  dsimp only
  rw [if_neg (not_not.2 (show Json.skip [] = [] from rfl))]

/-! ## A call -/

section Call

variable (strconvQuote toLower : String → String) (v : Verifier) (cfg : Config)
variable (email : JsString) (smtp catchAll : Bool)

/-- The engine's response to the request of a call, when it takes so long. -/
def engineReply (durationMs : ℕ) : Transported :=
  let written := handleVerify strconvQuote toLower v cfg durationMs "application/json"
    (requestBody email smtp catchAll)
  .response written.1 (String.ofList written.2)

/-- What the engine finds for a call. -/
def found (durationMs : ℕ) : EngineResponse :=
  runVerify toLower v cfg ⟨received email, smtp, catchAll⟩ durationMs

theorem durationMs_found (durationMs : ℕ) :
    (found toLower v cfg email smtp catchAll durationMs).durationMs = durationMs := by
  rw [found, runVerify]
  dsimp only
  split <;> rfl

/-- What a call may come to: what the engine finds in one of its attempts, the refusal of a blank
address, or a failure on the way. -/
def Truthful (v : ℕ → Verifier) : Except EngineError (ResponseData ν) → Prop
  | .ok data => ¬ Blank (received email) ∧
      ∃ k durationMs, 1 ≤ k ∧ k ≤ Shared.maxAttempts ∧ durationMs < 2 ^ 63 ∧
        data = .of doubles (found toLower (v k) cfg email smtp catchAll durationMs)
  | .error (.http status) => Blank (received email) ∧ status = 400
  | .error (.contract _) => False
  | .error (.unavailable _) => True
  | .error (.timeout _) => True

/-- The engine is up, whatever it says: its answers are not retried. -/
theorem not_retried_engineReply (durationMs : ℕ) :
    ¬ (engineReply strconvQuote toLower v cfg email smtp catchAll durationMs).Retried := by
  rw [engineReply, handleVerify]
  cases decodeVerifyRequest strconvQuote "application/json" (requestBody email smtp catchAll) with
  | error message => exact show ¬ 500 ≤ 400 by decide
  | ok req => exact show ¬ 500 ≤ 200 by decide

variable {email smtp catchAll}
variable (fits : byteSize (requestBody email smtp catchAll) ≤ maxVerifyBodyBytes)

include fits

/-- An attempt that the engine answers. -/
theorem attemptOnce_engineReply {durationMs : ℕ} (int64 : durationMs < 2 ^ 63) :
    attemptOnce (contract doubles issues)
        (engineReply strconvQuote toLower v cfg email smtp catchAll durationMs) =
      if Blank (received email) then .clientError (.http 400)
      else .success (.of doubles (found toLower v cfg email smtp catchAll durationMs)) := by
  rw [engineReply, handleVerify, decode_requestBody strconvQuote fits]
  by_cases blank : Blank (received email)
  · rw [if_pos blank, if_pos blank]
    rfl
  · rw [if_neg blank, if_neg blank]
    have small : (found toLower v cfg email smtp catchAll durationMs).durationMs < 2 ^ 63 := by
      rwa [durationMs_found]
    have parsed := contract_parse doubles issues
      (verifyResponse (found toLower v cfg email smtp catchAll durationMs))
    have accepted := contract_safeParse doubles issues small
    dsimp only
    rw [attemptOnce, if_neg (by decide), if_neg (by decide), ← found, parsed]
    dsimp only
    rw [accepted]

/-- An attempt that the engine answers, at the end of a call. -/
theorem result_engineReply {durationMs : ℕ} (int64 : durationMs < 2 ^ 63) :
    Blank (received email) ∧
        (attemptOnce (contract doubles issues)
          (engineReply strconvQuote toLower v cfg email smtp catchAll durationMs)).result =
            .error (.http 400) ∨
      ¬ Blank (received email) ∧
        (attemptOnce (contract doubles issues)
          (engineReply strconvQuote toLower v cfg email smtp catchAll durationMs)).result =
            .ok (.of doubles (found toLower v cfg email smtp catchAll durationMs)) := by
  rw [attemptOnce_engineReply doubles issues strconvQuote toLower v cfg fits int64]
  by_cases blank : Blank (received email)
  · rw [if_pos blank]
    exact .inl ⟨blank, rfl⟩
  · rw [if_neg blank]
    exact .inr ⟨blank, rfl⟩

section Attempts

variable {v : ℕ → Verifier} {transport : ℕ → Transported}
variable (engine : ∀ k status body, transport k = .response status body → ∃ durationMs < 2 ^ 63,
  transport k = engineReply strconvQuote toLower (v k) cfg email smtp catchAll durationMs)

include engine

/-- What the last attempt of a call comes to. -/
theorem truthful_attempt {k : ℕ} (first : 1 ≤ k) (last : k ≤ Shared.maxAttempts) :
    Truthful doubles toLower cfg email smtp catchAll v
      (attemptOnce (contract doubles issues) (transport k)).result := by
  cases brought : transport k with
  | timedOut timeoutMs => exact trivial
  | threw => exact trivial
  | response status body =>
      obtain ⟨durationMs, int64, answers⟩ := engine k status body brought
      rcases result_engineReply doubles issues strconvQuote toLower (v k) cfg fits int64 with
        ⟨blank, is⟩ | ⟨visible, is⟩
      · rw [← brought, answers, is]
        exact ⟨blank, rfl⟩
      · rw [← brought, answers, is]
        exact ⟨visible, k, durationMs, first, last, int64, rfl⟩

/-- **A verification, over the wire.**  The engine may be reached or not, and find something else in
each attempt: a response is what it found for the address itself, the contract is always met, and an
engine that answers is always understood. -/
theorem verify_over_the_wire (o : Shared.CircuitBreakerOptions) (now : Int)
    (b : Shared.CircuitBreaker) :
    Truthful doubles toLower cfg email smtp catchAll v
        (verify (contract doubles issues) transport o now b).result ∧
      ∀ n durationMs, (b.acquire o now).1 = true → 1 ≤ n → n ≤ Shared.maxAttempts →
        (∀ k, 1 ≤ k → k < n → transport k = .threw) → durationMs < 2 ^ 63 →
        transport n = engineReply strconvQuote toLower (v n) cfg email smtp catchAll durationMs →
        (verify (contract doubles issues) transport o now b).result =
          if Blank (received email) then .error (.http 400)
          else .ok (.of doubles (found toLower (v n) cfg email smtp catchAll durationMs)) := by
  obtain ⟨more, few, retried, last, is⟩ := loop_rounds (contract doubles issues) transport 2 0 none
    rfl
  rw [Nat.zero_add] at retried last is
  have called (admitted : (b.acquire o now).1 = true) :
      (verify (contract doubles issues) transport o now b).result =
        (attemptOnce (contract doubles issues) (transport (more + 1))).result := by
    rw [verify, if_pos admitted]
    exact congrArg Called.result is
  refine ⟨?_, fun n durationMs admitted positive within before int64 answers => ?_⟩
  · by_cases admitted : (b.acquire o now).1 = true
    · rw [called admitted]
      exact truthful_attempt doubles issues strconvQuote toLower cfg fits engine (by omega)
        (Nat.succ_le_succ few)
    · rw [verify, if_neg admitted, Shared.EngineVerify.refusal]
      dsimp only
      split <;> exact trivial
  · rw [called admitted]
    have same : n = more + 1 := by
      rcases Nat.lt_trichotomy n (more + 1) with early | same | late
      · have again := retried n positive (by omega)
        rw [answers] at again
        exact absurd again (not_retried_engineReply strconvQuote toLower (v n) cfg _ _ _ _)
      · exact same
      · have threw := before (more + 1) (by omega) late
        exact absurd (threw ▸ trivial) (last (by omega))
    rcases result_engineReply doubles issues strconvQuote toLower (v n) cfg fits int64 with
      ⟨blank, is⟩ | ⟨visible, is⟩
    · rw [← same, answers, is, if_pos blank]
    · rw [← same, answers, is, if_neg visible]

end Attempts

end Call

/-! ## A call of two attempts -/

theorem allFinite : ∀ n < 2 ^ 63, (fun _ : List Char => true) (Nat.toDigits 10 n) = true :=
  fun _ _ => rfl

/-- Numbers that are kept as they are written. -/
def written : Doubles (List Char) := ⟨id, fun _ => true, allFinite⟩

/-- Knows one mailbox. -/
def oneAddress : Verifier where
  parseAddress _ := ⟨"a", "b.co", true⟩
  isFreeDomain _ := false
  isRoleAccount _ := false
  isDisposable _ := false
  checkMX _ := .ok ⟨true, [some ⟨"mx.b.co", 10⟩]⟩
  checkSMTP _ _ _ := .ok none

def plainConfig : Config := ⟨false, "probe.test", "<>", "15s"⟩

/-- The first attempt is lost. -/
def secondTry (k : ℕ) : Transported :=
  if k = 1 then .threw
  else engineReply id id oneAddress plainConfig [97, 64, 98, 46, 99, 111] true false 5

theorem verify_over_the_wire_twice :
    (verify (contract written fun _ => []) secondTry .standard 0 .initial).result =
      .ok (.of written ⟨"a@b.co", ⟨true, "a", "b.co"⟩, ⟨some true, ["mx.b.co"], ""⟩, false, false,
        false, some ⟨false, false, false, false, true, ""⟩, 5⟩) := by
  have brings : ∀ k status body, secondTry k = .response status body → ∃ durationMs < 2 ^ 63,
      secondTry k = engineReply id id oneAddress plainConfig [97, 64, 98, 46, 99, 111] true false
        durationMs := by
    intro k status body brought
    rw [secondTry] at brought ⊢
    split at brought
    · cases brought
    · rename_i later
      exact ⟨5, by decide, if_neg later⟩
  have result := (@verify_over_the_wire _ written (fun _ => []) id id plainConfig _ _ _
    (requestBody_fits (by decide) true false) (fun _ => oneAddress) secondTry brings .standard 0
    .initial).2 2 5 rfl (by decide) (by decide) ?_ (by decide) rfl
  · have address : received [97, 64, 98, 46, 99, 111] = "a@b.co" :=
      congrArg String.ofList
        (show Js.toWellFormed [97, 64, 98, 46, 99, 111] = ['a', '@', 'b', '.', 'c', 'o'] by decide)
    have visible : ¬ Blank (String.ofList ['a', '@', 'b', '.', 'c', 'o']) := by
      rw [Blank, String.toList_ofList]
      exact fun blank => absurd (blank 'a' List.mem_cons_self) (by decide)
    rw [result, address, if_neg visible, found, address]
    rfl
  · intro k first early
    obtain rfl : k = 1 := by omega
    rfl

/-! ## Requests from anyone -/

/-- A member of a request, as it is decoded. -/
abbrev Member : Type := String × Json (List Char) String

/-- The member is of a field that is known, and of its type or null. -/
def Suits (m : Member) : Prop :=
  match fieldNamed m.1, m.2 with
  | some _, .null => True
  | some .email, .string _ => True
  | some .smtp, .bool _ => True
  | some .catchAll, .bool _ => True
  | _, _ => False

/-- The address that the member gives. -/
def addressOf (m : Member) : Option String :=
  match fieldNamed m.1, m.2 with
  | some .email, .string s => some s
  | _, _ => none

/-- The flag that the member gives to the field. -/
def flagOf (field : RequestField) (m : Member) : Option Bool :=
  match m.2 with
  | .bool b => if fieldNamed m.1 = some field then some b else none
  | _ => none

/-- The request that the members give; the last of each field counts. -/
def requestOf (members : List Member) : VerifyRequest :=
  ⟨(members.filterMap addressOf).getLastD "", (members.filterMap (flagOf .smtp)).getLastD false,
    (members.filterMap (flagOf .catchAll)).getLastD false⟩

/-- One member that suits. -/
theorem member_of_suits {m : Member} (suits : Suits m) (d : Decoding) :
    d.member m = ⟨⟨(addressOf m).getD d.req.email, (flagOf .smtp m).getD d.req.smtp,
      (flagOf .catchAll m).getD d.req.catchAll⟩, d.saved⟩ := by
  obtain ⟨key, value⟩ := m
  rw [Suits] at suits
  rw [Decoding.member, addressOf, flagOf, flagOf]
  dsimp only at suits ⊢
  cases named : fieldNamed key with
  | none =>
      rw [named] at suits
      exact suits.elim
  | some field =>
      rw [named] at suits
      cases field <;> cases value <;> first | exact suits.elim | rfl

/-- One that does not. -/
theorem member_of_not_suits {m : Member} (not_ : ¬ Suits m) (d : Decoding) :
    ∃ e, (d.member m).saved = d.saved.or (some e) ∧
      (fieldNamed m.1 = none ∧ e = .unknownField m.1 ∨
        ∃ field : RequestField, e = .wrongType field.name) := by
  obtain ⟨key, value⟩ := m
  rw [Suits] at not_
  rw [Decoding.member]
  dsimp only at not_ ⊢
  cases named : fieldNamed key with
  | none => exact ⟨_, rfl, .inl ⟨rfl, rfl⟩⟩
  | some field =>
      rw [named] at not_
      cases field <;> cases value <;>
        first | exact absurd trivial not_ | exact ⟨_, rfl, .inr ⟨_, rfl⟩⟩

/-- An error stays. -/
theorem foldl_saved (members : List Member) (d : Decoding) {e : DecodeError}
    (saved : d.saved = some e) : (members.foldl Decoding.member d).saved = some e := by
  induction members generalizing d with
  | nil => exact saved
  | cons m members ih =>
      apply ih
      by_cases suits : Suits m
      · rw [member_of_suits suits, saved]
      · obtain ⟨e', after, -⟩ := member_of_not_suits suits d
        rw [after, saved]
        rfl

/-- **The loop over the members**: all suit, and the last of each field counts; or the first that
does not is named. -/
theorem foldl_member (members : List Member) (d : Decoding) (clean : d.saved = none) :
    (∀ m ∈ members, Suits m) ∧ members.foldl Decoding.member d =
        ⟨⟨(members.filterMap addressOf).getLastD d.req.email,
          (members.filterMap (flagOf .smtp)).getLastD d.req.smtp,
          (members.filterMap (flagOf .catchAll)).getLastD d.req.catchAll⟩, none⟩ ∨
      ∃ m ∈ members, ¬ Suits m ∧ ∃ e, (members.foldl Decoding.member d).saved = some e ∧
        (fieldNamed m.1 = none ∧ e = .unknownField m.1 ∨
          ∃ field : RequestField, e = .wrongType field.name) := by
  induction members generalizing d with
  | nil =>
      refine .inl ⟨List.forall_mem_nil _, ?_⟩
      rw [← clean]
      rfl
  | cons m members ih =>
      have last {α : Type} (f : Member → Option α) (default : α) :
          ((m :: members).filterMap f).getLastD default =
            (members.filterMap f).getLastD ((f m).getD default) := by
        rw [List.filterMap_cons]
        cases f m with
        | none => rfl
        | some a => exact List.getLastD_cons ..
      by_cases suits : Suits m
      · have next := member_of_suits suits d
        rcases ih (d.member m) (by rw [next, clean]) with ⟨all, is⟩ | ⟨n, member, odd⟩
        · refine .inl ⟨List.forall_mem_cons.2 ⟨suits, all⟩, ?_⟩
          rw [List.foldl_cons, is, next, last, last, last]
        · exact .inr ⟨n, List.mem_cons_of_mem _ member, odd⟩
      · obtain ⟨e, after, named⟩ := member_of_not_suits suits d
        rw [clean] at after
        exact .inr ⟨m, List.mem_cons_self, suits, e, foldl_saved members (d.member m) after, named⟩

/-- The members of the object in front of the body, as far as it is read, and what follows it. -/
def ReadsObject (body : List Char) (members : List Member) (rest : List Char) : Prop :=
  ∃ v, Json.Reads (limited maxVerifyBodyBytes body) v rest ∧ map id goString v = .object members

/-- **A request that is accepted**: the body is one object, with white space around it at most, its
members are of known fields and of their types, and the address is not blank. -/
def Accepts (contentType : String) (body : List Char) (req : VerifyRequest) : Prop :=
  (contentType = "" ∨ "application/json".toList <+: contentType.toList) ∧
    ∃ members rest, ReadsObject body members rest ∧ skip rest = [] ∧
      (∀ m ∈ members, Suits m) ∧ req = requestOf members ∧ ¬ Blank req.email

/-- The messages that say nothing of the body. -/
def fixedMessages : List String :=
  ["Content-Type must be application/json", "invalid request body: malformed JSON",
    "invalid request body: unexpected trailing data", "email is required",
    "invalid request body: field  has the wrong type",
    "invalid request body: field email has the wrong type",
    "invalid request body: field smtp has the wrong type",
    "invalid request body: field catch_all has the wrong type"]

/-- **What a refusal says**: one of the fixed messages, or the key of a member that is unknown. -/
def Discreet (strconvQuote : String → String) (body : List Char) (message : String) : Prop :=
  message ∈ fixedMessages ∨
    ∃ members rest, ReadsObject body members rest ∧ ∃ m ∈ members, fieldNamed m.1 = none ∧
      message = "invalid request body: unknown field " ++ strconvQuote m.1

theorem wrongType_fixed (strconvQuote : String → String) {name : String}
    (known : name ∈ ["", "email", "smtp", "catch_all"]) :
    "invalid request body: " ++ sanitizeDecodeError strconvQuote (.wrongType name) ∈
      fixedMessages := by
  rw [sanitizeDecodeError]
  simp only [List.mem_cons, List.not_mem_nil, or_false] at known
  rcases known with rfl | rfl | rfl | rfl <;> decide

theorem RequestField.name_mem (field : RequestField) :
    field.name ∈ ["", "email", "smtp", "catch_all"] := by
  cases field <;> decide

theorem ReadsObject.unique {body : List Char} {members members' : List Member}
    {rest rest' : List Char} (reads : ReadsObject body members rest)
    (reads' : ReadsObject body members' rest') : members' = members ∧ rest' = rest := by
  obtain ⟨v, read, is⟩ := reads
  obtain ⟨v', read', is'⟩ := reads'
  cases Option.some.inj ((Json.reads_iff.1 read).symm.trans (Json.reads_iff.1 read'))
  exact ⟨Json.object.inj (is'.symm.trans is), rfl⟩

theorem Accepts.unique {contentType : String} {body : List Char} {req req' : VerifyRequest}
    (accepts : Accepts contentType body req) (accepts' : Accepts contentType body req') :
    req' = req := by
  obtain ⟨-, members, rest, reads, -, -, rfl, -⟩ := accepts
  obtain ⟨-, members', rest', reads', -, -, rfl, -⟩ := accepts'
  rw [(reads.unique reads').1]

section Decode

variable (strconvQuote : String → String) {contentType : String} {body : List Char}

/-- A body that is read as an object: it is accepted, or refused for a reason that is its own. -/
theorem decode_of_object (typed : ¬ (contentType ≠ "" ∧
      ¬ "application/json".toList <+: contentType.toList)) {members : List Member}
    {rest : List Char} (reads : ReadsObject body members rest) :
    (∃ req, decodeVerifyRequest strconvQuote contentType body = .ok req ∧
        Accepts contentType body req) ∨
      ∃ message, decodeVerifyRequest strconvQuote contentType body = .error message ∧
        Discreet strconvQuote body message ∧ ∀ req, ¬ Accepts contentType body req := by
  have same : ∀ req, Accepts contentType body req → skip rest = [] ∧ (∀ m ∈ members, Suits m) ∧
      ¬ Blank (requestOf members).email := by
    rintro req ⟨-, members', rest', reads', alone, all, rfl, visible⟩
    obtain ⟨rfl, rfl⟩ := reads.unique reads'
    exact ⟨alone, all, visible⟩
  obtain ⟨v, read, is⟩ := reads
  rw [decodeVerifyRequest, if_neg typed, Json.reads_iff.1 read]
  dsimp only
  rw [is, unmarshal]
  rcases foldl_member members ⟨⟨"", false, false⟩, none⟩ rfl with
    ⟨all, decoded⟩ | ⟨m, member, odd, e, saved, named⟩
  · rw [decoded]
    dsimp only
    by_cases alone : skip rest = []
    · rw [if_neg (not_not.2 alone)]
      by_cases blank : Blank ((members.filterMap addressOf).getLastD "")
      · rw [if_pos blank]
        exact .inr ⟨_, rfl, .inl (by decide), fun req accepts => (same req accepts).2.2 blank⟩
      · rw [if_neg blank]
        exact .inl ⟨_, rfl, by_contra fun other => typed ⟨fun is => other (.inl is),
          fun is => other (.inr is)⟩, members, rest, ⟨v, read, is⟩, alone, all, rfl, blank⟩
    · rw [if_pos alone]
      exact .inr ⟨_, rfl, .inl (by decide), fun req accepts => alone (same req accepts).1⟩
  · rw [saved]
    refine .inr ⟨_, rfl, ?_, fun req accepts => odd ((same req accepts).2.1 m member)⟩
    rcases named with ⟨unknown, rfl⟩ | ⟨field, rfl⟩
    · exact .inr ⟨members, rest, ⟨v, read, is⟩, m, member, unknown, rfl⟩
    · exact .inl (wrongType_fixed strconvQuote field.name_mem)

theorem blank_empty : Blank "" := by
  intro c member
  rw [String.toList_empty] at member
  cases member

/-- Every body. -/
theorem decode_cases (contentType : String) (body : List Char) :
    (∃ req, decodeVerifyRequest strconvQuote contentType body = .ok req ∧
        Accepts contentType body req) ∨
      ∃ message, decodeVerifyRequest strconvQuote contentType body = .error message ∧
        Discreet strconvQuote body message ∧ ∀ req, ¬ Accepts contentType body req := by
  by_cases typed : contentType ≠ "" ∧ ¬ "application/json".toList <+: contentType.toList
  · refine .inr ⟨_, by rw [decodeVerifyRequest, if_pos typed], .inl (by decide), ?_⟩
    exact fun req accepts => accepts.1.elim typed.1 typed.2
  by_cases object : ∃ members rest, ReadsObject body members rest
  · obtain ⟨members, rest, reads⟩ := object
    exact decode_of_object strconvQuote typed reads
  have none_ : ∀ req, ¬ Accepts contentType body req := by
    rintro req ⟨-, members, rest, reads, -⟩
    exact object ⟨members, rest, reads⟩
  right
  rw [decodeVerifyRequest, if_neg typed]
  cases read : first (limited maxVerifyBodyBytes body) with
  | none => exact ⟨_, rfl, .inl (by decide), none_⟩
  | some r =>
      obtain ⟨v, rest⟩ := r
      dsimp only
      cases is : map id goString v with
      | object members => exact absurd ⟨members, rest, v, Json.reads_iff.2 read, is⟩ object
      | null =>
          rw [unmarshal]
          dsimp only
          by_cases alone : skip rest = []
          · rw [if_neg (not_not.2 alone), if_pos blank_empty]
            exact ⟨_, rfl, .inl (by decide), none_⟩
          · rw [if_pos alone]
            exact ⟨_, rfl, .inl (by decide), none_⟩
      | bool b | number n | string s | array items =>
          exact ⟨_, rfl, .inl (wrongType_fixed strconvQuote (by decide)), none_⟩

/-- **The engine takes nothing but a request**, whoever sends it, and its refusals say nothing of
what a request holds. -/
theorem verify_request_strict (contentType : String) (body : List Char) :
    (∀ req, decodeVerifyRequest strconvQuote contentType body = .ok req ↔
        Accepts contentType body req) ∧
      ∀ message, decodeVerifyRequest strconvQuote contentType body = .error message →
        Discreet strconvQuote body message := by
  rcases decode_cases strconvQuote contentType body with
    ⟨req, decoded, accepts⟩ | ⟨message, decoded, discreet, none_⟩
  · rw [decoded]
    refine ⟨fun req' => ⟨?_, fun accepts' => ?_⟩, ?_⟩
    · intro is
      cases is
      exact accepts
    · rw [accepts.unique accepts']
    · intro message is
      cases is
  · rw [decoded]
    refine ⟨fun req => ⟨?_, fun accepts => absurd accepts (none_ req)⟩, ?_⟩
    · intro is
      cases is
    · intro message' is
      cases is
      exact discreet

end Decode

end Tozalist.Engine
