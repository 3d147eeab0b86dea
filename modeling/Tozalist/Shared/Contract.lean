/-
# Tozalist.Shared.Contract -- what the engine client sends, and what it takes for a response

The body of `EngineClient.verify`, and `engineResponseSchema` of
`packages/shared/src/engine/schema.ts`: strict objects, in which every key is known and every
field has its type.  Of equal keys the last counts, as `JSON.parse` has it.

The doubles are a parameter, and so is what zod reports of a value that it refuses.
-/
import Tozalist.Core.Aggregate
import Tozalist.Js.Json
import Tozalist.Shared.EngineVerify

namespace Tozalist.Shared.EngineVerify

set_option autoImplicit false

open Core (EngineMx EngineResponse EngineSmtp EngineSyntax)
open Theory (Json)

/-- The numbers of JavaScript: every `int64` is near a finite one. -/
structure Doubles (ν : Type) where
  nearest : List Char → ν
  isFinite : ν → Bool
  int64 : ∀ n < 2 ^ 63, isFinite (nearest (Nat.toDigits 10 n)) = true

/-! ## The request -/

/-- The `body` of `verify`. -/
def requestBody (email : JsString) (smtp catchAll : Bool) : List Char :=
  Js.stringify <| .object [(Js.ofString "email", .string email),
    (Js.ofString "smtp", .bool smtp), (Js.ofString "catch_all", .bool catchAll)]

/-! ## The response -/

/-- `EngineResponse['syntax']` -/
structure SyntaxData where
  valid : Bool
  username : JsString
  domain : JsString
  deriving DecidableEq, Repr

/-- `EngineResponse['mx']` -/
structure MxData where
  hasMx : Option Bool
  records : List JsString
  error : JsString
  deriving DecidableEq, Repr

/-- `EngineResponse['smtp']`, when it is not null. -/
structure SmtpData where
  attempted : Bool
  mailboxAccepted : Bool
  catchAll : Bool
  fullInbox : Bool
  disabled : Bool
  error : JsString
  deriving DecidableEq, Repr

/-- `EngineResponse` -/
structure ResponseData (ν : Type) where
  email : JsString
  syntax_ : SyntaxData
  mx : MxData
  disposable : Bool
  roleAccount : Bool
  freeProvider : Bool
  smtp : Option SmtpData
  durationMs : ν
  deriving DecidableEq, Repr

section Schema

variable {ν : Type}

/-- `z.boolean()` -/
def boolean : Json ν JsString → Option Bool
  | .bool b => some b
  | _ => none

/-- `z.string()` -/
def string : Json ν JsString → Option JsString
  | .string s => some s
  | _ => none

/-- `z.number()` -/
def number (isFinite : ν → Bool) : Json ν JsString → Option ν
  | .number n => if isFinite n then some n else none
  | _ => none

/-- `.nullable()` -/
def nullable {α : Type} (inner : Json ν JsString → Option α) : Json ν JsString → Option (Option α)
  | .null => some none
  | v => (inner v).map some

/-- `z.array(z.string())` -/
def strings : Json ν JsString → Option (List JsString)
  | .array items => items.mapM string
  | _ => none

/-- `z.strictObject`: the members, if there are no others. -/
def strictObject (keys : List String) : Json ν JsString → Option (List (JsString × Json ν JsString))
  | .object members =>
      if members.all fun m => keys.any fun key => m.1 = Js.ofString key then some members else none
  | _ => none

/-- A field of an object. -/
def field {α : Type} (members : List (JsString × Json ν JsString)) (key : String)
    (schema : Json ν JsString → Option α) : Option α :=
  (members.reverse.find? fun m => m.1 = Js.ofString key).bind fun m => schema m.2

def engineSyntaxSchema (v : Json ν JsString) : Option SyntaxData := do
  let members ← strictObject ["valid", "username", "domain"] v
  return ⟨← field members "valid" boolean, ← field members "username" string,
    ← field members "domain" string⟩

def engineMxSchema (v : Json ν JsString) : Option MxData := do
  let members ← strictObject ["has_mx", "records", "error"] v
  return ⟨← field members "has_mx" (nullable boolean), ← field members "records" strings,
    ← field members "error" string⟩

def engineSmtpSchema (v : Json ν JsString) : Option SmtpData := do
  let members ← strictObject ["attempted", "mailbox_accepted", "catch_all", "full_inbox",
    "disabled", "error"] v
  return ⟨← field members "attempted" boolean, ← field members "mailbox_accepted" boolean,
    ← field members "catch_all" boolean, ← field members "full_inbox" boolean,
    ← field members "disabled" boolean, ← field members "error" string⟩

def engineResponseSchema (isFinite : ν → Bool) (v : Json ν JsString) :
    Option (ResponseData ν) := do
  let members ← strictObject ["email", "syntax", "mx", "disposable", "role_account",
    "free_provider", "smtp", "duration_ms"] v
  return ⟨← field members "email" string, ← field members "syntax" engineSyntaxSchema,
    ← field members "mx" engineMxSchema, ← field members "disposable" boolean,
    ← field members "role_account" boolean, ← field members "free_provider" boolean,
    ← field members "smtp" (nullable engineSmtpSchema),
    ← field members "duration_ms" (number isFinite)⟩

/-- `JSON.parse` and `safeParse`, as `attemptOnce` uses them. -/
def contract (doubles : Doubles ν) (issues : Json ν JsString → List Issue) :
    Schema (Json ν JsString) (ResponseData ν) where
  parse body := Js.parse doubles.nearest body.toList
  safeParse v :=
    match engineResponseSchema doubles.isFinite v with
    | some data => .ok data
    | none => .error (issues v)

end Schema

/-! ## A response as data -/

def SyntaxData.of (s : EngineSyntax) : SyntaxData :=
  ⟨s.valid, Js.ofString s.username, Js.ofString s.domain⟩

def MxData.of (mx : EngineMx) : MxData :=
  ⟨mx.hasMx, mx.records.map Js.ofString, Js.ofString mx.error⟩

def SmtpData.of (smtp : EngineSmtp) : SmtpData :=
  ⟨smtp.attempted, smtp.mailboxAccepted, smtp.catchAll, smtp.fullInbox, smtp.disabled,
    Js.ofString smtp.error⟩

/-- A response of the engine, as the client has it. -/
def ResponseData.of {ν : Type} (doubles : Doubles ν) (r : EngineResponse) : ResponseData ν :=
  ⟨Js.ofString r.email, .of r.syntax_, .of r.mx, r.disposable, r.roleAccount, r.freeProvider,
    r.smtp.map .of, doubles.nearest (Nat.toDigits 10 r.durationMs)⟩

end Tozalist.Shared.EngineVerify
