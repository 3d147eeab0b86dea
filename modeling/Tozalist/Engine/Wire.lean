/-
# Tozalist.Engine.Wire -- the engine's side of the wire

`services/engine/contract.go` and `handlers.go`: a body is read by `encoding/json` into a
`verifyRequest`, and a response is written by it.

The decoder reads one value and takes its members in turn.  Names are compared exactly and then
without case, a later member overwrites an earlier one, `null` leaves a field as it is, and the
first member that is unknown or of a wrong type is the error that is returned, after all are read.
The body is cut off at `maxVerifyBodyBytes`; `strconv.Quote` is a parameter.  A body is a text here:
one that is not UTF-8, in whose strings the decoder puts `U+FFFD` for the bytes it cannot read, is
left out.

* `goText_spelled` -- what a string of JavaScript is for the engine;
* `ofPieces_goSpelled` -- what a string of the engine is for JavaScript;
* `limited_of_fits`, `byteSize_quote` -- which bodies are read whole.
-/
import Tozalist.Engine.Verify
import Tozalist.Js.Json

namespace Tozalist.Engine

set_option autoImplicit false

open Core (EngineMx EngineResponse EngineSmtp EngineSyntax)
open Js (codePoint codePoints hexText isHigh isLow paired pieceSpelled pieceText quote scalarValue
  shortLetter spelled toWellFormed unicodeEscape unitsOfPiece)
open Theory (Json)
open Theory.Json (IsQuoted Piece Read Writes first skip writes_nil)

/-! ## Strings of Go -/

/-- The character of a unit on its own: a surrogate is none. -/
def goUnit (u : UInt16) : Char :=
  if isHigh u || isLow u then '\uFFFD' else Char.ofNat u.toNat

/-- `unquote`, of a text that is spelled so: surrogate escapes in a pair are one character. -/
def goText : List Piece → List Char
  | [] => []
  | .char c :: rest => c :: goText rest
  | [.unit u] => [goUnit u]
  | .unit u :: .char c :: rest => goUnit u :: c :: goText rest
  | .unit u :: .unit v :: rest =>
      if isHigh u && isLow v then paired u v :: goText rest
      else goUnit u :: goText (.unit v :: rest)

def goString (ps : List Piece) : String := String.ofList (goText ps)

/-- What `appendString` escapes by its number: control characters, what HTML takes for markup, and
the line terminators of JavaScript. -/
def Escaped (c : Char) : Prop :=
  c.toNat < 32 ∨ c = '<' ∨ c = '>' ∨ c = '&' ∨ c = '\u2028' ∨ c = '\u2029'

instance (c : Char) : Decidable (Escaped c) := inferInstanceAs (Decidable (_ ∨ _))

/-- `appendString`, of one character. -/
def charText (c : Char) : List Char :=
  match shortLetter c with
  | some letter => ['\\', letter]
  | none => if Escaped c then unicodeEscape c.toNat else [c]

/-- The JSON text of a string. -/
def quoteString (s : String) : List Char := '"' :: (s.toList.flatMap charText ++ ['"'])

/-- `json.NewEncoder(w).Encode`. -/
def encode (v : Json ℕ String) : List Char := v.text (Nat.toDigits 10) quoteString ++ ['\n']

/-! ## The contract -/

def syntaxJson (s : EngineSyntax) : Json ℕ String :=
  .object [("valid", .bool s.valid), ("username", .string s.username),
    ("domain", .string s.domain)]

def mxJson (mx : EngineMx) : Json ℕ String :=
  .object [("has_mx", mx.hasMx.elim .null .bool), ("records", .array (mx.records.map .string)),
    ("error", .string mx.error)]

def smtpJson (smtp : EngineSmtp) : Json ℕ String :=
  .object [("attempted", .bool smtp.attempted),
    ("mailbox_accepted", .bool smtp.mailboxAccepted), ("catch_all", .bool smtp.catchAll),
    ("full_inbox", .bool smtp.fullInbox), ("disabled", .bool smtp.disabled),
    ("error", .string smtp.error)]

/-- `verifyResponse` -/
def verifyResponse (r : EngineResponse) : Json ℕ String :=
  .object [("email", .string r.email), ("syntax", syntaxJson r.syntax_), ("mx", mxJson r.mx),
    ("disposable", .bool r.disposable), ("role_account", .bool r.roleAccount),
    ("free_provider", .bool r.freeProvider), ("smtp", r.smtp.elim .null smtpJson),
    ("duration_ms", .number r.durationMs)]

/-- `errorResponse` -/
def errorResponse (message : String) : Json ℕ String := .object [("error", .string message)]

/-! ## Reading a request -/

/-- A field of `verifyRequest`. -/
inductive RequestField where
  | email
  | smtp
  | catchAll
  deriving DecidableEq, Repr

def RequestField.name : RequestField → String
  | .email => "email"
  | .smtp => "smtp"
  | .catchAll => "catch_all"

/-- `foldName`, of a character: beside the letters of the alphabet, two characters fold to one of
them. -/
def foldChar (c : Char) : Char :=
  if c = '\u017F' then 's' else if c = '\u212A' then 'k' else c.toLower

def foldName (s : String) : List Char := s.toList.map foldChar

/-- The field that a key names. -/
def fieldNamed (key : String) : Option RequestField :=
  match [.email, .smtp, .catchAll].find? fun f : RequestField => f.name = key with
  | some f => some f
  | none => [.email, .smtp, .catchAll].find? fun f : RequestField => foldName f.name = foldName key

/-- The errors of the decoder that name something. -/
inductive DecodeError where
  /-- `json.UnmarshalTypeError`, with its `Field` -/
  | wrongType (field : String)
  | unknownField (key : String)
  deriving DecidableEq, Repr

/-- A request that is being decoded, and the first error. -/
structure Decoding where
  req : VerifyRequest
  saved : Option DecodeError
  deriving DecidableEq, Repr

namespace Decoding

/-- `saveError` -/
def saveError (d : Decoding) (e : DecodeError) : Decoding := { d with saved := d.saved.or (some e) }

/-- `literalStore` and the others, for a field. -/
def store (d : Decoding) (field : RequestField) (v : Json (List Char) String) : Decoding :=
  match field, v with
  | _, .null => d
  | .email, .string s => { d with req := { d.req with email := s } }
  | .smtp, .bool b => { d with req := { d.req with smtp := b } }
  | .catchAll, .bool b => { d with req := { d.req with catchAll := b } }
  | _, _ => d.saveError (.wrongType field.name)

/-- One round of `object`. -/
def member (d : Decoding) (m : String × Json (List Char) String) : Decoding :=
  match fieldNamed m.1 with
  | some field => d.store field m.2
  | none => d.saveError (.unknownField m.1)

end Decoding

/-- `unmarshal` into a `verifyRequest` with nothing in it. -/
def unmarshal (v : Json (List Char) String) : Decoding :=
  match v with
  | .null => ⟨⟨"", false, false⟩, none⟩
  | .object members => members.foldl Decoding.member ⟨⟨"", false, false⟩, none⟩
  | _ => ⟨⟨"", false, false⟩, some (.wrongType "")⟩

/-- `maxVerifyBodyBytes` -/
def maxVerifyBodyBytes : ℕ := 4096

/-- The bytes of a text. -/
def byteSize : List Char → ℕ
  | [] => 0
  | c :: rest => c.utf8Size + byteSize rest

/-- `io.LimitReader`, on a text; of a character that is cut, an invalid part is left. -/
def limited (budget : ℕ) : List Char → List Char
  | [] => []
  | c :: rest =>
      if c.utf8Size ≤ budget then c :: limited (budget - c.utf8Size) rest
      else if 0 < budget then ['\uFFFD'] else []

/-- `unicode.IsSpace` -/
def isGoSpace (c : Char) : Bool :=
  (9 ≤ c.toNat && c.toNat ≤ 13) || c.toNat == 0x20 || c.toNat == 0x85 || c.toNat == 0xA0 ||
    c.toNat == 0x1680 || (0x2000 ≤ c.toNat && c.toNat ≤ 0x200A) || c.toNat == 0x2028 ||
    c.toNat == 0x2029 || c.toNat == 0x202F || c.toNat == 0x205F || c.toNat == 0x3000

/-- `strings.TrimSpace(s) == ""` -/
def Blank (s : String) : Prop := ∀ c ∈ s.toList, isGoSpace c = true

instance (s : String) : Decidable (Blank s) := inferInstanceAs (Decidable (∀ c ∈ _, _))

section Handler

variable (strconvQuote : String → String)

/-- `sanitizeDecodeError` -/
def sanitizeDecodeError : DecodeError → String
  | .wrongType field => "field " ++ field ++ " has the wrong type"
  | .unknownField key => "unknown field " ++ strconvQuote key

/-- `decodeVerifyRequest` -/
def decodeVerifyRequest (contentType : String) (body : List Char) :
    Except String VerifyRequest :=
  if contentType ≠ "" ∧ ¬ "application/json".toList <+: contentType.toList then
    .error "Content-Type must be application/json"
  else
    match first (limited maxVerifyBodyBytes body) with
    | none => .error "invalid request body: malformed JSON"
    | some (v, rest) =>
        let decoding := unmarshal (v.map id goString)
        match decoding.saved with
        | some e => .error ("invalid request body: " ++ sanitizeDecodeError strconvQuote e)
        | none =>
            if skip rest ≠ [] then .error "invalid request body: unexpected trailing data"
            else if Blank decoding.req.email then .error "email is required"
            else .ok decoding.req

variable (toLower : String → String) (v : Verifier) (cfg : Config)

/-- `handleVerify`: the status, and what is written. -/
def handleVerify (durationMs : ℕ) (contentType : String) (body : List Char) : ℕ × List Char :=
  match decodeVerifyRequest strconvQuote contentType body with
  | .error message => (400, encode (errorResponse message))
  | .ok req => (200, encode (verifyResponse (runVerify toLower v cfg req durationMs)))

end Handler

/-! ## Strings that are read -/

/-- A unit that the next piece makes no pair with. -/
theorem goText_unit {u : UInt16} {ps : List Piece}
    (alone : ∀ v, ps.head? = some (.unit v) → (isHigh u && isLow v) = false) :
    goText (.unit u :: ps) = goUnit u :: goText ps := by
  cases ps with
  | nil => rfl
  | cons p ps =>
      cases p with
      | char c => rfl
      | unit v => rw [goText, alone v rfl, if_neg (by decide)]

/-- What an escape of four digits stands for, when it is no half of a pair. -/
theorem pieceSpelled_char {c : Char} {w : UInt16} (escaped : pieceSpelled (.char c) = .unit w) :
    w = UInt16.ofNat c.toNat ∧ c.toNat < 32 := by
  rw [pieceSpelled] at escaped
  split at escaped
  · rename_i control
    cases escaped
    exact ⟨rfl, control.2⟩
  · cases escaped

/-- A control character is no half of a pair. -/
theorem goUnit_of_small {c : Char} (small : c.toNat < 32) :
    isHigh (UInt16.ofNat c.toNat) = false ∧ isLow (UInt16.ofNat c.toNat) = false ∧
      goUnit (UInt16.ofNat c.toNat) = c := by
  have same : (UInt16.ofNat c.toNat).toNat = c.toNat := by
    rw [UInt16.toNat_ofNat', Nat.mod_eq_of_lt (by omega)]
  have high : isHigh (UInt16.ofNat c.toNat) = false := by
    rw [isHigh, same, Bool.and_eq_false_iff]
    exact .inl (decide_eq_false (by omega))
  have low : isLow (UInt16.ofNat c.toNat) = false := by
    rw [isLow, same, Bool.and_eq_false_iff]
    exact .inl (decide_eq_false (by omega))
  refine ⟨high, low, ?_⟩
  rw [goUnit, high, low, same, Char.ofNat_toNat]
  rfl

/-- An escape in front of a string is of its first unit, if it is of a low surrogate. -/
theorem low_of_spelled {v w : UInt16} {rest : JsString}
    (escape : (spelled (v :: rest)).head? = some (.unit w)) (low : isLow w = true) :
    isLow v = true := by
  have notChar : ∀ c, pieceSpelled (.char c) ≠ .unit w := by
    intro c escaped
    obtain ⟨rfl, small⟩ := pieceSpelled_char escaped
    rw [(goUnit_of_small small).2.1] at low
    cases low
  have itself : pieceSpelled (codePoint v) = .unit w → isLow v = true := by
    intro escaped
    rw [codePoint] at escaped
    split at escaped
    · cases escaped
      exact low
    · exact absurd escaped (notChar _)
  cases rest with
  | nil => exact itself (Option.some.inj escape)
  | cons x rest =>
      rw [spelled, codePoints] at escape
      split at escape
      · exact absurd (Option.some.inj escape) (notChar _)
      · exact itself (Option.some.inj escape)

/-- A code point in front. -/
theorem goText_codePoint {u : UInt16} {ps : List Piece}
    (alone : ∀ v, ps.head? = some (.unit v) → (isHigh u && isLow v) = false) :
    goText (pieceSpelled (codePoint u) :: ps) = scalarValue (codePoint u) :: goText ps := by
  rw [codePoint]
  by_cases surrogate : (isHigh u || isLow u) = true
  · rw [if_pos surrogate, pieceSpelled, goText_unit alone, goUnit, if_pos surrogate]
    rfl
  · rw [if_neg surrogate]
    cases escaped : pieceSpelled (.char (Char.ofNat u.toNat)) with
    | char c =>
        rw [pieceSpelled] at escaped
        split at escaped
        · cases escaped
        · cases escaped
          rfl
    | unit w =>
        obtain ⟨rfl, small⟩ := pieceSpelled_char escaped
        obtain ⟨high, -, itself⟩ := goUnit_of_small small
        rw [goText_unit fun v _ => by rw [high, Bool.false_and], itself]
        rfl

/-- The character of a pair is no control character. -/
theorem pieceSpelled_paired {u v : UInt16} (high : isHigh u = true) (low : isLow v = true) :
    pieceSpelled (.char (paired u v)) = .char (paired u v) := by
  rw [pieceSpelled, if_neg]
  rintro ⟨-, small⟩
  have units := Js.unitsOf_paired high low
  rw [Js.unitsOf, if_pos (by omega)] at units
  have lengths : 1 = 2 := congrArg List.length units
  omega

/-- **What a string of JavaScript is for the engine**: the string, made well formed. -/
theorem goText_spelled (s : JsString) : goText (spelled s) = toWellFormed s := by
  fun_induction codePoints s with
  | case1 => rfl
  | case2 u => exact goText_codePoint fun v none_ => by cases none_
  | case3 u v rest pair ih =>
      rw [spelled, toWellFormed, codePoints, if_pos pair, List.map_cons, List.map_cons]
      rw [Bool.and_eq_true] at pair
      rw [pieceSpelled_paired pair.1 pair.2]
      exact congrArg (List.cons _) ih
  | case4 u v rest apart ih =>
      have alone : ∀ w, (spelled (v :: rest)).head? = some (.unit w) →
          (isHigh u && isLow w) = false := by
        intro w escape
        by_contra pair
        rw [Bool.not_eq_false, Bool.and_eq_true] at pair
        exact apart (Bool.and_eq_true _ _ ▸ ⟨pair.1, low_of_spelled escape pair.2⟩)
      rw [spelled, toWellFormed, codePoints, if_neg apart, List.map_cons, List.map_cons]
      exact (goText_codePoint alone).trans (congrArg (List.cons _) ih)

/-! ## Strings that are written -/

/-- How the text of a character writes it. -/
def charSpelled (c : Char) : Piece :=
  if shortLetter c = none ∧ Escaped c then .unit (UInt16.ofNat c.toNat) else .char c

def goSpelled (s : String) : List Piece := s.toList.map charSpelled

theorem Escaped.small {c : Char} (escaped : Escaped c) : c.toNat < 65536 := by
  rcases escaped with control | rfl | rfl | rfl | rfl | rfl
  · omega
  all_goals decide

theorem spells_charText (c : Char) {text : List Char} {ps : List Piece}
    (writes : Writes text ps) : Writes (charText c ++ text) (charSpelled c :: ps) := by
  rw [charText, charSpelled]
  cases short : shortLetter c with
  | some letter =>
      dsimp only
      rw [if_neg fun both => by cases both.1]
      exact writes.escape (Js.shortEscape_shortLetter short)
  | none =>
      dsimp only
      by_cases escaped : Escaped c
      · rw [if_pos escaped, if_pos ⟨rfl, escaped⟩]
        exact Js.writes_unicodeEscape escaped.small writes
      · rw [if_neg escaped, if_neg fun both => escaped both.2]
        obtain ⟨quote, escape⟩ := Js.plain_of_not_short short
        exact writes.char quote escape (Nat.not_lt.1 fun control => escaped (.inl control))

theorem isQuoted_quoteString (s : String) : IsQuoted (quoteString s) (goSpelled s) := by
  refine ⟨_, rfl, ?_⟩
  rw [goSpelled]
  induction s.toList with
  | nil => exact writes_nil
  | cons c text ih => exact spells_charText c ih

/-- **A string of the engine is read back** by JavaScript. -/
theorem ofPieces_goSpelled (s : String) : Js.ofPieces (goSpelled s) = Js.ofString s := by
  rw [goSpelled, Js.ofPieces, Js.ofString, List.flatMap_map]
  congr 1
  funext c
  rw [charSpelled]
  split
  · rename_i escaped
    rw [Js.unitsOfPiece, Js.unitsOf, if_pos escaped.2.small]
  · rfl

/-! ## Sizes -/

@[simp] theorem byteSize_nil : byteSize [] = 0 := rfl

@[simp] theorem byteSize_cons (c : Char) (text : List Char) :
    byteSize (c :: text) = c.utf8Size + byteSize text := rfl

@[simp] theorem byteSize_append (s t : List Char) :
    byteSize (s ++ t) = byteSize s + byteSize t := by
  induction s with
  | nil => rw [List.nil_append, byteSize_nil, Nat.zero_add]
  | cons c s ih => rw [List.cons_append, byteSize_cons, byteSize_cons, ih, Nat.add_assoc]

/-- A body that fits is read as it is. -/
theorem limited_of_fits {budget : ℕ} {text : List Char} (fits : byteSize text ≤ budget) :
    limited budget text = text := by
  induction text generalizing budget with
  | nil => rfl
  | cons c text ih =>
      rw [byteSize_cons] at fits
      rw [limited, if_pos (by omega), ih (by omega)]

theorem utf8Size_digitChar : ∀ d < 16, (Nat.digitChar d).utf8Size = 1 := by decide

theorem byteSize_unicodeEscape (n : ℕ) : byteSize (unicodeEscape n) = 6 := by
  simp only [unicodeEscape, hexText, byteSize_cons, byteSize_nil,
    utf8Size_digitChar _ (Nat.mod_lt _ (show 0 < 16 by decide))]
  rfl

/-- The text of a piece has at most six bytes for each of its units. -/
theorem byteSize_pieceText (p : Piece) : byteSize (pieceText p) ≤ 6 * (unitsOfPiece p).length := by
  cases p with
  | unit u => exact (byteSize_unicodeEscape _).le
  | char c =>
      have units : 1 ≤ (unitsOfPiece (.char c)).length := by
        rw [unitsOfPiece, Js.unitsOf]
        split <;> simp
      rw [pieceText]
      cases shortLetter c with
      | some letter =>
          have most := letter.utf8Size_le_four
          simp only [byteSize_cons, byteSize_nil, show '\\'.utf8Size = 1 from rfl]
          omega
      | none =>
          dsimp only
          split
          · rw [byteSize_unicodeEscape]
            omega
          · have most := c.utf8Size_le_four
            simp only [byteSize_cons, byteSize_nil]
            omega

theorem byteSize_quote (s : JsString) : byteSize (quote s) ≤ 6 * s.length + 2 := by
  have inside : ∀ ps : List Piece,
      byteSize (ps.flatMap pieceText) ≤ 6 * (Js.ofPieces ps).length := by
    intro ps
    induction ps with
    | nil => exact le_rfl
    | cons p ps ih =>
        have front := byteSize_pieceText p
        rw [Js.ofPieces] at ih ⊢
        simp only [List.flatMap_cons, byteSize_append, List.length_append]
        omega
  have whole := inside (codePoints s)
  rw [Js.ofPieces_codePoints] at whole
  simp only [quote, byteSize_cons, byteSize_append, byteSize_nil, show '"'.utf8Size = 1 from rfl]
  omega

end Tozalist.Engine
