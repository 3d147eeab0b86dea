/-
# Tozalist.Js.Json -- `JSON.stringify` and `JSON.parse`

`Theory.Json` with the strings of JavaScript.  A string is written as its code points, and a
surrogate without its partner as an escape, so that every string has a text; that text is read
back as the string (`parse_stringify`).  The double that is nearest to a number is a parameter.
-/
import Tozalist.Js.Text
import Tozalist.Theory.Json

namespace Tozalist.Js

set_option autoImplicit false

open Theory (Json)
open Theory.Json (IsNumeral IsQuoted Piece Writes hexDigit hexUnit isNumeral_toDigits shortEscape
  writes_nil)

/-! ## Code points -/

def isHigh (u : UInt16) : Bool := 0xD800 ≤ u.toNat && u.toNat < 0xDC00

def isLow (u : UInt16) : Bool := 0xDC00 ≤ u.toNat && u.toNat < 0xE000

/-- The character of a surrogate pair. -/
def paired (high low : UInt16) : Char :=
  Char.ofNat (0x10000 + (high.toNat - 0xD800) * 0x400 + (low.toNat - 0xDC00))

/-- A unit that is not half of a pair. -/
def codePoint (u : UInt16) : Piece :=
  if isHigh u || isLow u then .unit u else .char (Char.ofNat u.toNat)

/-- The code points of a string: its characters, and the surrogates without a partner. -/
def codePoints : JsString → List Piece
  | [] => []
  | [u] => [codePoint u]
  | u :: v :: rest =>
      if isHigh u && isLow v then .char (paired u v) :: codePoints rest
      else codePoint u :: codePoints (v :: rest)

/-- The units of a piece. -/
def unitsOfPiece : Piece → JsString
  | .char c => unitsOf c
  | .unit u => [u]

/-- The string that is spelled so. -/
def ofPieces (ps : List Piece) : JsString := ps.flatMap unitsOfPiece

theorem toNat_ofNat {n : ℕ} (valid : n.isValidChar) : (Char.ofNat n).toNat = n := by
  rw [Char.ofNat, dif_pos valid]
  rfl

theorem unitsOf_paired {high low : UInt16} (isHigh_ : isHigh high = true)
    (isLow_ : isLow low = true) : unitsOf (paired high low) = [high, low] := by
  simp only [isHigh, isLow, Bool.and_eq_true, decide_eq_true_eq] at isHigh_ isLow_
  have valid : (0x10000 + (high.toNat - 0xD800) * 0x400 + (low.toNat - 0xDC00)).isValidChar :=
    .inr ⟨by omega, by omega⟩
  have first : UInt16.ofNat (0xD800 + (0x10000 + (high.toNat - 0xD800) * 0x400 +
      (low.toNat - 0xDC00) - 0x10000) / 0x400) = high := by
    apply UInt16.toNat_inj.1
    rw [UInt16.toNat_ofNat']
    omega
  have second : UInt16.ofNat (0xDC00 + (0x10000 + (high.toNat - 0xD800) * 0x400 +
      (low.toNat - 0xDC00) - 0x10000) % 0x400) = low := by
    apply UInt16.toNat_inj.1
    rw [UInt16.toNat_ofNat']
    omega
  rw [paired, unitsOf, toNat_ofNat valid, if_neg (by omega)]
  exact congrArg₂ (fun u v => [u, v]) first second

theorem unitsOfPiece_codePoint (u : UInt16) : unitsOfPiece (codePoint u) = [u] := by
  rw [codePoint]
  split
  · rfl
  · rename_i plain
    simp only [isHigh, isLow, Bool.or_eq_true, Bool.and_eq_true, decide_eq_true_eq, not_or,
      not_and, not_lt] at plain
    have small := u.toNat_lt
    have valid : u.toNat.isValidChar := by
      by_cases low : u.toNat < 0xD800
      · exact .inl low
      · exact .inr ⟨by omega, by omega⟩
    rw [unitsOfPiece, unitsOf, toNat_ofNat valid, if_pos small, UInt16.ofNat_toNat]

/-- **A string is its code points.** -/
theorem ofPieces_codePoints (s : JsString) : ofPieces (codePoints s) = s := by
  fun_induction codePoints s with
  | case1 => rfl
  | case2 u => exact (List.append_nil _).trans (unitsOfPiece_codePoint u)
  | case3 u v rest pair ih =>
      rw [Bool.and_eq_true] at pair
      rw [ofPieces, List.flatMap_cons]
      exact congrArg₂ (· ++ ·) (unitsOf_paired pair.1 pair.2) ih
  | case4 u v rest _ ih =>
      rw [ofPieces, List.flatMap_cons]
      exact congrArg₂ (· ++ ·) (unitsOfPiece_codePoint u) ih

/-! ## Texts of strings -/

/-- The four digits of a unit. -/
def hexText (n : ℕ) : List Char :=
  [Nat.digitChar (n / 4096 % 16), Nat.digitChar (n / 256 % 16), Nat.digitChar (n / 16 % 16),
    Nat.digitChar (n % 16)]

/-- `\\u` and four digits. -/
def unicodeEscape (n : ℕ) : List Char := '\\' :: 'u' :: hexText n

/-- The letter of the short escape of a character. -/
def shortLetter (c : Char) : Option Char :=
  if c = '"' ∨ c = '\\' then some c
  else if c = '\x08' then some 'b'
  else if c = '\x0c' then some 'f'
  else if c = '\n' then some 'n'
  else if c = '\r' then some 'r'
  else if c = '\t' then some 't'
  else none

/-- The text of a piece between quotation marks. -/
def pieceText : Piece → List Char
  | .unit u => unicodeEscape u.toNat
  | .char c =>
      match shortLetter c with
      | some letter => ['\\', letter]
      | none => if c.toNat < 32 then unicodeEscape c.toNat else [c]

/-- How the text of a piece spells it. -/
def pieceSpelled : Piece → Piece
  | .unit u => .unit u
  | .char c =>
      if shortLetter c = none ∧ c.toNat < 32 then .unit (UInt16.ofNat c.toNat) else .char c

/-- `JSON.stringify` of a string. -/
def quote (s : JsString) : List Char := '"' :: ((codePoints s).flatMap pieceText ++ ['"'])

/-- How the text of a string spells it. -/
def spelled (s : JsString) : List Piece := (codePoints s).map pieceSpelled

theorem hexDigit_digitChar : ∀ d < 16, hexDigit (Nat.digitChar d) = some d := by decide

theorem hexUnit_hexText {n : ℕ} (small : n < 65536) :
    hexUnit (Nat.digitChar (n / 4096 % 16)) (Nat.digitChar (n / 256 % 16))
      (Nat.digitChar (n / 16 % 16)) (Nat.digitChar (n % 16)) = some (UInt16.ofNat n) := by
  simp only [hexUnit, hexDigit_digitChar _ (Nat.mod_lt _ (show 0 < 16 by decide)),
    Option.bind_eq_bind, Option.bind_some]
  congr 2
  omega

theorem writes_unicodeEscape {n : ℕ} (small : n < 65536) {text : List Char} {ps : List Piece}
    (writes : Writes text ps) :
    Writes (unicodeEscape n ++ text) (.unit (UInt16.ofNat n) :: ps) :=
  writes.unit (hexUnit_hexText small)

theorem shortEscape_shortLetter {c letter : Char} (short : shortLetter c = some letter) :
    shortEscape letter = some c := by
  unfold shortLetter at short
  split at short
  · rename_i itself
    obtain rfl := Option.some.inj short
    exact if_pos (itself.elim .inl fun is => .inr (.inl is))
  all_goals
    repeat' split at short
  all_goals cases short
  all_goals
    rename_i is
    rw [is]
    rfl

theorem plain_of_not_short {c : Char} (long : shortLetter c = none) : c ≠ '"' ∧ c ≠ '\\' := by
  constructor <;>
  · rintro rfl
    cases long

/-- The text of a piece spells it. -/
theorem writes_pieceText (p : Piece) {text : List Char} {ps : List Piece}
    (writes : Writes text ps) : Writes (pieceText p ++ text) (pieceSpelled p :: ps) := by
  cases p with
  | unit u =>
      have is := writes_unicodeEscape (UInt16.toNat_lt u) writes
      rw [UInt16.ofNat_toNat] at is
      exact is
  | char c =>
      rw [pieceText, pieceSpelled]
      cases short : shortLetter c with
      | some letter =>
          dsimp only
          rw [if_neg fun both => by cases both.1]
          exact writes.escape (shortEscape_shortLetter short)
      | none =>
          dsimp only
          by_cases control : c.toNat < 32
          · rw [if_pos control, if_pos ⟨rfl, control⟩]
            exact writes_unicodeEscape (by omega) writes
          · rw [if_neg control, if_neg fun both => control both.2]
            obtain ⟨quote, escape⟩ := plain_of_not_short short
            exact writes.char quote escape (Nat.not_lt.1 control)

theorem writes_flatMap (ps : List Piece) : Writes (ps.flatMap pieceText) (ps.map pieceSpelled) := by
  induction ps with
  | nil => exact writes_nil
  | cons p ps ih => exact writes_pieceText p ih

theorem isQuoted_quote (s : JsString) : IsQuoted (quote s) (spelled s) :=
  ⟨_, rfl, writes_flatMap _⟩

theorem unitsOfPiece_pieceSpelled (p : Piece) : unitsOfPiece (pieceSpelled p) = unitsOfPiece p := by
  cases p with
  | unit u => rfl
  | char c =>
      rw [pieceSpelled]
      split
      · rename_i control
        rw [unitsOfPiece, unitsOfPiece, unitsOf, if_pos (by omega)]
      · rfl

/-- **A string is what its text spells.** -/
theorem ofPieces_spelled (s : JsString) : ofPieces (spelled s) = s := by
  rw [spelled, ofPieces, List.flatMap_map]
  simp only [unitsOfPiece_pieceSpelled]
  exact ofPieces_codePoints s

/-! ## Texts of values -/

/-- `JSON.stringify`, of a value whose numbers are natural. -/
def stringify (v : Json ℕ JsString) : List Char := v.text (Nat.toDigits 10) quote

/-- `JSON.parse`, with the double that is nearest to a number. -/
def parse {ν : Type} (double : List Char → ν) (text : List Char) : Option (Json ν JsString) :=
  (Json.parse text).map (Json.map double ofPieces)

/-- **What is written is read back.** -/
theorem parse_stringify {ν : Type} (double : List Char → ν) (v : Json ℕ JsString) :
    parse double (stringify v) = some (v.map (fun n => double (Nat.toDigits 10 n)) id) := by
  rw [parse, stringify, Json.parse_text isNumeral_toDigits isQuoted_quote, Option.map_some,
    Json.map_map]
  have same : ofPieces ∘ spelled = id := funext ofPieces_spelled
  rw [same]
  rfl

/-! ## Well-formed strings -/

/-- A code point, where a surrogate is replaced. -/
def scalarValue : Piece → Char
  | .char c => c
  | .unit _ => '\uFFFD'

/-- `String.prototype.toWellFormed`, as a text. -/
def toWellFormed (s : JsString) : List Char := (codePoints s).map scalarValue

/-- A character of one unit is its code point. -/
theorem codePoint_ofNat {c : Char} (small : c.toNat < 0x10000) :
    codePoint (UInt16.ofNat c.toNat) = .char c ∧ isHigh (UInt16.ofNat c.toNat) = false := by
  have same : (UInt16.ofNat c.toNat).toNat = c.toNat := by
    rw [UInt16.toNat_ofNat', Nat.mod_eq_of_lt small]
  have valid : c.toNat < 0xD800 ∨ 0xE000 ≤ c.toNat := by
    rcases c.valid with low | high
    · exact .inl low
    · exact .inr high.1
  have high : isHigh (UInt16.ofNat c.toNat) = false := by
    simp only [isHigh, same, Bool.and_eq_false_iff, decide_eq_false_iff_not]
    omega
  have low : isLow (UInt16.ofNat c.toNat) = false := by
    simp only [isLow, same, Bool.and_eq_false_iff, decide_eq_false_iff_not]
    omega
  refine ⟨?_, high⟩
  rw [codePoint, high, low, same, Char.ofNat_toNat]
  rfl

/-- The two units of the other characters are a pair. -/
theorem paired_unitsOf {c : Char} (large : ¬ c.toNat < 0x10000) :
    ∃ u v, unitsOf c = [u, v] ∧ isHigh u = true ∧ isLow v = true ∧ paired u v = c := by
  have most : c.toNat < 0x110000 := by
    rcases c.valid with low | high
    · exact absurd (show c.toNat < 0xD800 from low) (by omega)
    · exact high.2
  have first : (UInt16.ofNat (0xD800 + (c.toNat - 0x10000) / 0x400)).toNat =
      0xD800 + (c.toNat - 0x10000) / 0x400 := by
    rw [UInt16.toNat_ofNat', Nat.mod_eq_of_lt (by omega)]
  have second : (UInt16.ofNat (0xDC00 + (c.toNat - 0x10000) % 0x400)).toNat =
      0xDC00 + (c.toNat - 0x10000) % 0x400 := by
    rw [UInt16.toNat_ofNat', Nat.mod_eq_of_lt (by omega)]
  refine ⟨_, _, by rw [unitsOf, if_neg large], ?_, ?_, ?_⟩
  · simp only [isHigh, first, Bool.and_eq_true, decide_eq_true_eq]
    omega
  · simp only [isLow, second, Bool.and_eq_true, decide_eq_true_eq]
    omega
  · rw [paired, first, second, show 0x10000 + (0xD800 + (c.toNat - 0x10000) / 0x400 - 0xD800) *
      0x400 + (0xDC00 + (c.toNat - 0x10000) % 0x400 - 0xDC00) = c.toNat by omega, Char.ofNat_toNat]

theorem codePoints_cons {u : UInt16} (single : isHigh u = false) (rest : JsString) :
    codePoints (u :: rest) = codePoint u :: codePoints rest := by
  cases rest with
  | nil => rfl
  | cons v rest => rw [codePoints, single, Bool.false_and, if_neg (by decide)]

/-- **The code points of a text** are its characters. -/
theorem codePoints_flatMap (text : List Char) :
    codePoints (text.flatMap unitsOf) = text.map .char := by
  induction text with
  | nil => rfl
  | cons c text ih =>
      rw [List.flatMap_cons, List.map_cons]
      by_cases small : c.toNat < 0x10000
      · obtain ⟨itself, single⟩ := codePoint_ofNat small
        rw [unitsOf, if_pos small, List.singleton_append, codePoints_cons single, itself, ih]
      · obtain ⟨u, v, units, high, low, same⟩ := paired_unitsOf small
        rw [units, List.cons_append, List.cons_append, List.nil_append, codePoints, high, low,
          Bool.and_self, if_pos rfl, same, ih]

theorem toWellFormed_ofString (s : String) : toWellFormed (ofString s) = s.toList := by
  rw [toWellFormed, ofString, codePoints_flatMap, List.map_map]
  exact List.map_id _

theorem ofString_injective {s t : String} (same : ofString s = ofString t) : s = t := by
  have chars := congrArg toWellFormed same
  rw [toWellFormed_ofString, toWellFormed_ofString] at chars
  exact String.ext chars

end Tozalist.Js
