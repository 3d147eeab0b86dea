/-
# Tozalist.Api.Totp -- one-time codes and the text of their secrets

`apps/api/src/internal/totp.ts`: secrets are bytes in base 32, and a code is the decimal text of
four bytes of a digest of the key and of the number of a 30-second step.

Both directions of base 32 shift digits through a 32-bit number that they never mask; they are
`Theory.Regroup`.  HMAC-SHA1 is a parameter, any function to 20 bytes.  `totp_exact` has the
three results: the text of any bytes is read back as these bytes, a code is accepted exactly if
it is the six digits of the step before, of this one or of the one after, and the bytes of a
digest are never read past its end.
-/
import Mathlib.Data.List.Induction
import Tozalist.Js.Date
import Tozalist.Js.Text
import Tozalist.Theory.Regroup

namespace Tozalist.Api

set_option autoImplicit false

open Theory (Regrouped digitAbove number number_concat number_inj)

/-! ## Base 32 -/

/-- `BASE32_ALPHABET`. -/
def base32Alphabet : JsString := Js.ofString "ABCDEFGHIJKLMNOPQRSTUVWXYZ234567"

/-- The character for five bits. -/
def base32Char (n : ℕ) : UInt16 := base32Alphabet.getD n 0

/-- The inner loop of `base32Encode`: the bits that stay, and the text. -/
def emitChars (value : BitVec 32) (bits : ℕ) (output : JsString) : ℕ × JsString :=
  if 5 ≤ bits then
    emitChars value (bits - 5) (output ++ [base32Char (value >>> (bits - 5) &&& 31).toNat])
  else (bits, output)
  termination_by bits

/-- The variables of `base32Encode`; of a number, its 32 bits. -/
structure Base32Encoding where
  bits : ℕ
  value : BitVec 32
  output : JsString

/-- One round of `base32Encode`. -/
def Base32Encoding.byte (e : Base32Encoding) (byte : UInt8) : Base32Encoding :=
  let value := e.value <<< 8 ||| BitVec.ofNat 32 byte.toNat
  let (bits, output) := emitChars value (e.bits + 8) e.output
  ⟨bits, value, output⟩

/-- `base32Encode`. -/
def base32Encode (buffer : List UInt8) : JsString :=
  let e := buffer.foldl Base32Encoding.byte ⟨0, 0, []⟩
  if 0 < e.bits then e.output ++ [base32Char (e.value <<< (5 - e.bits) &&& 31).toNat]
  else e.output

/-- `.replace(/=+$/, '')`. -/
def stripPadding (s : JsString) : JsString := (s.reverse.dropWhile (· == 0x3D)).reverse

/-- The variables of `base32Decode`. -/
structure Base32Decoding where
  bits : ℕ
  value : BitVec 32
  bytes : List UInt8

/-- One round of `base32Decode`; a character beyond 16 bits is in no alphabet, and neither are
its two units. -/
def Base32Decoding.char (d : Base32Decoding) (char : UInt16) : Option Base32Decoding :=
  match base32Alphabet.idxOf? char with
  | none => none
  | some index =>
      let value := d.value <<< 5 ||| BitVec.ofNat 32 index
      let bits := d.bits + 5
      if 8 ≤ bits then
        some ⟨bits - 8, value, d.bytes ++ [UInt8.ofNat (value >>> (bits - 8) &&& 255).toNat]⟩
      else some ⟨bits, value, d.bytes⟩

/-- `base32Decode`. -/
def base32Decode (toUpperCase : JsString → JsString) (encoded : JsString) : Option (List UInt8) :=
  ((stripPadding (toUpperCase encoded)).foldlM Base32Decoding.char ⟨0, 0, []⟩).map (·.bytes)

/-- `generateTotpSecret`, of the bytes that are drawn. -/
def generateTotpSecret (bytes : List UInt8) : JsString := base32Encode bytes

/-! ## Codes -/

/-- `TOTP_STEP_SECONDS`. -/
def totpStepSeconds : Int := 30

/-- `TOTP_DIGITS`. -/
def totpDigits : ℕ := 6

/-- What HMAC-SHA1 gives. -/
structure Digest where
  bytes : List UInt8
  size : bytes.length = 20

/-- An exception. -/
inductive TotpError where
  /-- `writeBigUInt64BE` of a number that is out of range -/
  | outOfRange
  deriving DecidableEq, Repr

/-- `writeBigUInt64BE`. -/
def bigUInt64BE (counter : ℕ) : List UInt8 :=
  (List.range 8).map fun i => UInt8.ofNat (counter / 256 ^ (7 - i))

/-- `digest[i] ?? 0`. -/
def byteAt (digest : List UInt8) (i : ℕ) : ℕ := (digest.getD i 0).toNat

/-- `offset`. -/
def hotpOffset (digest : List UInt8) : ℕ := byteAt digest (digest.length - 1) &&& 15

/-- `code`; with the first bit cleared, nothing is shifted out of a 32-bit number. -/
def hotpCode (digest : List UInt8) : ℕ :=
  let offset := hotpOffset digest
  (byteAt digest offset &&& 127) <<< 24 ||| (byteAt digest (offset + 1) &&& 255) <<< 16 |||
    (byteAt digest (offset + 2) &&& 255) <<< 8 ||| (byteAt digest (offset + 3) &&& 255)

/-- Where the digest is read. -/
def hotpReads (digest : List UInt8) : List ℕ :=
  let offset := hotpOffset digest
  [digest.length - 1, offset, offset + 1, offset + 2, offset + 3]

/-- `String.prototype.padStart` with one unit. -/
def padStart (s : JsString) (length : ℕ) (unit : UInt16) : JsString :=
  List.replicate (length - s.length) unit ++ s

section Verification

variable (toUpperCase : JsString → JsString) (hmacSha1 : List UInt8 → List UInt8 → Digest)

/-- `hotp`. -/
def hotp (key : List UInt8) (counter : Int) : Except TotpError JsString :=
  if 0 ≤ counter ∧ counter < 2 ^ 64 then
    let digest := (hmacSha1 key (bigUInt64BE counter.toNat)).bytes
    .ok (padStart (Js.ofNat (hotpCode digest % 10 ^ totpDigits)) totpDigits 0x30)
  else .error .outOfRange

/-- `totpAt`. -/
def totpAt (secretBase32 : JsString) (epochMs : Int) : Except TotpError (Option JsString) :=
  match base32Decode toUpperCase secretBase32 with
  | none => .ok none
  | some key =>
      if key.length = 0 then .ok none
      else some <$> hotp hmacSha1 key (epochMs / 1000 / totpStepSeconds)

/-- The loop of `verifyTotp`.  Both texts are ASCII, so their bytes are equal exactly when they
are. -/
def verifyDrifts (secretBase32 code : JsString) (epochMs : Int) :
    List Int → Except TotpError Bool
  | [] => .ok false
  | drift :: rest => do
      match ← totpAt toUpperCase hmacSha1 secretBase32
          (epochMs + drift * totpStepSeconds * 1000) with
      | none => return false
      | some expected =>
          if expected = code then return true
          else verifyDrifts secretBase32 code epochMs rest

/-- `verifyTotp`. -/
def verifyTotp (secretBase32 code : JsString) (epochMs : Int) : Except TotpError Bool :=
  if ¬ (code.length = 6 ∧ code.all Js.isDigit) then .ok false
  else verifyDrifts toUpperCase hmacSha1 secretBase32 code epochMs [-1, 0, 1]

end Verification

/-- `totpUri`. -/
def totpUri (encodeURIComponent : JsString → JsString) (secretBase32 accountEmail : JsString) :
    JsString :=
  let issuer := encodeURIComponent (Js.ofString "TozaList")
  Js.ofString "otpauth://totp/" ++ issuer ++ Js.ofString ":" ++ encodeURIComponent accountEmail ++
    Js.ofString "?secret=" ++ secretBase32 ++ Js.ofString "&issuer=" ++ issuer ++
    Js.ofString "&algorithm=SHA1&digits=" ++ Js.ofNat totpDigits ++ Js.ofString "&period=" ++
    Js.ofNat totpStepSeconds.toNat

/-! ## The text of bytes -/

section Codec

/-- Characters of the alphabet are read back. -/
theorem idxOf_base32Char : ∀ d < 32, base32Alphabet.idxOf? (base32Char d) = some d := by
  decide +kernel

theorem base32Char_mem : ∀ d < 32, base32Char d ∈ base32Alphabet := by decide +kernel

/-- The bytes read, as digits. -/
def byteDigits (buffer : List UInt8) : List ℕ := buffer.map UInt8.toNat

/-- The inner loop writes five bits at a time, until fewer wait. -/
theorem emitChars_spec {read readBits : ℕ} {written : List ℕ} {value : BitVec 32} (bits : ℕ)
    (regrouped : Regrouped 5 read readBits written bits value) :
    ∃ more, (emitChars value bits (written.map base32Char)).2 = more.map base32Char ∧
      Regrouped 5 read readBits more (emitChars value bits (written.map base32Char)).1 value ∧
      (emitChars value bits (written.map base32Char)).1 < 5 := by
  induction bits using Nat.strong_induction_on generalizing written with
  | _ bits ih =>
      rw [emitChars]
      split
      · rename_i enough
        have char : written.map base32Char ++ [base32Char (value >>> (bits - 5) &&& 31).toNat] =
            (written ++ [digitAbove 5 (bits - 5) value]).map base32Char := by
          rw [List.map_append]
          rfl
        rw [char]
        exact ih (bits - 5) (by omega) (regrouped.emit enough (by decide))
      · rename_i few
        exact ⟨written, rfl, regrouped, Nat.not_le.1 few⟩

/-- **The loop of the encoder.** -/
theorem encoding_spec (buffer : List UInt8) :
    ∃ written, (buffer.foldl Base32Encoding.byte ⟨0, 0, []⟩).output = written.map base32Char ∧
      Regrouped 5 (number (2 ^ 8) (byteDigits buffer)) (8 * buffer.length) written
        (buffer.foldl Base32Encoding.byte ⟨0, 0, []⟩).bits
        (buffer.foldl Base32Encoding.byte ⟨0, 0, []⟩).value ∧
      (buffer.foldl Base32Encoding.byte ⟨0, 0, []⟩).bits < 5 := by
  induction buffer using List.reverseRecOn with
  | nil => exact ⟨[], rfl, .start 5, by decide⟩
  | append_singleton buffer byte ih =>
      obtain ⟨written, output, regrouped, few⟩ := ih
      rw [List.foldl_append, List.foldl_cons, List.foldl_nil]
      generalize buffer.foldl Base32Encoding.byte ⟨0, 0, []⟩ = e at output regrouped few
      have pushed := regrouped.push (show byte.toNat < 2 ^ 8 from byte.toNat_lt) (by omega)
      rw [← number_concat] at pushed
      obtain ⟨more, text, after, fewer⟩ := emitChars_spec (e.bits + 8) pushed
      rw [← output] at text after fewer
      refine ⟨more, text, ?_, fewer⟩
      rw [byteDigits, List.map_append, List.length_append, List.length_singleton, Nat.mul_add]
      exact after

/-- **What the encoder writes**: the number of the bytes, with zeros behind it to a full
character. -/
theorem base32Encode_spec (buffer : List UInt8) :
    ∃ written k, base32Encode buffer = written.map base32Char ∧ k < 5 ∧
      5 * written.length = 8 * buffer.length + k ∧ (∀ d ∈ written, d < 32) ∧
      number (2 ^ 5) written = number (2 ^ 8) (byteDigits buffer) * 2 ^ k := by
  obtain ⟨written, output, regrouped, few⟩ := encoding_spec buffer
  unfold base32Encode
  generalize buffer.foldl Base32Encoding.byte ⟨0, 0, []⟩ = e at output regrouped few
  dsimp only
  split
  · rename_i waiting
    -- zeros are pushed behind the bits that wait, and a last digit is written
    have pushed := regrouped.push (Nat.two_pow_pos (5 - e.bits)) (by omega)
    have full : e.bits + (5 - e.bits) = 5 := by omega
    rw [full] at pushed
    have last := pushed.emit le_rfl (by decide)
    refine ⟨_, 5 - e.bits, ?_, by omega, last.length, last.digits, ?_⟩
    · rw [List.map_append, output]
      simp [digitAbove]
    · rw [← Nat.add_zero (number _ (byteDigits buffer) * _), ← last.number]
      simp
  · rename_i nothing
    have none_ : e.bits = 0 := by omega
    rw [none_] at regrouped
    refine ⟨written, 0, output, by decide, regrouped.length, regrouped.digits, ?_⟩
    rw [← regrouped.number]
    simp

/-- One round of the decoder, on a character of the alphabet. -/
theorem char_spec {d : Base32Decoding} {read readBits digit : ℕ}
    (regrouped : Regrouped 8 read readBits (byteDigits d.bytes) d.bits d.value)
    (few : d.bits < 8) (small : digit < 32) :
    ∃ next, d.char (base32Char digit) = some next ∧ next.bits < 8 ∧
      Regrouped 8 (read * 2 ^ 5 + digit) (readBits + 5) (byteDigits next.bytes) next.bits
        next.value := by
  have pushed := regrouped.push (show digit < 2 ^ 5 from small) (by omega)
  unfold Base32Decoding.char
  rw [idxOf_base32Char digit small]
  dsimp only
  split
  · rename_i enough
    have emitted := pushed.emit enough (by decide)
    refine ⟨_, rfl, by dsimp only; omega, ?_⟩
    have byte : byteDigits (d.bytes ++ [UInt8.ofNat ((d.value <<< 5 ||| BitVec.ofNat 32 digit) >>>
        (d.bits + 5 - 8) &&& 255).toNat]) = byteDigits d.bytes ++
          [digitAbove 8 (d.bits + 5 - 8) (d.value <<< 5 ||| BitVec.ofNat 32 digit)] := by
      have below := emitted.digits _ (List.mem_append_right _ (List.mem_singleton.2 rfl))
      rw [byteDigits, List.map_append, List.map_singleton]
      congr 2
      exact Nat.mod_eq_of_lt below
    rw [byte]
    exact emitted
  · rename_i waiting
    exact ⟨_, rfl, Nat.not_le.1 waiting, pushed⟩

/-- **The loop of the decoder**, on characters of the alphabet. -/
theorem decoding_spec (digits : List ℕ) (small : ∀ d ∈ digits, d < 32) :
    ∃ d, (digits.map base32Char).foldlM Base32Decoding.char ⟨0, 0, []⟩ = some d ∧ d.bits < 8 ∧
      Regrouped 8 (number (2 ^ 5) digits) (5 * digits.length) (byteDigits d.bytes) d.bits
        d.value := by
  induction digits using List.reverseRecOn with
  | nil => exact ⟨⟨0, 0, []⟩, rfl, by decide, .start 8⟩
  | append_singleton digits digit ih =>
      obtain ⟨d, before, few, regrouped⟩ :=
        ih fun d member => small d (List.mem_append_left _ member)
      obtain ⟨next, char, fewer, after⟩ := char_spec regrouped few
        (small digit (List.mem_append_right _ (List.mem_singleton.2 rfl)))
      refine ⟨next, ?_, fewer, ?_⟩
      · rw [List.map_append, List.foldlM_append, before]
        show List.foldlM Base32Decoding.char d [base32Char digit] = some next
        rw [List.foldlM_cons, char]
        rfl
      · rwa [number_concat, List.length_append, List.length_singleton, Nat.mul_add]

theorem stripPadding_map {digits : List ℕ} (small : ∀ d ∈ digits, d < 32) :
    stripPadding (digits.map base32Char) = digits.map base32Char := by
  have padding : (0x3D : UInt16) ∉ base32Alphabet := by decide +kernel
  rcases List.eq_nil_or_concat digits with rfl | ⟨before, last, rfl⟩
  · rfl
  · rw [List.concat_eq_append] at small ⊢
    have other : ¬ (base32Char last == 0x3D) = true := by
      intro is
      have member := base32Char_mem last
        (small last (List.mem_append_right _ (List.mem_singleton.2 rfl)))
      exact padding (beq_iff_eq.1 is ▸ member)
    have turned : ((before ++ [last]).map base32Char).reverse =
        base32Char last :: (before.map base32Char).reverse := by
      rw [List.map_append, List.reverse_append]
      rfl
    rw [stripPadding, turned, List.dropWhile_cons, if_neg other, ← turned, List.reverse_reverse]

/-- **Bytes are read back.** -/
theorem base32Decode_encode {toUpperCase : JsString → JsString}
    (upper : ∀ s : JsString, (∀ u ∈ s, u ∈ base32Alphabet) → toUpperCase s = s)
    (buffer : List UInt8) : base32Decode toUpperCase (base32Encode buffer) = some buffer := by
  obtain ⟨written, k, text, few, length, small, value⟩ := base32Encode_spec buffer
  obtain ⟨d, run, fewer, regrouped⟩ := decoding_spec written small
  have plain : ∀ u ∈ written.map base32Char, u ∈ base32Alphabet := by
    intro u member
    obtain ⟨digit, inside, rfl⟩ := List.mem_map.1 member
    exact base32Char_mem digit (small digit inside)
  rw [base32Decode, text, upper _ plain, stripPadding_map small, run, Option.map_some]
  -- the zeros behind are fewer than a byte, and they are the bits that still wait
  have counted := regrouped.length
  rw [length, byteDigits, List.length_map] at counted
  have zeros : d.bits = k := by omega
  have same : d.bytes.length = buffer.length := by omega
  have numbers := regrouped.number
  rw [value, zeros] at numbers
  have below := Theory.low_lt k d.value
  have equal : number (2 ^ 8) (byteDigits d.bytes) = number (2 ^ 8) (byteDigits buffer) := by
    have quotient := congrArg (· / 2 ^ k) numbers
    simpa [Nat.mul_comm _ (2 ^ k), Nat.mul_add_div (Nat.two_pow_pos k), Nat.div_eq_of_lt below]
      using quotient
  have bytes : ∀ l : List UInt8, ∀ n ∈ byteDigits l, n < 2 ^ 8 := by
    intro l n member
    obtain ⟨byte, -, rfl⟩ := List.mem_map.1 member
    exact byte.toNat_lt
  have digits := number_inj (by decide) (by rw [byteDigits, byteDigits, List.length_map,
    List.length_map, same]) (bytes d.bytes) (bytes buffer) equal
  exact congrArg some ((List.map_inj_right fun a b is => UInt8.toNat_inj.1 is).1 digits)

end Codec

/-! ## The code of a step -/

section Codes

theorem byteAt_lt (digest : List UInt8) (i : ℕ) : byteAt digest i < 2 ^ 8 := UInt8.toNat_lt _

theorem hotpOffset_le (digest : List UInt8) : hotpOffset digest ≤ 15 := Nat.and_le_right

/-- **The digest is not read past its end.** -/
theorem hotpReads_lt (digest : Digest) : ∀ i ∈ hotpReads digest.bytes, i < digest.bytes.length := by
  intro i member
  have offset := hotpOffset_le digest.bytes
  have size := digest.size
  simp only [hotpReads, List.mem_cons, List.not_mem_nil, or_false] at member
  omega

/-- Four bytes of a digest, from `offset` on. -/
def fourBytes (digest : List UInt8) (offset : ℕ) : List ℕ :=
  byteDigits ((digest.drop offset).take 4)

theorem fourBytes_eq {digest : List UInt8} {offset : ℕ} (inside : offset + 3 < digest.length) :
    fourBytes digest offset = [byteAt digest offset, byteAt digest (offset + 1),
      byteAt digest (offset + 2), byteAt digest (offset + 3)] := by
  have read : ∀ i, offset + i < digest.length →
      (digest.drop offset)[i]? = some (digest.getD (offset + i) 0) := by
    intro i below
    rw [List.getElem?_drop, List.getD_eq_getElem?_getD, List.getElem?_eq_getElem below,
      Option.getD_some]
  have r0 := read 0 (by omega)
  have r1 := read 1 (by omega)
  have r2 := read 2 (by omega)
  have r3 := read 3 (by omega)
  rw [fourBytes]
  generalize digest.drop offset = rest at r0 r1 r2 r3
  match rest with
  | [] | [_] | [_, _] | [_, _, _] => cases r3
  | a :: b :: c :: d :: rest =>
      injection r0 with h0
      injection r1 with h1
      injection r2 with h2
      injection r3 with h3
      subst h0 h1 h2 h3
      rfl

theorem number_four (a b c d : ℕ) :
    number 256 [a, b, c, d] = ((a * 256 + b) * 256 + c) * 256 + d := by
  rw [show [a, b, c, d] = (([] ++ [a]) ++ [b] ++ [c]) ++ [d] from rfl, number_concat,
    number_concat, number_concat, number_concat, Theory.number_nil, Nat.zero_mul, Nat.zero_add]

/-- Bytes put side by side by shifts. -/
theorem shifted_bytes {a b c d : ℕ} (bs : b < 2 ^ 8) (cs : c < 2 ^ 8) (ds : d < 2 ^ 8) :
    a <<< 24 ||| b <<< 16 ||| c <<< 8 ||| d = number 256 [a, b, c, d] := by
  have low16 : c <<< 8 ||| d = c * 2 ^ 8 + d := by
    rw [← Nat.shiftLeft_add_eq_or_of_lt ds, Nat.shiftLeft_eq]
  have low24 : b <<< 16 ||| (c * 2 ^ 8 + d) = b * 2 ^ 16 + (c * 2 ^ 8 + d) := by
    rw [← Nat.shiftLeft_add_eq_or_of_lt (by omega), Nat.shiftLeft_eq]
  have low32 : a <<< 24 ||| (b * 2 ^ 16 + (c * 2 ^ 8 + d)) =
      a * 2 ^ 24 + (b * 2 ^ 16 + (c * 2 ^ 8 + d)) := by
    rw [← Nat.shiftLeft_add_eq_or_of_lt (by omega), Nat.shiftLeft_eq]
  rw [Nat.or_assoc, Nat.or_assoc, low16, low24, low32, number_four]
  ring

/-- **Truncation**: the code is the four bytes as a number, less its first bit. -/
theorem hotpCode_eq (digest : Digest) :
    hotpCode digest.bytes =
      number 256 (fourBytes digest.bytes (hotpOffset digest.bytes)) % 2 ^ 31 := by
  have offset := hotpOffset_le digest.bytes
  have size := digest.size
  have mask8 : ∀ i, byteAt digest.bytes i &&& 255 = byteAt digest.bytes i := by
    intro i
    rw [show (255 : ℕ) = 2 ^ 8 - 1 from rfl, Nat.and_two_pow_sub_one_eq_mod]
    exact Nat.mod_eq_of_lt (byteAt_lt _ i)
  have mask7 : ∀ n : ℕ, n &&& 127 = n % 2 ^ 7 := fun n =>
    (show (127 : ℕ) = 2 ^ 7 - 1 from rfl) ▸ Nat.and_two_pow_sub_one_eq_mod n 7
  have bound := fun i => byteAt_lt digest.bytes i
  rw [fourBytes_eq (by omega), hotpCode]
  simp only [mask8, mask7]
  rw [shifted_bytes (bound _) (bound _) (bound _), number_four, number_four]
  have b1 := bound (hotpOffset digest.bytes + 1)
  have b2 := bound (hotpOffset digest.bytes + 2)
  have b3 := bound (hotpOffset digest.bytes + 3)
  omega

/-- A text of decimal digits, as a number. -/
theorem ofDigitChars_eq_number (digits : List Char) :
    Nat.ofDigitChars 10 digits 0 = number 10 (digits.map fun c => c.toNat - 48) := by
  induction digits using List.reverseRecOn with
  | nil => rfl
  | append_singleton digits c ih =>
      rw [Nat.ofDigitChars_append, ih, List.map_append, List.map_singleton, number_concat,
        Nat.ofDigitChars_cons, Nat.ofDigitChars_nil, Nat.mul_comm]
      rfl

theorem isDigit_bounds {u : UInt16} (digit : Js.isDigit u = true) :
    48 ≤ u.toNat ∧ u.toNat ≤ 57 := by
  simp only [Js.isDigit, Bool.and_eq_true, decide_eq_true_eq, UInt16.le_iff_toNat_le] at digit
  exact digit

/-- The digits of a text that is read as a number. -/
theorem toNat?_digits {s : JsString} {n : ℕ} (reads : Js.toNat? s = some n) :
    (∀ u ∈ s, Js.isDigit u = true) ∧ number 10 (s.map fun u => u.toNat - 48) = n := by
  have plain : ∀ n ≤ 57, (Char.ofNat n).toNat = n := by decide
  rw [Js.toNat?] at reads
  split at reads
  · rename_i all
    have digits := List.all_eq_true.1 all
    refine ⟨digits, ?_⟩
    rw [ofDigitChars_eq_number, List.map_map] at reads
    rw [← Option.some.inj reads]
    congr 1
    apply List.map_congr_left
    intro u member
    show u.toNat - 48 = (Char.ofNat u.toNat).toNat - 48
    rw [plain _ (isDigit_bounds (digits u member)).2]
  · cases reads

/-- **Texts of one length** that are read as one number are the same. -/
theorem toNat?_inj {s t : JsString} {n : ℕ} (length : s.length = t.length)
    (left : Js.toNat? s = some n) (right : Js.toNat? t = some n) : s = t := by
  have back : ∀ s : JsString, (∀ u ∈ s, Js.isDigit u = true) →
      (s.map fun u => u.toNat - 48).map (fun d => UInt16.ofNat (d + 48)) = s := by
    intro s digits
    rw [List.map_map]
    refine (List.map_congr_left fun u member => ?_).trans (List.map_id' s)
    have bounds := isDigit_bounds (digits u member)
    show UInt16.ofNat (u.toNat - 48 + 48) = u
    rw [Nat.sub_add_cancel bounds.1, UInt16.ofNat_toNat]
  have below : ∀ s : JsString, (∀ u ∈ s, Js.isDigit u = true) →
      ∀ d ∈ s.map fun u => u.toNat - 48, d < 10 := by
    intro s digits d member
    obtain ⟨u, inside, rfl⟩ := List.mem_map.1 member
    have bounds := isDigit_bounds (digits u inside)
    omega
  obtain ⟨digits, value⟩ := toNat?_digits left
  obtain ⟨digits', value'⟩ := toNat?_digits right
  have same := number_inj (by decide) (by rw [List.length_map, List.length_map, length])
    (below s digits) (below t digits') (value.trans value'.symm)
  rw [← back s digits, same, back t digits']

/-- **Padding**: the six digits that are read as a number. -/
theorem padStart_eq_iff {n : ℕ} (small : n < 10 ^ totpDigits) (code : JsString) :
    padStart (Js.ofNat n) totpDigits 0x30 = code ↔
      code.length = totpDigits ∧ Js.toNat? code = some n := by
  have fits := Js.length_ofNat_le small (by decide)
  have length : (padStart (Js.ofNat n) totpDigits 0x30).length = totpDigits := by
    rw [padStart, List.length_append, List.length_replicate]
    omega
  have reads := Js.toNat?_zeros_append (Js.toNat?_ofNat n) (totpDigits - (Js.ofNat n).length)
  constructor
  · rintro rfl
    exact ⟨length, reads⟩
  · rintro ⟨six, same⟩
    exact toNat?_inj (length.trans six.symm) reads same

end Codes

/-! ## Acceptance -/

/-- The value of a counter: 31 bits of the digest of its eight bytes, from where the last four
bits of the digest point, in six digits. -/
def hotpValue (hmacSha1 : List UInt8 → List UInt8 → Digest) (key : List UInt8) (counter : ℕ) : ℕ :=
  let digest := (hmacSha1 key (bigUInt64BE counter)).bytes
  number 256 (fourBytes digest (byteAt digest 19 % 16)) % 2 ^ 31 % 10 ^ 6

section Acceptance

variable {toUpperCase : JsString → JsString} {hmacSha1 : List UInt8 → List UInt8 → Digest}

theorem hotp_eq (key : List UInt8) {counter : Int} (low : 0 ≤ counter) (high : counter < 2 ^ 64) :
    hotp hmacSha1 key counter =
      .ok (padStart (Js.ofNat (hotpValue hmacSha1 key counter.toNat)) totpDigits 0x30) := by
  have offset : hotpOffset (hmacSha1 key (bigUInt64BE counter.toNat)).bytes =
      byteAt (hmacSha1 key (bigUInt64BE counter.toNat)).bytes 19 % 16 := by
    rw [hotpOffset, (hmacSha1 key (bigUInt64BE counter.toNat)).size]
    exact Nat.and_two_pow_sub_one_eq_mod _ 4
  rw [hotp, if_pos ⟨low, high⟩]
  dsimp only
  rw [hotpCode_eq, offset]
  rfl

/-- Thirty seconds more are one counter more. -/
theorem counter_drift (epochMs drift : Int) :
    (epochMs + drift * totpStepSeconds * 1000) / 1000 / totpStepSeconds =
      epochMs / 30000 + drift := by
  unfold totpStepSeconds
  omega

/-- The loop, over counters that are in range. -/
theorem verifyDrifts_eq {secret : JsString} {key : List UInt8}
    (decodes : base32Decode toUpperCase secret = some key) (some_ : key ≠ []) {code : JsString}
    {epochMs : Int} (drifts : List Int)
    (range : ∀ drift ∈ drifts, 0 ≤ epochMs / 30000 + drift ∧ epochMs / 30000 + drift < 2 ^ 64) :
    ∃ accepts, verifyDrifts toUpperCase hmacSha1 secret code epochMs drifts = .ok accepts ∧
      (accepts = true ↔ ∃ drift ∈ drifts, padStart (Js.ofNat
        (hotpValue hmacSha1 key (epochMs / 30000 + drift).toNat)) totpDigits 0x30 = code) := by
  induction drifts with
  | nil => exact ⟨false, rfl, by simp⟩
  | cons drift rest ih =>
      obtain ⟨low, high⟩ := range drift List.mem_cons_self
      have expected : totpAt toUpperCase hmacSha1 secret
          (epochMs + drift * totpStepSeconds * 1000) = .ok (some (padStart (Js.ofNat
            (hotpValue hmacSha1 key (epochMs / 30000 + drift).toNat)) totpDigits 0x30)) := by
        rw [totpAt, decodes]
        dsimp only
        rw [if_neg (fun none_ => some_ (List.length_eq_zero_iff.1 none_)), counter_drift,
          hotp_eq key low high]
        rfl
      have unfolded : verifyDrifts toUpperCase hmacSha1 secret code epochMs (drift :: rest) =
          if padStart (Js.ofNat (hotpValue hmacSha1 key (epochMs / 30000 + drift).toNat))
            totpDigits 0x30 = code then .ok true
          else verifyDrifts toUpperCase hmacSha1 secret code epochMs rest := by
        rw [verifyDrifts, expected]
        simp only [bind, Except.bind, pure, Except.pure]
      rw [unfolded]
      split
      · rename_i hit
        exact ⟨true, rfl, fun _ => ⟨drift, List.mem_cons_self, hit⟩, fun _ => rfl⟩
      · rename_i miss
        obtain ⟨accepts, run, exactly⟩ := ih fun d member => range d (List.mem_cons_of_mem _ member)
        refine ⟨accepts, run, exactly.trans ⟨?_, ?_⟩⟩
        · rintro ⟨d, member, hit⟩
          exact ⟨d, List.mem_cons_of_mem _ member, hit⟩
        · rintro ⟨d, member, hit⟩
          rcases List.mem_cons.1 member with rfl | later
          · exact absurd hit miss
          · exact ⟨d, later, hit⟩

end Acceptance

/-- **One-time codes are exact.**  Base 32 reads back the bytes it wrote; from one step after the
epoch on, a code is accepted exactly if it is the six digits of the value of the counter before,
of this one or of the one after; and of a digest only bytes that it has are read. -/
theorem totp_exact (toUpperCase : JsString → JsString)
    (upper : ∀ s : JsString, (∀ u ∈ s, u ∈ base32Alphabet) → toUpperCase s = s)
    (hmacSha1 : List UInt8 → List UInt8 → Digest) :
    (∀ buffer : List UInt8, base32Decode toUpperCase (base32Encode buffer) = some buffer) ∧
      (∀ (secret : JsString) (key : List UInt8), base32Decode toUpperCase secret = some key →
        key ≠ [] → ∀ epochMs : Int, 30000 ≤ epochMs → Js.TimeClip epochMs → ∀ code : JsString,
          ∃ accepts, verifyTotp toUpperCase hmacSha1 secret code epochMs = .ok accepts ∧
            (accepts = true ↔ code.length = 6 ∧ ∃ drift ∈ [(-1 : Int), 0, 1],
              Js.toNat? code = some (hotpValue hmacSha1 key (epochMs / 30000 + drift).toNat))) ∧
      ∀ digest : Digest, ∀ i ∈ hotpReads digest.bytes, i < digest.bytes.length := by
  refine ⟨base32Decode_encode upper, ?_, hotpReads_lt⟩
  intro secret key decodes some_ epochMs late clip code
  have range : ∀ drift ∈ [(-1 : Int), 0, 1],
      0 ≤ epochMs / 30000 + drift ∧ epochMs / 30000 + drift < 2 ^ 64 := by
    intro drift member
    have far := clip.2
    simp only [List.mem_cons, List.not_mem_nil, or_false] at member
    omega
  obtain ⟨accepts, run, exactly⟩ : ∃ accepts,
      verifyDrifts toUpperCase hmacSha1 secret code epochMs [-1, 0, 1] = .ok accepts ∧ _ :=
    verifyDrifts_eq decodes some_ [-1, 0, 1] range
  have texts : ∀ drift : Int, padStart (Js.ofNat
      (hotpValue hmacSha1 key (epochMs / 30000 + drift).toNat)) totpDigits 0x30 = code ↔
      code.length = totpDigits ∧
        Js.toNat? code = some (hotpValue hmacSha1 key (epochMs / 30000 + drift).toNat) :=
    fun drift => padStart_eq_iff (Nat.mod_lt _ (by decide)) code
  rw [verifyTotp]
  split
  · rename_i malformed
    refine ⟨false, rfl, fun no => (by cases no), ?_⟩
    rintro ⟨six, drift, -, reads⟩
    exact absurd ⟨six, List.all_eq_true.2 (toNat?_digits reads).1⟩ malformed
  · refine ⟨accepts, run, exactly.trans ⟨?_, ?_⟩⟩
    · rintro ⟨drift, member, hit⟩
      obtain ⟨six, reads⟩ := (texts drift).1 hit
      exact ⟨six, drift, member, reads⟩
    · rintro ⟨six, drift, member, reads⟩
      exact ⟨drift, member, (texts drift).2 ⟨six, reads⟩⟩

theorem upper_ascii (s : JsString) (plain : ∀ u ∈ s, u ∈ base32Alphabet) :
    (s.map fun u => if 97 ≤ u ∧ u ≤ 122 then u - 32 else u) = s := by
  have alphabet : base32Alphabet.all (fun u => u.toNat < 97) = true := by decide +kernel
  refine (List.map_congr_left fun u member => ?_).trans (List.map_id' s)
  have below := List.all_eq_true.1 alphabet u (plain u member)
  rw [decide_eq_true_eq] at below
  exact if_neg fun lower => Nat.not_lt.2 (UInt16.le_iff_toNat_le.1 lower.1) below

/-- A secret in lower case, a minute after the epoch, with a digest that repeats the last byte
of the counter: the code of the counter 3 is accepted. -/
theorem totp_exact_minute :
    verifyTotp (·.map fun u => if 97 ≤ u ∧ u ≤ 122 then u - 32 else u)
      (fun _ message => ⟨List.replicate 20 (message.getLastD 0), List.length_replicate⟩)
      (Js.ofString "mzxw6===") (Js.ofString "529027") 60000 = .ok true := by
  have decodes : base32Decode (·.map fun u => if 97 ≤ u ∧ u ≤ 122 then u - 32 else u)
      (Js.ofString "mzxw6===") = some [102, 111, 111] := by decide +kernel
  obtain ⟨accepts, run, exactly⟩ := (totp_exact _ upper_ascii
    (fun _ message => ⟨List.replicate 20 (message.getLastD 0), List.length_replicate⟩)).2.1
      _ _ decodes (by decide) 60000 (by decide) (by unfold Js.TimeClip; decide)
      (Js.ofString "529027")
  rw [run, exactly.2 ⟨by decide +kernel, 1, by decide, by decide +kernel⟩]

end Tozalist.Api
