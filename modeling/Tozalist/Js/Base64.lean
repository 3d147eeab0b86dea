/-
# Tozalist.Js.Base64 -- `Buffer` between texts and base64url

`Buffer.from(text, 'utf8').toString('base64url')` and its way back.  Node's decoder takes
both alphabets, skips what belongs to neither and stops at a `=`.

`ofBase64url_base64url` is the round trip.  Bytes that are not UTF-8 have no text here;
`toString('utf8')` would put replacement characters.
-/
import Mathlib.Data.List.TakeWhile

namespace Tozalist.Js

set_option autoImplicit false

/-! ## Sextets -/

def alphabet : List Char :=
  "ABCDEFGHIJKLMNOPQRSTUVWXYZabcdefghijklmnopqrstuvwxyz0123456789-_".toList

/-- The character of six bits. -/
def sextetChar (n : ℕ) : Char := alphabet.getD n 'A'

/-- The six bits of a character, in either alphabet. -/
def sextetOf (c : Char) : Option ℕ :=
  if c = '+' then some 62
  else if c = '/' then some 63
  else alphabet.idxOf? c

theorem sextet_spec : ∀ n : Fin 64, sextetOf (sextetChar n) = some n.val ∧ sextetChar n ≠ '=' := by
  decide +kernel

/-- Three bytes are four sextets; one or two bytes at the end are two or three. -/
def toSextets : List UInt8 → List ℕ
  | a :: b :: c :: rest =>
      a.toNat / 4 :: (a.toNat % 4 * 16 + b.toNat / 16) :: (b.toNat % 16 * 4 + c.toNat / 64) ::
        c.toNat % 64 :: toSextets rest
  | [a, b] => [a.toNat / 4, a.toNat % 4 * 16 + b.toNat / 16, b.toNat % 16 * 4]
  | [a] => [a.toNat / 4, a.toNat % 4 * 16]
  | [] => []

/-- The bytes of sextets; a single one at the end is dropped. -/
def ofSextets : List ℕ → List UInt8
  | p :: q :: r :: s :: rest =>
      UInt8.ofNat (p * 4 + q / 16) :: UInt8.ofNat (q % 16 * 16 + r / 4) ::
        UInt8.ofNat (r % 4 * 64 + s) :: ofSextets rest
  | [p, q, r] => [UInt8.ofNat (p * 4 + q / 16), UInt8.ofNat (q % 16 * 16 + r / 4)]
  | [p, q] => [UInt8.ofNat (p * 4 + q / 16)]
  | [_] => []
  | [] => []

theorem uint8_eq (a : UInt8) (n : ℕ) (is : n = a.toNat) : UInt8.ofNat n = a := by
  rw [is, UInt8.ofNat_toNat]

theorem ofSextets_toSextets (bytes : List UInt8) : ofSextets (toSextets bytes) = bytes := by
  induction bytes using toSextets.induct with
  | case1 a b c rest ih =>
      have ha := a.toNat_lt
      have hb := b.toNat_lt
      have hc := c.toNat_lt
      rw [toSextets, ofSextets, ih, uint8_eq a _ (by omega), uint8_eq b _ (by omega),
        uint8_eq c _ (by omega)]
  | case2 a b =>
      have ha := a.toNat_lt
      have hb := b.toNat_lt
      rw [toSextets, ofSextets, uint8_eq a _ (by omega), uint8_eq b _ (by omega)]
  | case3 a =>
      have ha := a.toNat_lt
      rw [toSextets, ofSextets, uint8_eq a _ (by omega)]
  | case4 => rfl

theorem toSextets_lt {bytes : List UInt8} {n : ℕ} (member : n ∈ toSextets bytes) : n < 64 := by
  induction bytes using toSextets.induct with
  | case1 a b c rest ih =>
      have ha := a.toNat_lt
      have hb := b.toNat_lt
      have hc := c.toNat_lt
      rw [toSextets] at member
      simp only [List.mem_cons] at member
      rcases member with rfl | rfl | rfl | rfl | later
      · omega
      · omega
      · omega
      · omega
      · exact ih later
  | case2 a b =>
      have ha := a.toNat_lt
      have hb := b.toNat_lt
      simp only [toSextets, List.mem_cons, List.not_mem_nil, or_false] at member
      omega
  | case3 a =>
      have ha := a.toNat_lt
      simp only [toSextets, List.mem_cons, List.not_mem_nil, or_false] at member
      omega
  | case4 => cases member

/-! ## Texts -/

/-- `toString('base64url')` of bytes. -/
def base64url (bytes : List UInt8) : String := String.ofList ((toSextets bytes).map sextetChar)

/-- `Buffer.from(text, 'base64url')`. -/
def ofBase64url (text : String) : List UInt8 :=
  ofSextets ((text.toList.takeWhile (· ≠ '=')).filterMap sextetOf)

/-- **Bytes survive base64url.** -/
theorem ofBase64url_base64url (bytes : List UInt8) : ofBase64url (base64url bytes) = bytes := by
  have whole : ((toSextets bytes).map sextetChar).takeWhile (· ≠ '=') =
      (toSextets bytes).map sextetChar := by
    apply List.takeWhile_eq_self_iff.2
    intro c member
    obtain ⟨n, inside, rfl⟩ := List.mem_map.1 member
    simpa using (sextet_spec ⟨n, toSextets_lt inside⟩).2
  have back : ∀ sextets : List ℕ, (∀ n ∈ sextets, n < 64) →
      (sextets.map sextetChar).filterMap sextetOf = sextets := by
    intro sextets small
    induction sextets with
    | nil => rfl
    | cons n sextets ih =>
        obtain ⟨least, rest⟩ := List.forall_mem_cons.1 small
        rw [List.map_cons, List.filterMap_cons, (sextet_spec ⟨n, least⟩).1, ih rest]
  rw [ofBase64url, base64url, String.toList_ofList, whole,
    back _ fun _ => toSextets_lt, ofSextets_toSextets]

/-- `Buffer.from(text, 'utf8')`. -/
def utf8 (text : String) : List UInt8 := text.toByteArray.data.toList

/-- `toString('utf8')` of well-formed bytes. -/
def ofUtf8 (bytes : List UInt8) : Option String := String.fromUTF8? ⟨bytes.toArray⟩

/-- **A text survives UTF-8.** -/
theorem ofUtf8_utf8 (text : String) : ofUtf8 (utf8 text) = some text := by
  rw [ofUtf8, utf8, Array.toArray_toList, String.fromUTF8?]
  rw [dif_pos text.isValidUTF8]
  rfl

end Tozalist.Js
