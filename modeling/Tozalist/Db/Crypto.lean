/-
# Tozalist.Db.Crypto -- minting an API key

`randomBase62`, `generateApiKey` and `API_KEY_PATTERN` of `packages/db/src/crypto.ts`.  The blocks
are what the calls of `randomBytes(length)` give, one after another; where they are used up the
loop has not come to its end yet, and there is no key.

`generateApiKey_uniform` -- whatever is minted has the form of a key, and of all texts of that
form none is likelier than another.
-/
import Tozalist.Js.Text
import Tozalist.Theory.Rejection

namespace Tozalist.Db

set_option autoImplicit false

open Theory (BlockSources blockSources_eq blockSources_pos firstAccepted length_of_firstAccepted)

/-- `API_KEY_NAMESPACE` -/
def apiKeyNamespace : JsString := Js.ofString "tzl_live_"

/-- `BASE62_ALPHABET` -/
def base62Alphabet : JsString :=
  Js.ofString "0123456789ABCDEFGHIJKLMNOPQRSTUVWXYZabcdefghijklmnopqrstuvwxyz"

/-- `API_KEY_RANDOM_LENGTH` -/
def apiKeyRandomLength : ℕ := 32

/-- `API_KEY_PREFIX_LENGTH` -/
def apiKeyPrefixLength : ℕ := 12

/-- `limit` -/
def base62Limit : ℕ := 62 * 4

/-- The inner loop of `randomBase62`, with its `break`. -/
def takeBytes (length : ℕ) : JsString → List UInt8 → JsString
  | out, [] => out
  | out, byte :: bytes =>
      if byte.toNat < base62Limit then
        let out := out ++ [base62Alphabet.getD (byte.toNat % 62) 0]
        if out.length = length then out else takeBytes length out bytes
      else takeBytes length out bytes

/-- The outer loop. -/
def fillBase62 (length : ℕ) : JsString → List (List UInt8) → Option JsString
  | out, [] => if out.length < length then none else some out
  | out, block :: blocks =>
      if out.length < length then fillBase62 length (takeBytes length out block) blocks
      else some out

/-- `randomBase62` -/
def randomBase62 (length : ℕ) (blocks : List (List UInt8)) : Option JsString :=
  fillBase62 length [] blocks

/-- `GeneratedApiKey` -/
structure GeneratedApiKey where
  plaintext : JsString
  keyHash : String
  keyPrefix : JsString
  deriving DecidableEq, Repr

/-- `generateApiKey` -/
def generateApiKey (sha256Hex : JsString → String) (blocks : List (List UInt8)) :
    Option GeneratedApiKey :=
  (randomBase62 apiKeyRandomLength blocks).map fun random =>
    let plaintext := apiKeyNamespace ++ random
    { plaintext
      keyHash := sha256Hex plaintext
      keyPrefix := plaintext.take apiKeyPrefixLength }

/-- `[0-9A-Za-z]` -/
def isBase62 (u : UInt16) : Bool :=
  (48 ≤ u && u ≤ 57) || (65 ≤ u && u ≤ 90) || (97 ≤ u && u ≤ 122)

/-- `API_KEY_PATTERN` -/
def apiKeyPattern (text : JsString) : Bool :=
  text.take 9 == apiKeyNamespace && (text.drop 9).length == 32 && (text.drop 9).all isBase62

/-! ## The loops -/

/-- The digit that a byte is accepted as. -/
def digitOf (byte : UInt8) : Option (Fin 62) :=
  if byte.toNat < base62Limit then some ⟨byte.toNat % 62, Nat.mod_lt _ (by decide)⟩ else none

theorem digitOf_eq_some_iff (byte : UInt8) (digit : Fin 62) :
    digitOf byte = some digit ↔ byte.toNat < base62Limit ∧ byte.toNat % 62 = digit := by
  unfold digitOf
  split
  · rename_i low
    simp [low, Fin.ext_iff]
  · rename_i high
    simp [high]

/-- The character of a digit. -/
def base62Char (digit : Fin 62) : UInt16 := base62Alphabet.getD digit 0

theorem base62Alphabet_eq : base62Alphabet =
    (List.range' 48 10 ++ List.range' 65 26 ++ List.range' 97 26).map UInt16.ofNat := by
  decide +kernel

theorem base62Char_eq (digit : Fin 62) : base62Char digit =
    UInt16.ofNat (digit + if digit.val < 10 then 48 else if digit.val < 36 then 55 else 61) := by
  rw [base62Char, base62Alphabet_eq]
  revert digit
  decide +kernel

theorem base62Char_toNat (digit : Fin 62) : (base62Char digit).toNat =
    digit + if digit.val < 10 then 48 else if digit.val < 36 then 55 else 61 := by
  rw [base62Char_eq, UInt16.toNat_ofNat_of_lt']
  have := digit.isLt
  show _ < 65536
  split
  · omega
  · split <;> omega

theorem base62Char_injective : Function.Injective base62Char := by
  intro c d same
  have := congrArg UInt16.toNat same
  rw [base62Char_toNat, base62Char_toNat] at this
  have := c.isLt
  have := d.isLt
  apply Fin.ext
  split_ifs at * <;> omega

theorem isBase62_iff (u : UInt16) : isBase62 u = true ↔ ∃ digit, base62Char digit = u := by
  simp only [isBase62, Bool.or_eq_true, Bool.and_eq_true, decide_eq_true_eq, UInt16.le_iff_toNat_le]
  constructor
  · show (48 ≤ u.toNat ∧ u.toNat ≤ 57 ∨ 65 ≤ u.toNat ∧ u.toNat ≤ 90) ∨
      97 ≤ u.toNat ∧ u.toNat ≤ 122 → _
    intro inside
    obtain ⟨n, small, is⟩ : ∃ n, n < 62 ∧
        u.toNat = n + if n < 10 then 48 else if n < 36 then 55 else 61 := by
      rcases inside with (digit | upper) | lower
      · exact ⟨u.toNat - 48, by omega, by rw [if_pos (by omega)]; omega⟩
      · exact ⟨u.toNat - 55, by omega, by rw [if_neg (by omega), if_pos (by omega)]; omega⟩
      · exact ⟨u.toNat - 61, by omega, by rw [if_neg (by omega), if_neg (by omega)]; omega⟩
    refine ⟨⟨n, small⟩, UInt16.toNat_inj.1 ?_⟩
    rw [base62Char_toNat, is]
  · rintro ⟨digit, rfl⟩
    show (48 ≤ (base62Char digit).toNat ∧ (base62Char digit).toNat ≤ 57 ∨
      65 ≤ (base62Char digit).toNat ∧ (base62Char digit).toNat ≤ 90) ∨
      97 ≤ (base62Char digit).toNat ∧ (base62Char digit).toNat ≤ 122
    rw [base62Char_toNat]
    have := digit.isLt
    split_ifs <;> omega

/-- What is still to be taken, after a block. -/
theorem takeBytes_spec {length : ℕ} {out : JsString} (below : out.length < length)
    (bytes more : List UInt8) :
    (takeBytes length out bytes).length ≤ length ∧
    (firstAccepted digitOf (length - out.length) (bytes ++ more)).map
        (fun digits => out ++ digits.map base62Char) =
      (firstAccepted digitOf (length - (takeBytes length out bytes).length) more).map
        fun digits => takeBytes length out bytes ++ digits.map base62Char := by
  induction bytes generalizing out with
  | nil => exact ⟨below.le, rfl⟩
  | cons byte bytes ih =>
      obtain ⟨rest, is⟩ : ∃ rest, length - out.length = rest + 1 :=
        ⟨length - out.length - 1, by omega⟩
      rw [takeBytes, is, List.cons_append, firstAccepted, digitOf]
      by_cases low : byte.toNat < base62Limit
      · simp only [if_pos low, Option.map_map]
        have grown : (out ++ [base62Alphabet.getD (byte.toNat % 62) 0]).length = out.length + 1 :=
          List.length_append
        by_cases full : (out ++ [base62Alphabet.getD (byte.toNat % 62) 0]).length = length
        · rw [if_pos full, full, Nat.sub_self]
          obtain rfl : rest = 0 := by omega
          simp [base62Char]
        · rw [if_neg full]
          have further := @ih (out ++ [base62Alphabet.getD (byte.toNat % 62) 0]) (by omega)
          rw [← further.2, show length - (out ++ [base62Alphabet.getD (byte.toNat % 62) 0]).length =
            rest by omega]
          refine ⟨further.1, ?_⟩
          congr 1
          funext digits
          simp [base62Char]
      · simp only [if_neg low, ← is]
        exact ih below

theorem fillBase62_spec {length : ℕ} {out : JsString} (below : out.length ≤ length)
    (blocks : List (List UInt8)) :
    fillBase62 length out blocks = (firstAccepted digitOf (length - out.length) blocks.flatten).map
      fun digits => out ++ digits.map base62Char := by
  induction blocks generalizing out with
  | nil =>
      rw [fillBase62]
      split
      · obtain ⟨rest, is⟩ : ∃ rest, length - out.length = rest + 1 :=
          ⟨length - out.length - 1, by omega⟩
        rw [is]
        rfl
      · rw [show length - out.length = 0 by omega]
        simp
  | cons block blocks ih =>
      rw [fillBase62]
      split
      · rename_i more
        obtain ⟨within, same⟩ := takeBytes_spec more block blocks.flatten
        rw [ih within, List.flatten_cons, same]
      · rw [show length - out.length = 0 by omega]
        simp

/-- **The loops** take the first digits that are accepted. -/
theorem randomBase62_eq (length : ℕ) (blocks : List (List UInt8)) :
    randomBase62 length blocks =
      (firstAccepted digitOf length blocks.flatten).map fun digits => digits.map base62Char :=
  fillBase62_spec (Nat.zero_le length) blocks

/-! ## What is minted -/

/-- A text of the form of a key is the namespace and 32 digits. -/
theorem apiKeyPattern_iff (text : JsString) : apiKeyPattern text = true ↔
    ∃ digits : List (Fin 62), digits.length = apiKeyRandomLength ∧
      text = apiKeyNamespace ++ digits.map base62Char := by
  have nine : apiKeyNamespace.length = 9 := by decide +kernel
  simp only [apiKeyPattern, Bool.and_eq_true, beq_iff_eq, List.all_eq_true, isBase62_iff]
  constructor
  · rintro ⟨⟨begins, long⟩, all⟩
    choose digit is using all
    refine ⟨(text.drop 9).attach.map fun u => digit u.1 u.2, ?_, ?_⟩
    · rw [List.length_map, List.length_attach, long, apiKeyRandomLength]
    · rw [List.map_map, ← begins]
      conv_lhs => rw [← List.take_append_drop 9 text]
      congr 1
      conv_lhs => rw [← List.attach_map_subtype_val (text.drop 9)]
      apply List.map_congr_left
      intro u _
      exact (is u.1 u.2).symm
  · rintro ⟨digits, long, rfl⟩
    rw [List.take_left' nine, List.drop_left' nine, List.length_map]
    refine ⟨⟨rfl, long⟩, ?_⟩
    intro u member
    obtain ⟨digit, -, is⟩ := List.mem_map.1 member
    exact ⟨digit, is⟩

instance fintypeUInt8 : Fintype UInt8 :=
  Fintype.ofEquiv (Fin 256) ⟨UInt8.ofFin, UInt8.toFin, fun _ => rfl, fun _ => rfl⟩

/-- The byte of a digit and what is lost of it. -/
def byteOf (digit : Fin 62) (k : Fin 4) : UInt8 := UInt8.ofNat (digit + 62 * k)

theorem byteOf_toNat (digit : Fin 62) (k : Fin 4) :
    (byteOf digit k).toNat = digit + 62 * k := by
  have := digit.isLt
  have := k.isLt
  rw [byteOf, UInt8.toNat_ofNat_of_lt']
  show _ < 256
  omega

theorem digitOf_byteOf (digit : Fin 62) (k : Fin 4) : digitOf (byteOf digit k) = some digit := by
  have := digit.isLt
  have := k.isLt
  rw [digitOf_eq_some_iff, byteOf_toNat, base62Limit]
  omega

/-- A digit is accepted from four bytes. -/
def bytesOfDigit (digit : Fin 62) : {byte // digitOf byte = some digit} ≃ Fin 4 where
  toFun byte := ⟨byte.1.toNat / 62, by
    have low := ((digitOf_eq_some_iff _ _).1 byte.2).1
    unfold base62Limit at low
    omega⟩
  invFun k := ⟨byteOf digit k, digitOf_byteOf digit k⟩
  left_inv byte := by
    have is := ((digitOf_eq_some_iff _ _).1 byte.2).2
    apply Subtype.ext
    apply UInt8.toNat_inj.1
    rw [byteOf_toNat]
    dsimp only
    omega
  right_inv k := by
    have := digit.isLt
    apply Fin.ext
    dsimp only
    rw [byteOf_toNat]
    omega

theorem card_bytesOfDigit (digit : Fin 62) :
    Nat.card {byte // digitOf byte = some digit} = 4 := by
  rw [Nat.card_congr (bytesOfDigit digit), Nat.card_fin]

/-- What `m` calls of `randomBytes(32)` may give so that `text` is minted. -/
def KeySources (sha256Hex : JsString → String) (m : ℕ) (text : JsString) : Type :=
  {blocks : Fin m → Fin apiKeyRandomLength → UInt8 //
    (generateApiKey sha256Hex (List.ofFn fun i => List.ofFn (blocks i))).map (·.plaintext) =
      some text}

theorem plaintext_eq_some_iff {sha256Hex : JsString → String} {blocks : List (List UInt8)}
    {digits : List (Fin 62)} (long : digits.length = apiKeyRandomLength) :
    (generateApiKey sha256Hex blocks).map (·.plaintext) =
        some (apiKeyNamespace ++ digits.map base62Char) ↔
      firstAccepted digitOf digits.length blocks.flatten = some digits := by
  rw [generateApiKey, randomBase62_eq, Option.map_map, Option.map_map, long,
    Option.map_eq_some_iff]
  constructor
  · rintro ⟨found, is, same⟩
    rw [is, (List.map_injective_iff.2 base62Char_injective) (List.append_cancel_left same)]
  · intro is
    exact ⟨digits, is, rfl⟩

theorem card_keySources (sha256Hex : JsString → String) (m : ℕ) {digits : List (Fin 62)}
    (long : digits.length = apiKeyRandomLength) :
    Nat.card (KeySources sha256Hex m (apiKeyNamespace ++ digits.map base62Char)) =
      Nat.card (BlockSources digitOf m apiKeyRandomLength digits) :=
  Nat.card_congr (Equiv.subtypeEquivRight fun _ => plaintext_eq_some_iff long)

/-- **Minting** gives a text of the form of a key, and any such text in as many ways as any
other. -/
theorem generateApiKey_uniform (sha256Hex : JsString → String) (m : ℕ) :
    (∀ blocks key, generateApiKey sha256Hex blocks = some key →
      apiKeyPattern key.plaintext = true) ∧
    ∀ text, apiKeyPattern text = true →
      (∀ text', apiKeyPattern text' = true →
        Nat.card (KeySources sha256Hex m text) = Nat.card (KeySources sha256Hex m text')) ∧
      (0 < m → 0 < Nat.card (KeySources sha256Hex m text)) := by
  constructor
  · intro blocks key minted
    obtain ⟨random, drawn, rfl⟩ := Option.map_eq_some_iff.1 minted
    rw [randomBase62_eq] at drawn
    obtain ⟨digits, accepted, rfl⟩ := Option.map_eq_some_iff.1 drawn
    exact (apiKeyPattern_iff _).2 ⟨digits, length_of_firstAccepted digitOf accepted, rfl⟩
  · intro text formed
    obtain ⟨digits, long, rfl⟩ := (apiKeyPattern_iff text).1 formed
    constructor
    · intro text' formed'
      obtain ⟨digits', long', rfl⟩ := (apiKeyPattern_iff text').1 formed'
      rw [card_keySources sha256Hex m long, card_keySources sha256Hex m long',
        blockSources_eq digitOf card_bytesOfDigit _ _ (long.trans long'.symm)]
    · intro some_
      rw [card_keySources sha256Hex m long]
      apply blockSources_pos
      · intro digit
        exact ⟨byteOf digit 0, digitOf_byteOf digit 0⟩
      · rw [long]
        exact Nat.le_mul_of_pos_left _ some_

end Tozalist.Db
