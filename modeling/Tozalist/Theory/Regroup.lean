/-
# Tozalist.Theory.Regroup -- bits regrouped through a word that is never masked

A text of digits in one power of two is read into another through a 32-bit word: a digit is
shifted in at the low end, and when enough bits are there a digit is taken out above those that
stay.  Nothing is masked away, so above the count of bits the word holds what is left of older
digits, and a shift drops some of it.  Only the low bits are ever read.

`number` is what a list of digits stands for, the first digit counting most.  `Regrouped` relates
the digits written, and the bits that wait, to the number read; `push` and `emit` are the two
rules.
-/
import Mathlib.Data.Nat.Digits.Defs

namespace Tozalist.Theory

set_option autoImplicit false

/-! ## Numbers -/

/-- The number of a list of digits, the first digit counting most. -/
def number (base : ℕ) (digits : List ℕ) : ℕ := Nat.ofDigits base digits.reverse

@[simp] theorem number_nil (base : ℕ) : number base [] = 0 := rfl

theorem number_concat (base : ℕ) (digits : List ℕ) (d : ℕ) :
    number base (digits ++ [d]) = number base digits * base + d := by
  rw [number, List.reverse_append]
  show d + base * Nat.ofDigits base digits.reverse = _
  rw [number, Nat.mul_comm, Nat.add_comm]

/-- **Digits of one length** are what their number says. -/
theorem number_inj {base : ℕ} (large : 1 < base) {digits digits' : List ℕ}
    (length : digits.length = digits'.length) (below : ∀ d ∈ digits, d < base)
    (below' : ∀ d ∈ digits', d < base) (same : number base digits = number base digits') :
    digits = digits' := by
  refine List.reverse_inj.1 (Nat.ofDigits_inj_of_len_eq large ?_ ?_ ?_ same)
  · rw [List.length_reverse, List.length_reverse, length]
  · exact fun d member => below d (List.mem_reverse.1 member)
  · exact fun d member => below' d (List.mem_reverse.1 member)

/-! ## The word -/

/-- The number that the low bits of a word hold. -/
def low (bits : ℕ) (value : BitVec 32) : ℕ := value.toNat % 2 ^ bits

theorem low_lt (bits : ℕ) (value : BitVec 32) : low bits value < 2 ^ bits :=
  Nat.mod_lt _ (Nat.two_pow_pos bits)

@[simp] theorem low_zero (value : BitVec 32) : low 0 value = 0 := Nat.mod_one _

/-- **Shifting a digit in.**  What falls out at the top was not among the bits that count. -/
theorem low_push {bits width d : ℕ} (value : BitVec 32) (small : d < 2 ^ width)
    (room : bits + width ≤ 32) :
    low (bits + width) (value <<< width ||| BitVec.ofNat 32 d) =
      low bits value * 2 ^ width + d := by
  have fits : d < 2 ^ 32 := small.trans_le (Nat.pow_le_pow_right (by decide) (by omega))
  have shifted : value.toNat <<< width % 2 ^ 32 = (value.toNat % 2 ^ (32 - width)) <<< width := by
    rw [Nat.shiftLeft_eq, Nat.shiftLeft_eq,
      show (2 : ℕ) ^ 32 = 2 ^ (32 - width) * 2 ^ width by rw [← Nat.pow_add]; congr 1; omega,
      Nat.mul_mod_mul_right]
  rw [low, BitVec.toNat_or, BitVec.toNat_shiftLeft, BitVec.toNat_ofNat, Nat.mod_eq_of_lt fits,
    shifted, ← Nat.shiftLeft_add_eq_or_of_lt small, Nat.shiftLeft_eq, Nat.pow_add,
    Nat.mul_comm (2 ^ bits), Nat.mod_mul, Nat.mul_comm _ (2 ^ width), Nat.mul_add_mod,
    Nat.mod_eq_of_lt small, Nat.mul_add_div (Nat.two_pow_pos width), Nat.div_eq_of_lt small,
    Nat.add_zero, Nat.mod_mod_of_dvd _ (Nat.pow_dvd_pow 2 (by omega)), low]
  ring

/-- The digit above the bits that stay. -/
def digitAbove (width bits : ℕ) (value : BitVec 32) : ℕ :=
  (value >>> bits &&& BitVec.ofNat 32 (2 ^ width - 1)).toNat

theorem digitAbove_eq {width : ℕ} (narrow : width ≤ 32) (bits : ℕ) (value : BitVec 32) :
    digitAbove width bits value = value.toNat / 2 ^ bits % 2 ^ width := by
  have mask : 2 ^ width - 1 < 2 ^ 32 :=
    (Nat.sub_lt (Nat.two_pow_pos width) (by decide)).trans_le
      (Nat.pow_le_pow_right (by decide) narrow)
  rw [digitAbove, BitVec.toNat_and, BitVec.toNat_ushiftRight, BitVec.toNat_ofNat,
    Nat.mod_eq_of_lt mask, Nat.and_two_pow_sub_one_eq_mod, Nat.shiftRight_eq_div_pow]

/-- **Taking a digit out** leaves the bits below it. -/
theorem low_emit {width : ℕ} (narrow : width ≤ 32) (bits : ℕ) (value : BitVec 32) :
    low (bits + width) value = digitAbove width bits value * 2 ^ bits + low bits value := by
  rw [digitAbove_eq narrow, low, low, Nat.pow_add, Nat.mod_mul, Nat.mul_comm (2 ^ bits)]
  exact Nat.add_comm _ _

/-! ## Regrouping -/

/-- Digits of `width` bits that were written, and bits that wait, together are the number of
the bits that were read. -/
structure Regrouped (width : ℕ) (read readBits : ℕ) (written : List ℕ) (bits : ℕ)
    (value : BitVec 32) : Prop where
  number : Theory.number (2 ^ width) written * 2 ^ bits + low bits value = read
  length : width * written.length + bits = readBits
  digits : ∀ d ∈ written, d < 2 ^ width

namespace Regrouped

variable {width read readBits bits : ℕ} {written : List ℕ} {value : BitVec 32}

theorem start (width : ℕ) : Regrouped width 0 0 [] 0 0 :=
  ⟨rfl, rfl, fun _ none_ => absurd none_ List.not_mem_nil⟩

/-- A digit is read. -/
theorem push (regrouped : Regrouped width read readBits written bits value) {width' d : ℕ}
    (small : d < 2 ^ width') (room : bits + width' ≤ 32) :
    Regrouped width (read * 2 ^ width' + d) (readBits + width') written (bits + width')
      (value <<< width' ||| BitVec.ofNat 32 d) := by
  refine ⟨?_, by rw [← regrouped.length, Nat.add_assoc], regrouped.digits⟩
  rw [low_push value small room, ← regrouped.number, Nat.pow_add]
  ring

/-- A digit is written. -/
theorem emit (regrouped : Regrouped width read readBits written bits value)
    (enough : width ≤ bits) (narrow : width ≤ 32) :
    Regrouped width read readBits (written ++ [digitAbove width (bits - width) value])
      (bits - width) value := by
  have whole : bits - width + width = bits := Nat.sub_add_cancel enough
  have split_ := low_emit narrow (bits - width) value
  rw [whole] at split_
  refine ⟨?_, ?_, ?_⟩
  · rw [number_concat, ← regrouped.number, split_]
    have power : (2 : ℕ) ^ bits = 2 ^ width * 2 ^ (bits - width) := by
      rw [← Nat.pow_add, Nat.add_comm, whole]
    rw [power]
    ring
  · rw [← regrouped.length, List.length_append, List.length_singleton, Nat.mul_add]
    omega
  · intro d member
    rcases List.mem_append.1 member with old | new
    · exact regrouped.digits d old
    · obtain rfl := List.mem_singleton.1 new
      rw [digitAbove_eq narrow]
      exact Nat.mod_lt _ (Nat.two_pow_pos width)

end Regrouped

end Tozalist.Theory
