/-
# Tozalist.Js.Number -- integers as numbers

A JavaScript number holds an integer exactly up to `Number.MAX_SAFE_INTEGER`; beyond it is
rounded to 53 bits, ties to even.  Integers too large for any number are not read here.

`sumNumbers_eq`: numbers added one by one are added exactly as long as their amounts are not
more than that in all.
-/
import Mathlib.Algebra.BigOperators.Group.List.Basic
import Mathlib.Tactic.Common
import Mathlib.Tactic.Linarith

namespace Tozalist.Js

set_option autoImplicit false

/-- `Number.MAX_SAFE_INTEGER`. -/
def maxSafeInteger : ℕ := 9007199254740991

/-- A natural number rounded to 53 bits, ties to even. -/
def nearestNat (n : ℕ) : ℕ :=
  let shift := n.log2 - 52
  let kept := n / 2 ^ shift
  let lost := n % 2 ^ shift
  if 2 * lost < 2 ^ shift ∨ (2 * lost = 2 ^ shift ∧ kept % 2 = 0) then kept * 2 ^ shift
  else (kept + 1) * 2 ^ shift

/-- `Number(n)` of an integer, or the sum of two numbers by their exact sum. -/
def toNumber (n : Int) : Int :=
  if n < 0 then -(nearestNat n.natAbs : Int) else nearestNat n.natAbs

/-- `reduce((total, n) => total + n, 0)`. -/
def sumNumbers (ns : List Int) : Int :=
  ns.foldl (fun total n => toNumber (total + n)) 0

example : toNumber 9007199254740993 = 9007199254740992 ∧
    toNumber (-9007199254740995) = -9007199254740996 := by decide

theorem nearestNat_safe {n : ℕ} (safe : n ≤ maxSafeInteger) : nearestNat n = n := by
  have short : n.log2 - 52 = 0 := by
    rcases Nat.eq_zero_or_pos n with rfl | positive
    · rfl
    · have bits : n.log2 < 53 := (Nat.log2_lt positive.ne').2 (by unfold maxSafeInteger at safe; omega)
      omega
  simp only [nearestNat, short, pow_zero, Nat.div_one, Nat.mod_one, Nat.mul_zero, Nat.mul_one]
  rw [if_pos (.inl Nat.one_pos)]

/-- **A safe integer is a number.** -/
theorem toNumber_safe {n : Int} (safe : n.natAbs ≤ maxSafeInteger) : toNumber n = n := by
  rw [toNumber, nearestNat_safe safe]
  split <;> omega

/-- What is added up, without the signs. -/
def volume (ns : List Int) : ℕ := (ns.map Int.natAbs).sum

theorem volume_filter_le {α : Type} (p : α → Bool) (f : α → Int) (xs : List α) :
    volume ((xs.filter p).map f) ≤ volume (xs.map f) := by
  induction xs with
  | nil => exact le_rfl
  | cons x xs ih =>
      simp only [volume, List.map_cons, List.sum_cons] at ih ⊢
      rw [List.filter_cons]
      split
      · simp only [List.map_cons, List.sum_cons]
        omega
      · omega

/-- **Safe sums are exact.** -/
theorem sumNumbers_eq {ns : List Int} (safe : volume ns ≤ maxSafeInteger) :
    sumNumbers ns = ns.sum := by
  have from_ : ∀ (ns : List Int) (total : Int), total.natAbs + volume ns ≤ maxSafeInteger →
      ns.foldl (fun total n => toNumber (total + n)) total = total + ns.sum := by
    intro ns
    induction ns with
    | nil => intro total _; simp
    | cons n ns ih =>
        intro total safe
        simp only [volume, List.map_cons, List.sum_cons] at safe ih
        have triangle := Int.natAbs_add_le total n
        rw [List.foldl_cons, toNumber_safe (by omega), ih _ (by omega), List.sum_cons]
        omega
  rw [sumNumbers, from_ ns 0 (by simpa using safe), zero_add]

end Tozalist.Js
