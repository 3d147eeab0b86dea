/-
# Tozalist.Theory.EditDistance -- the least number of edits

`editDistance` is the recursive definition with unit costs, on lists over any alphabet.  An
`Alignment` of two lists says how one is made into the other, one unit at a time, and what that
costs; the distance is the least cost of one (`editDistance_alignment`, `Alignment.least`).

Alignments can be put one behind the other, turned round, and cut where one of the lists is cut.
From these come the facts that a table of distances of prefixes is filled by:

* `editDistance_reverse`: reading both lists backwards changes nothing;
* `editDistance_concat`: the recursion at the last units;
* `exists_prefix_le`: a prefix of the one list is as close to some prefix of the other as the
  whole lists are to each other.
-/
import Mathlib.Tactic.Common
import Mathlib.Order.MinMax

namespace Tozalist.Theory

set_option autoImplicit false

variable {α : Type}

/-! ## Alignments -/

/-- How the first list is made into the second, and what that costs. -/
inductive Alignment : List α → List α → ℕ → Prop
  | nil : Alignment [] [] 0
  | keep {a b : List α} {n : ℕ} (x : α) : Alignment a b n → Alignment (x :: a) (x :: b) n
  | replace {a b : List α} {n : ℕ} (x y : α) :
      Alignment a b n → Alignment (x :: a) (y :: b) (n + 1)
  | delete {a b : List α} {n : ℕ} (x : α) : Alignment a b n → Alignment (x :: a) b (n + 1)
  | insert {a b : List α} {n : ℕ} (y : α) : Alignment a b n → Alignment a (y :: b) (n + 1)

namespace Alignment

variable {a b a' b' : List α} {n m : ℕ}

theorem append (first : Alignment a b n) (second : Alignment a' b' m) :
    Alignment (a ++ a') (b ++ b') (n + m) := by
  induction first with
  | nil => rwa [Nat.zero_add]
  | keep x _ ih => exact ih.keep x
  | replace x y _ ih =>
      rw [Nat.add_right_comm]
      exact ih.replace x y
  | delete x _ ih =>
      rw [Nat.add_right_comm]
      exact ih.delete x
  | insert y _ ih =>
      rw [Nat.add_right_comm]
      exact ih.insert y

theorem reverse (aligned : Alignment a b n) : Alignment a.reverse b.reverse n := by
  induction aligned with
  | nil => exact .nil
  | keep x _ ih =>
      rw [List.reverse_cons, List.reverse_cons]
      exact ih.append (Alignment.nil.keep x)
  | replace x y _ ih =>
      rw [List.reverse_cons, List.reverse_cons]
      exact ih.append (Alignment.nil.replace x y)
  | delete x _ ih =>
      have last := ih.append (Alignment.nil.delete x)
      rwa [List.append_nil, ← List.reverse_cons] at last
  | insert y _ ih =>
      have last := ih.append (Alignment.nil.insert y)
      rwa [List.append_nil, ← List.reverse_cons] at last

theorem deleteAll (a : List α) : Alignment a [] a.length := by
  induction a with
  | nil => exact .nil
  | cons x a ih => exact ih.delete x

theorem insertAll (b : List α) : Alignment [] b b.length := by
  induction b with
  | nil => exact .nil
  | cons y b ih => exact ih.insert y

/-- Where the first list is cut, the second can be cut too. -/
theorem cut {a₁ a₂ : List α} (aligned : Alignment (a₁ ++ a₂) b n) :
    ∃ b₁ b₂ n₁ n₂, b = b₁ ++ b₂ ∧ n = n₁ + n₂ ∧ Alignment a₁ b₁ n₁ ∧ Alignment a₂ b₂ n₂ := by
  generalize whole : a₁ ++ a₂ = a at aligned
  induction aligned generalizing a₁ with
  | nil =>
      obtain ⟨rfl, rfl⟩ := List.append_eq_nil_iff.1 whole
      exact ⟨[], [], 0, 0, rfl, rfl, .nil, .nil⟩
  | keep x aligned ih =>
      cases a₁ with
      | nil =>
          obtain rfl := (List.nil_append a₂).symm.trans whole
          exact ⟨[], _, 0, _, rfl, (Nat.zero_add _).symm, .nil, aligned.keep x⟩
      | cons z a₁ =>
          obtain ⟨rfl, rest⟩ := List.cons.inj whole
          obtain ⟨b₁, b₂, n₁, n₂, rfl, rfl, first, second⟩ := ih rest
          exact ⟨_, b₂, _, n₂, rfl, rfl, first.keep z, second⟩
  | replace x y aligned ih =>
      cases a₁ with
      | nil =>
          obtain rfl := (List.nil_append a₂).symm.trans whole
          exact ⟨[], _, 0, _, rfl, (Nat.zero_add _).symm, .nil, aligned.replace x y⟩
      | cons z a₁ =>
          obtain ⟨rfl, rest⟩ := List.cons.inj whole
          obtain ⟨b₁, b₂, n₁, n₂, rfl, rfl, first, second⟩ := ih rest
          exact ⟨_, b₂, _, n₂, rfl, Nat.add_right_comm n₁ n₂ 1, first.replace z y, second⟩
  | delete x aligned ih =>
      cases a₁ with
      | nil =>
          obtain rfl := (List.nil_append a₂).symm.trans whole
          exact ⟨[], _, 0, _, rfl, (Nat.zero_add _).symm, .nil, aligned.delete x⟩
      | cons z a₁ =>
          obtain ⟨rfl, rest⟩ := List.cons.inj whole
          obtain ⟨b₁, b₂, n₁, n₂, rfl, rfl, first, second⟩ := ih rest
          exact ⟨_, b₂, _, n₂, rfl, Nat.add_right_comm n₁ n₂ 1, first.delete z, second⟩
  | insert y aligned ih =>
      obtain ⟨b₁, b₂, n₁, n₂, rfl, rfl, first, second⟩ := ih whole
      exact ⟨_, b₂, _, n₂, rfl, Nat.add_right_comm n₁ n₂ 1, first.insert y, second⟩

/-- The lengths differ by no more than the cost. -/
theorem length_le (aligned : Alignment a b n) :
    a.length ≤ b.length + n ∧ b.length ≤ a.length + n := by
  induction aligned with
  | nil => exact ⟨le_rfl, le_rfl⟩
  | keep x _ ih => simp only [List.length_cons]; omega
  | replace x y _ ih => simp only [List.length_cons]; omega
  | delete x _ ih => simp only [List.length_cons]; omega
  | insert y _ ih => simp only [List.length_cons]; omega

end Alignment

/-! ## The distance -/

variable [DecidableEq α]

/-- The edit distance: insertions, deletions and replacements cost one each. -/
def editDistance : List α → List α → ℕ
  | [], b => b.length
  | x :: a, [] => (x :: a).length
  | x :: a, y :: b =>
      min (editDistance a b + if x = y then 0 else 1)
        (min (editDistance a (y :: b) + 1) (editDistance (x :: a) b + 1))
  termination_by a b => a.length + b.length

@[simp] theorem editDistance_nil_left (b : List α) : editDistance [] b = b.length := by
  rw [editDistance]

@[simp] theorem editDistance_nil_right (a : List α) : editDistance a [] = a.length := by
  cases a <;> rw [editDistance]

theorem editDistance_cons (x y : α) (a b : List α) :
    editDistance (x :: a) (y :: b) =
      min (editDistance a b + if x = y then 0 else 1)
        (min (editDistance a (y :: b) + 1) (editDistance (x :: a) b + 1)) := by
  rw [editDistance]

theorem editDistance_delete_le (x : α) (a b : List α) :
    editDistance (x :: a) b ≤ editDistance a b + 1 := by
  cases b with
  | nil => simp
  | cons y b =>
      rw [editDistance_cons]
      exact (min_le_right _ _).trans (min_le_left _ _)

theorem editDistance_insert_le (y : α) (a b : List α) :
    editDistance a (y :: b) ≤ editDistance a b + 1 := by
  cases a with
  | nil => simp
  | cons x a =>
      rw [editDistance_cons]
      exact (min_le_right _ _).trans (min_le_right _ _)

theorem editDistance_replace_le (x y : α) (a b : List α) :
    editDistance (x :: a) (y :: b) ≤ editDistance a b + if x = y then 0 else 1 := by
  rw [editDistance_cons]
  exact min_le_left _ _

/-- **The distance is the cost of an alignment.** -/
theorem editDistance_alignment (a b : List α) : Alignment a b (editDistance a b) := by
  induction a, b using editDistance.induct with
  | case1 b =>
      rw [editDistance_nil_left]
      exact .insertAll b
  | case2 x a =>
      rw [editDistance_nil_right]
      exact .deleteAll (x :: a)
  | case3 x a y b both left right =>
      rw [editDistance_cons]
      -- one of the three edits is the cheapest
      rcases min_choice (editDistance a b + if x = y then 0 else 1)
        (min (editDistance a (y :: b) + 1) (editDistance (x :: a) b + 1)) with is | is
      · rw [is]
        split
        · rename_i same
          subst same
          exact both.keep x
        · exact both.replace x y
      · rw [is]
        rcases min_choice (editDistance a (y :: b) + 1) (editDistance (x :: a) b + 1) with is | is
        · rw [is]
          exact left.delete x
        · rw [is]
          exact right.insert y

/-- **No alignment is cheaper.** -/
theorem Alignment.least {a b : List α} {n : ℕ} (aligned : Alignment a b n) :
    editDistance a b ≤ n := by
  induction aligned with
  | nil => simp
  | @keep a b n x _ ih =>
      have step := editDistance_replace_le x x a b
      rw [if_pos rfl] at step
      exact step.trans ih
  | @replace a b n x y _ ih =>
      refine (editDistance_replace_le x y a b).trans (Nat.add_le_add ih ?_)
      split <;> omega
  | @delete a b n x _ ih => exact (editDistance_delete_le x a b).trans (Nat.add_le_add_right ih 1)
  | @insert a b n y _ ih => exact (editDistance_insert_le y a b).trans (Nat.add_le_add_right ih 1)

theorem editDistance_self (a : List α) : editDistance a a = 0 := by
  have aligned : Alignment a a 0 := by
    induction a with
    | nil => exact .nil
    | cons x a ih => exact ih.keep x
  exact Nat.le_zero.1 aligned.least

theorem editDistance_length_le (a b : List α) :
    a.length ≤ b.length + editDistance a b ∧ b.length ≤ a.length + editDistance a b :=
  (editDistance_alignment a b).length_le

/-! ## Prefixes -/

theorem editDistance_reverse (a b : List α) :
    editDistance a.reverse b.reverse = editDistance a b := by
  apply le_antisymm (editDistance_alignment a b).reverse.least
  have back := (editDistance_alignment a.reverse b.reverse).reverse.least
  rwa [List.reverse_reverse, List.reverse_reverse] at back

/-- **The recursion at the last units.** -/
theorem editDistance_concat (x y : α) (a b : List α) :
    editDistance (a ++ [x]) (b ++ [y]) =
      min (editDistance a b + if x = y then 0 else 1)
        (min (editDistance a (b ++ [y]) + 1) (editDistance (a ++ [x]) b + 1)) := by
  have turned : ∀ (z : α) (c : List α), (c ++ [z]).reverse = z :: c.reverse := fun z c => by
    rw [List.reverse_append]
    rfl
  rw [← editDistance_reverse (a ++ [x]) (b ++ [y]), ← editDistance_reverse a b,
    ← editDistance_reverse a (b ++ [y]), ← editDistance_reverse (a ++ [x]) b, turned, turned,
    editDistance_cons]

/-- **A prefix is as close to some prefix** as the lists are to each other. -/
theorem exists_prefix_le (a₁ a₂ b : List α) :
    ∃ b₁ b₂, b = b₁ ++ b₂ ∧ editDistance a₁ b₁ ≤ editDistance (a₁ ++ a₂) b := by
  obtain ⟨b₁, b₂, n₁, n₂, cut, sum, first, -⟩ := (editDistance_alignment (a₁ ++ a₂) b).cut
  exact ⟨b₁, b₂, cut, first.least.trans (by omega)⟩

end Tozalist.Theory
