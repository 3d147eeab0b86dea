/-
# Tozalist.Theory.Escrow -- accounts whose spending may be held and given back once

An abstract account book.  Every account has free units; units can be deposited,
spent, or set aside under a name, a *hold*.  Of a hold, some part may be released to
its account again, once.

The carrier types keep the invariants: free units and the two parts of a hold are
natural numbers, and a `Hold` never releases more than it took (`Hold.le`).  So a book
that overdraws an account, or pays a hold back twice, cannot be written down, and what
a hold costs is between nothing and its amount by construction.

`Step` has one constructor for each thing that can happen to a book; `Path` is zero or
more of them.  Only setting aside brings a new hold, and nothing changes the amount of
one (`holdsOf_setAside`, `holdsOf_release`).
-/
import Mathlib.Logic.Function.Basic
import Mathlib.Logic.Relation
import Mathlib.Tactic.Common

namespace Tozalist.Theory.Escrow

set_option autoImplicit false

universe u v

/-- What was set aside, and how much of it went back. -/
structure Hold where
  amount : ℕ
  released : ℕ
  le : released ≤ amount

/-- What a hold costs its account in the end. -/
def Hold.cost (h : Hold) : ℕ := h.amount - h.released

theorem Hold.cost_le (h : Hold) : h.cost ≤ h.amount := Nat.sub_le _ _

/-- Free units of every account, and the holds on it by name. -/
structure Book (α : Type u) (ι : Type v) where
  free : α → ℕ
  holds : α → ι → Option Hold

variable {α : Type u} {ι : Type v} [DecidableEq α] [DecidableEq ι]

namespace Book

def deposit (b : Book α ι) (a : α) (n : ℕ) : Book α ι :=
  { b with free := Function.update b.free a (b.free a + n) }

def spend (b : Book α ι) (a : α) (n : ℕ) : Book α ι :=
  { b with free := Function.update b.free a (b.free a - n) }

/-- Write `h` under the name `i` of account `a`. -/
def record (b : Book α ι) (a : α) (i : ι) (h : Hold) : Book α ι :=
  { b with holds := Function.update b.holds a (Function.update (b.holds a) i (some h)) }

/-- Set `n` units aside. -/
def setAside (b : Book α ι) (a : α) (i : ι) (n : ℕ) : Book α ι :=
  (b.spend a n).record a i ⟨n, 0, Nat.zero_le n⟩

/-- Give `r` of the held units back. -/
def release (b : Book α ι) (a : α) (i : ι) (h : Hold) (r : ℕ) (le : r ≤ h.amount) : Book α ι :=
  (b.deposit a r).record a i ⟨h.amount, r, le⟩

theorem record_holds (b : Book α ι) (a a' : α) (i i' : ι) (h : Hold) :
    (b.record a i h).holds a' i' = if a' = a ∧ i' = i then some h else b.holds a' i' := by
  by_cases sameA : a' = a
  · subst sameA
    by_cases sameI : i' = i
    · subst sameI; simp [record]
    · simp [record, sameI]
  · simp [record, sameA]

/-- `n` units were set aside under the name `i`. -/
def HoldsOf (b : Book α ι) (a : α) (i : ι) (n : ℕ) : Prop :=
  ∃ h, b.holds a i = some h ∧ h.amount = n

theorem holdsOf_setAside {b : Book α ι} {a : α} {i : ι} {n : ℕ} (fresh : b.holds a i = none)
    (a' : α) (i' : ι) (n' : ℕ) :
    (b.setAside a i n).HoldsOf a' i' n' ↔ b.HoldsOf a' i' n' ∨ (a' = a ∧ i' = i ∧ n' = n) := by
  simp only [HoldsOf, setAside, record_holds]
  by_cases same : a' = a ∧ i' = i
  · obtain ⟨rfl, rfl⟩ := same
    simp [fresh, eq_comm]
  · rw [if_neg same]
    constructor
    · exact Or.inl
    · rintro (old | ⟨sameA, sameI, -⟩)
      · exact old
      · exact absurd ⟨sameA, sameI⟩ same

theorem holdsOf_release {b : Book α ι} {a : α} {i : ι} {h : Hold} {r : ℕ} (le : r ≤ h.amount)
    (present : b.holds a i = some h) (a' : α) (i' : ι) (n : ℕ) :
    (b.release a i h r le).HoldsOf a' i' n ↔ b.HoldsOf a' i' n := by
  simp only [HoldsOf, release, record_holds]
  by_cases same : a' = a ∧ i' = i
  · obtain ⟨rfl, rfl⟩ := same
    simp [present]
  · rw [if_neg same]
    rfl

end Book

/-- What can happen to a book. -/
inductive Step : Book α ι → Book α ι → Prop
  | deposit (b : Book α ι) (a : α) (n : ℕ) : Step b (b.deposit a n)
  | spend (b : Book α ι) (a : α) (n : ℕ) (enough : n ≤ b.free a) : Step b (b.spend a n)
  | setAside (b : Book α ι) (a : α) (i : ι) (n : ℕ) (fresh : b.holds a i = none)
      (enough : n ≤ b.free a) : Step b (b.setAside a i n)
  | release (b : Book α ι) (a : α) (i : ι) (h : Hold) (r : ℕ) (le : r ≤ h.amount)
      (present : b.holds a i = some h) (unreleased : h.released = 0) :
      Step b (b.release a i h r le)

/-- Zero or more steps. -/
abbrev Path : Book α ι → Book α ι → Prop := Relation.ReflTransGen Step

end Tozalist.Theory.Escrow
