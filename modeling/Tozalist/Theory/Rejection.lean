/-
# Tozalist.Theory.Rejection -- samples that are thrown away

A sampler reads raw values and accepts some of them, each as a value of `α`; the others it throws
away.  `firstAccepted accept n raw` is what it makes of the raw values `raw`: the first `n` that
are accepted, if there are as many.

Where every value of `α` is accepted from equally many raw values, all results are equally likely:
as many raw sequences of a length lead to one result as to any other (`sources_eq`), also where
the raw values come in blocks (`blockSources_eq`).
-/
import Mathlib.Algebra.BigOperators.Group.Finset.Sigma
import Mathlib.Algebra.BigOperators.Group.Finset.Piecewise
import Mathlib.Algebra.Group.Action.Defs
import Mathlib.Data.Fin.Tuple.Basic
import Mathlib.Data.List.OfFn
import Mathlib.Logic.Equiv.Fin.Basic
import Mathlib.SetTheory.Cardinal.Finite

namespace Tozalist.Theory

set_option autoImplicit false

universe u v

variable {α : Type u} {β : Type v}

/-- The first `n` values that are accepted; `none` where there are not as many. -/
def firstAccepted (accept : β → Option α) : ℕ → List β → Option (List α)
  | 0, _ => some []
  | _ + 1, [] => none
  | n + 1, b :: raw =>
      match accept b with
      | none => firstAccepted accept (n + 1) raw
      | some a => (firstAccepted accept n raw).map (a :: ·)

variable (accept : β → Option α)

@[simp] theorem firstAccepted_zero (raw : List β) : firstAccepted accept 0 raw = some [] := by
  cases raw <;> rfl

/-- What is asked for has its length. -/
theorem length_of_firstAccepted {n : ℕ} {raw : List β} {values : List α}
    (found : firstAccepted accept n raw = some values) : values.length = n := by
  induction raw generalizing n values with
  | nil =>
      cases n with
      | zero =>
          cases found
          rfl
      | succ n => cases found
  | cons b raw ih =>
      cases n with
      | zero =>
          cases found
          rfl
      | succ n =>
          rw [firstAccepted] at found
          split at found
          · exact ih found
          · obtain ⟨rest, later, rfl⟩ := Option.map_eq_some_iff.1 found
            rw [List.length_cons, ih later]

/-! ## Sources -/

/-- The raw sequences of length `k` that lead to `values`. -/
def Sources (k : ℕ) (values : List α) : Type v :=
  {raw : Fin k → β // firstAccepted accept values.length (List.ofFn raw) = some values}

variable [Fintype β]

instance (k : ℕ) (values : List α) : Finite (Sources accept k values) := by
  unfold Sources
  infer_instance

/-- A source begins with a raw value. -/
def sourcesCons (k : ℕ) (values : List α) :
    Sources accept (k + 1) values ≃ Σ b : β, {raw : Fin k → β //
      firstAccepted accept values.length (b :: List.ofFn raw) = some values} where
  toFun source := ⟨source.1 0, Fin.tail source.1, by
    have is := source.2
    rw [List.ofFn_succ] at is
    exact is⟩
  invFun s := ⟨Fin.cons s.1 s.2.1, by
    rw [List.ofFn_succ]
    exact s.2.2⟩
  left_inv source := Subtype.ext (Fin.cons_self_tail source.1)
  right_inv s := rfl

open Classical in
/-- The sources by their first value: it is thrown away, or it is accepted as the first value. -/
theorem card_sources_cons (k : ℕ) (a : α) (values : List α) :
    Nat.card (Sources accept (k + 1) (a :: values)) =
      Nat.card {b // accept b = none} * Nat.card (Sources accept k (a :: values)) +
        Nat.card {b // accept b = some a} * Nat.card (Sources accept k values) := by
  have first : ∀ b, Nat.card {raw : Fin k → β //
      firstAccepted accept (a :: values).length (b :: List.ofFn raw) = some (a :: values)} =
      (if accept b = none then Nat.card (Sources accept k (a :: values)) else 0) +
        if accept b = some a then Nat.card (Sources accept k values) else 0 := by
    intro b
    cases is : accept b with
    | none =>
        simp only [if_true, List.length_cons, firstAccepted, is, reduceCtorEq, if_false, add_zero]
        rfl
    | some c =>
        simp only [reduceCtorEq, if_false, List.length_cons, firstAccepted, is, zero_add,
          Option.some.injEq, Option.map_eq_some_iff, List.cons.injEq, exists_eq_right_right]
        split
        · rename_i same
          simp only [same, and_true]
          rfl
        · rename_i other
          simp only [other, and_false, Nat.card_eq_zero]
          exact .inl ⟨fun raw => raw.2⟩
  have counted : ∀ (p : β → Prop) [DecidablePred p] (c : ℕ),
      (∑ b, if p b then c else 0) = Nat.card {b // p b} * c := by
    intro p _ c
    rw [← Finset.sum_filter, Finset.sum_const, Nat.card_eq_fintype_card, Fintype.card_subtype,
      smul_eq_mul]
  rw [Nat.card_congr (sourcesCons accept k (a :: values)), Nat.card_sigma]
  simp only [first, Finset.sum_add_distrib, counted]

/-- **All results are equally likely** where every value is accepted from `c` raw values. -/
theorem sources_eq {c : ℕ} (even : ∀ a, Nat.card {b // accept b = some a} = c) (k : ℕ)
    {values values' : List α} (same : values.length = values'.length) :
    Nat.card (Sources accept k values) = Nat.card (Sources accept k values') := by
  induction k generalizing values values' with
  | zero =>
      cases values with
      | nil => rw [List.length_eq_zero_iff.1 same.symm]
      | cons a values =>
          cases values' with
          | nil => cases same
          | cons a' values' => simp [Sources, firstAccepted]
  | succ k ih =>
      cases values with
      | nil => rw [List.length_eq_zero_iff.1 same.symm]
      | cons a values =>
          cases values' with
          | nil => cases same
          | cons a' values' =>
              rw [card_sources_cons, card_sources_cons, even, even, ih same,
                ih (Nat.succ.inj same)]

omit [Fintype β] in
/-- What is accepted from enough raw values has a source. -/
theorem exists_source [Nonempty β] (onto : ∀ a, ∃ b, accept b = some a) {k : ℕ} {values : List α}
    (enough : values.length ≤ k) : Nonempty (Sources accept k values) := by
  induction k generalizing values with
  | zero =>
      obtain rfl := List.length_eq_zero_iff.1 (Nat.le_zero.1 enough)
      exact ⟨⟨Fin.elim0, rfl⟩⟩
  | succ k ih =>
      cases values with
      | nil => exact ⟨⟨fun _ => Classical.arbitrary β, firstAccepted_zero accept _⟩⟩
      | cons a values =>
          obtain ⟨b, is⟩ := onto a
          obtain ⟨raw, leads⟩ := ih (Nat.le_of_succ_le_succ enough)
          refine ⟨⟨Fin.cons b raw, ?_⟩⟩
          rw [List.length_cons, List.ofFn_cons, firstAccepted, is]
          dsimp only
          rw [leads]
          rfl

/-! ## Blocks -/

omit [Fintype β] in
/-- Blocks that are read one after another. -/
theorem flatten_blocks {m n : ℕ} (raw : Fin (m * n) → β) :
    (List.ofFn fun i => List.ofFn fun j => raw (finProdFinEquiv (i, j))).flatten =
      List.ofFn raw := by
  rw [List.ofFn_mul]
  congr 2
  funext i
  congr 1
  funext j
  congr 1
  exact Fin.ext (by rw [finProdFinEquiv_apply_val, Nat.add_comm, Nat.mul_comm])

/-- `m` blocks of `n` raw values that lead to `values`. -/
def BlockSources (m n : ℕ) (values : List α) : Type v :=
  {blocks : Fin m → Fin n → β //
    firstAccepted accept values.length (List.ofFn fun i => List.ofFn (blocks i)).flatten =
      some values}

/-- Blocks are one sequence, cut. -/
def blockSourcesEquiv (m n : ℕ) (values : List α) :
    BlockSources accept m n values ≃ Sources accept (m * n) values :=
  (((Equiv.curry (Fin m) (Fin n) β).symm.trans
    (finProdFinEquiv.arrowCongr (Equiv.refl β))).symm.subtypeEquiv fun raw => by
      rw [← flatten_blocks raw]
      rfl).symm

/-- **Blocks of raw values**: all results are equally likely. -/
theorem blockSources_eq {c : ℕ} (even : ∀ a, Nat.card {b // accept b = some a} = c) (m n : ℕ)
    {values values' : List α} (same : values.length = values'.length) :
    Nat.card (BlockSources accept m n values) = Nat.card (BlockSources accept m n values') := by
  rw [Nat.card_congr (blockSourcesEquiv accept m n values),
    Nat.card_congr (blockSourcesEquiv accept m n values'), sources_eq accept even _ same]

theorem blockSources_pos [Nonempty β] (onto : ∀ a, ∃ b, accept b = some a) {m n : ℕ}
    {values : List α} (enough : values.length ≤ m * n) :
    0 < Nat.card (BlockSources accept m n values) := by
  rw [Nat.card_congr (blockSourcesEquiv accept m n values), Nat.card_pos_iff]
  exact ⟨exists_source accept onto enough, inferInstance⟩

end Tozalist.Theory
