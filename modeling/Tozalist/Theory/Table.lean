/-
# Tozalist.Theory.Table -- tables as lists of rows

A table is the list of its rows in insertion order.  This file has the two
things the rest of the development asks of tables:

* `total p amount rows`, the sum of `amount` over the rows that satisfy `p`
  (`SELECT SUM(amount) WHERE p`), and how inserting, deleting and splitting move
  it;
* `Unique key rows`, a partial unique index: `key` gives the indexed value of a
  row, or `none` for a row the index does not cover.  Inserting a row whose key is
  not `Taken` keeps it, as do deletions and updates that leave the key alone, and
  under it the total of one key is the amount of the one row that has it; `lookup`
  is that row.

Over time a table evolves: `Evolved became` says that each of its rows has become one of the
later table.

An ordered query sorts what it selects; the sort is stable, so it may as well select from
what was sorted (`filter_mergeSort`).
-/
import Mathlib.Algebra.BigOperators.Group.List.Basic
import Mathlib.Algebra.Order.BigOperators.Group.List
import Mathlib.Tactic.Common

namespace Tozalist.Theory.Table

set_option autoImplicit false

universe u v w

/-! ## Sums over the rows a predicate selects -/

section Total

variable {ρ : Type u} {M : Type v} [AddCommMonoid M] (p q : ρ → Prop) [DecidablePred p]
  [DecidablePred q] (amount : ρ → M)

/-- `SUM(amount)` over the rows that satisfy `p`; an empty sum is `0`. -/
def total (rows : List ρ) : M :=
  ((rows.filter fun r => p r).map amount).sum

@[simp] theorem total_nil : total p amount [] = 0 := rfl

@[simp] theorem total_append (rows more : List ρ) :
    total p amount (rows ++ more) = total p amount rows + total p amount more := by
  simp [total]

@[simp] theorem total_singleton (r : ρ) :
    total p amount [r] = if p r then amount r else 0 := by
  by_cases h : p r <;> simp [total, h]

theorem total_cons (r : ρ) (rows : List ρ) :
    total p amount (r :: rows) = (if p r then amount r else 0) + total p amount rows := by
  by_cases h : p r <;> simp [total, h]

theorem total_eq_zero {rows : List ρ} (none_ : ∀ r ∈ rows, ¬ p r) : total p amount rows = 0 := by
  have : (rows.filter fun r => p r) = [] := List.filter_eq_nil_iff.2 (by simpa using none_)
  simp [total, this]

/-- Only rows that satisfy both predicates survive in the sum over a filtered table. -/
theorem total_filter (rows : List ρ) :
    total p amount (rows.filter fun r => q r) = total (fun r => p r ∧ q r) amount rows := by
  unfold total
  rw [List.filter_filter]
  congr 2
  exact List.filter_congr fun r _ => by simp

/-- A sum splits over any second predicate. -/
theorem total_split (rows : List ρ) :
    total p amount rows =
      total (fun r => p r ∧ q r) amount rows + total (fun r => p r ∧ ¬ q r) amount rows := by
  induction rows with
  | nil => simp
  | cons r rows ih =>
      simp only [total_cons, ih]
      by_cases hp : p r <;> by_cases hq : q r <;> simp [hp, hq, add_assoc, add_left_comm]

end Total

/-! ## Partial unique indexes -/

section Unique

variable {ρ : Type u} {κ : Type v} (key : ρ → Option κ)

/-- Some row of the table has the key `k`. -/
def Taken (k : κ) (rows : List ρ) : Prop :=
  ∃ r ∈ rows, key r = some k

instance [DecidableEq κ] (k : κ) (rows : List ρ) : Decidable (Taken key k rows) :=
  inferInstanceAs (Decidable (∃ r ∈ rows, key r = some k))

/-- No two rows of the table share a key; rows without a key do not count. -/
def Unique (rows : List ρ) : Prop :=
  rows.Pairwise fun r s => ∀ k, key r = some k → key s ≠ some k

variable {key} {rows : List ρ} {r s : ρ} {k : κ}

@[simp] theorem taken_append (more : List ρ) :
    Taken key k (rows ++ more) ↔ Taken key k rows ∨ Taken key k more := by
  simp only [Taken, List.mem_append, or_and_right, exists_or]

@[simp] theorem taken_singleton : Taken key k [r] ↔ key r = some k := by
  simp [Taken]

theorem Unique.nil : Unique key ([] : List ρ) := List.Pairwise.nil

/-- Inserting a row whose key is free keeps the index. -/
theorem Unique.insert (unique : Unique key rows)
    (free : ∀ k, key r = some k → ¬ Taken key k rows) : Unique key (rows ++ [r]) := by
  refine List.pairwise_append.2 ⟨unique, List.pairwise_singleton _ _, ?_⟩
  intro old member new singleton k has clash
  obtain rfl := List.mem_singleton.1 singleton
  exact free k clash ⟨old, member, has⟩

theorem Unique.filter (unique : Unique key rows) (q : ρ → Bool) : Unique key (rows.filter q) :=
  List.Pairwise.filter q unique

/-- An update that leaves the key of every row alone keeps the index. -/
theorem Unique.map (unique : Unique key rows) (f : ρ → ρ) (same : ∀ r, key (f r) = key r) :
    Unique key (rows.map f) :=
  List.pairwise_map.2 (by simp only [same]; exact unique)

/-- Rows with the same key are the same row. -/
theorem Unique.eq_of_key (unique : Unique key rows) (hr : r ∈ rows) (hs : s ∈ rows)
    (kr : key r = some k) (ks : key s = some k) : r = s := by
  induction rows with
  | nil => cases hr
  | cons x rows ih =>
      obtain ⟨head, tail⟩ := List.pairwise_cons.1 unique
      rcases List.mem_cons.1 hr with hr | hr <;> rcases List.mem_cons.1 hs with hs | hs
      · rw [hr, hs]
      · exact absurd ks (head s hs k (hr ▸ kr))
      · exact absurd kr (head r hr k (hs ▸ ks))
      · exact ih tail hr hs

section Decidable

variable [DecidableEq κ] {M : Type w} [AddCommMonoid M] {amount : ρ → M}

/-- At most one row has a given key. -/
theorem Unique.length_le_one (unique : Unique key rows) (k : κ) :
    (rows.filter fun r => key r = some k).length ≤ 1 := by
  induction rows with
  | nil => simp
  | cons x rows ih =>
      obtain ⟨head, tail⟩ := List.pairwise_cons.1 unique
      by_cases hx : key x = some k
      · have : (rows.filter fun r => key r = some k) = [] :=
          List.filter_eq_nil_iff.2 fun r member => by simpa using head r member k hx
        simp [hx, this]
      · simpa [hx] using ih tail

/-- The total of a key is the amount of the one row that has it. -/
theorem Unique.total_eq (unique : Unique key rows) (member : r ∈ rows) (has : key r = some k) :
    total (fun r => key r = some k) amount rows = amount r := by
  induction rows with
  | nil => cases member
  | cons x rows ih =>
      obtain ⟨head, tail⟩ := List.pairwise_cons.1 unique
      rw [total_cons]
      rcases List.mem_cons.1 member with rfl | inside
      · rw [if_pos has, total_eq_zero _ _ fun s hs => head s hs k has, add_zero]
      · rw [if_neg fun hx => head r inside k hx has, zero_add, ih tail inside]

/-- The total of a free key is zero. -/
theorem total_eq_zero_of_free (free : ¬ Taken key k rows) :
    total (fun r => key r = some k) amount rows = 0 :=
  total_eq_zero _ _ fun r member has => free ⟨r, member, has⟩

/-! ### The row of a key -/

/-- The row that has the key `k`, if one has. -/
def lookup (key : ρ → Option κ) (k : κ) (rows : List ρ) : Option ρ :=
  rows.find? fun r => key r = some k

@[simp] theorem lookup_nil : lookup key k [] = none := rfl

theorem lookup_eq_none : lookup key k rows = none ↔ ¬ Taken key k rows := by
  simp [lookup, Taken]

theorem mem_of_lookup (found : lookup key k rows = some r) : r ∈ rows ∧ key r = some k :=
  ⟨List.mem_of_find?_eq_some found, by simpa using List.find?_some found⟩

theorem Unique.lookup_eq (unique : Unique key rows) (member : r ∈ rows) (has : key r = some k) :
    lookup key k rows = some r := by
  cases found : lookup key k rows with
  | none => exact absurd ⟨r, member, has⟩ (lookup_eq_none.1 found)
  | some s =>
      obtain ⟨inside, also⟩ := mem_of_lookup found
      rw [unique.eq_of_key member inside has also]

theorem lookup_append_singleton :
    lookup key k (rows ++ [r]) =
      (lookup key k rows).or (if key r = some k then some r else none) := by
  by_cases has : key r = some k <;> simp [lookup, List.find?_append, has]

/-- An update that leaves the key of every row alone updates the row of a key. -/
theorem lookup_map {f : ρ → ρ} (same : ∀ r, key (f r) = key r) :
    lookup key k (rows.map f) = (lookup key k rows).map f := by
  simp only [lookup, List.find?_map, Function.comp_def, same]

/-- A deletion removes the row of a key or leaves it. -/
theorem Unique.lookup_filter (unique : Unique key rows) (q : ρ → Bool) :
    lookup key k (rows.filter q) = (lookup key k rows).filter q := by
  cases found : lookup key k rows with
  | none =>
      refine lookup_eq_none.2 fun ⟨r, member, has⟩ => ?_
      exact lookup_eq_none.1 found ⟨r, (List.mem_filter.1 member).1, has⟩
  | some r =>
      obtain ⟨member, has⟩ := mem_of_lookup found
      by_cases kept : q r
      · rw [Option.filter_some, if_pos kept]
        exact (unique.filter q).lookup_eq (List.mem_filter.2 ⟨member, kept⟩) has
      · rw [Option.filter_some, if_neg kept]
        refine lookup_eq_none.2 fun ⟨s, inside, also⟩ => ?_
        obtain ⟨old, stays⟩ := List.mem_filter.1 inside
        rw [unique.eq_of_key old member also has] at stays
        exact kept stays

end Decidable

end Unique

/-! ## Evolution -/

section Evolution

variable {ρ : Type u} {became : ρ → ρ → Prop} {rows rows' rows'' : List ρ}

/-- Every row has become one of the later table. -/
def Evolved (became : ρ → ρ → Prop) (rows rows' : List ρ) : Prop :=
  ∀ r ∈ rows, ∃ r' ∈ rows', became r r'

theorem Evolved.refl (same : ∀ r, became r r) (rows : List ρ) : Evolved became rows rows :=
  fun r member => ⟨r, member, same r⟩

theorem Evolved.trans (further : ∀ r s t, became r s → became s t → became r t)
    (first : Evolved became rows rows') (second : Evolved became rows' rows'') :
    Evolved became rows rows'' := by
  intro r member
  obtain ⟨s, inside, is⟩ := first r member
  obtain ⟨t, there, then_⟩ := second s inside
  exact ⟨t, there, further r s t is then_⟩

/-- Rows that are inserted change none of the others. -/
theorem Evolved.append (same : ∀ r, became r r) (rows more : List ρ) :
    Evolved became rows (rows ++ more) :=
  fun r member => ⟨r, List.mem_append_left _ member, same r⟩

/-- An update of every row. -/
theorem Evolved.map {update : ρ → ρ} (each : ∀ r, became r (update r)) (rows : List ρ) :
    Evolved became rows (rows.map update) :=
  fun r member => ⟨update r, List.mem_map_of_mem member, each r⟩

end Evolution

/-! ## Ordered queries -/

section Ordered

variable {ρ : Type u} {le : ρ → ρ → Bool}

/-- A list that `r` cuts in two, what is strictly before it and what is not, is cut in one
place only. -/
theorem cut_unique {r : ρ} {before after before' after' : List ρ}
    (same : before ++ after = before' ++ after')
    (strict : ∀ b ∈ before, (!le r b) = true) (le_after : ∀ b ∈ after, le r b = true)
    (strict' : ∀ b ∈ before', (!le r b) = true) (le_after' : ∀ b ∈ after', le r b = true) :
    before = before' ∧ after = after' := by
  have parts : ∀ {xs ys : List ρ}, (∀ b ∈ xs, (!le r b) = true) → (∀ b ∈ ys, le r b = true) →
      (xs ++ ys).filter (fun b => !le r b) = xs ∧ (xs ++ ys).filter (le r) = ys := by
    intro xs ys hx hy
    rw [List.filter_append, List.filter_append, List.filter_eq_self.2 hx, List.filter_eq_self.2 hy,
      List.filter_eq_nil_iff.2 fun b member => by simp [hy b member],
      List.filter_eq_nil_iff.2 fun b member => by simpa using hx b member]
    exact ⟨List.append_nil xs, List.nil_append ys⟩
  obtain ⟨cut, rest⟩ := parts strict le_after
  obtain ⟨cut', rest'⟩ := parts strict' le_after'
  rw [same] at cut rest
  exact ⟨cut.symm.trans cut', rest.symm.trans rest'⟩

/-- **A stable sort commutes with a selection.** -/
theorem filter_mergeSort (trans : ∀ a b c, le a b = true → le b c = true → le a c = true)
    (total : ∀ a b, (le a b || le b a) = true) (p : ρ → Bool) (rows : List ρ) :
    (rows.mergeSort le).filter p = (rows.filter p).mergeSort le := by
  induction rows with
  | nil => simp
  | cons r rows ih =>
      obtain ⟨before, after, whole, rest, strict⟩ := List.mergeSort_cons trans total r rows
      have sorted := List.pairwise_mergeSort trans total (r :: rows)
      rw [whole] at sorted
      by_cases selected : p r = true
      · obtain ⟨before', after', whole', rest', strict'⟩ :=
          List.mergeSort_cons trans total r (rows.filter p)
        have sorted' := List.pairwise_mergeSort trans total (r :: rows.filter p)
        rw [whole'] at sorted'
        have same : before.filter p ++ after.filter p = before' ++ after' := by
          rw [← rest', ← ih, rest, List.filter_append]
        obtain ⟨rfl, rfl⟩ := cut_unique same
          (fun b member => strict b (List.mem_filter.1 member).1)
          (fun b member => List.rel_of_pairwise_cons (List.pairwise_append.1 sorted).2.1
            (List.mem_filter.1 member).1)
          strict'
          (fun b member => List.rel_of_pairwise_cons (List.pairwise_append.1 sorted').2.1 member)
        rw [whole, List.filter_append, List.filter_cons_of_pos selected,
          List.filter_cons_of_pos selected, whole']
      · rw [whole, List.filter_cons_of_neg selected, ← ih, rest, List.filter_append,
          List.filter_append, List.filter_cons_of_neg selected]

end Ordered

end Tozalist.Theory.Table
