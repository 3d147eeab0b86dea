/-
# Tozalist.Theory.Txn -- transactions that commit whole or not at all

A transaction body is a state computation that may abort: `StateT σ (Except ε)`.
`Txn.transaction` runs a body against a store and gives the store back unchanged
when the body aborted, which is what `db.transaction` does.

`Txn.Commits body s a s'` reads "started at `s`, the body commits with answer `a`
and leaves `s'`".  The `commits_*` lemmas turn a body into the statement of what
it can commit, one construct at a time, so that the effect of an operation is
read off by `simp`; `Txn.Keeps` is the corresponding invariant rule.  `attempt` is a
transaction whose caller may be told of a failure that did not happen.
-/
import Mathlib.Tactic.Common

namespace Tozalist.Theory

set_option autoImplicit false

universe u v

/-- A transaction body over the store `σ`, which may abort with an `ε`. -/
abbrev Txn (σ ε α : Type u) : Type u := StateT σ (Except ε) α

namespace Txn

variable {σ ε α β : Type u}

/-- Run a body; an abort rolls the store back. -/
def transaction (body : Txn σ ε α) (s : σ) : Except ε α × σ :=
  match body.run s with
  | .ok (a, s') => (.ok a, s')
  | .error e => (.error e, s)

/-- Started at `s`, the body commits with answer `a` and leaves `s'`. -/
def Commits (body : Txn σ ε α) (s : σ) (a : α) (s' : σ) : Prop :=
  body.run s = .ok (a, s')

/-- A body commits in one way. -/
theorem Commits.unique {body : Txn σ ε α} {s s' t : σ} {a b : α} (commits : Commits body s a s')
    (commits' : Commits body s b t) : a = b ∧ s' = t :=
  Prod.mk.inj (Except.ok.inj (commits.symm.trans commits'))

@[simp] theorem commits_pure (x a : α) (s s' : σ) :
    Commits (pure x : Txn σ ε α) s a s' ↔ a = x ∧ s' = s := by
  have : (pure x : Txn σ ε α).run s = .ok (x, s) := rfl
  simp only [Commits, this, Except.ok.injEq, Prod.mk.injEq, eq_comm]

@[simp] theorem commits_bind (body : Txn σ ε α) (next : α → Txn σ ε β) (s s'' : σ) (b : β) :
    Commits (body >>= next) s b s'' ↔ ∃ a s', Commits body s a s' ∧ Commits (next a) s' b s'' := by
  simp only [Commits, StateT.run_bind]
  cases body.run s with
  | error e => simp [bind, Except.bind]
  | ok p =>
      obtain ⟨a, s'⟩ := p
      simp [bind, Except.bind]

@[simp] theorem commits_map (f : α → β) (body : Txn σ ε α) (s s' : σ) (b : β) :
    Commits (f <$> body) s b s' ↔ ∃ a, b = f a ∧ Commits body s a s' := by
  simp only [← bind_pure_comp, commits_bind, commits_pure]
  constructor
  · rintro ⟨a, _, commits, rfl, rfl⟩
    exact ⟨a, rfl, commits⟩
  · rintro ⟨a, rfl, commits⟩
    exact ⟨a, _, commits, rfl, rfl⟩

@[simp] theorem commits_throw (e : ε) (s s' : σ) (a : α) :
    ¬ Commits (throw e : Txn σ ε α) s a s' := by
  simp [Commits, throw, throwThe, MonadExceptOf.throw, StateT.lift, StateT.run, bind, Except.bind]

@[simp] theorem commits_get (s s' a : σ) :
    Commits (get : Txn σ ε σ) s a s' ↔ a = s ∧ s' = s := by
  have : (get : Txn σ ε σ).run s = .ok (s, s) := rfl
  simp only [Commits, this, Except.ok.injEq, Prod.mk.injEq, eq_comm]

@[simp] theorem commits_modify (f : σ → σ) (s s' : σ) (a : PUnit) :
    Commits (modify f : Txn σ ε PUnit) s a s' ↔ s' = f s := by
  have : (modify f : Txn σ ε PUnit).run s = .ok (⟨⟩, f s) := rfl
  simp only [Commits, this, Except.ok.injEq, Prod.mk.injEq, true_and, eq_comm]

@[simp] theorem commits_ite (c : Prop) [Decidable c] (body other : Txn σ ε α) (s s' : σ) (a : α) :
    Commits (if c then body else other) s a s' ↔
      (c ∧ Commits body s a s') ∨ (¬ c ∧ Commits other s a s') := by
  by_cases h : c <;> simp [h]

/-- A transaction commits what its body commits, or rolls back. -/
theorem transaction_cases (body : Txn σ ε α) (s : σ) :
    (∃ a s', Commits body s a s' ∧ transaction body s = (.ok a, s')) ∨
      ∃ e, body.run s = .error e ∧ transaction body s = (.error e, s) := by
  unfold transaction Commits
  cases h : body.run s with
  | ok p => exact .inl ⟨p.1, p.2, rfl, rfl⟩
  | error e => exact .inr ⟨e, rfl, rfl⟩

theorem transaction_of_commits {body : Txn σ ε α} {s s' : σ} {a : α} (h : Commits body s a s') :
    transaction body s = (.ok a, s') := by
  unfold transaction
  rw [show body.run s = .ok (a, s') from h]

theorem transaction_of_error {body : Txn σ ε α} {s : σ} {e : ε} (aborts : body.run s = .error e) :
    transaction body s = (.error e, s) := by
  rw [transaction, aborts]

/-- A transaction that answered has committed. -/
theorem commits_of_ok {body : Txn σ ε α} {s : σ} {a : α}
    (ok : (transaction body s).1.toOption = some a) : Commits body s a (transaction body s).2 := by
  rcases transaction_cases body s with ⟨b, s', commits, eq⟩ | ⟨e, -, eq⟩
  · rw [eq] at ok ⊢
    obtain rfl : b = a := Option.some.inj ok
    exact commits
  · rw [eq] at ok
    cases ok

/-- What the store is after a transaction: as before, or as a commit left it. -/
theorem transaction_store (body : Txn σ ε α) (s : σ) :
    (transaction body s).2 = s ∨ ∃ a, Commits body s a (transaction body s).2 := by
  rcases transaction_cases body s with ⟨a, s', commits, eq⟩ | ⟨e, -, eq⟩
  · exact .inr ⟨a, by rw [eq]; exact commits⟩
  · exact .inl (by rw [eq])

/-- How a call to the store goes for its caller: answered, or reported as failed, before or
after the transaction took effect. -/
inductive Delivery where
  | answered
  | lostBefore
  | lostAfter
  deriving DecidableEq, Repr

/-- A transaction over a connection that can fail: the answer the caller gets, and the
store. -/
def attempt (delivery : Delivery) (body : Txn σ ε α) (s : σ) : Option α × σ :=
  match delivery with
  | .answered => ((transaction body s).1.toOption, (transaction body s).2)
  | .lostBefore => (none, s)
  | .lostAfter => (none, (transaction body s).2)

/-- An answered attempt does what its transaction does. -/
theorem attempt_answered {body : Txn σ ε α} {s s' : σ} {answer : Except ε α}
    (is : transaction body s = (answer, s')) :
    attempt .answered body s = (answer.toOption, s') := by
  rw [attempt, is]

/-- What an attempt commits, whatever its caller is told. -/
def committed (delivery : Delivery) (body : Txn σ ε α) (s : σ) : Option α :=
  match delivery with
  | .lostBefore => none
  | .answered | .lostAfter => (transaction body s).1.toOption

/-- An attempt leaves no trace, or commits, and then its answer may get lost. -/
theorem committed_cases (delivery : Delivery) (body : Txn σ ε α) (s : σ) :
    (committed delivery body s = none ∧ attempt delivery body s = (none, s)) ∨
      ∃ a s', Commits body s a s' ∧ delivery ≠ .lostBefore ∧
        committed delivery body s = some a ∧
          (attempt delivery body s = (some a, s') ∨ attempt delivery body s = (none, s')) := by
  rcases transaction_cases body s with ⟨a, s', commits, eq⟩ | ⟨e, -, eq⟩
  · cases delivery with
    | answered =>
        exact .inr ⟨a, s', commits, nofun, by rw [committed, eq]; rfl,
          .inl (by rw [attempt, eq]; rfl)⟩
    | lostBefore => exact .inl ⟨rfl, rfl⟩
    | lostAfter =>
        exact .inr ⟨a, s', commits, nofun, by rw [committed, eq]; rfl,
          .inr (by rw [attempt, eq])⟩
  · cases delivery with
    | answered => exact .inl ⟨by rw [committed, eq]; rfl, by rw [attempt, eq]; rfl⟩
    | lostBefore => exact .inl ⟨rfl, rfl⟩
    | lostAfter => exact .inl ⟨by rw [committed, eq]; rfl, by rw [attempt, eq]⟩

theorem attempt_cases (delivery : Delivery) (body : Txn σ ε α) (s : σ) :
    attempt delivery body s = (none, s) ∨
      ∃ a s', Commits body s a s' ∧ delivery ≠ .lostBefore ∧
        (attempt delivery body s = (some a, s') ∨ attempt delivery body s = (none, s')) := by
  rcases committed_cases delivery body s with ⟨-, eq⟩ | ⟨a, s', commits, effective, -, eq⟩
  · exact .inl eq
  · exact .inr ⟨a, s', commits, effective, eq⟩

/-- What the store is after an attempt. -/
theorem attempt_store (delivery : Delivery) (body : Txn σ ε α) (s : σ) :
    (attempt delivery body s).2 = s ∨
      delivery ≠ .lostBefore ∧ ∃ a, Commits body s a (attempt delivery body s).2 := by
  rcases attempt_cases delivery body s with eq | ⟨a, s', commits, effective, eq⟩
  · exact .inl (by rw [eq])
  · refine .inr ⟨effective, a, ?_⟩
    rcases eq with eq | eq <;> (rw [eq]; exact commits)

/-- A body that can commit does, unless the call is lost before. -/
theorem attempt_of_commits {delivery : Delivery} {body : Txn σ ε α} {s s' : σ} {a : α}
    (effective : delivery ≠ .lostBefore) (commits : Commits body s a s') :
    (attempt delivery body s).2 = s' := by
  have eq := transaction_of_commits commits
  cases delivery with
  | answered => rw [attempt, eq]
  | lostBefore => exact absurd rfl effective
  | lostAfter => rw [attempt, eq]

/-- A body keeps `I` when no commit of it breaks `I`. -/
def Keeps (I : σ → Prop) (body : Txn σ ε α) : Prop :=
  ∀ s a s', I s → Commits body s a s' → I s'

/-- **The transaction rule**: what a body keeps, the whole transaction keeps. -/
theorem Keeps.transaction {I : σ → Prop} {body : Txn σ ε α} (keeps : Keeps I body) {s : σ}
    (h : I s) : I (transaction body s).2 := by
  rcases transaction_store body s with same | ⟨a, commits⟩
  · rw [same]; exact h
  · exact keeps s a _ h commits

end Txn

end Tozalist.Theory
