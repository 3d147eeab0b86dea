/-
# Tozalist.Theory.Locking -- transactions that race for locks

Any number of transactions run at once on one store, one statement at a time and in any
order.  A statement sees what is committed when it runs and what its own transaction has
written; what a transaction writes, the others see when it commits.  Locks are kept until the
transaction ends, and a statement that wants a lock somebody holds waits.

A `Locking` is such a system.  `statement` is what the next statement comes to, `rest` what is
left of the transaction's body, and the laws say that `statement` runs `rest` a piece at a
time, that locks are kept, and that a commit does not touch what a transaction has read if
the two have no lock in common.

* `serializable`: every run is a `Serial` execution of the bodies, one after another in the
  order in which they ended, with the same answers and the same store;
* `progress`: where a transaction wants locks in an order, somebody can always go on.
-/
import Tozalist.Theory.Run
import Tozalist.Theory.Txn
import Mathlib.Data.Fintype.Basic
import Mathlib.Data.List.Nodup
import Mathlib.Logic.Function.Basic

namespace Tozalist.Theory

set_option autoImplicit false

universe u v w

/-- What a statement comes to: the transaction goes on, commits, or is rolled back. -/
inductive Locking.Outcome (σ ε α L : Type u) where
  | goOn (next : L)
  | commit (answer : α) (write : σ → σ)
  | abort (error : ε)

/-- What a transaction comes to from here, if nobody comes in between. -/
def Locking.Outcome.finish {σ ε α L : Type u} (rest : L → Txn σ ε α) (s : σ) :
    Locking.Outcome σ ε α L → Except ε (α × σ)
  | .goOn next => (rest next).run s
  | .commit answer write => .ok (answer, write s)
  | .abort error => .error error

/-- Transactions in pieces.  `L` is where a transaction is, `K` what it locks. -/
structure Locking (σ ε α L : Type u) (K : Type v) where
  statement : L → σ → Locking.Outcome σ ε α L
  rest : L → Txn σ ε α
  /-- the locks the transaction has -/
  holds : L → List K
  /-- the locks its next statement takes -/
  wants : L → List K
  rest_run : ∀ l s, (rest l).run s = (statement l s).finish rest s
  keeps : ∀ {l next s}, statement l s = .goOn next → holds l ⊆ holds next
  takes : ∀ {l next s}, statement l s = .goOn next → holds next ⊆ holds l ++ wants l
  unaffected : ∀ {l next other a write s}, statement l s = .goOn next →
    statement other s = .commit a write → (holds next).Disjoint (holds other) →
      statement l (write s) = .goOn next

/-- Transactions one after another: who, with what answer, and the store they leave. -/
inductive Serial {ι : Type w} {σ ε α : Type u} (body : ι → Txn σ ε α) (s : σ) :
    List (ι × Except ε α) → σ → Prop
  | nil : Serial body s [] s
  | snoc {log : List (ι × Except ε α)} {t : σ} (i : ι) :
      Serial body s log t →
        Serial body s (log ++ [(i, (Txn.transaction (body i) t).1)])
          (Txn.transaction (body i) t).2

/-- Where a transaction is, or how it has ended. -/
inductive Locking.Phase (ε α L : Type u) where
  | running (point : L)
  | ended (result : Except ε α)

/-- The transaction has ended. -/
def Locking.Phase.isEnded {ε α L : Type u} : Locking.Phase ε α L → Bool
  | .running _ => false
  | .ended _ => true

theorem Locking.Phase.isEnded_iff {ε α L : Type u} {p : Locking.Phase ε α L} :
    p.isEnded = true ↔ ∃ result, p = .ended result := by
  cases p <;> simp [Locking.Phase.isEnded]

/-- The committed store, and where every transaction is. -/
structure Locking.Race (ι : Type w) (σ ε α L : Type u) where
  store : σ
  phase : ι → Locking.Phase ε α L

namespace Locking

namespace Race

variable {σ ε α L : Type u} {ι : Type w} [DecidableEq ι]

/-- Transaction `i` gets to `p` and leaves `store`. -/
def put (r : Race ι σ ε α L) (i : ι) (store : σ) (p : Phase ε α L) : Race ι σ ε α L :=
  ⟨store, Function.update r.phase i p⟩

variable (r : Race ι σ ε α L) {i j : ι} (store : σ) (p : Phase ε α L)

@[simp] theorem put_store : (r.put i store p).store = store := rfl

@[simp] theorem put_phase_self : (r.put i store p).phase i = p :=
  Function.update_self ..

theorem put_phase_of_ne (other : j ≠ i) : (r.put i store p).phase j = r.phase j :=
  Function.update_of_ne other ..

end Race

section System

variable {σ ε α L : Type u} {K : Type v} {ι : Type w} (sys : Locking σ ε α L K)

/-- The locks of a transaction that is running; one that ended has none. -/
def locks : Phase ε α L → List K
  | .running l => sys.holds l
  | .ended _ => []

/-- Transaction `i` can run its next statement: nobody else has a lock it wants. -/
def Allows (r : Race ι σ ε α L) (i : ι) : Prop :=
  ∃ l, r.phase i = .running l ∧ ∀ j, j ≠ i → ∀ k ∈ sys.wants l, k ∉ sys.locks (r.phase j)

instance [Fintype ι] [DecidableEq ι] [DecidableEq K] (r : Race ι σ ε α L) (i : ι) :
    Decidable (sys.Allows r i) :=
  match here : r.phase i with
  | .ended result => isFalse (by rintro ⟨l, running, -⟩; cases here.symm.trans running)
  | .running l =>
      decidable_of_iff (∀ j, j ≠ i → ∀ k ∈ sys.wants l, k ∉ sys.locks (r.phase j)) <| by
        constructor
        · exact fun free => ⟨l, here, free⟩
        · rintro ⟨l', running, free⟩
          cases here.symm.trans running
          exact free

/-- Transaction `i` runs its next statement. -/
def after [DecidableEq ι] (r : Race ι σ ε α L) (i : ι) : Race ι σ ε α L :=
  match r.phase i with
  | .ended _ => r
  | .running l =>
      match sys.statement l r.store with
      | .goOn next => r.put i r.store (.running next)
      | .commit a write => r.put i (write r.store) (.ended (.ok a))
      | .abort e => r.put i r.store (.ended (.error e))

/-- A statement of one transaction. -/
abbrev Step [DecidableEq ι] : Race ι σ ε α L → ι → Race ι σ ε α L → Prop :=
  StepOf sys.Allows sys.after

/-- What a transaction at `l` has run so far, the store being `s`. -/
def Path (s : σ) : L → L → Prop :=
  Relation.ReflTransGen fun l next => sys.statement l s = .goOn next

end System

section Serial

variable {σ ε α L : Type u} {K : Type v} {ι : Type w} {sys : Locking σ ε α L K}

theorem Path.run_eq {s : σ} {first l : L} (path : sys.Path s first l) :
    (sys.rest first).run s = (sys.rest l).run s := by
  induction path with
  | refl => rfl
  | tail _ last ih => rw [ih, sys.rest_run, last, Outcome.finish]

/-- A commit of somebody else leaves what a transaction has run so far as it was. -/
theorem Path.unaffected {s : σ} {first l other : L} {a : α} {write : σ → σ}
    (path : sys.Path s first l) (commits : sys.statement other s = .commit a write)
    (apart : (sys.holds l).Disjoint (sys.holds other)) : sys.Path (write s) first l := by
  induction path with
  | refl => exact .refl
  | tail _ last ih =>
      have earlier := ih fun k has others => apart (sys.keeps last has) others
      exact earlier.tail (sys.unaffected last commits apart)

/-! ## Serialisability -/

/-- What holds all along: the transactions that ended did so one after another, the others
are as far as they would be on the store as it is, and no two have a lock in common. -/
structure Serialized (sys : Locking σ ε α L K) (body : ι → L) (start : σ) (r : Race ι σ ε α L)
    (log : List (ι × Except ε α)) : Prop where
  serial : Serial (fun i => sys.rest (body i)) start log r.store
  once : (log.map Prod.fst).Nodup
  ended_iff : ∀ i result, (i, result) ∈ log ↔ r.phase i = .ended result
  path : ∀ i l, r.phase i = .running l → sys.Path r.store (body i) l
  apart : ∀ i j l l', i ≠ j → r.phase i = .running l → r.phase j = .running l' →
    (sys.holds l).Disjoint (sys.holds l')

variable {body : ι → L} {start : σ} {r : Race ι σ ε α L} {log : List (ι × Except ε α)} {i : ι}
  {l : L}

/-- A transaction that is running is not among those that ended. -/
theorem Serialized.not_mem (serialized : Serialized sys body start r log)
    (here : r.phase i = .running l) : i ∉ log.map Prod.fst := by
  intro member
  obtain ⟨⟨j, result⟩, listed, rfl⟩ := List.mem_map.1 member
  have ended := (serialized.ended_iff j result).1 listed
  rw [here] at ended
  cases ended

/-- A transaction moves on without ending. -/
theorem Serialized.goOn [DecidableEq ι] {next : L} (serialized : Serialized sys body start r log)
    (here : r.phase i = .running l) (goes : sys.statement l r.store = .goOn next)
    (free : ∀ j l', j ≠ i → r.phase j = .running l' → (sys.wants l).Disjoint (sys.holds l')) :
    Serialized sys body start (r.put i r.store (.running next)) log := by
  -- a lock it has now, it had before or nobody had
  have fresh : ∀ j l', j ≠ i → r.phase j = .running l' →
      (sys.holds next).Disjoint (sys.holds l') := by
    intro j l' other running k has others
    rcases List.mem_append.1 (sys.takes goes has) with old | new
    · exact serialized.apart i j l l' other.symm here running old others
    · exact free j l' other running new others
  refine ⟨serialized.serial, serialized.once, ?_, ?_, ?_⟩
  · intro j result
    rw [serialized.ended_iff j result]
    by_cases same : j = i
    · subst same
      simp [here]
    · rw [Race.put_phase_of_ne _ _ _ same]
  · intro j l' running
    by_cases same : j = i
    · subst same
      obtain rfl : next = l' := by simpa using running
      exact (serialized.path j l here).tail goes
    · rw [Race.put_phase_of_ne _ _ _ same] at running
      exact serialized.path j l' running
  · intro j k l' l'' different running running'
    by_cases same : j = i
    · subst same
      obtain rfl : next = l' := by simpa using running
      rw [Race.put_phase_of_ne _ _ _ different.symm] at running'
      exact fresh k l'' different.symm running'
    · rw [Race.put_phase_of_ne _ _ _ same] at running
      by_cases same' : k = i
      · subst same'
        obtain rfl : next = l'' := by simpa using running'
        exact List.disjoint_left.2 fun k mine others => fresh j l' same running others mine
      · rw [Race.put_phase_of_ne _ _ _ same'] at running'
        exact serialized.apart j k l' l'' different running running'

/-- A transaction ends, and leaves a store on which the others are as far as they were. -/
theorem Serialized.ends [DecidableEq ι] {result : Except ε α} {store : σ}
    (serialized : Serialized sys body start r log) (here : r.phase i = .running l)
    (eq : Txn.transaction (sys.rest (body i)) r.store = (result, store))
    (others : ∀ j l', j ≠ i → r.phase j = .running l' → sys.Path store (body j) l') :
    Serialized sys body start (r.put i store (.ended result))
      (log ++ [(i, result)]) := by
  have mine := serialized.serial.snoc i
  rw [eq] at mine
  have news := serialized.not_mem here
  refine ⟨mine, ?_, ?_, ?_, ?_⟩
  · rw [List.map_append, List.nodup_append]
    refine ⟨serialized.once, List.nodup_singleton i, ?_⟩
    intro j old j' new
    rintro rfl
    obtain rfl := List.mem_singleton.1 new
    exact news old
  · intro j result'
    rw [List.mem_append, List.mem_singleton, serialized.ended_iff j result', Prod.mk.injEq]
    by_cases same : j = i
    · subst same
      simp [here, eq_comm]
    · simp [Race.put_phase_of_ne _ _ _ same, same]
  · intro j l' running
    by_cases same : j = i
    · subst same
      simp at running
    · rw [Race.put_phase_of_ne _ _ _ same] at running
      exact others j l' same running
  · intro j k l' l'' different running running'
    have notI : ∀ {m p}, (r.put i store (.ended result)).phase m = .running p →
        r.phase m = .running p := by
      intro m p running
      by_cases same : m = i
      · subst same
        simp at running
      · rwa [Race.put_phase_of_ne _ _ _ same] at running
    exact serialized.apart j k l' l'' different (notI running) (notI running')

/-- **Serialisability.**  Whatever transactions that begin without locks have come to, those
that ended could have run one after another, in the order in which they ended. -/
theorem serializable [DecidableEq ι] {tr : List (Transition (Race ι σ ε α L) ι)}
    (unlocked : ∀ i, sys.holds (body i) = [])
    (run : Run sys.Step ⟨start, fun i => .running (body i)⟩ tr r) :
    ∃ log, Serialized sys body start r log := by
  refine run.invariant (I := fun r => ∃ log, Serialized sys body start r log)
    (fun s i t => ?_) ⟨[], .nil, List.nodup_nil, by simp, ?_, ?_⟩
  · rintro ⟨log, serialized⟩ ⟨⟨l, here, free⟩, rfl⟩
    have far := (serialized.path i l here).run_eq
    simp only [after, here]
    cases outcome : sys.statement l s.store with
    | goOn next =>
        refine ⟨log, serialized.goOn here outcome fun j l' other running k wanted => ?_⟩
        have unlocked := free j other k wanted
        rwa [running] at unlocked
    | commit a write =>
        have commits : Txn.Commits (sys.rest (body i)) s.store a (write s.store) := by
          rw [Txn.Commits, far, sys.rest_run, outcome, Outcome.finish]
        refine ⟨_, serialized.ends here (Txn.transaction_of_commits commits)
          fun j l' other running => ?_⟩
        exact (serialized.path j l' running).unaffected outcome
          (serialized.apart j i l' l other running here)
    | abort e =>
        have fails : Txn.transaction (sys.rest (body i)) s.store = (.error e, s.store) := by
          rw [Txn.transaction, far, sys.rest_run, outcome, Outcome.finish]
        exact ⟨_, serialized.ends here fails fun j l' _ running => serialized.path j l' running⟩
  · intro i l running
    cases running
    exact .refl
  · intro i j l l' _ running _
    cases running
    rw [unlocked]
    exact List.disjoint_nil_left _

/-! ## Progress -/

/-- **No deadlock.**  If transactions want locks in the order of `rank`, then while one of them
is running, some one can go on. -/
theorem progress (rank : K → ℕ) (bound : ℕ)
    (ordered : ∀ l, ∀ k ∈ sys.wants l, rank k ≤ bound ∧ ∀ k' ∈ sys.holds l, rank k' < rank k)
    (here : r.phase i = .running l) : ∃ j, sys.Allows r j := by
  -- what `Allows` asks for and does not find
  have blocked : ∀ {j l}, r.phase j = .running l → ¬ sys.Allows r j →
      ∃ m l' k, r.phase m = .running l' ∧ k ∈ sys.wants l ∧ k ∈ sys.holds l' := by
    intro j l here stuck
    by_contra free
    refine stuck ⟨l, here, fun m _ k wanted held => ?_⟩
    cases running : r.phase m with
    | ended result =>
        rw [running] at held
        exact absurd held List.not_mem_nil
    | running l' =>
        rw [running] at held
        exact free ⟨m, l', k, running, wanted, held⟩
  -- follow who waits for whom: the lock that is waited for gets higher each time
  have chain : ∀ n j l k, r.phase j = .running l → k ∈ sys.holds l → bound - rank k ≤ n →
      ∃ j, sys.Allows r j := by
    intro n
    induction n with
    | zero =>
        intro j l k here held near
        by_contra stuck
        obtain ⟨m, l', k', -, wanted, -⟩ := blocked here (fun allows => stuck ⟨j, allows⟩)
        have higher := (ordered l k' wanted).2 k held
        have within := (ordered l k' wanted).1
        omega
    | succ n ih =>
        intro j l k here held near
        by_contra stuck
        obtain ⟨m, l', k', running, wanted, held'⟩ :=
          blocked here (fun allows => stuck ⟨j, allows⟩)
        have higher := (ordered l k' wanted).2 k held
        have within := (ordered l k' wanted).1
        exact stuck (ih m l' k' running held' (by omega))
  by_contra stuck
  obtain ⟨m, l', k, running, -, held⟩ := blocked here (fun allows => stuck ⟨i, allows⟩)
  exact stuck (chain _ m l' k running held (Nat.le_refl _))

end Serial

end Locking

end Tozalist.Theory
