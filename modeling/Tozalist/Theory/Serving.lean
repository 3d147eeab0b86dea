/-
# Tozalist.Theory.Serving -- a request among others

A request runs statement by statement on a store, and others may write to the store between two
of its statements.  What its statements find is therefore given from outside: `found k` is what
the `k`-th one finds, whatever was written since the one before it.  Every statement that was
run is kept, with what it left.

A request is a program that may stop half way (`Theory.Interrupt`), where stopping is an early
reply.  `Safe` is its rule of conduct: as long as statements find what `finds` says, each of
them does what `does` says, and the request replies as `replies` says.  The rules take a request
apart, one construct at a time.
-/
import Tozalist.Theory.Interrupt

namespace Tozalist.Theory

set_option autoImplicit false

/-- A statement that was run: what it found, and the store it left. -/
structure Statement (μ σ : Type) where
  found : μ
  left : σ

/-- A request under way: what its statements find, and those it has run. -/
structure Service (μ σ : Type) where
  found : ℕ → μ
  ran : List (Statement μ σ)

/-- A part of a request, with an early reply or a value. -/
abbrev Serving (μ σ ρ α : Type) : Type := Interruptible (Service μ σ) ρ α

variable {μ σ ρ α β : Type}

namespace Service

/-- What the next statement finds. -/
def next (service : Service μ σ) : μ := service.found service.ran.length

/-- One more statement was run, and left this store. -/
def leave (service : Service μ σ) (left : σ) : Service μ σ :=
  { service with ran := service.ran ++ [⟨service.next, left⟩] }

@[simp] theorem leave_found (service : Service μ σ) (left : σ) :
    (service.leave left).found = service.found := rfl

@[simp] theorem leave_ran (service : Service μ σ) (left : σ) :
    (service.leave left).ran = service.ran ++ [⟨service.next, left⟩] := rfl

/-- Every statement finds what it may find, and has done what it may do. -/
structure Orderly (finds : μ → Prop) (does : μ → σ → Prop) (service : Service μ σ) : Prop where
  finds : ∀ k, finds (service.found k)
  does : ∀ s ∈ service.ran, does s.found s.left

theorem Orderly.leave {finds : μ → Prop} {does : μ → σ → Prop} {service : Service μ σ}
    (orderly : service.Orderly finds does) {left : σ} (does_ : does service.next left) :
    (service.leave left).Orderly finds does := by
  refine ⟨orderly.finds, ?_⟩
  intro s member
  rcases List.mem_append.1 member with old | new
  · exact orderly.does s old
  · obtain rfl := List.mem_singleton.1 new
    exact does_

/-- A request that begins. -/
theorem Orderly.begin_ {finds : μ → Prop} {does : μ → σ → Prop} {found : ℕ → μ}
    (allowed : ∀ k, finds (found k)) : Orderly finds does (⟨found, []⟩ : Service μ σ) :=
  ⟨allowed, fun _ none_ => absurd none_ List.not_mem_nil⟩

end Service

namespace Serving

open Interruptible (Ends exec)

/-- One statement: an early reply or a value, and the store it leaves. -/
def statement (run : μ → Except ρ α × σ) : Serving μ σ ρ α := do
  let service ← get
  modify fun service => service.leave (run service.next).2
  match (run service.next).1 with
  | .ok a => return a
  | .error r => throw r

/-- A request served to its end: its reply, and the statements it has run. -/
def serve (request : Serving μ σ ρ ρ) (found : ℕ → μ) : ρ × List (Statement μ σ) :=
  match exec request ⟨found, []⟩ with
  | (.ok r, service) => (r, service.ran)
  | (.error r, service) => (r, service.ran)

theorem exec_statement (run : μ → Except ρ α × σ) (service : Service μ σ) :
    exec (statement run) service =
      ((run service.next).1, service.leave (run service.next).2) := by
  rw [statement, Interruptible.exec_bind, Interruptible.exec_get]
  dsimp only
  rw [Interruptible.exec_bind, Interruptible.exec_modify]
  dsimp only
  cases (run service.next).1 <;> rfl

@[simp] theorem ends_statement (run : μ → Except ρ α × σ) (service : Service μ σ)
    {answers : α → Service μ σ → Prop} {stops : ρ → Service μ σ → Prop} :
    Ends (statement run) service answers stops ↔
      (∀ a, (run service.next).1 = .ok a → answers a (service.leave (run service.next).2)) ∧
        ∀ r, (run service.next).1 = .error r → stops r (service.leave (run service.next).2) := by
  unfold Ends
  rw [exec_statement]
  cases (run service.next).1 with
  | ok a => simp
  | error r => simp

/-- What holds of the reply and the statements of a request is what its end has to satisfy. -/
theorem serve_iff (good : ρ → List (Statement μ σ) → Prop) {request : Serving μ σ ρ ρ}
    {found : ℕ → μ} :
    good (serve request found).1 (serve request found).2 ↔
      Ends request ⟨found, []⟩ (fun r service => good r service.ran)
        (fun r service => good r service.ran) := by
  unfold serve Ends
  split <;> rename_i eq <;> rw [eq]

/-! ## The rules of conduct -/

/-- As long as statements find what `finds` says, the request does what `does` says, and
replies as `replies` says or gets a value as `gives` says. -/
def Safe (finds : μ → Prop) (does : μ → σ → Prop) (replies : ρ → Prop) (gives : α → Prop)
    (part : Serving μ σ ρ α) : Prop :=
  ∀ service : Service μ σ, service.Orderly finds does →
    Ends part service (fun a t => t.Orderly finds does ∧ gives a)
      (fun r t => t.Orderly finds does ∧ replies r)

section Rules

variable {finds : μ → Prop} {does : μ → σ → Prop} {replies : ρ → Prop} {gives : α → Prop}

theorem Safe.pure {a : α} (given : gives a) :
    Safe finds does replies gives (Pure.pure a : Serving μ σ ρ α) :=
  fun _ orderly => (Interruptible.ends_pure a).2 ⟨orderly, given⟩

theorem Safe.reply {r : ρ} (right : replies r) :
    Safe finds does replies gives (throw r : Serving μ σ ρ α) :=
  fun _ orderly => (Interruptible.ends_throw r).2 ⟨orderly, right⟩

theorem Safe.bind {part : Serving μ σ ρ α} {next : α → Serving μ σ ρ β} {then_ : β → Prop}
    (first : Safe finds does replies gives part)
    (rest : ∀ a, gives a → Safe finds does replies then_ (next a)) :
    Safe finds does replies then_ (part >>= next) := by
  intro service orderly
  apply (Interruptible.ends_bind part next).2
  exact (first service orderly).mono (fun a t ⟨after, given⟩ => rest a given t after)
    fun _ _ ended => ended

/-- A statement is judged by what it does with what it may find. -/
theorem Safe.statement {run : μ → Except ρ α × σ}
    (does_ : ∀ m, finds m → does m (run m).2)
    (values : ∀ m, finds m → ∀ a, (run m).1 = .ok a → gives a)
    (early : ∀ m, finds m → ∀ r, (run m).1 = .error r → replies r) :
    Safe finds does replies gives (statement run : Serving μ σ ρ α) := by
  intro service orderly
  have found : finds service.next := orderly.finds _
  have after := orderly.leave (does_ _ found)
  exact (ends_statement run service).2
    ⟨fun a is => ⟨after, values _ found a is⟩, fun r is => ⟨after, early _ found r is⟩⟩

/-- **A request that is safe** replies rightly and has done only what it may. -/
theorem Safe.serve {request : Serving μ σ ρ ρ} (safe : Safe finds does replies replies request)
    {found : ℕ → μ} (allowed : ∀ k, finds (found k)) :
    replies (serve request found).1 ∧ ∀ s ∈ (serve request found).2, does s.found s.left := by
  have done : ∀ r (t : Service μ σ), t.Orderly finds does ∧ replies r →
      replies r ∧ ∀ s ∈ t.ran, does s.found s.left := fun _ _ ⟨after, right⟩ => ⟨right, after.does⟩
  apply (serve_iff fun r ran => replies r ∧ ∀ s ∈ ran, does s.found s.left).2
  exact (safe _ (.begin_ allowed)).mono done done

end Rules

end Serving

end Tozalist.Theory
