/-
# Tozalist.Theory.Run -- runs of a labelled transition system

A system is a relation `step : σ → α → σ → Prop`: in a state, an action, a next
state.  `Run step s tr t` says that the transitions `tr`, in order, lead from
`s` to `t`; keeping them lets a result speak about every state a run passed
through and about every action it took, not only about its last state.

* `Run.invariant`: what every transition keeps, every run keeps (`Run.throughout`: in every
  state it passed).
* `Run.invariant_of_guarded`: the same when a transition keeps the invariant
  only under a guard on the state and the action, for the runs whose
  transitions all meet that guard.
* `Run.history_of_guarded`: the same for an invariant that speaks about the transitions so far.
* `Run.guarded_iff`: where the guard is exactly what makes a step good, the runs all of
  whose steps are good are those all of whose steps meet it.
* `Run.begins`: what holds at the end only begins somewhere.
* `Run.simulates`: a step-by-step simulation carries runs to runs of the
  abstract system, where a concrete step may match no abstract step at all.
* `Executable.run_transitions`: where a system is given by a guard and a function, a
  list of actions whose guards hold in turn is a run, its `transitions` can be computed,
  and that it is one can be decided (`Executable.run_guarded`: with a second guard that
  all of them meet).
-/
import Mathlib.Logic.Relation
import Mathlib.Tactic.Common

namespace Tozalist.Theory

set_option autoImplicit false

universe u v w

/-- One transition a run took: the state before, the action, the state after. -/
structure Transition (σ : Type u) (α : Type v) where
  source : σ
  action : α
  target : σ

/-- `Run step s tr t`: the transitions `tr`, oldest first, lead from `s` to `t`. -/
inductive Run {σ : Type u} {α : Type v} (step : σ → α → σ → Prop) :
    σ → List (Transition σ α) → σ → Prop
  | refl (s : σ) : Run step s [] s
  | next {s t r : σ} {tr : List (Transition σ α)} {a : α} :
      Run step s tr t → step t a r → Run step s (tr ++ [⟨t, a, r⟩]) r

/-- A state some run reaches from a state that `init` admits. -/
def Reachable {σ : Type u} {α : Type v} (init : σ → Prop) (step : σ → α → σ → Prop) (t : σ) :
    Prop :=
  ∃ s tr, init s ∧ Run step s tr t

namespace Run

variable {σ : Type u} {α : Type v} {step : σ → α → σ → Prop} {s t : σ}
  {tr : List (Transition σ α)}

theorem single {a : α} (h : step s a t) : Run step s [⟨s, a, t⟩] t :=
  .next (.refl s) h

/-- Every transition of a run is a step of the system. -/
theorem steps (run : Run step s tr t) : ∀ e ∈ tr, step e.source e.action e.target := by
  induction run with
  | refl => simp
  | next _ last ih =>
      intro e member
      rcases List.mem_append.1 member with old | new
      · exact ih e old
      · obtain rfl := List.mem_singleton.1 new
        exact last

/-- A transition of a run is a step from where the transitions before it lead. -/
theorem before (run : Run step s tr t) {first rest : List (Transition σ α)} {e : Transition σ α}
    (cut : tr = first ++ e :: rest) :
    Run step s first e.source ∧ step e.source e.action e.target := by
  induction run generalizing rest with
  | refl => simp at cut
  | next here last ih =>
      rcases List.eq_nil_or_concat rest with rfl | ⟨rest', x, rfl⟩
      · obtain ⟨rfl, same⟩ := List.append_inj' cut rfl
        obtain rfl := List.singleton_inj.1 same
        exact ⟨here, last⟩
      · rw [List.concat_eq_append, ← List.cons_append, ← List.append_assoc] at cut
        exact ih (List.append_inj' cut rfl).1

/-- **The guarded invariant rule.**  If a step that meets `guard` keeps `I`, then
along a run whose transitions all meet it `I` holds wherever the run has been. -/
theorem invariant_of_guarded {I : σ → Prop} {guard : σ → α → Prop}
    (keep : ∀ s a t, I s → guard s a → step s a t → I t) (run : Run step s tr t)
    (guarded : ∀ e ∈ tr, guard e.source e.action) (start : I s) :
    I t ∧ ∀ e ∈ tr, I e.source ∧ I e.target := by
  induction run with
  | refl => exact ⟨start, by simp⟩
  | next _ last ih =>
      obtain ⟨here, before⟩ := ih fun e member => guarded e (List.mem_append_left _ member)
      have meets := guarded ⟨_, _, _⟩ (List.mem_append_right _ (List.mem_singleton.2 rfl))
      have after := keep _ _ _ here meets last
      refine ⟨after, ?_⟩
      intro e member
      rcases List.mem_append.1 member with old | new
      · exact before e old
      · obtain rfl := List.mem_singleton.1 new
        exact ⟨here, after⟩

/-- **The exactness rule.**  If under `I` a step is good exactly when it meets `guard`, and
then keeps `I`, then the transitions of a run are all good exactly when they all meet it. -/
theorem guarded_iff (I : σ → Prop) {guard : σ → α → Prop} (good : σ → α → σ → Prop)
    (keep : ∀ s a t, I s → guard s a → step s a t → I t)
    (forward : ∀ s a t, I s → guard s a → step s a t → good s a t)
    (backward : ∀ s a t, I s → step s a t → good s a t → guard s a)
    (run : Run step s tr t) (start : I s) :
    (∀ e ∈ tr, good e.source e.action e.target) ↔ ∀ e ∈ tr, guard e.source e.action := by
  constructor
  · intro allGood
    induction run with
    | refl => simp
    | next before last ih =>
        have guarded := ih fun e member => allGood e (List.mem_append_left _ member)
        have here := (before.invariant_of_guarded keep guarded start).1
        intro e member
        rcases List.mem_append.1 member with old | new
        · exact guarded e old
        · obtain rfl := List.mem_singleton.1 new
          exact backward _ _ _ here last (allGood _ member)
  · intro guarded e member
    have here := ((run.invariant_of_guarded keep guarded start).2 e member).1
    exact forward _ _ _ here (guarded e member) (run.steps e member)

/-- **The guarded rule of history**: an invariant that also speaks about the transitions so
far. -/
theorem history_of_guarded {I : List (Transition σ α) → σ → Prop} {guard : σ → α → Prop}
    (keep : ∀ tr s a t, I tr s → guard s a → step s a t → I (tr ++ [⟨s, a, t⟩]) t)
    (run : Run step s tr t) (guarded : ∀ e ∈ tr, guard e.source e.action) (start : I [] s) :
    I tr t := by
  induction run with
  | refl => exact start
  | next _ last ih =>
      have here := ih fun e member => guarded e (List.mem_append_left _ member)
      have meets := guarded ⟨_, _, _⟩ (List.mem_append_right _ (List.mem_singleton.2 rfl))
      exact keep _ _ _ _ here meets last

/-- What every step keeps holds wherever the run has been. -/
theorem throughout {I : σ → Prop} (keep : ∀ s a t, I s → step s a t → I t)
    (run : Run step s tr t) (start : I s) : I t ∧ ∀ e ∈ tr, I e.source ∧ I e.target :=
  have unguarded : ∀ s a t, I s → (fun (_ : σ) (_ : α) => True) s a → step s a t → I t :=
    fun s a t here _ h => keep s a t here h
  run.invariant_of_guarded unguarded (fun _ _ => trivial) start

/-- **The invariant rule.** -/
theorem invariant {I : σ → Prop} (keep : ∀ s a t, I s → step s a t → I t)
    (run : Run step s tr t) (start : I s) : I t :=
  (run.throughout keep start).1

/-- What holds at the end and not at the start begins with some transition. -/
theorem begins {P : σ → Prop} (run : Run step s tr t) (start : ¬ P s) (last : P t) :
    ∃ first e rest, tr = first ++ e :: rest ∧ ¬ P e.source ∧ P e.target := by
  induction run with
  | refl => exact absurd last start
  | @next t r tr a before now ih =>
      by_cases already : P t
      · obtain ⟨first, e, rest, rfl, new, there⟩ := ih already
        exact ⟨first, e, rest ++ [⟨t, a, r⟩], by simp, new, there⟩
      · exact ⟨tr, ⟨t, a, r⟩, [], rfl, already, last⟩

theorem trans {r : σ} {tr' : List (Transition σ α)} (first : Run step s tr t)
    (second : Run step t tr' r) : Run step s (tr ++ tr') r := by
  induction second with
  | refl => simpa using first
  | next _ last ih => simpa only [List.append_assoc] using ih.next last

/-- **Simulation.**  When every step from a related state is matched by zero or
more abstract steps, every run is matched by an abstract path. -/
theorem simulates {τ : Type w} {R : σ → τ → Prop} {abstract : τ → τ → Prop}
    (matched : ∀ s a t x, R s x → step s a t → ∃ y, Relation.ReflTransGen abstract x y ∧ R t y)
    (run : Run step s tr t) {x : τ} (related : R s x) :
    ∃ y, Relation.ReflTransGen abstract x y ∧ R t y := by
  induction run with
  | refl => exact ⟨x, .refl, related⟩
  | next _ last ih =>
      obtain ⟨y, path, here⟩ := ih
      obtain ⟨z, more, there⟩ := matched _ _ _ y here last
      exact ⟨z, path.trans more, there⟩

end Run

section Function

variable {σ : Type u} {α : Type v} (allows : σ → α → Prop) (after : σ → α → σ)

/-- The system of a guard and a function. -/
def StepOf (s : σ) (a : α) (t : σ) : Prop := allows s a ∧ t = after s a

/-- Every action of the list is allowed where the ones before it lead. -/
def Executable : σ → List α → Prop
  | _, [] => True
  | s, a :: rest => allows s a ∧ Executable (after s a) rest

instance Executable.decidable [∀ s a, Decidable (allows s a)] :
    ∀ (s : σ) (actions : List α), Decidable (Executable allows after s actions)
  | _, [] => inferInstanceAs (Decidable True)
  | s, a :: rest =>
      have := Executable.decidable (after s a) rest
      inferInstanceAs (Decidable (allows s a ∧ Executable allows after (after s a) rest))

variable {allows after}

/-- The transitions of a list of actions. -/
def transitions (after : σ → α → σ) : σ → List α → List (Transition σ α)
  | _, [] => []
  | s, a :: rest => ⟨s, a, after s a⟩ :: transitions after (after s a) rest

theorem map_action_transitions (s : σ) (actions : List α) :
    (transitions after s actions).map (·.action) = actions := by
  induction actions generalizing s with
  | nil => rfl
  | cons a rest ih => rw [transitions, List.map_cons, ih]

/-- The run of a list of actions. -/
theorem Executable.run_transitions {s : σ} {actions : List α}
    (executable : Executable allows after s actions) :
    Run (StepOf allows after) s (transitions after s actions) (actions.foldl after s) := by
  induction actions generalizing s with
  | nil => exact .refl s
  | cons a rest ih => exact (Run.single ⟨executable.1, rfl⟩).trans (ih executable.2)

theorem Executable.run {s : σ} {actions : List α} (executable : Executable allows after s actions) :
    ∃ tr, Run (StepOf allows after) s tr (actions.foldl after s) :=
  ⟨_, executable.run_transitions⟩

/-- The same, with a guard that every action of the list meets. -/
theorem Executable.run_guarded {guard : σ → α → Prop} {s : σ} {actions : List α}
    (executable : Executable (fun s a => allows s a ∧ guard s a) after s actions) :
    ∃ tr, Run (StepOf allows after) s tr (actions.foldl after s) ∧
      ∀ e ∈ tr, guard e.source e.action := by
  induction actions generalizing s with
  | nil => exact ⟨[], .refl s, by simp⟩
  | cons a rest ih =>
      obtain ⟨⟨allowed, meets⟩, further⟩ := executable
      obtain ⟨tr, run, guarded⟩ := ih further
      refine ⟨_, (Run.single ⟨allowed, rfl⟩).trans run, ?_⟩
      intro e member
      rcases List.mem_append.1 member with first | later
      · obtain rfl := List.mem_singleton.1 first
        exact meets
      · exact guarded e later

end Function

/-- What holds initially and is kept by every step holds of every reachable state. -/
theorem Reachable.invariant {σ : Type u} {α : Type v} {init : σ → Prop}
    {step : σ → α → σ → Prop} {I : σ → Prop} (start : ∀ s, init s → I s)
    (keep : ∀ s a t, I s → step s a t → I t) {t : σ} (reach : Reachable init step t) : I t := by
  obtain ⟨s, _, initial, run⟩ := reach
  exact run.invariant keep (start s initial)

end Tozalist.Theory
