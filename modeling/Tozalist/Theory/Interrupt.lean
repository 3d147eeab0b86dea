/-
# Tozalist.Theory.Interrupt -- programs that may stop half way

A program on a store may stop with an error anywhere, and what it has done by then stays
done; nothing is rolled back.  `Ends prog s answers stops` reads "started at `s`, an answer leaves
a store that satisfies `answers`, and an error one that satisfies `stops`": the two
postconditions of a program that can be interrupted.

The `ends_*` lemmas take a program apart, one construct at a time; `zoom` runs a program on a part
of the store.  `Ends.forList` is the rule of a loop through a list, whose invariant speaks about
the items still to come.
-/
import Mathlib.Tactic.Common

namespace Tozalist.Theory

set_option autoImplicit false

universe u

/-- A program on the store `σ` that may stop with an `ε`. -/
abbrev Interruptible (σ ε α : Type u) : Type u := ExceptT ε (StateM σ) α

namespace Interruptible

variable {σ ε α β : Type u}

/-- How a run ends, and the store it leaves. -/
def exec (prog : Interruptible σ ε α) (s : σ) : Except ε α × σ := Id.run (prog.run.run s)

/-- A run from `s` answers in a store that satisfies `answers`, or stops in one that satisfies
`stops`. -/
def Ends (prog : Interruptible σ ε α) (s : σ) (answers : α → σ → Prop) (stops : ε → σ → Prop) :
    Prop :=
  match exec prog s with
  | (.ok a, t) => answers a t
  | (.error e, t) => stops e t

variable {answers : α → σ → Prop} {stops : ε → σ → Prop} {s t : σ}

theorem exec_get (s : σ) : exec (get : Interruptible σ ε σ) s = (.ok s, s) := rfl

theorem exec_modify (f : σ → σ) (s : σ) :
    exec (modify f : Interruptible σ ε PUnit) s = (.ok ⟨⟩, f s) := rfl

theorem exec_bind (prog : Interruptible σ ε α) (next : α → Interruptible σ ε β) (s : σ) :
    exec (prog >>= next) s =
      match exec prog s with
      | (.ok a, t) => exec (next a) t
      | (.error e, t) => (.error e, t) := by
  show Id.run (StateT.run (ExceptT.run (prog >>= next)) s) = _
  rw [ExceptT.run_bind, StateT.run_bind]
  unfold exec
  cases h : Id.run (StateT.run (ExceptT.run prog) s) with
  | mk answer t =>
      cases answer with
      | ok a =>
          show Id.run (Id.run (StateT.run (ExceptT.run prog) s) >>= _) = _
          rw [h]
          rfl
      | error e =>
          show Id.run (Id.run (StateT.run (ExceptT.run prog) s) >>= _) = _
          rw [h]
          rfl

@[simp] theorem ends_pure (a : α) :
    Ends (pure a : Interruptible σ ε α) s answers stops ↔ answers a s := Iff.rfl

@[simp] theorem ends_throw (e : ε) :
    Ends (throw e : Interruptible σ ε α) s answers stops ↔ stops e s := Iff.rfl

@[simp] theorem ends_get {answers : σ → σ → Prop} :
    Ends (get : Interruptible σ ε σ) s answers stops ↔ answers s s := Iff.rfl

@[simp] theorem ends_modify (f : σ → σ) {answers : PUnit → σ → Prop} :
    Ends (modify f : Interruptible σ ε PUnit) s answers stops ↔ answers ⟨⟩ (f s) := Iff.rfl

@[simp] theorem ends_bind (prog : Interruptible σ ε α) (next : α → Interruptible σ ε β)
    {answers : β → σ → Prop} :
    Ends (prog >>= next) s answers stops ↔
      Ends prog s (fun a t => Ends (next a) t answers stops) stops := by
  unfold Ends
  rw [exec_bind]
  rcases exec prog s with ⟨a | e, t⟩ <;> rfl

@[simp] theorem ends_map (f : α → β) (prog : Interruptible σ ε α) {answers : β → σ → Prop} :
    Ends (f <$> prog) s answers stops ↔ Ends prog s (fun a t => answers (f a) t) stops := by
  rw [map_eq_pure_bind, ends_bind]
  rfl

theorem ends_ite (c : Prop) [Decidable c] (prog other : Interruptible σ ε α) :
    Ends (if c then prog else other) s answers stops ↔
      (c → Ends prog s answers stops) ∧ (¬ c → Ends other s answers stops) := by
  by_cases h : c <;> simp [h]

/-- **Consequence.** -/
theorem Ends.mono {prog : Interruptible σ ε α} {answers' : α → σ → Prop} {stops' : ε → σ → Prop}
    (ends_ : Ends prog s answers stops) (answer : ∀ a t, answers a t → answers' a t)
    (stop : ∀ e t, stops e t → stops' e t) : Ends prog s answers' stops' := by
  unfold Ends at ends_ ⊢
  split at ends_
  · exact answer _ _ ends_
  · exact stop _ _ ends_

/-- What holds of every end holds of the one there was. -/
theorem Ends.of_ok {prog : Interruptible σ ε α} (ends_ : Ends prog s answers stops) {a : α}
    (is : exec prog s = (.ok a, t)) : answers a t := by
  unfold Ends at ends_
  rwa [is] at ends_

theorem Ends.of_error {prog : Interruptible σ ε α} (ends_ : Ends prog s answers stops) {e : ε}
    (is : exec prog s = (.error e, t)) : stops e t := by
  unfold Ends at ends_
  rwa [is] at ends_

/-- A program on a part of the store; its errors are wrapped. -/
def zoom {τ δ : Type u} (view : σ → τ) (put : τ → σ → σ) (wrap : δ → ε)
    (prog : Interruptible τ δ α) : Interruptible σ ε α :=
  ExceptT.mk fun s =>
    match exec prog (view s) with
    | (.ok a, t) => (.ok a, put t s)
    | (.error e, t) => (.error (wrap e), put t s)

theorem ends_zoom {τ δ : Type u} (view : σ → τ) (put : τ → σ → σ) (wrap : δ → ε)
    (prog : Interruptible τ δ α) :
    Ends (zoom view put wrap prog) s answers stops ↔
      Ends prog (view s) (fun a t => answers a (put t s)) fun e t => stops (wrap e) (put t s) := by
  have is : exec (zoom view put wrap prog) s =
      match exec prog (view s) with
      | (.ok a, t) => (.ok a, put t s)
      | (.error e, t) => (.error (wrap e), put t s) := rfl
  unfold Ends
  rw [is]
  rcases exec prog (view s) with ⟨a | e, t⟩ <;> rfl

/-- **A loop through a list**: the invariant speaks about the items still to come. -/
theorem Ends.forList {ι : Type u} {body : ι → Interruptible σ ε PUnit} {I : List ι → σ → Prop}
    (round : ∀ x rest s, I (x :: rest) s → Ends (body x) s (fun _ t => I rest t) stops)
    (xs : List ι) (start : I xs s) : Ends (forM xs body) s (fun _ t => I [] t) stops := by
  induction xs generalizing s with
  | nil => exact start
  | cons x rest ih =>
      rw [List.forM_cons, ends_bind]
      exact (round x rest s start).mono (fun _ _ kept => ih kept) fun _ _ => id

/-- A loop that accumulates; the invariant is about the store alone. -/
theorem Ends.foldList {ι : Type u} {body : β → ι → Interruptible σ ε β} {I : List ι → σ → Prop}
    (round : ∀ acc x rest s, I (x :: rest) s → Ends (body acc x) s (fun _ t => I rest t) stops)
    (xs : List ι) (acc : β) (start : I xs s) :
    Ends (xs.foldlM body acc) s (fun _ t => I [] t) stops := by
  induction xs generalizing s acc with
  | nil => exact start
  | cons x rest ih =>
      rw [List.foldlM_cons, ends_bind]
      exact (round acc x rest s start).mono (fun next _ kept => ih next kept) fun _ _ => id

end Interruptible

end Tozalist.Theory
