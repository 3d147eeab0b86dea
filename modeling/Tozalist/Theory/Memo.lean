/-
# Tozalist.Theory.Memo -- each key is answered once

A run over a list of keys that answers a key where it first occurs, in the light of the
answers given before, and reuses the answer later.  A `log` holds the answers, oldest
first.  Two facts carry what a memo is good for:

* a log never answers a key twice (`keys_nodup`), and answers every key it met
  (`mem_keys_rememberAll`), so it is as long as there are distinct keys (`length_answers`);
* an answer stands (`lookup_rememberAll`).

A run may also take its keys in portions and answer only the new keys of a portion, each
once (`newKeys`).  The log is the same (`rememberAll_newKeys`), wherever the portions end.
-/
import Mathlib.Data.Finset.Card
import Mathlib.Data.List.Nodup
import Mathlib.Tactic.Common

namespace Tozalist.Theory.Memo

set_option autoImplicit false

universe u v

variable {κ : Type u} {α : Type v}

/-- The keys a log answers. -/
def keys (log : List (κ × α)) : List κ := log.map Prod.fst

@[simp] theorem keys_nil : keys ([] : List (κ × α)) = [] := rfl

@[simp] theorem keys_concat (log : List (κ × α)) (k : κ) (a : α) :
    keys (log ++ [(k, a)]) = keys log ++ [k] := by
  simp [keys]

variable [DecidableEq κ]

/-- The answer to a key. -/
def lookup (log : List (κ × α)) (k : κ) : Option α := log.lookup k

theorem mem_keys_iff {log : List (κ × α)} {k : κ} :
    k ∈ keys log ↔ ∃ a, lookup log k = some a := by
  constructor
  · intro member
    obtain ⟨entry, inside, rfl⟩ := List.mem_map.1 member
    exact Option.isSome_iff_exists.1 (List.lookup_isSome_iff.2 ⟨entry, inside, beq_self_eq_true _⟩)
  · rintro ⟨a, found⟩
    obtain ⟨before, after, rfl, -⟩ := List.lookup_eq_some_iff.1 found
    simp [keys]

theorem mem_of_lookup {log : List (κ × α)} {k : κ} {a : α} (found : lookup log k = some a) :
    (k, a) ∈ log := by
  obtain ⟨before, after, rfl, -⟩ := List.lookup_eq_some_iff.1 found
  exact List.mem_append_right before List.mem_cons_self

theorem not_mem_keys_iff {log : List (κ × α)} {k : κ} :
    k ∉ keys log ↔ lookup log k = none := by
  rw [mem_keys_iff, not_exists, Option.eq_none_iff_forall_ne_some]

/-- An answered key keeps its answer as the log grows. -/
theorem lookup_append_of_mem {log more : List (κ × α)} {k : κ} (answered : k ∈ keys log) :
    lookup (log ++ more) k = lookup log k := by
  obtain ⟨a, found⟩ := mem_keys_iff.1 answered
  rw [lookup, List.lookup_append, show log.lookup k = some a from found, Option.some_or, found]

theorem lookup_concat_self {log : List (κ × α)} {k : κ} (fresh : k ∉ keys log) (a : α) :
    lookup (log ++ [(k, a)]) k = some a := by
  have absent : log.lookup k = none := not_mem_keys_iff.1 fresh
  rw [lookup, List.lookup_append, absent, Option.none_or, List.lookup_cons_self]

theorem lookup_concat_ne {log : List (κ × α)} {k l : κ} (other : l ≠ k) (a : α) :
    lookup (log ++ [(k, a)]) l = lookup log l := by
  have absent : List.lookup l [(k, a)] = none := by
    rw [List.lookup_cons, beq_eq_false_iff_ne.2 other, List.lookup_nil]
  rw [lookup, List.lookup_append, absent, Option.or_none, lookup]

/-! ## One key at a time -/

/-- Answer a key, unless it has an answer. -/
def remember (answer : List (κ × α) → κ → α) (log : List (κ × α)) (k : κ) : List (κ × α) :=
  if k ∈ keys log then log else log ++ [(k, answer log k)]

/-- Answer keys in turn. -/
def rememberAll (answer : List (κ × α) → κ → α) (log : List (κ × α)) (ks : List κ) :
    List (κ × α) :=
  ks.foldl (remember answer) log

/-- The log of a run. -/
def answers (answer : List (κ × α) → κ → α) (ks : List κ) : List (κ × α) :=
  rememberAll answer [] ks

variable {answer : List (κ × α) → κ → α} {log : List (κ × α)}

@[simp] theorem rememberAll_nil : rememberAll answer log [] = log := rfl

theorem rememberAll_cons (k : κ) (ks : List κ) :
    rememberAll answer log (k :: ks) = rememberAll answer (remember answer log k) ks := rfl

theorem rememberAll_append (ks more : List κ) :
    rememberAll answer log (ks ++ more) =
      rememberAll answer (rememberAll answer log ks) more :=
  List.foldl_append

theorem remember_of_mem {k : κ} (answered : k ∈ keys log) : remember answer log k = log :=
  if_pos answered

theorem remember_of_not_mem {k : κ} (fresh : k ∉ keys log) :
    remember answer log k = log ++ [(k, answer log k)] :=
  if_neg fresh

theorem mem_keys_remember {k l : κ} :
    l ∈ keys (remember answer log k) ↔ l ∈ keys log ∨ l = k := by
  by_cases answered : k ∈ keys log
  · rw [remember_of_mem answered]
    constructor
    · exact .inl
    · rintro (member | rfl)
      · exact member
      · exact answered
  · rw [remember_of_not_mem answered, keys_concat, List.mem_append, List.mem_singleton]

theorem mem_keys_rememberAll {ks : List κ} {l : κ} :
    l ∈ keys (rememberAll answer log ks) ↔ l ∈ keys log ∨ l ∈ ks := by
  induction ks generalizing log with
  | nil => simp
  | cons k ks ih => rw [rememberAll_cons, ih, mem_keys_remember, List.mem_cons, or_assoc]

theorem keys_nodup_remember (nodup : (keys log).Nodup) (k : κ) :
    (keys (remember answer log k)).Nodup := by
  by_cases answered : k ∈ keys log
  · rw [remember_of_mem answered]
    exact nodup
  · rw [remember_of_not_mem answered, keys_concat]
    exact List.nodup_append.2 ⟨nodup, List.nodup_singleton k, fun l member m has => by
      rintro rfl
      obtain rfl := List.mem_singleton.1 has
      exact answered member⟩

/-- A log without repeated keys stays so. -/
theorem keys_nodup_rememberAll (nodup : (keys log).Nodup) (ks : List κ) :
    (keys (rememberAll answer log ks)).Nodup := by
  induction ks generalizing log with
  | nil => exact nodup
  | cons k ks ih => exact ih (keys_nodup_remember nodup k)

/-- **No key is answered twice.** -/
theorem keys_nodup (ks : List κ) : (keys (answers answer ks)).Nodup :=
  keys_nodup_rememberAll (by simp) ks

/-- **Every key is answered**, and no other. -/
theorem mem_keys_answers {ks : List κ} {k : κ} : k ∈ keys (answers answer ks) ↔ k ∈ ks := by
  rw [answers, mem_keys_rememberAll]
  simp

/-- There are as many answers as distinct keys. -/
theorem length_answers (ks : List κ) : (answers answer ks).length = ks.toFinset.card := by
  rw [← List.toFinset_card_of_nodup (keys_nodup ks) |>.trans (List.length_map _)]
  congr 1
  ext k
  rw [List.mem_toFinset, List.mem_toFinset, mem_keys_answers]

/-- A log only grows. -/
theorem prefix_rememberAll (answer : List (κ × α) → κ → α) (log : List (κ × α)) (ks : List κ) :
    log <+: rememberAll answer log ks := by
  induction ks generalizing log with
  | nil => exact List.prefix_rfl
  | cons k ks ih =>
      refine List.IsPrefix.trans ?_ (ih (remember answer log k))
      by_cases answered : k ∈ keys log
      · rw [remember_of_mem answered]
      · rw [remember_of_not_mem answered]
        exact List.prefix_append log _

/-- **An answer stands.** -/
theorem lookup_rememberAll {k : κ} (answered : k ∈ keys log) (ks : List κ) :
    lookup (rememberAll answer log ks) k = lookup log k := by
  obtain ⟨more, eq⟩ := prefix_rememberAll answer log ks
  rw [← eq, lookup_append_of_mem answered]

/-- What holds of every answer given holds of every answer in the log. -/
theorem forall_mem_rememberAll (P : κ → α → Prop) (given : ∀ log k, P k (answer log k))
    (before : ∀ entry ∈ log, P entry.1 entry.2) (ks : List κ) :
    ∀ entry ∈ rememberAll answer log ks, P entry.1 entry.2 := by
  induction ks generalizing log with
  | nil => exact before
  | cons k ks ih =>
      apply ih
      intro entry member
      by_cases answered : k ∈ keys log
      · rw [remember_of_mem answered] at member
        exact before entry member
      · rw [remember_of_not_mem answered] at member
        rcases List.mem_append.1 member with old | new
        · exact before entry old
        · obtain rfl := List.mem_singleton.1 new
          exact given log k

/-! ## Portions -/

/-- The keys of a portion that have no answer, each where it first occurs. -/
def newKeys (known : List κ) (ks : List κ) : List κ :=
  ks.foldl (fun new k => if k ∈ known ∨ k ∈ new then new else new ++ [k]) []

theorem newKeys_concat (known ks : List κ) (k : κ) :
    newKeys known (ks ++ [k]) =
      if k ∈ known ∨ k ∈ newKeys known ks then newKeys known ks else newKeys known ks ++ [k] := by
  rw [newKeys, List.foldl_append]
  rfl

theorem mem_newKeys {known ks : List κ} {k : κ} :
    k ∈ newKeys known ks ↔ k ∈ ks ∧ k ∉ known := by
  induction ks using List.reverseRecOn with
  | nil => simp [newKeys]
  | append_singleton ks l ih =>
      rw [newKeys_concat]
      by_cases old : l ∈ known ∨ l ∈ newKeys known ks
      · rw [if_pos old, ih, List.mem_append, List.mem_singleton]
        constructor
        · rintro ⟨member, fresh⟩
          exact ⟨.inl member, fresh⟩
        · rintro ⟨member | rfl, fresh⟩
          · exact ⟨member, fresh⟩
          · exact ih.1 (old.resolve_left fresh)
      · rw [if_neg old, List.mem_append, List.mem_append, List.mem_singleton, ih]
        constructor
        · rintro (⟨member, fresh⟩ | rfl)
          · exact ⟨.inl member, fresh⟩
          · exact ⟨.inr rfl, fun member => old (.inl member)⟩
        · rintro ⟨member | rfl, fresh⟩
          · exact .inl ⟨member, fresh⟩
          · exact .inr rfl

theorem newKeys_nodup (known ks : List κ) : (newKeys known ks).Nodup := by
  induction ks using List.reverseRecOn with
  | nil => exact List.nodup_nil
  | append_singleton ks k ih =>
      rw [newKeys_concat]
      split
      · exact ih
      · rename_i fresh
        exact List.nodup_append.2 ⟨ih, List.nodup_singleton k, fun l member m has => by
          rintro rfl
          obtain rfl := List.mem_singleton.1 has
          exact fresh (.inr member)⟩

/-- **Answering the new keys of a portion answers the portion.** -/
theorem rememberAll_newKeys (log : List (κ × α)) (ks : List κ) :
    rememberAll answer log (newKeys (keys log) ks) = rememberAll answer log ks := by
  induction ks using List.reverseRecOn with
  | nil => rfl
  | append_singleton ks k ih =>
      rw [newKeys_concat, rememberAll_append]
      by_cases old : k ∈ keys log ∨ k ∈ newKeys (keys log) ks
      · rw [if_pos old, ih]
        have answered : k ∈ keys (rememberAll answer log ks) := by
          rw [mem_keys_rememberAll]
          exact old.imp_right fun new => (mem_newKeys.1 new).1
        rw [rememberAll_cons, remember_of_mem answered, rememberAll_nil]
      · rw [if_neg old, rememberAll_append, ih]

end Tozalist.Theory.Memo
