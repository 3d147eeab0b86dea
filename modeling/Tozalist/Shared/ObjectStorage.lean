/-
# Tozalist.Shared.ObjectStorage -- the bucket, and the names of what is in it

`packages/shared/src/s3.ts`: the keys of an organisation's objects, and the two operations that
removal uses, `deleteObjects` and `listKeys`.

A request may fail whatever it has done by then: a failed deletion leaves any part of its keys
in the bucket (`deleteObjects_ends`).  A deletion of many keys is one request for each thousand.
-/
import Tozalist.Db.Schema
import Tozalist.Theory.Chunked
import Tozalist.Theory.Interrupt

namespace Tozalist.Shared

set_option autoImplicit false

open Db (Uuid Date)
open Theory (Interruptible)
open Theory.Interruptible (Ends)
open Theory.Chunked (slices)

/-! ## Keys -/

/-- `batchInputKey`. -/
def batchInputKey (orgId batchId : Uuid) : String :=
  "org/" ++ orgId.text ++ "/batches/" ++ batchId.text ++ "/input.csv"

/-- `orgObjectPrefix`. -/
def orgObjectPrefix (orgId : Uuid) : String := "org/" ++ orgId.text ++ "/"

/-- `key` starts with `start`. -/
def StartsWith (start key : String) : Prop := start.toList <+: key.toList

instance (start key : String) : Decidable (StartsWith start key) :=
  inferInstanceAs (Decidable (_ <+: _))

/-- `[0-9a-f-]` -/
def isIdChar (c : Char) : Bool := c.isDigit || ('a' ≤ c && c ≤ 'f') || c == '-'

/-- `(\d+)-[0-9a-f-]+\.zip` -/
def exportNameMs (name : List Char) : Option ℕ :=
  let digits := name.takeWhile Char.isDigit
  match name.dropWhile Char.isDigit with
  | '-' :: rest =>
      let id := rest.take (rest.length - 4)
      if digits ≠ [] ∧ rest.drop (rest.length - 4) = ".zip".toList ∧ id ≠ [] ∧
          id.all isIdChar = true then
        some (Nat.ofDigitChars 10 digits 0)
      else none
  | _ => none

/-- `Number.MAX_SAFE_INTEGER`. -/
def maxSafeInteger : ℕ := 9007199254740991

/-- `exportKeyCreatedAtMs`. -/
def exportKeyCreatedAtMs (key : String) : Option ℕ :=
  match key.toList.splitOn '/' with
  | [root, org, kind, name] =>
      if root = "org".toList ∧ org ≠ [] ∧ org.all isIdChar = true ∧ kind = "exports".toList then
        match exportNameMs name with
        | some ms => if ms ≤ maxSafeInteger then some ms else none
        | none => none
      else none
  | _ => none

/-! ## The bucket -/

/-- The keys in the bucket, and how many requests it has answered. -/
structure Bucket where
  objects : List String
  requests : ℕ
  deriving DecidableEq, Repr

/-- How a request goes; a failed one has removed the keys of `gone` all the same. -/
inductive Reply where
  | done
  | failed (gone : String → Bool)

/-- Why a storage call throws. -/
inductive StorageError where
  /-- `STORAGE_DELETE_FAILED`, or what the client throws. -/
  | deletionIncomplete
  | listingFailed
  deriving DecidableEq, Repr

abbrev StorageCall (α : Type) : Type := Interruptible Bucket StorageError α

/-- The reply to every request. -/
abbrev Replies : Type := ℕ → Reply

/-- Some request fails. -/
def Failing (replies : Replies) : Prop := ∃ n gone, replies n = .failed gone

theorem not_failing {replies : Replies} (answers : ∀ n, replies n = .done) : ¬ Failing replies := by
  rintro ⟨n, gone, fails⟩
  rw [answers n] at fails
  cases fails

/-- `DELETE_BATCH_LIMIT`. -/
def deleteBatchLimit : ℕ := 1000

/-- Without the keys that `gone` selects. -/
def Bucket.without (bucket : Bucket) (gone : String → Bool) : Bucket :=
  { objects := bucket.objects.filter fun key => !gone key, requests := bucket.requests + 1 }

/-- One `DeleteObjectsCommand`, with the check of its answer. -/
def deleteChunk (replies : Replies) (chunk : List String) : StorageCall PUnit := do
  let bucket ← get
  match replies bucket.requests with
  | .done => modify fun b => b.without fun key => key ∈ chunk
  | .failed gone => do
      modify fun b => b.without fun key => key ∈ chunk && gone key
      throw .deletionIncomplete

/-- `deleteObjects`. -/
def deleteObjects (replies : Replies) (keys : List String) : StorageCall PUnit :=
  forM (slices deleteBatchLimit keys) (deleteChunk replies)

/-- `listKeys`; its pages are one request here. -/
def listKeys (replies : Replies) (start : String) : StorageCall (List String) := do
  let bucket ← get
  modify fun b => { b with requests := b.requests + 1 }
  match replies bucket.requests with
  | .done => pure (bucket.objects.filter fun key => StartsWith start key)
  | .failed _ => throw .listingFailed

/-! ## What a call leaves -/

/-- The objects of `after` are those of `before` without some of `keys`. -/
def Thinned (keys before after : List String) : Prop :=
  ∃ gone : String → Bool, (∀ key, gone key = true → key ∈ keys) ∧
    after = before.filter fun key => !gone key

theorem Thinned.refl (keys objects : List String) : Thinned keys objects objects :=
  ⟨fun _ => false, nofun, by simp⟩

theorem Thinned.of_filter (keys objects : List String) :
    Thinned keys objects (objects.filter fun key => !decide (key ∈ keys)) :=
  ⟨fun key => key ∈ keys, fun _ => of_decide_eq_true, rfl⟩

theorem Thinned.trans {keys before middle after : List String} (first : Thinned keys before middle)
    (second : Thinned keys middle after) : Thinned keys before after := by
  obtain ⟨gone, inside, rfl⟩ := first
  obtain ⟨gone', inside', rfl⟩ := second
  refine ⟨fun key => gone key || gone' key, ?_, ?_⟩
  · intro key either
    rcases Bool.or_eq_true_iff.1 either with h | h
    · exact inside key h
    · exact inside' key h
  · rw [List.filter_filter]
    apply List.filter_congr
    intro key _
    rw [Bool.not_or, Bool.and_comm]

theorem Thinned.subset {keys before after : List String} (thinned : Thinned keys before after) :
    after ⊆ before := by
  obtain ⟨gone, -, rfl⟩ := thinned
  exact List.filter_subset_self _

/-- What is left by a filter that keeps everything outside `keys` apart is left by any thinning. -/
theorem Thinned.filter {keys before after : List String} (thinned : Thinned keys before after)
    {kept : String → Bool} (drops : ∀ key ∈ keys, kept key = false) :
    after.filter kept = before.filter kept := by
  obtain ⟨gone, inside, rfl⟩ := thinned
  rw [List.filter_filter]
  apply List.filter_congr
  intro key _
  by_cases out : gone key = true
  · rw [drops key (inside key out), Bool.false_and]
  · rw [Bool.not_eq_true] at out
    rw [out, Bool.not_false, Bool.and_true]

theorem Thinned.mono {part keys before after : List String} (inside : part ⊆ keys)
    (thinned : Thinned part before after) : Thinned keys before after := by
  obtain ⟨gone, of_part, is⟩ := thinned
  exact ⟨gone, fun key out => inside (of_part key out), is⟩

/-- A thinning that left no key behind. -/
theorem Thinned.eq_filter {keys before after : List String} (thinned : Thinned keys before after)
    (none_ : ∀ key ∈ after, key ∉ keys) :
    after = before.filter fun key => !decide (key ∈ keys) := by
  have drops : ∀ key ∈ keys, (!decide (key ∈ keys)) = false := by
    intro key member
    rw [decide_eq_true member, Bool.not_true]
  rw [← thinned.filter drops, List.filter_eq_self.2]
  intro key member
  rw [decide_eq_false (none_ key member), Bool.not_false]

theorem deleteChunk_ends (replies : Replies) (chunk : List String) (bucket : Bucket) :
    Ends (deleteChunk replies chunk) bucket
      (fun _ after => Thinned chunk bucket.objects after.objects ∧ ∀ key ∈ after.objects, key ∉ chunk)
      fun _ after => Failing replies ∧ Thinned chunk bucket.objects after.objects := by
  unfold deleteChunk
  rw [Interruptible.ends_bind, Interruptible.ends_get]
  cases reply : replies bucket.requests with
  | done =>
      refine ⟨Thinned.of_filter _ _, ?_⟩
      intro key member
      simpa using (List.mem_filter.1 member).2
  | failed gone =>
      refine ⟨⟨_, gone, reply⟩, fun key => key ∈ chunk && gone key, ?_, rfl⟩
      intro key both
      exact of_decide_eq_true (Bool.and_eq_true_iff.1 both).1

/-- **A deletion** that answers has removed all keys, and one that stops, on a request that failed,
some of them. -/
theorem deleteObjects_ends (replies : Replies) (keys : List String) (bucket : Bucket) :
    Ends (deleteObjects replies keys) bucket
      (fun _ after => after.objects = bucket.objects.filter fun key => !decide (key ∈ keys))
      fun _ after => Failing replies ∧ Thinned keys bucket.objects after.objects := by
  have whole : ∀ key, (∃ slice ∈ slices deleteBatchLimit keys, key ∈ slice) ↔ key ∈ keys :=
    fun key => Theory.Chunked.mem_slices (by decide)
  -- of the keys, only those of slices still to come are left
  let I : List (List String) → Bucket → Prop := fun rest after =>
    Thinned keys bucket.objects after.objects ∧ (∀ slice ∈ rest, slice ⊆ keys) ∧
      ∀ key ∈ after.objects, key ∈ keys → ∃ slice ∈ rest, key ∈ slice
  have start : I (slices deleteBatchLimit keys) bucket :=
    ⟨Thinned.refl _ _, fun slice member key inside => (whole key).1 ⟨slice, member, inside⟩,
      fun key _ listed => (whole key).2 listed⟩
  have round : ∀ chunk rest before, I (chunk :: rest) before →
      Ends (deleteChunk replies chunk) before (fun _ after => I rest after)
        fun _ after => Failing replies ∧ Thinned keys bucket.objects after.objects := by
    rintro chunk rest before ⟨thinned, inside, left⟩
    obtain ⟨here, others⟩ := List.forall_mem_cons.1 inside
    refine (deleteChunk_ends replies chunk before).mono ?_ fun _ after ⟨fails, more⟩ =>
      ⟨fails, thinned.trans (more.mono here)⟩
    rintro - after ⟨more, gone⟩
    refine ⟨thinned.trans (more.mono here), others, ?_⟩
    intro key member listed
    obtain ⟨slice, among, holds⟩ := left key (more.subset member) listed
    rcases List.mem_cons.1 among with rfl | later
    · exact absurd holds (gone key member)
    · exact ⟨slice, later, holds⟩
  refine (Interruptible.Ends.forList round _ start).mono ?_ fun _ _ => id
  rintro - after ⟨thinned, -, left⟩
  exact thinned.eq_filter fun key member listed => by
    obtain ⟨slice, among, -⟩ := left key member listed
    cases among

theorem listKeys_ends (replies : Replies) (start : String) (bucket : Bucket) :
    Ends (listKeys replies start) bucket
      (fun keys after => keys = bucket.objects.filter (fun key => StartsWith start key) ∧
        after.objects = bucket.objects)
      fun _ after => Failing replies ∧ after.objects = bucket.objects := by
  unfold listKeys
  simp only [Interruptible.ends_bind, Interruptible.ends_get, Interruptible.ends_modify]
  cases reply : replies bucket.requests with
  | done => exact ⟨rfl, rfl⟩
  | failed gone => exact ⟨⟨_, gone, reply⟩, rfl⟩

end Tozalist.Shared
