/-
# Tozalist.Worker.Execution -- one execution of the batch job, between its streams

`processBatch` of `apps/worker/src/batch/processor.ts`, seen as what it waits for.  After
its claim an execution reads records from a parser fed by object storage, writes lines
into a stream that an upload reads, and settles the batch.  Two of its waits end only by
an event of a stream:

* the loop over the parser ends with the parser, which `input.pipe` tells of the end of
  its source, and not of a failure;
* a write into a full buffer waits for `drain`, which comes when the upload has read the
  buffer, and not when the upload has failed.

`Execution.Stuck` is an execution in such a wait.  Every other execution that has not
ended can proceed (`Execution.proceeds`).
-/
import Tozalist.Db.Batches

namespace Tozalist.Worker

set_option autoImplicit false

open Db

/-- The source of the parser. -/
inductive Source where
  | unopened
  | open
  | ended
  | failed
  deriving DecidableEq, Repr

/-- The upload of the result. -/
inductive Upload where
  | unstarted
  | running
  | failed
  | finished
  deriving DecidableEq, Repr

/-- Where `processBatch` stands; `lines` are the lengths of the lines still to be written for
the record or chunk at hand, `last` that the loop is over. -/
inductive Phase where
  | claimed
  | opening
  | reading
  | writing (lines : List ℕ) (last : Bool)
  | draining (lines : List ℕ) (last : Bool)
  | uploading
  | completing
  | failing (error : String)
  | ended
  deriving DecidableEq, Repr

/-- From the opened input to the end of the loop. -/
def Phase.inLoop : Phase → Bool
  | .reading => true
  | .writing _ _ => true
  | .draining _ _ => true
  | _ => false

/-- From the layout to the awaited upload. -/
def Phase.uploads : Phase → Bool
  | .opening => true
  | .uploading => true
  | p => p.inLoop

structure Execution where
  batch : Batch
  phase : Phase
  source : Source
  /-- Records the parser has ready. -/
  available : ℕ
  upload : Upload
  /-- What was written and not yet read by the upload. -/
  buffered : ℕ
  deriving DecidableEq

/-- An execution that has won its claim. -/
def Execution.claimed (batch : Batch) : Execution :=
  { batch := batch, phase := .claimed, source := .unopened, available := 0, upload := .unstarted
    buffered := 0 }

/-- The failure of the `catch` branch. -/
def processingFailed : Phase := .failing "processing_failed"

/-- What an execution does, or what its streams do for it. -/
inductive Work where
  | layout
  | open (ok : Bool)
  /-- the parser has more records -/
  | arrive (records : ℕ)
  /-- the source is at its end -/
  | close
  | next (lines : List ℕ)
  | last (lines : List ℕ)
  | write
  | wrote
  /-- the upload reads -/
  | consume (bytes : ℕ)
  | drain
  | awaitUpload
  deriving DecidableEq, Repr

namespace Execution

/-- `resultStream.write(line)`: whether to wait for `drain` is for the buffer to say. -/
def write (highWaterMark : ℕ) (e : Execution) (line : ℕ) (lines : List ℕ) (last : Bool) :
    Execution :=
  { e with
    buffered := e.buffered + line
    phase := if e.buffered + line < highWaterMark then .writing lines last
      else .draining lines last }

/-- The execution after some work, when it is at that work. -/
def proceed (highWaterMark : ℕ) (e : Execution) : Work → Option Execution
  | .layout =>
      if e.phase = .claimed then
        match e.batch.stats with
        | none => some { e with phase := .failing "invalid_layout" }
        | some _ => some { e with phase := .opening, upload := .running }
      else none
  | .open ok =>
      if e.phase = .opening then
        if ok then some { e with phase := .reading, source := .open }
        else some { e with phase := processingFailed }
      else none
  | .arrive records =>
      if e.phase.inLoop = true ∧ e.source = .open ∧ 0 < records then
        some { e with available := e.available + records }
      else none
  | .close =>
      if e.phase.inLoop = true ∧ e.source = .open then some { e with source := .ended } else none
  | .next lines =>
      if e.phase = .reading ∧ 0 < e.available then
        some { e with available := e.available - 1, phase := .writing lines false }
      else none
  | .last lines =>
      if e.phase = .reading ∧ e.available = 0 ∧ e.source = .ended then
        some { e with phase := .writing lines true }
      else none
  | .write =>
      match e.phase with
      | .writing (line :: lines) last => some (e.write highWaterMark line lines last)
      | _ => none
  | .wrote =>
      match e.phase with
      | .writing [] last => some { e with phase := if last then .uploading else .reading }
      | _ => none
  | .consume bytes =>
      if e.phase.uploads = true ∧ e.upload = .running ∧ 0 < bytes ∧ bytes ≤ e.buffered then
        some { e with buffered := e.buffered - bytes }
      else none
  | .drain =>
      match e.phase with
      | .draining lines last =>
          if e.buffered = 0 then some { e with phase := .writing lines last } else none
      | _ => none
  | .awaitUpload =>
      if e.phase = .uploading then
        match e.upload with
        | .failed => some { e with phase := processingFailed }
        | _ => some { e with phase := .completing, upload := .finished }
      else none

/-- What a phase waits for in vain: the parser, when its source has failed and nothing it
parsed is left; `drain`, when the upload has failed and has not read everything. -/
def StuckIn (e : Execution) : Phase → Prop
  | .reading => e.available = 0 ∧ e.source = .failed
  | .draining _ _ => e.upload = .failed ∧ 0 < e.buffered
  | _ => False

def Stuck (e : Execution) : Prop := e.StuckIn e.phase

instance (e : Execution) : Decidable e.Stuck :=
  have decideIn : ∀ p, Decidable (e.StuckIn p)
    | .reading => inferInstanceAs (Decidable (_ ∧ _))
    | .draining _ _ => inferInstanceAs (Decidable (_ ∧ _))
    | .claimed => .isFalse id
    | .opening => .isFalse id
    | .writing _ _ => .isFalse id
    | .uploading => .isFalse id
    | .completing => .isFalse id
    | .failing _ => .isFalse id
    | .ended => .isFalse id
  decideIn e.phase

end Execution

/-! ## Its streams are there when it needs them -/

namespace Execution

structure Wired (e : Execution) : Prop where
  source : e.phase.inLoop = true → e.source ≠ .unopened
  upload : e.phase.uploads = true → e.upload = .running ∨ e.upload = .failed

variable {highWaterMark : ℕ} {e e' : Execution}

theorem ne_ended (looping : e.phase.inLoop = true) : e.phase ≠ .ended := by
  intro ended
  rw [ended] at looping
  cases looping

/-- An execution that is through does nothing more. -/
theorem proceed_ended (ended : e.phase = .ended) (w : Work) :
    e.proceed highWaterMark w = none := by
  cases w <;> simp [Execution.proceed, ended, Phase.inLoop, Phase.uploads]

/-- Work keeps the batch, leaves open whether it ends well, and keeps the wiring. -/
theorem Wired.proceed {w : Work} (wired : e.Wired)
    (proceeds : e.proceed highWaterMark w = some e') :
    e'.Wired ∧ e'.batch = e.batch ∧ e'.phase ≠ .ended := by
  obtain ⟨source, upload⟩ := wired
  cases w with
  | layout =>
      simp only [Execution.proceed, Option.ite_none_right_eq_some] at proceeds
      obtain ⟨-, proceeds⟩ := proceeds
      split at proceeds
      · obtain rfl := Option.some.inj proceeds
        exact ⟨⟨nofun, nofun⟩, rfl, nofun⟩
      · obtain rfl := Option.some.inj proceeds
        exact ⟨⟨nofun, fun _ => .inl rfl⟩, rfl, nofun⟩
  | «open» ok =>
      simp only [Execution.proceed, Option.ite_none_right_eq_some] at proceeds
      obtain ⟨opening, proceeds⟩ := proceeds
      rw [opening] at upload
      cases ok with
      | true =>
          obtain rfl := Option.some.inj proceeds
          exact ⟨⟨nofun, fun _ => upload rfl⟩, rfl, nofun⟩
      | false =>
          obtain rfl := Option.some.inj proceeds
          exact ⟨⟨nofun, nofun⟩, rfl, nofun⟩
  | arrive records =>
      simp only [Execution.proceed, Option.ite_none_right_eq_some] at proceeds
      obtain ⟨⟨looping, -, -⟩, proceeds⟩ := proceeds
      obtain rfl := Option.some.inj proceeds
      exact ⟨⟨source, upload⟩, rfl, ne_ended looping⟩
  | close =>
      simp only [Execution.proceed, Option.ite_none_right_eq_some] at proceeds
      obtain ⟨⟨looping, -⟩, proceeds⟩ := proceeds
      obtain rfl := Option.some.inj proceeds
      exact ⟨⟨nofun, upload⟩, rfl, ne_ended looping⟩
  | next lines =>
      simp only [Execution.proceed, Option.ite_none_right_eq_some] at proceeds
      obtain ⟨⟨reading, -⟩, proceeds⟩ := proceeds
      obtain rfl := Option.some.inj proceeds
      rw [reading] at source upload
      exact ⟨⟨source, upload⟩, rfl, nofun⟩
  | last lines =>
      simp only [Execution.proceed, Option.ite_none_right_eq_some] at proceeds
      obtain ⟨⟨reading, -, -⟩, proceeds⟩ := proceeds
      obtain rfl := Option.some.inj proceeds
      rw [reading] at source upload
      exact ⟨⟨source, upload⟩, rfl, nofun⟩
  | write =>
      simp only [Execution.proceed] at proceeds
      split at proceeds
      · rename_i line lines last writing
        obtain rfl := Option.some.inj proceeds
        rw [writing] at source upload
        rw [write]
        by_cases fits : e.buffered + line < highWaterMark
        · rw [if_pos fits]
          exact ⟨⟨source, upload⟩, rfl, nofun⟩
        · rw [if_neg fits]
          exact ⟨⟨source, upload⟩, rfl, nofun⟩
      · cases proceeds
  | wrote =>
      simp only [Execution.proceed] at proceeds
      split at proceeds
      · rename_i last writing
        obtain rfl := Option.some.inj proceeds
        rw [writing] at source upload
        cases last with
        | true => exact ⟨⟨nofun, upload⟩, rfl, nofun⟩
        | false => exact ⟨⟨source, upload⟩, rfl, nofun⟩
      · cases proceeds
  | consume bytes =>
      simp only [Execution.proceed, Option.ite_none_right_eq_some] at proceeds
      obtain ⟨⟨uploading, -⟩, proceeds⟩ := proceeds
      obtain rfl := Option.some.inj proceeds
      refine ⟨⟨source, upload⟩, rfl, ?_⟩
      intro ended
      have ended : e.phase = .ended := ended
      rw [ended] at uploading
      cases uploading
  | drain =>
      simp only [Execution.proceed] at proceeds
      split at proceeds
      · rename_i lines last draining
        simp only [Option.ite_none_right_eq_some] at proceeds
        obtain rfl := Option.some.inj proceeds.2
        rw [draining] at source upload
        exact ⟨⟨source, upload⟩, rfl, nofun⟩
      · cases proceeds
  | awaitUpload =>
      simp only [Execution.proceed, Option.ite_none_right_eq_some] at proceeds
      obtain ⟨-, proceeds⟩ := proceeds
      split at proceeds
      · obtain rfl := Option.some.inj proceeds
        exact ⟨⟨nofun, nofun⟩, rfl, nofun⟩
      · obtain rfl := Option.some.inj proceeds
        exact ⟨⟨nofun, nofun⟩, rfl, nofun⟩

/-- **An execution before its settlement can proceed, unless it is stuck.** -/
theorem proceeds (highWaterMark : ℕ) (wired : e.Wired) (notStuck : ¬ e.Stuck)
    (notCompleting : e.phase ≠ .completing) (notFailing : ∀ error, e.phase ≠ .failing error)
    (notEnded : e.phase ≠ .ended) : ∃ w, (e.proceed highWaterMark w).isSome = true := by
  rw [Stuck] at notStuck
  cases phase : e.phase with
  | claimed =>
      refine ⟨.layout, ?_⟩
      cases layout : e.batch.stats <;> simp [Execution.proceed, phase, layout]
  | opening => exact ⟨.open true, by simp [Execution.proceed, phase]⟩
  | reading =>
      rw [phase] at notStuck
      rcases Nat.eq_zero_or_pos e.available with none_ | some_
      · cases source : e.source with
        | unopened => exact absurd source (wired.source (by rw [phase]; rfl))
        | «open» => exact ⟨.close, by simp [Execution.proceed, phase, Phase.inLoop, source]⟩
        | ended => exact ⟨.last [], by simp [Execution.proceed, phase, none_, source]⟩
        | failed => exact absurd ⟨none_, source⟩ notStuck
      · exact ⟨.next [], by simp [Execution.proceed, phase, some_]⟩
  | writing lines last =>
      cases lines with
      | nil => exact ⟨.wrote, by simp [Execution.proceed, phase]⟩
      | cons line lines => exact ⟨.write, by simp [Execution.proceed, phase]⟩
  | draining lines last =>
      rw [phase] at notStuck
      rcases Nat.eq_zero_or_pos e.buffered with none_ | some_
      · exact ⟨.drain, by simp [Execution.proceed, phase, none_]⟩
      · rcases wired.upload (by rw [phase]; rfl) with running | failed
        · exact ⟨.consume e.buffered, by
            simp [Execution.proceed, phase, Phase.uploads, Phase.inLoop, running, some_]⟩
        · exact absurd ⟨failed, some_⟩ notStuck
  | uploading =>
      refine ⟨.awaitUpload, ?_⟩
      rcases wired.upload (by rw [phase]; rfl) with running | failed
      · simp [Execution.proceed, phase, running]
      · simp [Execution.proceed, phase, failed]
  | completing => exact absurd phase notCompleting
  | failing error => exact absurd phase (notFailing error)
  | ended => exact absurd phase notEnded

end Execution

end Tozalist.Worker
