/-
# Tozalist.Worker.Isolation -- one row and the others

Rows meet in the inserts of a chunk: PostgreSQL takes no text with the character U+0000, so
one address, or one answer of the engine, that has it makes the insert of its chunk fail,
and with it the batch.  Nothing else that a row contains does (`completes_iff_storable`).

When the engine answers an address as it always does, a batch that completes gives every
row the result of its own address, so a row can be taken out of its file without a trace in
the others (`rows_without`).
-/
import Tozalist.Worker.RowOrder

namespace Tozalist.Worker

set_option autoImplicit false

open Core (EngineResponse)
open Db
open Theory (Memo.answers)

variable {deps : BatchProcessorDeps} {job : ClaimedBatch} {db : Database}

/-! ## Completion -/

/-- The job reaches `completeBatch` exactly when the loop meets no failing insert. -/
theorem processBatch_completes_iff (records : List Record) :
    (∃ input, processBatch deps job.batch job.retentionDays job.now db records = .ok input) ↔
      (processRecords deps job db records).failure = none := by
  obtain ⟨batch, retentionDays, layout, layout_eq, now⟩ := job
  unfold processBatch
  split
  · rename_i unread
    rw [layout_eq] at unread
    cases unread
  · rename_i found read
    obtain rfl : layout = found := Option.some.inj (layout_eq.symm.trans read)
    simp only
    split
    · rename_i running
      exact iff_of_true ⟨_, rfl⟩ running
    · rename_i error failed
      refine iff_of_false (fun ⟨input, none_⟩ => ?_) fun running => ?_
      · cases none_
      · rw [failed] at running
        cases running

/-- PostgreSQL takes the texts that a row of this address and answer brings. -/
def RowStorable (email : JsString) (response : EngineResponse) : Prop :=
  Storable email ∧
    ∀ text ∈ [response.email, response.syntax_.username, response.syntax_.domain,
        response.mx.error] ++ response.mx.records ++ (response.smtp.map (·.error)).toList,
      '\x00' ∉ text.toList

instance (email : JsString) (response : EngineResponse) : Decidable (RowStorable email response) :=
  inferInstanceAs (Decidable (_ ∧ _))

/-- The suggestion of a row never stands in the way. -/
theorem freshInsert_fits_iff (email : JsString) (hash : String) (response : EngineResponse) :
    (freshInsert deps job email hash response).check.Fits ↔ RowStorable email response := by
  constructor
  · rintro ⟨address, -, texts⟩
    exact ⟨address, texts⟩
  · rintro ⟨address, texts⟩
    exact ⟨address, fun typo found => Core.detectTypo_nul_free (Option.mem_def.1 found), texts⟩

/-! ## An engine that answers by address -/

/-- The engine answers an address as it always does. -/
def AnswersBy (deps : BatchProcessorDeps) (answer : JsString → Option EngineResponse) : Prop :=
  ∀ calls email, deps.engine calls email = answer email

/-- What an address comes to. -/
def outcomeOf (deps : BatchProcessorDeps) (job : ClaimedBatch) (db : Database)
    (email : JsString) : Outcome :=
  resolve deps job db [] email

theorem resolve_eq_outcomeOf {answer : JsString → Option EngineResponse}
    (pure_ : AnswersBy deps answer) (log : AddressLog) (email : JsString) :
    resolve deps job db log email = outcomeOf deps job db email := by
  rw [outcomeOf, resolve, resolve]
  simp only [pure_ _ _]

theorem mem_logOf_iff {answer : JsString → Option EngineResponse} (pure_ : AnswersBy deps answer)
    {emails : List JsString} {email : JsString} {outcome : Outcome} :
    (email, outcome) ∈ logOf deps job db emails ↔
      email ∈ emails ∧ outcome = outcomeOf deps job db email := by
  have own : ∀ entry ∈ logOf deps job db emails, entry.2 = outcomeOf deps job db entry.1 :=
    Theory.Memo.forall_mem_rememberAll
      (fun email outcome => outcome = outcomeOf deps job db email)
      (resolve_eq_outcomeOf pure_) (List.forall_mem_nil _) emails
  constructor
  · intro member
    exact ⟨mem_keys_logOf.1 (List.mem_map_of_mem member), own _ member⟩
  · rintro ⟨involved, rfl⟩
    obtain ⟨⟨_, outcome⟩, member, rfl⟩ := List.mem_map.1 (mem_keys_logOf.2 involved)
    have same : outcome = outcomeOf deps job db _ := own _ member
    exact same ▸ member

/-- The row of a record, whatever the file around it. -/
def ownRow (deps : BatchProcessorDeps) (job : ClaimedBatch) (db : Database) (record : Record) :
    WrittenRow :=
  ⟨record, address deps job record,
    if address deps job record = [] then malformed
    else (outcomeOf deps job db (address deps job record)).result deps.toLowerCase⟩

/-- The result of a row is that of its own address. -/
theorem writtenOf_eq_ownRow {answer : JsString → Option EngineResponse}
    (pure_ : AnswersBy deps answer) {records : List Record} {record : Record}
    (member : record ∈ records) :
    writtenOf deps job db records record = ownRow deps job db record := by
  rw [writtenOf, ownRow]
  congr 1
  by_cases empty : address deps job record = []
  · rw [if_pos empty, empty]
    exact resultOf_nil (nil_not_mem_addresses deps job records)
  · have involved : address deps job record ∈ addresses deps job records :=
      List.mem_filter.2 ⟨List.mem_map_of_mem member, by simpa using empty⟩
    obtain ⟨outcome, found⟩ := Theory.Memo.mem_keys_iff.1 (mem_keys_logOf.2 involved)
    obtain ⟨-, rfl⟩ := (mem_logOf_iff pure_).1 (Theory.Memo.mem_of_lookup found)
    rw [if_neg empty, resultOf, found]
    rfl

/-- The engine is called, and answers, for the addresses the cache does not know. -/
theorem outcomeOf_eq_checked_iff {answer : JsString → Option EngineResponse}
    (pure_ : AnswersBy deps answer) {email : JsString} {response : EngineResponse} :
    outcomeOf deps job db email = .checked response ↔
      ¬ Cached deps job db email ∧ answer email = some response := by
  rw [outcomeOf, resolve, Cached]
  cases db.findRecentEmailCheck job.batch.orgId (deps.sha256Hex email) job.now with
  | some check => exact iff_of_false (fun other => by cases other) fun both => both.1 rfl
  | none =>
      simp only [pure_ _ _]
      cases answer email with
      | none => exact iff_of_false (fun other => by cases other) fun both => by cases both.2
      | some other =>
          constructor
          · intro same
            exact ⟨Bool.false_ne_true, congrArg some (Outcome.checked.inj same)⟩
          · intro both
            exact congrArg Outcome.checked (Option.some.inj both.2)

/-- No address of the file that is neither cached nor failed has U+0000, itself or in its
answer. -/
def AllStorable (deps : BatchProcessorDeps) (job : ClaimedBatch) (db : Database)
    (answer : JsString → Option EngineResponse) (rows : List Record) : Prop :=
  ∀ email ∈ addresses deps job rows, ¬ Cached deps job db email →
    ∀ response, answer email = some response → RowStorable email response

/-- The inserts of a file fit exactly when its rows are storable. -/
theorem insertsOf_fit_iff {answer : JsString → Option EngineResponse}
    (pure_ : AnswersBy deps answer) (rows : List Record) :
    (∀ insert ∈ insertsOf deps job (logOf deps job db (addresses deps job rows)),
        insert.check.Fits) ↔
      AllStorable deps job db answer rows := by
  constructor
  · intro fits email involved uncached response answered
    have entry : (email, Outcome.checked response) ∈
        logOf deps job db (addresses deps job rows) :=
      (mem_logOf_iff pure_).2
        ⟨involved, ((outcomeOf_eq_checked_iff pure_).2 ⟨uncached, answered⟩).symm⟩
    have fresh : freshInsert deps job email (deps.sha256Hex email) response ∈
        insertsOf deps job (logOf deps job db (addresses deps job rows)) :=
      List.mem_filterMap.2 ⟨_, entry, rfl⟩
    exact (freshInsert_fits_iff _ _ _).1 (fits _ fresh)
  · intro storable insert member
    obtain ⟨⟨email, outcome⟩, entry, brought⟩ := List.mem_filterMap.1 member
    obtain ⟨involved, same⟩ := (mem_logOf_iff pure_).1 entry
    cases outcome with
    | cached check => cases brought
    | unassessed => cases brought
    | checked response =>
        obtain rfl := Option.some.inj brought
        obtain ⟨uncached, answered⟩ := (outcomeOf_eq_checked_iff pure_).1 same.symm
        exact (freshInsert_fits_iff _ _ _).2 (storable email involved uncached response answered)

/-! ## Taking a row out -/

/-- One row is taken out of a file. -/
def TakenOut (layout : Layout) (records : List Record) (record : Record)
    (others : List Record) : Prop :=
  ∃ before after, dataRows layout records = before ++ record :: after ∧
    dataRows layout others = before ++ after

theorem TakenOut.perm {layout : Layout} {records others : List Record} {record : Record}
    (out : TakenOut layout records record others) :
    (dataRows layout records).Perm (record :: dataRows layout others) := by
  obtain ⟨before, after, whole, without⟩ := out
  rw [whole, without]
  exact List.perm_middle

theorem TakenOut.addresses_sublist {records others : List Record} {record : Record}
    (out : TakenOut job.layout records record others) :
    (addresses deps job (dataRows job.layout others)).Sublist
      (addresses deps job (dataRows job.layout records)) := by
  obtain ⟨before, after, whole, without⟩ := out
  have grows : (before ++ after).Sublist (before ++ record :: after) :=
    (List.Sublist.refl before).append (List.sublist_cons_self record after)
  rw [whole, without]
  exact (grows.map _).filter _

/-- The batch completes, and does without any one row; the other rows are the same then. -/
structure Unsunk (deps : BatchProcessorDeps) (job : ClaimedBatch) (db : Database)
    (records : List Record) : Prop where
  completes : ∃ input,
    processBatch deps job.batch job.retentionDays job.now db records = .ok input
  others : ∀ record others, TakenOut job.layout records record others →
    (∃ input, processBatch deps job.batch job.retentionDays job.now db others = .ok input) ∧
      (processRecords deps job db records).rows.Perm
        (ownRow deps job db record :: (processRecords deps job db others).rows)

/-- The rows of a batch that completes are those of its records, each for itself. -/
theorem rows_perm_ownRow {answer : JsString → Option EngineResponse}
    (pure_ : AnswersBy deps answer) (positive : 1 ≤ deps.chunkSize) {records : List Record}
    (free : CollisionFree deps (addresses deps job (dataRows job.layout records)))
    (completes : (processRecords deps job db records).failure = none) :
    (processRecords deps job db records).rows.Perm
      ((dataRows job.layout records).map (ownRow deps job db)) := by
  have finished := finished_of_failure_eq_none positive free completes
  have own : (dataRows job.layout records).map
      (writtenOf deps job db (dataRows job.layout records)) =
        (dataRows job.layout records).map (ownRow deps job db) :=
    List.map_congr_left fun record member => writtenOf_eq_ownRow pure_ member
  exact own ▸ finished.rows_perm

/-- **A bad row** sinks its batch exactly when it brings U+0000 to an insert; then the batch
fails, and otherwise it completes and no row makes a difference to another. -/
theorem unsunk_iff (deps : BatchProcessorDeps) (job : ClaimedBatch) (db : Database)
    (records : List Record) (answer : JsString → Option EngineResponse)
    (pure_ : AnswersBy deps answer) (positive : 1 ≤ deps.chunkSize)
    (free : CollisionFree deps (addresses deps job (dataRows job.layout records)))
    (ids : FreshIds deps db (addresses deps job (dataRows job.layout records)).length) :
    Unsunk deps job db records ↔
      AllStorable deps job db answer (dataRows job.layout records) := by
  have completes := (failure_eq_none_iff db positive free ids).trans (insertsOf_fit_iff pure_ _)
  constructor
  · intro unsunk
    exact completes.1 ((processBatch_completes_iff records).1 unsunk.completes)
  · intro storable
    have running := completes.2 storable
    refine ⟨(processBatch_completes_iff records).2 running, ?_⟩
    intro record others out
    have inside : (addresses deps job (dataRows job.layout others)).Sublist
        (addresses deps job (dataRows job.layout records)) := out.addresses_sublist
    have free' : CollisionFree deps (addresses deps job (dataRows job.layout others)) :=
      fun a ha b hb => free a (inside.subset ha) b (inside.subset hb)
    have running' : (processRecords deps job db others).failure = none := by
      rw [failure_eq_none_iff db positive free' (ids.mono inside.length_le),
        insertsOf_fit_iff pure_]
      exact fun email involved => storable email (inside.subset involved)
    refine ⟨(processBatch_completes_iff others).2 running', ?_⟩
    apply (rows_perm_ownRow pure_ positive free running).trans
    refine (out.perm.map _).trans (List.Perm.cons _ ?_)
    exact (rows_perm_ownRow pure_ positive free' running').symm

/-- An address with U+0000, in a file with another row. -/
theorem nul_row_sinks :
    Api.Uploaded (Api.inspectCsv sampleDeps.toLowerCase
        [["email"].map Js.ofString, ["bob@gmail.com"].map Js.ofString,
          [0 :: Js.ofString "@gmail.com"]])
      { sampleBatch with totalRows := 2 } ∧
    (processBatch { sampleDeps with engine := fun _ _ => some sampleResponse } sampleBatch 30 1000
        sampleDb [["email"].map Js.ofString, ["bob@gmail.com"].map Js.ofString,
          [0 :: Js.ofString "@gmail.com"]] =
      .error (failing sampleBatch "processing_failed")) ∧
    ¬ Unsunk { sampleDeps with engine := fun _ _ => some sampleResponse } sampleJob sampleDb
        [["email"].map Js.ofString, ["bob@gmail.com"].map Js.ofString,
          [0 :: Js.ofString "@gmail.com"]] := by
  have sinks : (processRecords { sampleDeps with engine := fun _ _ => some sampleResponse }
      sampleJob sampleDb [["email"].map Js.ofString, ["bob@gmail.com"].map Js.ofString,
        [0 :: Js.ofString "@gmail.com"]]).failure.isSome = true := by decide +kernel
  refine ⟨⟨0, true, by decide +kernel, rfl⟩, ?_, ?_⟩
  · obtain ⟨error, failed⟩ := Option.isSome_iff_exists.1 sinks
    unfold processBatch
    split
    · rename_i unread
      cases unread
    · rename_i found read
      obtain rfl : (⟨0, true⟩ : Layout) = found := Option.some.inj read
      have failed' := failed
      rw [sampleJob] at failed'
      simp only [failed']
  · intro unsunk
    have running := (processBatch_completes_iff _).1 unsunk.completes
    rw [running] at sinks
    cases sinks

theorem unsunk_iff_sample :
    Unsunk sampleDeps sampleJob sampleDb sampleRecords ↔
      AllStorable sampleDeps sampleJob sampleDb
        (fun email => if email = Js.ofString "ann@gmail.com" then some sampleResponse else none)
        (dataRows ⟨0, true⟩ sampleRecords) :=
  unsunk_iff sampleDeps sampleJob sampleDb sampleRecords _ (fun _ _ => rfl) (by decide)
    (by decide +kernel) ⟨by decide +kernel, fun _ _ _ inside => absurd inside List.not_mem_nil⟩

end Tozalist.Worker
