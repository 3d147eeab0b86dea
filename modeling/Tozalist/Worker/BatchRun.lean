/-
# Tozalist.Worker.BatchRun -- what holds while a file is read, whatever the chunks

The loop invariant of `processRecords`.  `Holds records flushed dups p chunk` says of a run
that has read `records` and has not failed: the log is that of the addresses handed on, the
database has the inserts of the log, the rows written and held are the records read, each
written row has the result of its address, and the counters count these rows.

A chunk that is handed on extends the log by its addresses (`Holds.flush`), so the log after
a whole file is that of the addresses of the file, at every chunk size.  A run that fails
does so in an insert; what it did until then is the run on a part of the addresses
(`Halted`), and with fresh ids some insert of the file does not fit its columns.
-/
import Tozalist.Theory.Chunked
import Tozalist.Worker.AddressLog

namespace Tozalist.Worker

set_option autoImplicit false

open Core (EngineResponse)
open Db
open Theory (Memo.keys Memo.rememberAll Memo.answers Txn)
open Theory.Chunked

variable {deps : BatchProcessorDeps} {job : ClaimedBatch} {db : Database} {log : AddressLog}

/-! ## Writing rows -/

/-- What writing rows leaves alone. -/
structure SameLog (p p' : Progress) : Prop where
  seen : p'.seen = p.seen
  calls : p'.calls = p.calls
  cached : p'.stats.cached = p.stats.cached
  charged : p'.stats.charged = p.stats.charged
  engineErrors : p'.stats.engineErrors = p.stats.engineErrors
  drawn : p'.drawn = p.drawn
  db : p'.db = p.db
  failure : p'.failure = p.failure

theorem SameLog.refl (p : Progress) : SameLog p p := ⟨rfl, rfl, rfl, rfl, rfl, rfl, rfl, rfl⟩

theorem SameLog.trans {p q r : Progress} (first : SameLog p q) (second : SameLog q r) :
    SameLog p r :=
  ⟨second.seen.trans first.seen, second.calls.trans first.calls, second.cached.trans first.cached,
    second.charged.trans first.charged, second.engineErrors.trans first.engineErrors,
    second.drawn.trans first.drawn, second.db.trans first.db, second.failure.trans first.failure⟩

theorem Tracks.congr {p p' : Progress} (tracks : Tracks deps log p) (same : SameLog p p') :
    Tracks deps log p' :=
  ⟨fun email => by rw [same.seen, tracks.seen], same.calls.trans tracks.calls,
    same.cached.trans tracks.cached, same.charged.trans tracks.charged,
    same.engineErrors.trans tracks.engineErrors⟩

theorem Progress.write_sameLog (p : Progress) (row : WrittenRow) : SameLog p (p.write row) :=
  ⟨rfl, rfl, rfl, rfl, rfl, rfl, rfl, rfl⟩

/-- The rows of a file per verdict. -/
def distributionOf (rows : List WrittenRow) : Distribution :=
  { valid := rows.countP (·.result.verdict = .valid)
    invalid := rows.countP (·.result.verdict = .invalid)
    risky := rows.countP (·.result.verdict = .risky)
    unknown := rows.countP (·.result.verdict = .unknown) }

/-- All rows of a distribution. -/
def total (distribution : Distribution) : ℕ :=
  distribution.valid + distribution.invalid + distribution.risky + distribution.unknown

theorem distributionOf_concat (rows : List WrittenRow) (row : WrittenRow) :
    distributionOf (rows ++ [row]) = bump (distributionOf rows) row.result.verdict := by
  unfold distributionOf
  simp only [List.countP_append, List.countP_singleton]
  cases row.result.verdict <;> simp [bump]

/-- Every row has one verdict. -/
theorem total_distributionOf (rows : List WrittenRow) :
    total (distributionOf rows) = rows.length := by
  induction rows using List.reverseRecOn with
  | nil => rfl
  | append_singleton rows row ih =>
      rw [distributionOf_concat, List.length_append, List.length_singleton, ← ih]
      cases row.result.verdict <;> simp only [total, bump] <;> omega

theorem distributionOf_perm {rows rows' : List WrittenRow} (perm : rows.Perm rows') :
    distributionOf rows = distributionOf rows' := by
  simp only [distributionOf, perm.countP_eq]

/-- The counters of the written rows. -/
structure Counted (p : Progress) : Prop where
  processed : p.processed = p.rows.length
  distribution : p.stats.distribution = distributionOf p.rows

theorem Counted.write {p : Progress} (counted : Counted p) (row : WrittenRow) :
    Counted (p.write row) := by
  constructor
  · rw [Progress.write, counted.processed, List.length_append]
    rfl
  · rw [Progress.write, distributionOf_concat, ← counted.distribution]

theorem Counted.congr {p p' : Progress} (counted : Counted p) (same : SameOutput p p') :
    Counted p' :=
  ⟨by rw [same.processed, same.rows, counted.processed],
    by rw [same.distribution, same.rows, counted.distribution]⟩

/-- Write rows one after another. -/
def Progress.writeAll (p : Progress) (rows : List WrittenRow) : Progress :=
  rows.foldl Progress.write p

theorem Progress.writeAll_sameLog (p : Progress) (rows : List WrittenRow) :
    SameLog p (p.writeAll rows) := by
  induction rows generalizing p with
  | nil => exact SameLog.refl p
  | cons row rows ih => exact (p.write_sameLog row).trans (ih (p.write row))

theorem Progress.writeAll_rows (p : Progress) (rows : List WrittenRow) :
    (p.writeAll rows).rows = p.rows ++ rows := by
  induction rows generalizing p with
  | nil => exact (List.append_nil _).symm
  | cons row rows ih => exact (ih (p.write row)).trans (List.append_assoc _ _ _)

theorem Progress.writeAll_malformedRows (p : Progress) (rows : List WrittenRow) :
    (p.writeAll rows).stats.malformedRows = p.stats.malformedRows := by
  induction rows generalizing p with
  | nil => rfl
  | cons row rows ih => exact ih (p.write row)

theorem Progress.writeAll_duplicates (p : Progress) (rows : List WrittenRow) :
    (p.writeAll rows).stats.duplicates = p.stats.duplicates := by
  induction rows generalizing p with
  | nil => rfl
  | cons row rows ih => exact ih (p.write row)

theorem Counted.writeAll {p : Progress} (counted : Counted p) (rows : List WrittenRow) :
    Counted (p.writeAll rows) := by
  induction rows generalizing p with
  | nil => exact counted
  | cons row rows ih => exact ih (counted.write row)

/-- The result of an address that a log has resolved; the empty address is malformed. -/
def resultOf (deps : BatchProcessorDeps) (log : AddressLog) (normalized : JsString) : RowResult :=
  ((Theory.Memo.lookup log normalized).map fun outcome =>
    outcome.result deps.toLowerCase).getD malformed

/-- The written row of a held one. -/
def PendingRow.written (deps : BatchProcessorDeps) (log : AddressLog) (row : PendingRow) :
    WrittenRow :=
  ⟨row.cells, row.normalized, resultOf deps log row.normalized⟩

/-- A row of a resolved address is written with the result of the address. -/
theorem writePending_eq {p : Progress} (tracks : Tracks deps log p) {row : PendingRow}
    (known : row.normalized ∈ Memo.keys log) :
    writePending p row = p.write (row.written deps log) := by
  obtain ⟨outcome, found⟩ := Theory.Memo.mem_keys_iff.1 known
  have decoded : (p.seen row.normalized).bind decodeResult =
      some (resultOf deps log row.normalized) := by
    rw [tracks.seen, found, resultOf, found]
    exact outcome.decode deps.toLowerCase
  rw [writePending, decoded]
  rfl

theorem foldl_writePending {p : Progress} (tracks : Tracks deps log p) {rows : List PendingRow}
    (known : ∀ row ∈ rows, row.normalized ∈ Memo.keys log) :
    rows.foldl writePending p = p.writeAll (rows.map (PendingRow.written deps log)) := by
  induction rows generalizing p with
  | nil => rfl
  | cons row rows ih =>
      obtain ⟨here, rest⟩ := List.forall_mem_cons.1 known
      rw [List.foldl_cons, writePending_eq tracks here,
        ih (tracks.congr (p.write_sameLog _)) rest]
      rfl

/-! ## Ids -/

/-- The first `count` ids of `randomUUID` are distinct, and none is in the table. -/
structure FreshIds (deps : BatchProcessorDeps) (db : Database) (count : ℕ) : Prop where
  distinct : ∀ i < count, ∀ j < count, deps.randomUUID i = deps.randomUUID j → i = j
  fresh : ∀ k < count, ∀ check ∈ db.emailChecks, check.id ≠ deps.randomUUID k

theorem FreshIds.mono {count more : ℕ} (ids : FreshIds deps db more) (le : count ≤ more) :
    FreshIds deps db count :=
  ⟨fun i hi j hj => ids.distinct i (hi.trans_le le) j (hj.trans_le le),
    fun k hk => ids.fresh k (hk.trans_le le)⟩

/-- With fresh ids, an insert after those of the log fails only for a row that does not
fit. -/
theorem FreshIds.insert_iff {count : ℕ} (ids : FreshIds deps db count) {db' : Database}
    (inserted : Inserted deps job db log db') {inserts : List BatchEmailCheck}
    (few : (insertsOf deps job log).length + inserts.length ≤ count) :
    (∃ db'', Txn.Commits (insertBatchEmailChecks
      (withIds deps (insertsOf deps job log).length inserts) job.now.timestamp) db' () db'') ↔
      ∀ insert ∈ inserts, insert.check.Fits := by
  obtain ⟨added, written, rfl⟩ := inserted
  have used : added.map (·.id) =
      (List.range' 0 (insertsOf deps job log).length).map deps.randomUUID := by
    rw [← withIds_map_snd]
    exact written_map_eq written fun row check ⟨_, eq⟩ => by rw [eq]; rfl
  have drawn : ∀ row ∈ withIds deps (insertsOf deps job log).length inserts,
      ∃ k, (insertsOf deps job log).length ≤ k ∧ k < count ∧ row.2 = deps.randomUUID k := by
    intro row member
    have listed : row.2 ∈ (withIds deps (insertsOf deps job log).length inserts).map (·.2) :=
      List.mem_map_of_mem member
    rw [withIds_map_snd] at listed
    obtain ⟨k, within, eq⟩ := List.mem_map.1 listed
    have bounds := List.mem_range'_1.1 within
    exact ⟨k, bounds.1, bounds.2.trans_le few, eq.symm⟩
  rw [insertBatchEmailChecks_iff]
  · constructor
    · intro fits insert member
      rw [← withIds_map_fst deps (insertsOf deps job log).length inserts] at member
      obtain ⟨row, inside, rfl⟩ := List.mem_map.1 member
      exact fits row inside
    · intro fits row member
      apply fits row.1
      rw [← withIds_map_fst deps (insertsOf deps job log).length inserts]
      exact List.mem_map_of_mem member
  · rw [withIds_map_snd]
    refine List.Nodup.map_on (fun i hi j hj => ?_) List.nodup_range'
    exact ids.distinct i ((List.mem_range'_1.1 hi).2.trans_le few) j
      ((List.mem_range'_1.1 hj).2.trans_le few)
  · intro row member check inside
    obtain ⟨k, later, below, eq⟩ := drawn row member
    rw [eq]
    rcases List.mem_append.1 inside with old | new
    · exact ids.fresh k below check old
    · have listed : check.id ∈ added.map (·.id) := List.mem_map_of_mem new
      rw [used] at listed
      obtain ⟨j, within, same⟩ := List.mem_map.1 listed
      have earlier := (List.mem_range'_1.1 within).2
      rw [← same]
      intro repeats
      have := ids.distinct j (by omega) k below repeats
      omega

/-! ## A chunk -/

/-- The log of a list of addresses. -/
def logOf (deps : BatchProcessorDeps) (job : ClaimedBatch) (db : Database)
    (emails : List JsString) : AddressLog :=
  Memo.answers (resolve deps job db) emails

theorem logOf_append (emails more : List JsString) :
    logOf deps job db (emails ++ more) =
      Memo.rememberAll (resolve deps job db) (logOf deps job db emails) more :=
  Theory.Memo.rememberAll_append emails more

theorem mem_keys_logOf {emails : List JsString} {email : JsString} :
    email ∈ Memo.keys (logOf deps job db emails) ↔ email ∈ emails :=
  Theory.Memo.mem_keys_answers

/-- There are no more inserts than addresses. -/
theorem length_insertsOf_le (deps : BatchProcessorDeps) (job : ClaimedBatch) (db : Database)
    (emails : List JsString) :
    (insertsOf deps job (logOf deps job db emails)).length ≤ emails.length :=
  calc (insertsOf deps job (logOf deps job db emails)).length
      ≤ (logOf deps job db emails).length := List.length_filterMap_le _ _
    _ = emails.toFinset.card := Theory.Memo.length_answers emails
    _ ≤ emails.length := List.toFinset_card_le emails

/-- A result stands. -/
theorem resultOf_logOf_append {emails : List JsString} {normalized : JsString}
    (answered : normalized ∈ emails) (more : List JsString) :
    resultOf deps (logOf deps job db (emails ++ more)) normalized =
      resultOf deps (logOf deps job db emails) normalized := by
  rw [resultOf, logOf_append, Theory.Memo.lookup_rememberAll (mem_keys_logOf.2 answered),
    ← resultOf]

/-- Without addresses that are empty, the empty address is malformed. -/
theorem resultOf_nil {emails : List JsString} (nonempty : [] ∉ emails) :
    resultOf deps (logOf deps job db emails) [] = malformed := by
  have unknown : [] ∉ Memo.keys (logOf deps job db emails) := fun known =>
    nonempty (mem_keys_logOf.1 known)
  rw [resultOf, Theory.Memo.not_mem_keys_iff.1 unknown]
  rfl

/-- The state after the inserts of a chunk, or after their failure. -/
theorem resolveChunk_cases {emails : List JsString}
    (free : CollisionFree deps emails)
    {flushed : List JsString} {p : Progress} (tracks : Tracks deps (logOf deps job db flushed) p)
    (inserted : Inserted deps job db (logOf deps job db flushed) p.db)
    (drawn : p.drawn = (insertsOf deps job (logOf deps job db flushed)).length)
    (within : ∀ email ∈ flushed, email ∈ emails) {chunk : List PendingRow}
    (involved : ∀ row ∈ chunk, row.normalized ∈ emails)
    (hashes : ∀ row ∈ chunk, row.hash = deps.sha256Hex row.normalized) :
    let log := logOf deps job db (flushed ++ chunk.map (·.normalized))
    (∃ q, resolveChunk deps job p chunk = q.writeAll (chunk.map (PendingRow.written deps log)) ∧
        Tracks deps log q ∧ SameOutput p q ∧ Inserted deps job db log q.db ∧
        q.drawn = (insertsOf deps job log).length) ∨
      ∃ q error, resolveChunk deps job p chunk = { q with failure := some error } ∧
        Tracks deps log q ∧ SameOutput p q ∧ Inserted deps job db (logOf deps job db flushed) q.db ∧
        (FreshIds deps db (flushed ++ chunk.map (·.normalized)).length →
          ∃ insert ∈ insertsOf deps job log, ¬ insert.check.Fits) := by
  intro log
  have resolving := resolveUnique_tracks free tracks inserted
    (fun email known => within email (mem_keys_logOf.1 known)) involved hashes
  rw [← logOf_append] at resolving
  have length := congrArg List.length resolving.inserts
  rw [List.length_append, ← drawn, ← resolving.drawn] at length
  rw [resolveChunk]
  rcases Txn.transaction_cases
      (insertBatchEmailChecks (withIds deps (resolveUnique deps job p chunk).progress.drawn
        (resolveUnique deps job p chunk).freshInserts) job.now.timestamp)
      (resolveUnique deps job p chunk).progress.db with ⟨u, db', commits, eq⟩ | ⟨error, run, eq⟩
  · refine .inl ⟨{ (resolveUnique deps job p chunk).progress with
        db := db'
        drawn := (resolveUnique deps job p chunk).progress.drawn +
          (resolveUnique deps job p chunk).freshInserts.length }, ?_, ?_, ?_, ?_, length.symm⟩
    · simp only [eq]
      refine foldl_writePending ?_ fun row member => ?_
      · exact ⟨resolving.tracks.seen, resolving.tracks.calls, resolving.tracks.cached,
          resolving.tracks.charged, resolving.tracks.engineErrors⟩
      · exact mem_keys_logOf.2 (List.mem_append_right _ (List.mem_map_of_mem member))
    · exact ⟨resolving.tracks.seen, resolving.tracks.calls, resolving.tracks.cached,
        resolving.tracks.charged, resolving.tracks.engineErrors⟩
    · exact ⟨resolving.same.rows, resolving.same.processed, resolving.same.failure,
        resolving.same.malformedRows, resolving.same.duplicates, resolving.same.distribution⟩
    · obtain ⟨before, written, same⟩ := inserted
      obtain ⟨added, now_, rfl⟩ := insertBatchEmailChecks_commits commits
      refine ⟨before ++ added, ?_, by rw [resolving.db, same, List.append_assoc]⟩
      rw [resolving.inserts, withIds_append, Nat.zero_add]
      apply List.rel_append written
      rwa [← drawn, ← resolving.drawn]
  · refine .inr ⟨(resolveUnique deps job p chunk).progress, error, by rw [eq], resolving.tracks,
      resolving.same, by rw [resolving.db]; exact inserted, fun ids => ?_⟩
    by_contra fits
    push Not at fits
    have few := length_insertsOf_le deps job db (flushed ++ chunk.map (·.normalized))
    rw [resolving.inserts, List.length_append] at few
    obtain ⟨db', commits⟩ := (ids.insert_iff (resolving.db ▸ inserted) few).2 fun insert member =>
      fits insert (resolving.inserts ▸ List.mem_append_right _ member)
    rw [← drawn, ← resolving.drawn, Txn.Commits, run] at commits
    cases commits

/-! ## The loop -/

/-- The addresses of records, in order; a malformed record has none. -/
def addresses (deps : BatchProcessorDeps) (job : ClaimedBatch) (records : List Record) :
    List JsString :=
  (records.map (address deps job)).filter (· ≠ [])

theorem addresses_concat_of_malformed {record : Record} (malformed : address deps job record = [])
    (records : List Record) :
    addresses deps job (records ++ [record]) = addresses deps job records := by
  simp [addresses, malformed]

theorem addresses_concat {record : Record} (well : address deps job record ≠ [])
    (records : List Record) :
    addresses deps job (records ++ [record]) =
      addresses deps job records ++ [address deps job record] := by
  simp [addresses, well]

theorem nil_not_mem_addresses (deps : BatchProcessorDeps) (job : ClaimedBatch)
    (records : List Record) : [] ∉ addresses deps job records := by
  simp [addresses]

theorem length_addresses (deps : BatchProcessorDeps) (job : ClaimedBatch)
    (records : List Record) :
    records.countP (fun record => address deps job record = []) +
      (addresses deps job records).length = records.length := by
  induction records with
  | nil => rfl
  | cons record records ih =>
      by_cases malformed : address deps job record = [] <;>
        simp_all [addresses] <;> omega

theorem CollisionFree.of_concat {records : List Record} {record : Record}
    (free : CollisionFree deps (addresses deps job (records ++ [record]))) :
    CollisionFree deps (addresses deps job records) := by
  have inside : ∀ email ∈ addresses deps job records,
      email ∈ addresses deps job (records ++ [record]) := by
    intro email member
    rw [addresses, List.map_append, List.filter_append]
    exact List.mem_append_left _ member
  exact fun a ha b hb => free a (inside a ha) b (inside b hb)

/-- A row as a record gives it. -/
def recordRow (deps : BatchProcessorDeps) (job : ClaimedBatch) (record : Record) :
    Record × JsString :=
  (record, address deps job record)

/-- A written row has the result of its address, or is malformed. -/
structure Answered (deps : BatchProcessorDeps) (job : ClaimedBatch) (db : Database)
    (emails : List JsString) (row : WrittenRow) : Prop where
  result : row.result = resultOf deps (logOf deps job db emails) row.normalized
  address : row.normalized = [] ∨ row.normalized ∈ emails

/-- It keeps it when more addresses are resolved. -/
theorem Answered.extend {emails more : List JsString} {row : WrittenRow}
    (answered : Answered deps job db emails row) (before : emails <+: more) (nonempty : [] ∉ more) :
    Answered deps job db more row := by
  obtain ⟨rest, rfl⟩ := before
  refine ⟨?_, answered.address.imp_right (List.mem_append_left rest)⟩
  rw [answered.result]
  rcases answered.address with empty | known
  · rw [empty, resultOf_nil nonempty,
      resultOf_nil fun inside => nonempty (List.mem_append_left rest inside)]
  · exact (resultOf_logOf_append known rest).symm

/-- A run that has read `records`, handed on the addresses `flushed`, counted `dups`
duplicates and holds `chunk`. -/
structure Holds (deps : BatchProcessorDeps) (job : ClaimedBatch) (db : Database)
    (records : List Record) (flushed : List JsString) (dups : ℕ) (p : Progress)
    (chunk : List PendingRow) : Prop where
  running : p.failure = none
  tracks : Tracks deps (logOf deps job db flushed) p
  inserted : Inserted deps job db (logOf deps job db flushed) p.db
  drawn : p.drawn = (insertsOf deps job (logOf deps job db flushed)).length
  hashes : ∀ row ∈ chunk, row.hash = deps.sha256Hex row.normalized
  whole : flushed ++ chunk.map (·.normalized) = addresses deps job records
  counted : Counted p
  rows : (p.rows.map (fun row => (row.cells, row.normalized)) ++
    chunk.map fun row => (row.cells, row.normalized)).Perm (records.map (recordRow deps job))
  answered : ∀ row ∈ p.rows, Answered deps job db flushed row
  malformedRows : p.stats.malformedRows =
    records.countP fun record => address deps job record = []
  duplicates : p.stats.duplicates = dups

/-- A run that an insert has ended, before or at the last of `records`. -/
structure Halted (deps : BatchProcessorDeps) (job : ClaimedBatch) (db : Database)
    (records : List Record) (p : Progress) : Prop where
  failed : p.failure.isSome = true
  tracks : ∃ emails, emails <+: addresses deps job records ∧
    Tracks deps (logOf deps job db emails) p
  answered : ∀ row ∈ p.rows, Answered deps job db (addresses deps job records) row
  inserted : ∃ emails, emails <+: addresses deps job records ∧
    Inserted deps job db (logOf deps job db emails) p.db
  misfit : FreshIds deps db (addresses deps job records).length →
    ∃ insert ∈ insertsOf deps job (logOf deps job db (addresses deps job records)),
      ¬ insert.check.Fits

theorem insertsOf_mono {emails more : List JsString} (before : emails <+: more) :
    insertsOf deps job (logOf deps job db emails) <+:
      insertsOf deps job (logOf deps job db more) := by
  obtain ⟨rest, rfl⟩ := before
  rw [logOf_append]
  exact (Theory.Memo.prefix_rememberAll _ _ rest).filterMap _

/-- A run that has ended stays as it is. -/
theorem Halted.concat {records : List Record} {p : Progress}
    (halted : Halted deps job db records p) (record : Record) :
    Halted deps job db (records ++ [record]) p := by
  have grows : addresses deps job records <+: addresses deps job (records ++ [record]) := by
    rw [addresses, addresses, List.map_append, List.filter_append]
    exact List.prefix_append _ _
  obtain ⟨resolved, before, tracks⟩ := halted.tracks
  obtain ⟨stored, before', inserted⟩ := halted.inserted
  refine ⟨halted.failed, ⟨resolved, before.trans grows, tracks⟩,
    fun row member => (halted.answered row member).extend grows (nil_not_mem_addresses _ _ _),
    ⟨stored, before'.trans grows, inserted⟩, ?_⟩
  intro ids
  obtain ⟨insert, member, misfit⟩ := halted.misfit (ids.mono grows.length_le)
  exact ⟨insert, (insertsOf_mono grows).subset member, misfit⟩

/-- **Handing a chunk on** leaves nothing held, or ends the run. -/
theorem Holds.flush {records : List Record} {flushed : List JsString} {dups : ℕ} {p : Progress}
    {chunk : List PendingRow} (holds : Holds deps job db records flushed dups p chunk)
    (free : CollisionFree deps (addresses deps job records)) :
    Holds deps job db records (addresses deps job records) dups (resolveChunk deps job p chunk) [] ∨
      Halted deps job db records (resolveChunk deps job p chunk) := by
  have within : ∀ email ∈ flushed, email ∈ addresses deps job records := fun email member =>
    holds.whole ▸ List.mem_append_left _ member
  have involved : ∀ row ∈ chunk, row.normalized ∈ addresses deps job records :=
    fun row member => holds.whole ▸ List.mem_append_right _ (List.mem_map_of_mem member)
  have cases_ := resolveChunk_cases free holds.tracks holds.inserted holds.drawn within involved
    holds.hashes
  rw [holds.whole] at cases_
  have handed : flushed <+: addresses deps job records := ⟨_, holds.whole⟩
  have answered : ∀ row ∈ p.rows, Answered deps job db (addresses deps job records) row :=
    fun row member => (holds.answered row member).extend handed (nil_not_mem_addresses _ _ _)
  rcases cases_ with ⟨q, eq, tracks, same, inserted, drawn⟩ |
    ⟨q, error, eq, tracks, same, inserted, misfit⟩
  · left
    have log := q.writeAll_sameLog
      (chunk.map (PendingRow.written deps (logOf deps job db (addresses deps job records))))
    rw [eq]
    refine ⟨?_, tracks.congr log, log.db ▸ inserted, log.drawn.trans drawn,
      List.forall_mem_nil _, by simp, (holds.counted.congr same).writeAll _, ?_, ?_, ?_, ?_⟩
    · rw [log.failure, same.failure, holds.running]
    · rw [Progress.writeAll_rows, same.rows, List.map_append, List.map_map, List.map_nil,
        List.append_nil]
      exact holds.rows
    · intro row member
      rw [Progress.writeAll_rows, same.rows] at member
      rcases List.mem_append.1 member with old | new
      · exact answered row old
      · obtain ⟨held, inside, rfl⟩ := List.mem_map.1 new
        exact ⟨rfl, .inr (involved held inside)⟩
    · rw [Progress.writeAll_malformedRows, same.malformedRows, holds.malformedRows]
    · rw [Progress.writeAll_duplicates, same.duplicates, holds.duplicates]
  · right
    rw [eq]
    refine ⟨rfl, ⟨_, List.prefix_rfl, ?_⟩, ?_, ⟨flushed, handed, inserted⟩, misfit⟩
    · exact ⟨tracks.seen, tracks.calls, tracks.cached, tracks.charged, tracks.engineErrors⟩
    · intro row member
      exact answered row (same.rows ▸ member)

/-- The state of the loop after `records`, while no insert has failed. -/
def Reading (deps : BatchProcessorDeps) (job : ClaimedBatch) (db : Database)
    (records : List Record) (s : Progress × List PendingRow) : Prop :=
  Holds deps job db records (flushed deps.chunkSize (addresses deps job records))
    (tally (repeatsFlushed deps.chunkSize) (addresses deps job records)) s.1 s.2

/-- What is held is the chunk. -/
theorem Reading.pending_eq {records : List Record} {s : Progress × List PendingRow}
    (reading : Reading deps job db records s) :
    s.2.map (·.normalized) = pending deps.chunkSize (addresses deps job records) := by
  refine List.append_cancel_left (reading.whole.trans ?_)
  exact (flushed_append_pending deps.chunkSize (addresses deps job records)).symm

/-- A malformed record is written at once. -/
theorem Reading.writeMalformed {records : List Record} {s : Progress × List PendingRow}
    (reading : Reading deps job db records s) {record : Record}
    (empty : address deps job record = []) :
    Reading deps job db (records ++ [record]) (s.1.writeMalformed record, s.2) := by
  have log : SameLog s.1 (s.1.writeMalformed record) := ⟨rfl, rfl, rfl, rfl, rfl, rfl, rfl, rfl⟩
  rw [Reading, addresses_concat_of_malformed empty]
  refine ⟨reading.running, reading.tracks.congr log, reading.inserted, reading.drawn,
    reading.hashes, ?_, ?_, ?_, ?_, ?_, reading.duplicates⟩
  · rw [addresses_concat_of_malformed empty]
    exact reading.whole
  · have counted := reading.counted.write ⟨record, [], malformed⟩
    exact ⟨counted.processed, counted.distribution⟩
  · have rows : (s.1.writeMalformed record).rows = s.1.rows ++ [⟨record, [], malformed⟩] := rfl
    have row : recordRow deps job record = (record, []) := by rw [recordRow, empty]
    rw [rows, List.map_append, List.map_append, List.map_singleton, List.map_singleton, row,
      List.append_assoc]
    apply (List.Perm.append_left _ List.perm_append_comm).trans
    rw [← List.append_assoc]
    exact reading.rows.append_right _
  · intro row member
    have rows : (s.1.writeMalformed record).rows = s.1.rows ++ [⟨record, [], malformed⟩] := rfl
    rw [rows] at member
    rcases List.mem_append.1 member with old | new
    · exact reading.answered row old
    · obtain rfl := List.mem_singleton.1 new
      refine ⟨(resultOf_nil fun inside => ?_).symm, .inl rfl⟩
      exact nil_not_mem_addresses deps job records (List.mem_of_mem_take inside)
  · rw [List.countP_append, List.countP_singleton, if_pos (by simpa using empty),
      ← reading.malformedRows]
    rfl

/-- Any other record is held, and counted when its address was handed on before. -/
theorem Reading.hold {records : List Record} {s : Progress × List PendingRow}
    (reading : Reading deps job db records s) {record : Record}
    (well : address deps job record ≠ []) :
    Holds deps job db (records ++ [record])
      (flushed deps.chunkSize (addresses deps job records))
      (tally (repeatsFlushed deps.chunkSize) (addresses deps job (records ++ [record])))
      (s.1.countDuplicate (address deps job record)) (s.2 ++ [pendingRow deps job record]) := by
  have seen : (s.1.seen (address deps job record)).isSome = true ↔
      address deps job record ∈ flushed deps.chunkSize (addresses deps job records) := by
    rw [Option.isSome_iff_ne_none, ne_eq, reading.tracks.unseen_iff, not_not, mem_keys_logOf]
  have log : SameLog s.1 (s.1.countDuplicate (address deps job record)) := by
    unfold Progress.countDuplicate
    split <;> exact ⟨rfl, rfl, rfl, rfl, rfl, rfl, rfl, rfl⟩
  have rows : (s.1.countDuplicate (address deps job record)).rows = s.1.rows := by
    unfold Progress.countDuplicate
    split <;> rfl
  refine ⟨log.failure.trans reading.running, reading.tracks.congr log, log.db ▸ reading.inserted,
    log.drawn.trans reading.drawn, ?_, ?_, ?_, ?_, ?_, ?_, ?_⟩
  · exact List.forall_mem_append.2 ⟨reading.hashes, List.forall_mem_singleton.2 rfl⟩
  · rw [List.map_append, ← List.append_assoc, reading.whole, addresses_concat well]
    rfl
  · constructor
    · rw [rows, ← reading.counted.processed, Progress.countDuplicate]
      split <;> rfl
    · rw [rows, ← reading.counted.distribution, Progress.countDuplicate]
      split <;> rfl
  · rw [rows, List.map_append, List.map_append, ← List.append_assoc]
    exact reading.rows.append_right _
  · rw [rows]
    exact reading.answered
  · rw [List.countP_append, List.countP_singleton, if_neg (by simpa using well), Nat.add_zero,
      ← reading.malformedRows, Progress.countDuplicate]
    split <;> rfl
  · rw [addresses_concat well, tally_concat, ← reading.duplicates, Progress.countDuplicate]
    by_cases repeats : address deps job record ∈
        flushed deps.chunkSize (addresses deps job records)
    · rw [if_pos (seen.2 repeats), if_pos (by simpa [repeatsFlushed] using repeats)]
    · rw [if_neg fun known => repeats (seen.1 known),
        if_neg (by simpa [repeatsFlushed] using repeats), Nat.add_zero]

/-- **A record** keeps the invariant, or ends the run. -/
theorem Reading.readRecord {records : List Record} {s : Progress × List PendingRow}
    (reading : Reading deps job db records s) (positive : 1 ≤ deps.chunkSize) {record : Record}
    (free : CollisionFree deps (addresses deps job (records ++ [record]))) :
    Reading deps job db (records ++ [record]) (readRecord deps job s record) ∨
      Halted deps job db (records ++ [record]) (readRecord deps job s record).1 := by
  have running : s.1.failure.isSome = false := by rw [reading.running]; rfl
  rw [Worker.readRecord, running]
  by_cases empty : address deps job record = []
  · rw [if_neg Bool.false_ne_true, if_pos empty]
    exact .inl (reading.writeMalformed empty)
  · rw [if_neg Bool.false_ne_true, if_neg empty]
    have holds := reading.hold empty
    have length : s.2.length = (pending deps.chunkSize (addresses deps job records)).length := by
      rw [← reading.pending_eq, List.length_map]
    simp only [List.length_append, List.length_singleton]
    by_cases full : deps.chunkSize ≤ s.2.length + 1
    · rw [if_pos full]
      rw [length] at full
      refine (holds.flush free).imp (fun done => ?_) id
      have all := (concat_of_le positive full (address deps job record)).1
      rw [← addresses_concat empty] at all
      rwa [Reading, all]
    · rw [if_neg full]
      rw [length] at full
      have same := (concat_of_lt (Nat.lt_of_not_le full) (address deps job record)).1
      rw [← addresses_concat empty] at same
      refine .inl ?_
      rwa [Reading, same]

theorem Reading.start : Reading deps job db [] (Progress.start job db, []) := by
  have none_ : flushed deps.chunkSize (addresses deps job []) = [] := flushed_nil _
  rw [Reading, none_]
  refine ⟨rfl, ⟨fun _ => rfl, rfl, rfl, rfl, rfl⟩, ⟨[], .nil, ?_⟩, rfl, List.forall_mem_nil _, rfl,
    ⟨rfl, rfl⟩, List.Perm.refl _, List.forall_mem_nil _, rfl, rfl⟩
  simp [Progress.start]

/-- **The loop** keeps the invariant over any records, unless an insert ends it. -/
theorem reading_of_foldl (db : Database) (positive : 1 ≤ deps.chunkSize) {records : List Record}
    (free : CollisionFree deps (addresses deps job records)) :
    Reading deps job db records
        (records.foldl (Worker.readRecord deps job) (Progress.start job db, [])) ∨
      Halted deps job db records
        (records.foldl (Worker.readRecord deps job) (Progress.start job db, [])).1 := by
  induction records using List.reverseRecOn with
  | nil => exact .inl Reading.start
  | append_singleton records record ih =>
      rw [List.foldl_append, List.foldl_cons, List.foldl_nil]
      rcases ih free.of_concat with reading | halted
      · exact reading.readRecord positive free
      · right
        rw [Worker.readRecord, if_pos halted.failed]
        exact halted.concat record

/-- A finished run: every address was handed on, nothing is held. -/
def Finished (deps : BatchProcessorDeps) (job : ClaimedBatch) (db : Database)
    (records : List Record) (p : Progress) : Prop :=
  Holds deps job db records (addresses deps job records)
    (tally (repeatsFlushed deps.chunkSize) (addresses deps job records)) p []

/-- **A run over a file** finishes, or is halted by an insert. -/
theorem processRecords_cases (db : Database) (positive : 1 ≤ deps.chunkSize) {records : List Record}
    (free : CollisionFree deps (addresses deps job (dataRows job.layout records))) :
    Finished deps job db (dataRows job.layout records) (processRecords deps job db records) ∨
      Halted deps job db (dataRows job.layout records) (processRecords deps job db records) := by
  have loop := reading_of_foldl db positive free
  rw [processRecords]
  rw [← readRecords] at loop
  rcases loop with reading | halted
  · have running : (readRecords deps job db records).1.failure.isSome = false := by
      rw [reading.running]; rfl
    rw [running, if_neg Bool.false_ne_true]
    by_cases empty : (readRecords deps job db records).2 = []
    · rw [if_pos empty]
      have whole := reading.whole
      rw [empty, List.map_nil, List.append_nil] at whole
      left
      have holds := reading
      rw [Reading, empty, whole] at holds
      exact holds
    · rw [if_neg empty]
      exact reading.flush free
  · rw [if_pos halted.failed]
    exact .inr halted

end Tozalist.Worker
