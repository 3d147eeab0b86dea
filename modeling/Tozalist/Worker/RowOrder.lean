/-
# Tozalist.Worker.RowOrder -- the order of the result lines

Two writers share the result file: the loop writes a malformed row when it reads it, and a
chunk writes its rows when it is full.  So a malformed row overtakes the rows that are held
when it is read, and no other row is out of place.

* `InOrder` -- the written rows are, one by one, those of the records;
* `in_order_iff` -- they are exactly when every malformed row is read at the end of a chunk,
  and then the file has the lines of the records in their order.
-/
import Tozalist.Worker.Deduplication
import Tozalist.Worker.ResultFile

namespace Tozalist.Worker

set_option autoImplicit false

open Db
open Theory.Chunked

variable {deps : BatchProcessorDeps} {job : ClaimedBatch} {db : Database}

/-- The data lines are written from the records of the file, in their order. -/
def InOrder (job : ClaimedBatch) (records : List Record) (p : Progress) : Prop :=
  p.rows.map (·.cells) = dataRows job.layout records

/-- Every malformed record is read when no row is held: a multiple of the chunk size of
well-formed records stands before it. -/
def MalformedAtChunkEnds (deps : BatchProcessorDeps) (job : ClaimedBatch)
    (records : List Record) : Prop :=
  ∀ read record rest, records = read ++ record :: rest → address deps job record = [] →
    (addresses deps job read).length % deps.chunkSize = 0

theorem malformedAtChunkEnds_concat {records : List Record} {record : Record} :
    MalformedAtChunkEnds deps job (records ++ [record]) ↔
      MalformedAtChunkEnds deps job records ∧
        (address deps job record = [] →
          (addresses deps job records).length % deps.chunkSize = 0) :=
  everywhere_concat

/-! ## What a record adds -/

/-- The rows written, then those held. -/
def cellsOf (s : Progress × List PendingRow) : List Record :=
  s.1.rows.map (·.cells) ++ s.2.map (·.cells)

/-- A row that is held, or written, has the address of its cells. -/
theorem Holds.normalized_eq {records : List Record} {flushed : List JsString} {dups : ℕ}
    {p : Progress} {chunk : List PendingRow}
    (holds : Holds deps job db records flushed dups p chunk) :
    (∀ row ∈ p.rows, row.normalized = address deps job row.cells) ∧
      ∀ row ∈ chunk, row.normalized = address deps job row.cells := by
  have listed {pair : Record × JsString}
      (member : pair ∈ p.rows.map (fun row => (row.cells, row.normalized)) ++
        chunk.map fun row => (row.cells, row.normalized)) :
      pair.2 = address deps job pair.1 := by
    obtain ⟨record, -, rfl⟩ := List.mem_map.1 (holds.rows.subset member)
    rfl
  constructor
  · intro row member
    exact listed (List.mem_append_left _ (List.mem_map_of_mem member))
  · intro row member
    exact listed (List.mem_append_right _ (List.mem_map_of_mem member))

/-- A chunk that is handed on writes its rows, in order. -/
theorem Holds.flush_rows {records : List Record} {flushed : List JsString} {dups : ℕ}
    {p : Progress} {chunk : List PendingRow}
    (holds : Holds deps job db records flushed dups p chunk)
    (free : CollisionFree deps (addresses deps job records))
    (running : (resolveChunk deps job p chunk).failure = none) :
    p.rows <+: (resolveChunk deps job p chunk).rows ∧
      (resolveChunk deps job p chunk).rows.map (·.cells) = cellsOf (p, chunk) := by
  have involved : ∀ row ∈ chunk, row.normalized ∈ addresses deps job records :=
    fun row member => holds.whole ▸ List.mem_append_right _ (List.mem_map_of_mem member)
  rcases resolveChunk_cases free holds.tracks holds.inserted holds.drawn
      (fun email member => holds.whole ▸ List.mem_append_left _ member) involved holds.hashes with
    ⟨q, eq, -, same, -, -⟩ | ⟨q, error, eq, -, -, -, -⟩
  · rw [eq, Progress.writeAll_rows, same.rows]
    refine ⟨List.prefix_append _ _, ?_⟩
    rw [List.map_append, List.map_map, cellsOf]
    rfl
  · rw [eq] at running
    cases running

/-- A malformed record is written behind the rows, in front of the held ones; any other
joins the held ones. -/
theorem Reading.readRecord_cells {records : List Record} {s : Progress × List PendingRow}
    (reading : Reading deps job db records s) {record : Record}
    (free : CollisionFree deps (addresses deps job (records ++ [record])))
    (running : (Worker.readRecord deps job s record).1.failure = none) :
    s.1.rows <+: (Worker.readRecord deps job s record).1.rows ∧
      ((address deps job record = [] ∧ (Worker.readRecord deps job s record).1.rows.map (·.cells) =
            s.1.rows.map (·.cells) ++ [record] ∧ (Worker.readRecord deps job s record).2 = s.2) ∨
        (address deps job record ≠ [] ∧
          cellsOf (Worker.readRecord deps job s record) = cellsOf s ++ [record])) := by
  have before : s.1.failure.isSome = false := by rw [reading.running]; rfl
  have counted : (s.1.countDuplicate (address deps job record)).rows = s.1.rows := by
    rw [Progress.countDuplicate]
    split <;> rfl
  have held : cellsOf (s.1.countDuplicate (address deps job record),
      s.2 ++ [pendingRow deps job record]) = cellsOf s ++ [record] := by
    rw [cellsOf, cellsOf, counted, List.map_append, ← List.append_assoc]
    rfl
  rw [Worker.readRecord, before, if_neg Bool.false_ne_true] at running ⊢
  by_cases malformed : address deps job record = []
  · rw [if_pos malformed]
    have rows : (s.1.writeMalformed record).rows =
        s.1.rows ++ [⟨record, [], Worker.malformed⟩] := rfl
    rw [rows]
    refine ⟨List.prefix_append _ _, .inl ⟨malformed, ?_, rfl⟩⟩
    rw [List.map_append, List.map_singleton]
  · rw [if_neg malformed] at running ⊢
    simp only at running ⊢
    split at running
    · rename_i full
      rw [if_pos full]
      obtain ⟨grows, cells⟩ := (reading.hold malformed).flush_rows free running
      rw [counted] at grows
      refine ⟨grows, .inr ⟨malformed, ?_⟩⟩
      rw [cellsOf, List.map_nil, List.append_nil, cells, held]
    · rename_i room
      rw [if_neg room]
      refine ⟨?_, .inr ⟨malformed, held⟩⟩
      rw [counted]

/-! ## The order of a whole run -/

/-- At some place, a malformed row stands for a record that is not. -/
def Diverged (deps : BatchProcessorDeps) (job : ClaimedBatch) (rows records : List Record) : Prop :=
  ∃ (i : ℕ) (a b : Record), rows[i]? = some a ∧ records[i]? = some b ∧
    address deps job a = [] ∧ address deps job b ≠ []

/-- No function of records that tells the malformed ones maps both lists to one. -/
theorem Diverged.map_ne {β : Type} {rows records : List Record}
    (diverged : Diverged deps job rows records) {view : Record → β}
    (tells : ∀ a b, view a = view b → address deps job a = [] → address deps job b = []) :
    rows.map view ≠ records.map view := by
  obtain ⟨i, a, b, here, there, malformed, well⟩ := diverged
  intro same
  have at_ := congrArg (fun views => views[i]?) same
  simp only [List.getElem?_map, here, there, Option.map_some, Option.some.injEq] at at_
  exact well (tells a b at_ malformed)

/-- Nothing that is written later brings them together. -/
theorem Diverged.append {rows records : List Record} (diverged : Diverged deps job rows records)
    {rows' : List Record} (grows : rows <+: rows') (more : List Record) :
    Diverged deps job rows' (records ++ more) := by
  obtain ⟨i, a, b, here, there, differ⟩ := diverged
  obtain ⟨written, rfl⟩ := grows
  refine ⟨i, a, b, ?_, ?_, differ⟩
  · rw [List.getElem?_append_left (List.getElem?_eq_some_iff.1 here).1, here]
  · rw [List.getElem?_append_left (List.getElem?_eq_some_iff.1 there).1, there]

/-- A malformed row that is written in front of held ones is out of place. -/
theorem Reading.diverged {records : List Record} {s : Progress × List PendingRow}
    (reading : Reading deps job db records s) (ordered : cellsOf s = records) {record : Record}
    (malformed : address deps job record = []) (holding : s.2 ≠ []) :
    Diverged deps job (s.1.rows.map (·.cells) ++ [record]) (records ++ [record]) := by
  obtain ⟨row, rest, chunk⟩ := List.exists_cons_of_ne_nil holding
  have held : row ∈ s.2 := chunk ▸ List.mem_cons_self
  have well : address deps job row.cells ≠ [] := by
    rw [← reading.normalized_eq.2 row held]
    intro empty
    apply nil_not_mem_addresses deps job records
    rw [← reading.whole, ← empty]
    exact List.mem_append_right _ (List.mem_map_of_mem held)
  have there : records = s.1.rows.map (·.cells) ++ row.cells :: rest.map (·.cells) := by
    rw [← ordered, cellsOf, chunk, List.map_cons]
  refine ⟨(s.1.rows.map (·.cells)).length, record, row.cells, ?_, ?_, malformed, well⟩
  · rw [List.getElem?_append_right le_rfl, Nat.sub_self]
    rfl
  · rw [there, List.append_assoc, List.getElem?_append_right le_rfl, Nat.sub_self]
    rfl

/-- **The loop** keeps the order exactly while malformed records stand at chunk ends. -/
theorem order_of_foldl (positive : 1 ≤ deps.chunkSize) {records : List Record}
    (free : CollisionFree deps (addresses deps job records))
    (running : (records.foldl (readRecord deps job) (Progress.start job db, [])).1.failure =
      none) :
    (MalformedAtChunkEnds deps job records ∧
        cellsOf (records.foldl (readRecord deps job) (Progress.start job db, [])) = records) ∨
      (¬ MalformedAtChunkEnds deps job records ∧
        Diverged deps job ((records.foldl (readRecord deps job)
          (Progress.start job db, [])).1.rows.map (·.cells)) records) := by
  induction records using List.reverseRecOn with
  | nil => exact .inl ⟨everywhere_nil _, rfl⟩
  | append_singleton records record ih =>
      rw [List.foldl_append, List.foldl_cons, List.foldl_nil] at running ⊢
      rcases reading_of_foldl db positive free.of_concat with reading | halted
      · obtain ⟨grows, cells⟩ := reading.readRecord_cells free running
        have ends : (records.foldl (readRecord deps job) (Progress.start job db, [])).2 = [] ↔
            (addresses deps job records).length % deps.chunkSize = 0 := by
          rw [← length_pending, ← reading.pending_eq, List.length_map, List.length_eq_zero_iff]
        rw [malformedAtChunkEnds_concat]
        rcases ih free.of_concat reading.running with ⟨all, ordered⟩ | ⟨some_, diverged⟩
        · rcases cells with ⟨malformed, rows, chunk⟩ | ⟨well, cells⟩
          · by_cases empty : (addresses deps job records).length % deps.chunkSize = 0
            · refine .inl ⟨⟨all, fun _ => empty⟩, ?_⟩
              rw [← ends] at empty
              rw [cellsOf, empty, List.map_nil, List.append_nil] at ordered
              rw [cellsOf, rows, chunk, empty, List.map_nil, List.append_nil, ordered]
            · refine .inr ⟨fun both => empty (both.2 malformed), ?_⟩
              rw [rows]
              exact reading.diverged ordered malformed fun none_ => empty (ends.1 none_)
          · refine .inl ⟨⟨all, fun malformed => absurd malformed well⟩, ?_⟩
            rw [cells, ordered]
        · exact .inr ⟨fun both => some_ both.1, diverged.append (grows.map _) [record]⟩
      · rw [readRecord, if_pos halted.failed] at running
        have failed := halted.failed
        rw [running] at failed
        cases failed

/-- A run that does not fail has not failed in the loop. -/
theorem readRecords_running {records : List Record}
    (completes : (processRecords deps job db records).failure = none) :
    (readRecords deps job db records).1.failure = none := by
  by_contra failed
  have halted := Option.isSome_iff_ne_none.2 failed
  rw [processRecords, if_pos halted] at completes
  exact failed completes

/-- **The order of a run** that completes. -/
theorem in_order_or_diverged (positive : 1 ≤ deps.chunkSize) {records : List Record}
    (free : CollisionFree deps (addresses deps job (dataRows job.layout records)))
    (completes : (processRecords deps job db records).failure = none) :
    (MalformedAtChunkEnds deps job (dataRows job.layout records) ∧
        InOrder job records (processRecords deps job db records)) ∨
      (¬ MalformedAtChunkEnds deps job (dataRows job.layout records) ∧
        Diverged deps job ((processRecords deps job db records).rows.map (·.cells))
          (dataRows job.layout records)) := by
  have running := readRecords_running completes
  have order := order_of_foldl positive free running
  rw [← readRecords] at order
  have reading : Reading deps job db (dataRows job.layout records)
      (readRecords deps job db records) := by
    apply (reading_of_foldl db positive free).resolve_right
    intro halted
    have failed := halted.failed
    rw [← readRecords, running] at failed
    cases failed
  -- the last chunk, if there is one, writes what is held
  have last :
      (readRecords deps job db records).1.rows <+: (processRecords deps job db records).rows ∧
      (processRecords deps job db records).rows.map (·.cells) =
        cellsOf (readRecords deps job db records) := by
    have unfolded : processRecords deps job db records =
        if (readRecords deps job db records).2 = [] then (readRecords deps job db records).1
        else resolveChunk deps job (readRecords deps job db records).1
          (readRecords deps job db records).2 := by
      rw [processRecords, running]
      rfl
    rw [unfolded] at completes ⊢
    split
    · rename_i empty
      refine ⟨List.prefix_rfl, ?_⟩
      rw [cellsOf, empty, List.map_nil, List.append_nil]
    · rename_i some_
      rw [if_neg some_] at completes
      exact reading.flush_rows free completes
  refine order.imp (And.imp_right last.2.trans) (And.imp_right fun diverged => ?_)
  have grown := diverged.append (last.1.map _) []
  rwa [List.append_nil] at grown

/-! ## The lines -/

/-- The line of a record, with the result of its address. -/
def lineOf (deps : BatchProcessorDeps) (job : ClaimedBatch) (db : Database)
    (records : List Record) (record : Record) : List JsString :=
  (writtenOf deps job db (dataRows job.layout records) record).line

/-- The written rows of a finished run are those of their cells. -/
theorem Finished.rows_eq {records : List Record} {p : Progress}
    (finished : Finished deps job db records p) :
    p.rows = (p.rows.map (·.cells)).map (writtenOf deps job db records) := by
  rw [List.map_map]
  refine (List.map_id p.rows).symm.trans (List.map_congr_left fun row member => ?_)
  have normalized := finished.normalized_eq.1 row member
  have result := (finished.answered row member).result
  obtain ⟨cells, address_, result_⟩ := row
  simp only at normalized result
  rw [result, normalized]
  rfl

/-- Two records of one line are both malformed, or both not. -/
theorem address_eq_nil_of_line_eq {records : List Record} {a b : Record}
    (same : toCsvLine (lineOf deps job db records a) = toCsvLine (lineOf deps job db records b))
    (empty : address deps job a = []) : address deps job b = [] := by
  have some_ (record : Record) : lineOf deps job db records record ≠ [] := by
    rw [lineOf, WrittenRow.line]
    exact List.append_ne_nil_of_right_ne_nil _ (List.cons_ne_nil _ _)
  have parsed (record : Record) :
      rfc4180.parse (toCsvLine (lineOf deps job db records record)) =
        some [(lineOf deps job db records record).map neutralizeFormula] := by
    have one := parse_toCsvLines (List.forall_mem_singleton.2 (some_ record))
    rwa [List.flatMap_singleton, List.map_singleton] at one
  have cells : (lineOf deps job db records a).map neutralizeFormula =
      (lineOf deps job db records b).map neutralizeFormula := by
    have lines := (parsed a).symm.trans (same ▸ parsed b)
    exact List.head_eq_of_cons_eq (Option.some.inj lines)
  have lengths : a.length = b.length := by
    have lengths := congrArg List.length cells
    simpa [lineOf, WrittenRow.line, writtenOf] using lengths
  have column := congrArg (fun cells => cells[b.length]?) cells
  simp only [lineOf, WrittenRow.line, writtenOf, List.map_append, List.map_cons] at column
  rw [List.getElem?_append_right (by simp [lengths]),
    List.getElem?_append_right (by simp)] at column
  simp only [List.length_map, lengths, Nat.sub_self, List.getElem?_cons_zero, Option.some.injEq,
    empty] at column
  exact neutralizeFormula_eq_nil.1 (column.symm.trans rfl)

/-! ## When the order is kept -/

/-- **The result file** keeps the order of its input exactly when every malformed record is
read at the end of a chunk, and exactly then its data lines are those of the records, one by
one. -/
theorem in_order_iff (deps : BatchProcessorDeps) (job : ClaimedBatch) (db : Database)
    (records : List Record) (positive : 1 ≤ deps.chunkSize)
    (free : CollisionFree deps (addresses deps job (dataRows job.layout records)))
    (completes : (processRecords deps job db records).failure = none) :
    (InOrder job records (processRecords deps job db records) ↔
      MalformedAtChunkEnds deps job (dataRows job.layout records)) ∧
    (resultLines job records (processRecords deps job db records) =
        (headerLine job.layout records).map toCsvLine ++
          (dataRows job.layout records).map (toCsvLine <| lineOf deps job db records ·) ↔
      MalformedAtChunkEnds deps job (dataRows job.layout records)) := by
  have finished := finished_of_failure_eq_none positive free completes
  have lines : resultLines job records (processRecords deps job db records) =
      (headerLine job.layout records).map toCsvLine ++
        ((processRecords deps job db records).rows.map (·.cells)).map
          (toCsvLine <| lineOf deps job db records ·) := by
    rw [resultLines, List.map_append, finished.rows_eq, List.map_map, List.map_map]
    simp only [List.map_map]
    rfl
  rw [lines, List.append_cancel_left_eq]
  rcases in_order_or_diverged positive free completes with ⟨ends, ordered⟩ | ⟨ends, diverged⟩
  · rw [iff_true_right ends, iff_true_right ends]
    exact ⟨ordered, congrArg _ ordered⟩
  · rw [iff_false_right ends, iff_false_right ends]
    refine ⟨?_, diverged.map_ne fun a b same => address_eq_nil_of_line_eq same⟩
    intro ordered
    have tells (a b : Record) (same : id a = id b) (malformed : address deps job a = []) :
        address deps job b = [] := (show a = b from same) ▸ malformed
    exact diverged.map_ne tells (congrArg (List.map id) ordered)

/-- A malformed row in a chunk of two is written in front of the row before it. -/
theorem malformed_row_overtakes :
    (processRecords sampleDeps sampleJob sampleDb
        ([["email"], ["bob@gmail.com"], [""]].map fun cells => cells.map Js.ofString)).failure =
      none ∧
    resultLines sampleJob
        ([["email"], ["bob@gmail.com"], [""]].map fun cells => cells.map Js.ofString)
        (processRecords sampleDeps sampleJob sampleDb
          ([["email"], ["bob@gmail.com"], [""]].map fun cells => cells.map Js.ofString)) =
      ["email,normalized_email,verdict,score,reason_codes,suggestion\n",
        ",,invalid,0,SYNTAX_INVALID,\n",
        "bob@gmail.com,bob@gmail.com,unknown,50,MX_LOOKUP_UNAVAILABLE,\n"].map Js.ofString ∧
    ¬ InOrder sampleJob
        ([["email"], ["bob@gmail.com"], [""]].map fun cells => cells.map Js.ofString)
        (processRecords sampleDeps sampleJob sampleDb
          ([["email"], ["bob@gmail.com"], [""]].map fun cells => cells.map Js.ofString)) :=
  ⟨by decide +kernel, by decide +kernel, by unfold InOrder; decide +kernel⟩

theorem in_order_iff_sample :
    InOrder sampleJob sampleRecords (processRecords sampleDeps sampleJob sampleDb sampleRecords) ↔
      MalformedAtChunkEnds sampleDeps sampleJob (dataRows ⟨0, true⟩ sampleRecords) :=
  (in_order_iff sampleDeps sampleJob sampleDb sampleRecords (by decide) (by decide +kernel)
    (by decide +kernel)).1

end Tozalist.Worker
