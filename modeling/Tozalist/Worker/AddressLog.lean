/-
# Tozalist.Worker.AddressLog -- what a run has resolved, one address at a time

A run resolves its addresses one after another, each where it first occurs: `resolve` says
how, from the cache of the database before the run and from the engine, and
`Theory.Memo.answers` of it is the log of the run.  The log is all a run knows about
addresses: `Tracks` reads the map, the calls and the counters off it, and `Inserted` the
rows the run has added to the database.

The chunks of the processor are portions of that run.  `resolveUnique_tracks` says that
resolving a chunk continues the log by the addresses of the chunk, whatever the chunks
before were: a lookup made after inserts of the run finds what it found before, because
the inserts are of other addresses.
-/
import Tozalist.Theory.Memo
import Tozalist.Worker.BatchProcessor

namespace Tozalist.Worker

set_option autoImplicit false

open Core (EngineResponse)
open Db
open Theory (Memo.keys Memo.rememberAll Memo.answers Memo.newKeys)

/-! ## The log -/

/-- The addresses resolved, oldest first. -/
abbrev AddressLog : Type := List (JsString × Outcome)

/-- The call of the engine that an outcome took. -/
def Outcome.call? (email : JsString) : Outcome → Option EngineCall
  | .cached _ => none
  | .unassessed => some ⟨email, none⟩
  | .checked response => some ⟨email, some response⟩

/-- The insert that an outcome brings. -/
def Outcome.insert? (deps : BatchProcessorDeps) (job : ClaimedBatch) (email : JsString) :
    Outcome → Option BatchEmailCheck
  | .cached _ => none
  | .unassessed => none
  | .checked response => some (freshInsert deps job email (deps.sha256Hex email) response)

def Outcome.isCached : Outcome → Bool
  | .cached _ => true
  | _ => false

def Outcome.isUnassessed : Outcome → Bool
  | .unassessed => true
  | _ => false

def Outcome.isChecked : Outcome → Bool
  | .checked _ => true
  | _ => false

/-- The engine calls of a log. -/
def callsOf (log : AddressLog) : List EngineCall := log.filterMap fun entry => entry.2.call? entry.1

/-- The inserts of a log. -/
def insertsOf (deps : BatchProcessorDeps) (job : ClaimedBatch) (log : AddressLog) :
    List BatchEmailCheck :=
  log.filterMap fun entry => entry.2.insert? deps job entry.1

/-- How an address is resolved, after the addresses of a log. -/
def resolve (deps : BatchProcessorDeps) (job : ClaimedBatch) (db : Database) (log : AddressLog)
    (email : JsString) : Outcome :=
  match db.findRecentEmailCheck job.batch.orgId (deps.sha256Hex email) job.now with
  | some check => .cached check
  | none =>
      match deps.engine (callsOf log) email with
      | none => .unassessed
      | some response => .checked response

variable {deps : BatchProcessorDeps} {job : ClaimedBatch} {db : Database} {log : AddressLog}

theorem callsOf_concat (log : AddressLog) (email : JsString) (outcome : Outcome) :
    callsOf (log ++ [(email, outcome)]) = callsOf log ++ (outcome.call? email).toList := by
  rw [callsOf, List.filterMap_append, callsOf]
  cases outcome <;> rfl

theorem insertsOf_concat (log : AddressLog) (email : JsString) (outcome : Outcome) :
    insertsOf deps job (log ++ [(email, outcome)]) =
      insertsOf deps job log ++ (outcome.insert? deps job email).toList := by
  rw [insertsOf, List.filterMap_append, insertsOf]
  cases outcome <;> rfl

/-- The called addresses are among the resolved ones, in their order. -/
theorem callsOf_sublist (log : AddressLog) :
    ((callsOf log).map (·.email)).Sublist (Memo.keys log) := by
  induction log with
  | nil => exact List.Sublist.slnil
  | cons entry log ih =>
      obtain ⟨email, outcome⟩ := entry
      cases outcome with
      | cached check => exact ih.cons email
      | unassessed => exact ih.cons_cons email
      | checked response => exact ih.cons_cons email

/-- So are the inserted ones. -/
theorem insertsOf_sublist (deps : BatchProcessorDeps) (job : ClaimedBatch) (log : AddressLog) :
    ((insertsOf deps job log).map (·.check.emailNormalized)).Sublist (Memo.keys log) := by
  induction log with
  | nil => exact List.Sublist.slnil
  | cons entry log ih =>
      obtain ⟨email, outcome⟩ := entry
      cases outcome with
      | cached check => exact ih.cons email
      | unassessed => exact ih.cons email
      | checked response => exact ih.cons_cons email

/-- An insert of a log has the hash of its address. -/
theorem emailHash_of_mem_insertsOf {insert : BatchEmailCheck}
    (member : insert ∈ insertsOf deps job log) :
    insert.check.emailHash = deps.sha256Hex insert.check.emailNormalized := by
  obtain ⟨entry, -, has⟩ := List.mem_filterMap.1 member
  obtain ⟨email, outcome⟩ := entry
  cases outcome with
  | cached check => cases has
  | unassessed => cases has
  | checked response =>
      obtain rfl := Option.some.inj has
      rfl

/-- Every entry was cached, or failed, or was checked. -/
theorem length_eq_countP (log : AddressLog) :
    log.length = log.countP (·.2.isCached) + log.countP (·.2.isChecked) +
      log.countP (·.2.isUnassessed) := by
  induction log with
  | nil => rfl
  | cons entry log ih =>
      obtain ⟨email, outcome⟩ := entry
      cases outcome <;>
        simp only [List.length_cons, List.countP_cons, ih, Outcome.isCached, Outcome.isChecked,
          Outcome.isUnassessed, if_true, Bool.false_eq_true, if_false] <;>
        omega

/-! ## The state that goes with a log -/

/-- The map, the calls and the counters of a state are those of the log. -/
structure Tracks (deps : BatchProcessorDeps) (log : AddressLog) (p : Progress) : Prop where
  seen : ∀ email, p.seen email =
    (Theory.Memo.lookup log email).map fun outcome => encodeResult (outcome.result deps.toLowerCase)
  calls : p.calls = callsOf log
  cached : p.stats.cached = log.countP (·.2.isCached)
  charged : p.stats.charged = log.countP (·.2.isChecked)
  engineErrors : p.stats.engineErrors = log.countP (·.2.isUnassessed)

theorem Tracks.unseen_iff {p : Progress} (tracks : Tracks deps log p) (email : JsString) :
    p.seen email = none ↔ email ∉ Memo.keys log := by
  rw [tracks.seen, Option.map_eq_none_iff, Theory.Memo.not_mem_keys_iff]

/-- The rows the run has added to the database are those of the log, with the ids drawn for
them. -/
def Inserted (deps : BatchProcessorDeps) (job : ClaimedBatch) (db : Database) (log : AddressLog)
    (db' : Database) : Prop :=
  ∃ added, List.Forall₂ (BatchEmailCheck.Written job.now.timestamp)
      (withIds deps 0 (insertsOf deps job log)) added ∧
    db' = { db with emailChecks := db.emailChecks ++ added }

/-- What resolving addresses leaves alone. -/
structure SameOutput (p p' : Progress) : Prop where
  rows : p'.rows = p.rows
  processed : p'.processed = p.processed
  failure : p'.failure = p.failure
  malformedRows : p'.stats.malformedRows = p.stats.malformedRows
  duplicates : p'.stats.duplicates = p.stats.duplicates
  distribution : p'.stats.distribution = p.stats.distribution

theorem SameOutput.refl (p : Progress) : SameOutput p p := ⟨rfl, rfl, rfl, rfl, rfl, rfl⟩

theorem SameOutput.trans {p q r : Progress} (first : SameOutput p q) (second : SameOutput q r) :
    SameOutput p r :=
  ⟨second.rows.trans first.rows, second.processed.trans first.processed,
    second.failure.trans first.failure, second.malformedRows.trans first.malformedRows,
    second.duplicates.trans first.duplicates, second.distribution.trans first.distribution⟩

/-! ## One address -/

/-- The counter of an outcome. -/
def Outcome.count (stats : BatchStats) : Outcome → BatchStats
  | .cached _ => { stats with cached := stats.cached + 1 }
  | .unassessed => { stats with engineErrors := stats.engineErrors + 1 }
  | .checked _ => { stats with charged := stats.charged + 1 }

/-- What an outcome does to the state. -/
def Progress.resolved (deps : BatchProcessorDeps) (p : Progress) (email : JsString)
    (outcome : Outcome) : Progress :=
  { p.store email (outcome.result deps.toLowerCase) with
    calls := p.calls ++ (outcome.call? email).toList
    stats := outcome.count p.stats }

/-- A step of the loop over a chunk resolves its address. -/
theorem resolveRow_eq {cachedRows : String → Option EmailCheck} {r : Resolution}
    {row : PendingRow} (calls : r.progress.calls = callsOf log)
    (hash : row.hash = deps.sha256Hex row.normalized)
    (cache : cachedRows row.hash =
      db.findRecentEmailCheck job.batch.orgId (deps.sha256Hex row.normalized) job.now) :
    resolveRow deps job cachedRows r row =
      { progress := r.progress.resolved deps row.normalized (resolve deps job db log row.normalized)
        freshInserts := r.freshInserts ++
          ((resolve deps job db log row.normalized).insert? deps job row.normalized).toList } := by
  rw [resolveRow, cache, resolve]
  cases db.findRecentEmailCheck job.batch.orgId (deps.sha256Hex row.normalized) job.now with
  | some check =>
      simp only [Progress.resolved, Outcome.result, Outcome.call?, Outcome.insert?, Outcome.count,
        Option.toList_none, List.append_nil]
      rfl
  | none =>
      rw [← calls]
      cases answer : deps.engine r.progress.calls row.normalized with
      | none =>
          simp only [Progress.resolved, Outcome.result, Outcome.call?, Outcome.insert?,
            Outcome.count, Option.toList_none, Option.toList_some, List.append_nil]
      | some response =>
          simp only [hash, Progress.resolved, Outcome.result, Outcome.call?,
            Outcome.insert?, Outcome.count, Option.toList_some]

/-- **Resolving a new address** adds its entry to the log. -/
theorem Tracks.resolved {p : Progress} (tracks : Tracks deps log p) {email : JsString}
    (fresh : email ∉ Memo.keys log) (outcome : Outcome) :
    Tracks deps (log ++ [(email, outcome)]) (p.resolved deps email outcome) := by
  refine ⟨fun other => ?_, ?_, ?_, ?_, ?_⟩
  · by_cases same : other = email
    · subst same
      rw [Theory.Memo.lookup_concat_self fresh]
      exact Function.update_self _ _ _
    · rw [Theory.Memo.lookup_concat_ne same, ← tracks.seen]
      exact Function.update_of_ne same _ _
  · rw [callsOf_concat, ← tracks.calls]
    rfl
  all_goals
    rw [List.countP_append, List.countP_singleton]
    cases outcome <;>
      simp [Progress.resolved, Outcome.count, Outcome.isCached, Outcome.isChecked,
        Outcome.isUnassessed, tracks.cached, tracks.charged, tracks.engineErrors]

theorem Progress.resolved_sameOutput (p : Progress) (email : JsString) (outcome : Outcome) :
    SameOutput p (p.resolved deps email outcome) := by
  cases outcome <;> exact ⟨rfl, rfl, rfl, rfl, rfl, rfl⟩

/-! ## The addresses of a chunk -/

/-- No two addresses have one hash. -/
def CollisionFree (deps : BatchProcessorDeps) (emails : List JsString) : Prop :=
  ∀ a ∈ emails, ∀ b ∈ emails, deps.sha256Hex a = deps.sha256Hex b → a = b

/-- The chunk loop, between the log it started from and the log it has reached. -/
structure Resolving (deps : BatchProcessorDeps) (job : ClaimedBatch) (before log : AddressLog)
    (p : Progress) (r : Resolution) : Prop where
  tracks : Tracks deps log r.progress
  inserts : insertsOf deps job log = insertsOf deps job before ++ r.freshInserts
  same : SameOutput p r.progress
  drawn : r.progress.drawn = p.drawn
  db : r.progress.db = p.db

/-- **The chunk loop** over rows of new, distinct addresses. -/
theorem resolveRow_foldl {cachedRows : String → Option EmailCheck} {before : AddressLog}
    {p : Progress} {rows : List PendingRow}
    (hashes : ∀ row ∈ rows, row.hash = deps.sha256Hex row.normalized)
    (cache : ∀ row ∈ rows, cachedRows row.hash =
      db.findRecentEmailCheck job.batch.orgId (deps.sha256Hex row.normalized) job.now)
    {r : Resolution} (resolving : Resolving deps job before log p r)
    (distinct : (rows.map (·.normalized)).Nodup)
    (fresh : ∀ row ∈ rows, row.normalized ∉ Memo.keys log) :
    Resolving deps job before
      (Memo.rememberAll (resolve deps job db) log (rows.map (·.normalized))) p
      (rows.foldl (resolveRow deps job cachedRows) r) := by
  induction rows generalizing log r with
  | nil => exact resolving
  | cons row rows ih =>
      obtain ⟨hash, hashes⟩ := List.forall_mem_cons.1 hashes
      obtain ⟨cacheHere, cache⟩ := List.forall_mem_cons.1 cache
      obtain ⟨freshHere, fresh⟩ := List.forall_mem_cons.1 fresh
      obtain ⟨new, distinct⟩ := List.nodup_cons.1 distinct
      rw [List.foldl_cons, List.map_cons, Theory.Memo.rememberAll_cons,
        Theory.Memo.remember_of_not_mem freshHere,
        resolveRow_eq resolving.tracks.calls hash cacheHere]
      refine ih hashes cache ⟨resolving.tracks.resolved freshHere _, ?_,
        resolving.same.trans (Progress.resolved_sameOutput _ _ _), resolving.drawn,
        resolving.db⟩ distinct fun other member => ?_
      · rw [insertsOf_concat, resolving.inserts, List.append_assoc]
      · rw [Theory.Memo.keys_concat, List.mem_append, List.mem_singleton]
        rintro (old | same)
        · exact fresh other member old
        · exact new (List.mem_map.2 ⟨other, member, same⟩)

theorem uniqueByHash_concat (rows : List PendingRow) (row : PendingRow) :
    uniqueByHash (rows ++ [row]) =
      if ∃ r ∈ uniqueByHash rows, r.hash = row.hash then uniqueByHash rows
      else uniqueByHash rows ++ [row] := by
  rw [uniqueByHash, List.foldl_append]
  rfl

theorem mem_of_mem_uniqueByHash {rows : List PendingRow} {row : PendingRow}
    (member : row ∈ uniqueByHash rows) : row ∈ rows := by
  induction rows using List.reverseRecOn with
  | nil => exact member
  | append_singleton rows last ih =>
      rw [uniqueByHash_concat] at member
      split at member
      · exact List.mem_append_left _ (ih member)
      · rcases List.mem_append.1 member with old | new
        · exact List.mem_append_left _ (ih old)
        · exact List.mem_append_right _ new

/-- Without collisions, the rows of a chunk that are looked up are the first rows of its new
addresses. -/
theorem uniqueByHash_normalized {emails : List JsString}
    (free : CollisionFree deps emails)
    {p : Progress} (tracks : Tracks deps log p) {rows : List PendingRow}
    (involved : ∀ row ∈ rows, row.normalized ∈ emails)
    (hashes : ∀ row ∈ rows, row.hash = deps.sha256Hex row.normalized) :
    (uniqueByHash (rows.filter fun row => (p.seen row.normalized).isNone)).map (·.normalized) =
      Memo.newKeys (Memo.keys log) (rows.map (·.normalized)) := by
  induction rows using List.reverseRecOn with
  | nil => rfl
  | append_singleton rows row ih =>
      obtain ⟨involvedRest, involvedHere⟩ := List.forall_mem_append.1 involved
      obtain ⟨hashesRest, hashHere⟩ := List.forall_mem_append.1 hashes
      have row_mem := involvedHere row (List.mem_singleton_self row)
      have row_hash := hashHere row (List.mem_singleton_self row)
      have unseen : (p.seen row.normalized).isNone = true ↔ row.normalized ∉ Memo.keys log := by
        rw [Option.isNone_iff_eq_none, tracks.unseen_iff]
      have ih := ih involvedRest hashesRest
      rw [List.map_append, List.map_singleton, Theory.Memo.newKeys_concat, ← ih, List.filter_append]
      by_cases known : row.normalized ∈ Memo.keys log
      · rw [List.filter_cons, List.filter_nil, if_neg fun none_ => unseen.1 none_ known,
          List.append_nil, if_pos (.inl known)]
      · rw [List.filter_cons, List.filter_nil, if_pos (unseen.2 known), uniqueByHash_concat]
        have met : (∃ r ∈ uniqueByHash (rows.filter fun row => (p.seen row.normalized).isNone),
              r.hash = row.hash) ↔
            row.normalized ∈
              (uniqueByHash (rows.filter fun row => (p.seen row.normalized).isNone)).map
                (·.normalized) := by
          rw [List.mem_map]
          refine exists_congr fun r => and_congr_right fun member => ?_
          have inside := List.mem_of_mem_filter (mem_of_mem_uniqueByHash member)
          rw [hashesRest r inside, row_hash]
          exact ⟨free _ (involvedRest r inside) _ row_mem, fun same => by rw [same]⟩
        by_cases old : row.normalized ∈
            (uniqueByHash (rows.filter fun row => (p.seen row.normalized).isNone)).map (·.normalized)
        · rw [if_pos (met.2 old), if_pos (.inr old)]
        · rw [if_neg fun has => old (met.1 has), if_neg (by simp only [known, old, or_self,
            not_false_eq_true]), List.map_append, List.map_singleton]

theorem withIds_map_fst (deps : BatchProcessorDeps) (drawn : ℕ) (inserts : List BatchEmailCheck) :
    (withIds deps drawn inserts).map (·.1) = inserts := by
  rw [withIds, List.map_map]
  exact List.zipIdx_map_fst drawn inserts

theorem withIds_map_snd (drawn : ℕ) (inserts : List BatchEmailCheck) :
    (withIds deps drawn inserts).map (·.2) =
      (List.range' drawn inserts.length).map deps.randomUUID := by
  rw [withIds, List.map_map, ← List.zipIdx_map_snd drawn inserts, List.map_map]
  rfl

theorem withIds_append (drawn : ℕ) (inserts more : List BatchEmailCheck) :
    withIds deps drawn (inserts ++ more) =
      withIds deps drawn inserts ++ withIds deps (drawn + inserts.length) more := by
  rw [withIds, List.zipIdx_append, List.map_append, withIds, withIds]

/-- Resolving a chunk looks addresses up as the run before its first insert would. -/
theorem Inserted.findRecentEmailCheck {emails : List JsString}
    (free : CollisionFree deps emails)
    {db' : Database} (inserted : Inserted deps job db log db')
    (within : ∀ email ∈ Memo.keys log, email ∈ emails) {email : JsString}
    (involved : email ∈ emails) (fresh : email ∉ Memo.keys log) :
    db'.findRecentEmailCheck job.batch.orgId (deps.sha256Hex email) job.now =
      db.findRecentEmailCheck job.batch.orgId (deps.sha256Hex email) job.now := by
  obtain ⟨added, written, rfl⟩ := inserted
  apply findRecentEmailCheck_append db _ _
  intro check member same
  have hashes : added.map (·.emailHash) = (insertsOf deps job log).map (·.check.emailHash) := by
    rw [← withIds_map_fst deps 0 (insertsOf deps job log), List.map_map]
    exact written_map_eq written fun row check ⟨_, eq⟩ => by rw [eq]; rfl
  have listed : check.emailHash ∈ (insertsOf deps job log).map (·.check.emailHash) :=
    hashes ▸ List.mem_map_of_mem member
  obtain ⟨insert, inside, eq⟩ := List.mem_map.1 listed
  have known : insert.check.emailNormalized ∈ Memo.keys log :=
    (insertsOf_sublist deps job log).subset (List.mem_map_of_mem inside)
  rw [← eq, emailHash_of_mem_insertsOf inside] at same
  exact fresh (free _ (within _ known) _ involved same ▸ known)

/-- **Resolving a chunk** continues the log by the addresses of the chunk. -/
theorem resolveUnique_tracks {emails : List JsString}
    (free : CollisionFree deps emails)
    {p : Progress} (tracks : Tracks deps log p) (inserted : Inserted deps job db log p.db)
    (within : ∀ email ∈ Memo.keys log, email ∈ emails) {rows : List PendingRow}
    (involved : ∀ row ∈ rows, row.normalized ∈ emails)
    (hashes : ∀ row ∈ rows, row.hash = deps.sha256Hex row.normalized) :
    Resolving deps job log
      (Memo.rememberAll (resolve deps job db) log (rows.map (·.normalized))) p
      (resolveUnique deps job p rows) := by
  have unique := uniqueByHash_normalized free tracks involved hashes
  have inside : ∀ row ∈ uniqueByHash (rows.filter fun row => (p.seen row.normalized).isNone),
      row ∈ rows := fun row member => List.mem_of_mem_filter (mem_of_mem_uniqueByHash member)
  have fresh : ∀ row ∈ uniqueByHash (rows.filter fun row => (p.seen row.normalized).isNone),
      row.normalized ∉ Memo.keys log := by
    intro row member
    have new : row.normalized ∈
        (uniqueByHash (rows.filter fun row => (p.seen row.normalized).isNone)).map (·.normalized) :=
      List.mem_map_of_mem member
    rw [unique] at new
    exact (Theory.Memo.mem_newKeys.1 new).2
  rw [← Theory.Memo.rememberAll_newKeys, ← unique]
  refine resolveRow_foldl (fun row member => hashes row (inside row member)) ?_
    ⟨tracks, by rw [List.append_nil], SameOutput.refl p, rfl, rfl⟩ ?_ fresh
  · intro row member
    rw [findRecentEmailChecksByHashes_eq _ _ _ (List.mem_map_of_mem member),
      hashes row (inside row member)]
    exact inserted.findRecentEmailCheck free within (involved row (inside row member))
      (fresh row member)
  · rw [unique]
    exact Theory.Memo.newKeys_nodup _ _

end Tozalist.Worker
