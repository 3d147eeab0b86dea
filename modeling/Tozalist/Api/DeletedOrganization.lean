/-
# Tozalist.Api.DeletedOrganization -- requests after the deletion

`softDeleteOrganization` sets `deleted_at`; the rows stay until a sweep takes them, and the
sessions and keys stay until they expire.  What keeps a request of a deleted organisation from
its rows is a check that the organisation is still there.  It stands in different places:

* `/v1`: in `findActiveApiKeyByHash`, before every handler;
* `/internal/checks/delete-all`: in `requireSession`;
* phone checks, new batches, one batch: in the transaction or the query;
* a check that is found again, the list of batches, the deletion of a batch, the usage: nowhere.

`Inert` says that a request got none of the organisation's data and left its rows as they were,
whatever others wrote meanwhile; `Exposed` names the requests of the last kind that come
through.  `inert_iff` is the law: one is the negation of the other.
-/
import Tozalist.Api.Product

namespace Tozalist.Api

set_option autoImplicit false

open Db
open Theory (Interruptible Service Serving Statement Txn)
open Theory.Interruptible (Ends)

/-! ## What is promised -/

/-- The checks, batches and ledger rows of an organisation are the same. -/
structure SameRows (orgId : Uuid) (db db' : Database) : Prop where
  emailChecks : db'.emailChecks.filter (fun c => c.orgId = orgId) =
    db.emailChecks.filter fun c => c.orgId = orgId
  phoneChecks : db'.phoneChecks.filter (fun c => c.orgId = orgId) =
    db.phoneChecks.filter fun c => c.orgId = orgId
  batches : db'.batches.filter (fun b => b.orgId = orgId) =
    db.batches.filter fun b => b.orgId = orgId
  creditLedger : db'.creditLedger.filter (fun e => e.orgId = orgId) =
    db.creditLedger.filter fun e => e.orgId = orgId

/-- The reply to a request of the organisation has a check, a batch, or what its ledger and its
checks add up to. -/
def ProductReply.Discloses (orgId : Uuid) : ProductReply → Prop
  | .error _ _ => False
  | .emailCheck check .. => check.orgId = orgId
  | .phoneCheck check _ => check.orgId = orgId
  | .checkDeleted _ => False
  | .batchCreated .. => True
  | .batch row _ => row.orgId = orgId
  | .batches page => ∃ b ∈ page.entries, b.orgId = orgId
  | .batchDeleted _ => False
  | .usageSummary _ => True
  | .usage .. => True
  | .wiped _ => True
  | .webhooks => False

/-- What a statement may do: leave the rows of the organisation as they are. -/
def Spares (orgId : Uuid) (m : Moment) (left : Store) : Prop := SameRows orgId m.db left.db

/-- A reply, and the statements that were run before it, are inert. -/
def InertSoFar (orgId : Uuid) (reply : ProductReply) (ran : List (Statement Moment Store)) :
    Prop :=
  ¬ reply.Discloses orgId ∧ ∀ s ∈ ran, Spares orgId s.found s.left

/-- **A request is inert**: it gets nothing of the organisation, and changes nothing of it. -/
def Inert (env : Surroundings) (orgId : Uuid) (request : ProductRequest) (found : ℕ → Moment) :
    Prop :=
  InertSoFar orgId (Serving.serve (handle env request) found).1
    (Serving.serve (handle env request) found).2

/-! ## Who is asked about -/

/-- The organisation is deleted. -/
structure Deleted (orgId : Uuid) (m : Moment) : Prop where
  /-- what holds of every row -/
  tables : ∃ tables : Tables, tables.toDatabase = m.db
  /-- the primary key -/
  unique : (m.db.organizations.map (·.id)).Nodup
  deleted : ∃ org ∈ m.db.organizations, org.id = orgId ∧ org.deletedAt ≠ none

/-- The session or the key of a request is the organisation's. -/
def ProductRequest.Of (env : Surroundings) (orgId : Uuid) (found : ℕ → Moment) :
    ProductRequest → Prop
  | .api caller _ => ∀ token, caller.authorization = .bearer token →
      ∀ k, ∀ key ∈ (found k).apiKeys, key.keyHash = env.sha256Hex token → key.orgId = orgId
  | .dashboard caller _ => ∀ session ∈ caller.session, session.orgId = orgId

/-! ## The requests that come through -/

/-- The caller passes `requireVerified`. -/
def DashboardCaller.Verified (caller : DashboardCaller) (csrf : Bool) : Prop :=
  ∃ session ∈ caller.session, session.mfaVerified = true ∧
    (csrf = true → caller.csrf = some session.csrfToken)

/-- A check of the address is still there to be used again, and its snapshot can be read. -/
def Recalled (env : Surroundings) (orgId : Uuid) (email : JsString) (m : Moment) : Prop :=
  ∃ check, m.db.findRecentEmailCheck orgId (env.sha256Hex (checkedAddress env email)) m.now =
    some check ∧ check.checksJson ≠ none

/-- The balance lets the check of an address through, and the check is recalled. -/
def EmailExposed (env : Surroundings) (orgId : Uuid) (email : JsString) (found : ℕ → Moment) :
    Prop :=
  match env.cachedBalance with
  | some hint => 1 ≤ hint ∧ Recalled env orgId email (found 0)
  | none =>
      (Int4 (balance orgId (found 0).db.creditLedger) ∧
        1 ≤ balance orgId (found 0).db.creditLedger) ∧ Recalled env orgId email (found 1)

/-- A batch is behind the cursor. -/
def ListExposed (env : Surroundings) (orgId : Uuid) (cursor : Option String) (m : Moment) : Prop :=
  ∃ b ∈ m.db.batches, b.orgId = orgId ∧
    ∀ c ∈ cursor, behindText env.cursors Batch.createdAt Batch.id c b = true

/-- The batch is there, and can be deleted. -/
def BatchExposed (orgId id : Uuid) (m : Moment) : Prop :=
  ∃ b ∈ m.db.batches, b.id = id ∧ b.orgId = orgId ∧ b.status ≠ .processing ∧
    (b.status.Claimable → Int4 b.totalRows)

/-- All that the usage shows can be read. -/
def UsageExposed (orgId : Uuid) (found : ℕ → Moment) : Prop :=
  Int4 (balance orgId (found 0).db.creditLedger) ∧
    RunningSumsFit orgId (found 1).db.creditLedger ∧
      ∀ day ∈ checkDays (found 2).db orgId ((found 2).now - 30 * msPerDay),
        Int4 ((checkDays (found 2).db orgId ((found 2).now - 30 * msPerDay)).count day)

/-- The request is one of the four that nothing stops. -/
def Exposed (env : Surroundings) (orgId : Uuid) (found : ℕ → Moment) : ProductRequest → Prop
  | .dashboard caller (.emailCheck email _) =>
      caller.Verified true ∧ EmailExposed env orgId email found
  | .dashboard caller (.listBatches cursor) =>
      caller.Verified false ∧ ListExposed env orgId cursor (found 0)
  | .dashboard caller (.deleteBatch id) =>
      caller.Verified true ∧ BatchExposed orgId id (found 0)
  | .dashboard caller (.usage _ _) => caller.Verified false ∧ UsageExposed orgId found
  | _ => False

/-! ## Where the deletion is seen -/

theorem SameRows.refl (orgId : Uuid) (db : Database) : SameRows orgId db db :=
  ⟨rfl, rfl, rfl, rfl⟩

theorem Deleted.inactive {orgId : Uuid} {m : Moment} (deleted : Deleted orgId m) :
    ¬ m.db.ActiveOrg orgId := by
  rintro ⟨org, member, is, active⟩
  obtain ⟨gone, inside, same, set⟩ := deleted.deleted
  obtain rfl : org = gone :=
    List.inj_on_of_nodup_map deleted.unique member inside (is.trans same.symm)
  exact set active

section Inactive

variable {orgId : Uuid} {db : Database}

theorem find_inactive (inactive : ¬ db.ActiveOrg orgId) :
    db.organizations.find? (fun o => o.id = orgId ∧ o.Active) = none := by
  refine List.find?_eq_none.2 fun org member selected => inactive ⟨org, member, ?_⟩
  exact of_decide_eq_true selected

theorem getOrgSettings_inactive (inactive : ¬ db.ActiveOrg orgId) :
    getOrgSettings db orgId = none :=
  find_inactive inactive

theorem getBatchForOrg_inactive (inactive : ¬ db.ActiveOrg orgId) (id : Uuid) :
    getBatchForOrg db id orgId = none := by
  refine List.find?_eq_none.2 fun b _ selected => inactive ?_
  exact (of_decide_eq_true selected).2.2

/-- A transaction that begins with the lock of the organisation ends with it. -/
theorem transaction_lockOrganization {β : Type} (inactive : ¬ db.ActiveOrg orgId)
    {next : Option Organization → Tx β} {b : β} (answers : next none = pure b) :
    Txn.transaction (lockOrganization orgId >>= next) db = (.ok b, db) := by
  refine Txn.transaction_of_commits ((Txn.commits_bind _ _ _ _ _).2 ⟨none, db, ?_, ?_⟩)
  · exact lockOrganization_commits.2 ⟨(find_inactive inactive).symm, rfl⟩
  · rw [answers]
    exact (Txn.commits_pure _ _ _ _).2 ⟨rfl, rfl⟩

end Inactive

/-! ## Statements of a handler -/

section Ends

variable {α : Type} {service : Service Moment Store} {answers : α → Service Moment Store → Prop}
  {stops : ProductReply → Service Moment Store → Prop}

@[simp] theorem ends_select (read : Moment → α) :
    Ends (select read) service answers stops ↔
      answers (read service.next) (service.leave service.next.toStore) := by
  simp [select]

@[simp] theorem ends_query {ε : Type} (read : Moment → Except ε α) :
    Ends (query read) service answers stops ↔
      (∀ a, read service.next = .ok a → answers a (service.leave service.next.toStore)) ∧
        ∀ e, read service.next = .error e →
          stops (sendError .internalError) (service.leave service.next.toStore) := by
  simp only [query, Serving.ends_statement]
  cases read service.next <;> simp [orInternalError]

/-- The store that a transaction leaves. -/
def Moment.after (m : Moment) (body : Moment → Tx α) : Store :=
  { m.toStore with db := (Txn.transaction (body m) m.db).2 }

@[simp] theorem ends_transact (body : Moment → Tx α) :
    Ends (transact body) service answers stops ↔
      (∀ a, (Txn.transaction (body service.next) service.next.db).1 = .ok a →
          answers a (service.leave (service.next.after body))) ∧
        ∀ e, (Txn.transaction (body service.next) service.next.db).1 = .error e →
          stops (sendError .internalError) (service.leave (service.next.after body)) := by
  simp only [transact, Serving.ends_statement, Moment.after]
  cases (Txn.transaction (body service.next) service.next.db).1 <;> simp [orInternalError]

end Ends

/-! ## The routes that are guarded -/

section Guarded

variable {orgId : Uuid} {finds : Moment → Prop} {α : Type} {gives : α → Prop}

/-- A part of a handler that spares the rows and discloses nothing, as long as statements find
what `finds` says. -/
def Harmless (orgId : Uuid) (finds : Moment → Prop) (gives : α → Prop) (part : Handler α) :
    Prop :=
  Serving.Safe finds (Spares orgId) (fun reply => ¬ reply.Discloses orgId) gives part

theorem Harmless.refuse {code : ErrorCode} {message : String} :
    Harmless orgId finds gives (throw (.error code message)) :=
  Serving.Safe.reply id

theorem Harmless.bind {β : Type} {then_ : β → Prop} (gives : α → Prop) {part : Handler α}
    {next : α → Handler β} (first : Harmless orgId finds gives part)
    (rest : ∀ a, gives a → Harmless orgId finds then_ (next a)) :
    Harmless orgId finds then_ (part >>= next) :=
  Serving.Safe.bind first rest

theorem Harmless.select {read : Moment → α} (values : ∀ m, finds m → gives (read m)) :
    Harmless orgId finds gives (select read) := by
  refine Serving.Safe.statement (fun m _ => SameRows.refl orgId m.db) (fun m found a is => ?_)
    fun _ _ _ is => (by cases is)
  exact Except.ok.inj is ▸ values m found

/-- A transaction that answers, and spares the rows. -/
theorem Harmless.transact {body : Moment → Tx α} (a : α)
    (idle : ∀ m, finds m → ∃ db, Txn.transaction (body m) m.db = (.ok a, db) ∧
      SameRows orgId m.db db) :
    Harmless orgId finds (· = a) (transact body) := by
  refine Serving.Safe.statement (fun m found => ?_) (fun m found b is => ?_)
    fun m found r is => ?_
  · obtain ⟨db, run, same⟩ := idle m found
    rw [run]
    exact same
  · obtain ⟨db, run, -⟩ := idle m found
    rw [run] at is
    exact (Except.ok.inj is).symm
  · obtain ⟨db, run, -⟩ := idle m found
    rw [run] at is
    cases is

/-- A transaction that asks for the lock of a deleted organisation. -/
theorem Harmless.locked {body : Moment → Tx α} (a : α)
    (begins : ∀ m, ∃ next, body m = lockOrganization orgId >>= next ∧ next none = pure a) :
    Harmless orgId (Deleted orgId) (· = a) (Api.transact body) := by
  refine .transact a fun m deleted => ⟨m.db, ?_, SameRows.refl orgId m.db⟩
  obtain ⟨next, is, answers⟩ := begins m
  rw [is]
  exact transaction_lockOrganization deleted.inactive answers

theorem Harmless.audit (event : AuditEventInput) :
    Harmless orgId finds (· = ()) (audit event) :=
  .transact () fun _ _ => ⟨_, rfl, rfl, rfl, rfl, rfl⟩

/-- The session of a deleted organisation ends at `requireSession`. -/
theorem harmless_requireSession {caller : DashboardCaller}
    (own : ∀ session ∈ caller.session, session.orgId = orgId) :
    Harmless orgId (Deleted orgId) (fun _ => False) (requireSession caller) := by
  unfold requireSession
  split
  · exact Harmless.refuse
  · rename_i session is
    obtain rfl := own session (Option.mem_def.2 is)
    refine Harmless.bind (· = none) (Harmless.select fun m deleted =>
      getOrgSettings_inactive deleted.inactive) fun settings none_ => ?_
    obtain rfl := none_
    exact Harmless.refuse

/-- A moment at which the organisation is deleted, and only it has a key with the hash. -/
structure Locked (orgId : Uuid) (keyHash : String) (m : Moment) : Prop extends Deleted orgId m where
  own : ∀ key ∈ m.apiKeys, key.keyHash = keyHash → key.orgId = orgId

theorem Locked.refused {keyHash : String} {m : Moment} (locked : Locked orgId keyHash m) :
    ∃ reason, findActiveApiKeyByHash m.db m.apiKeys keyHash m.now = .error reason := by
  cases active : findActiveApiKeyByHash m.db m.apiKeys keyHash m.now with
  | error reason => exact ⟨reason, rfl⟩
  | ok key =>
      obtain ⟨alive, row, member, hash, same⟩ := findActiveApiKeyByHash_ok active
      rw [← same, locked.own row member hash] at alive
      exact absurd alive locked.inactive

/-- A key of a deleted organisation is no key. -/
theorem harmless_requireKey (env : Surroundings) {caller : ApiCaller}
    (locked : ∀ token, caller.authorization = .bearer token →
      ∀ m, finds m → Locked orgId (env.sha256Hex token) m) :
    Harmless orgId finds (fun _ => False) (requireKey env caller) := by
  refine Harmless.bind (fun _ => False) ?_ fun _ no => no.elim
  unfold authenticate
  split
  · exact Harmless.bind _ (.audit _) fun _ _ => .refuse
  · exact Harmless.bind _ (.audit _) fun _ _ => .refuse
  · rename_i token is
    refine Harmless.bind (fun key => ∃ reason, key = .error reason)
      (.select fun m found => (locked token is m found).refused) fun key refused => ?_
    obtain ⟨reason, rfl⟩ := refused
    exact Harmless.bind _ (.audit _) fun _ _ => .refuse

theorem harmless_performPhoneCheck (env : Surroundings) (phone : JsString)
    (country : Option JsString) :
    Harmless orgId (Deleted orgId) (fun reply => ¬ reply.Discloses orgId)
      (performPhoneCheck env orgId phone country) := by
  apply Harmless.bind _ (.locked .orgUnavailable fun m => ⟨_, rfl, rfl⟩)
  intro result is
  obtain rfl := is
  exact Serving.Safe.pure id

theorem harmless_uploadBatch (env : Surroundings) (batchId : Uuid) (upload : Upload) :
    Harmless orgId (Deleted orgId) (fun reply => ¬ reply.Discloses orgId)
      (uploadBatch env orgId batchId upload) := by
  have unload : ∀ keys, Harmless orgId (Deleted orgId) (fun _ => True) (deleteUpload env keys) := by
    intro keys
    unfold deleteUpload
    split
    · exact Serving.Safe.pure trivial
    · exact .refuse
  unfold uploadBatch
  split
  · exact Serving.Safe.pure id
  · exact Serving.Safe.pure id
  · exact Harmless.bind _ (unload _) fun _ _ => Serving.Safe.pure id
  · split
    · exact Harmless.bind _ (unload _) fun _ _ => Serving.Safe.pure id
    · apply Harmless.bind _ (.locked .orgUnavailable fun m => ⟨_, rfl, rfl⟩)
      intro result is
      obtain rfl := is
      exact Harmless.bind _ (unload _) fun _ _ => Serving.Safe.pure id

theorem harmless_showBatch (env : Surroundings) (id : Uuid) :
    Harmless orgId (Deleted orgId) (fun reply => ¬ reply.Discloses orgId)
      (showBatch env orgId id) := by
  refine Harmless.bind (· = none) (.select fun m deleted =>
    getBatchForOrg_inactive deleted.inactive id) fun batch none_ => ?_
  obtain rfl := none_
  exact Serving.Safe.pure fun discloses => discloses

/-- A check that is not found again is not created. -/
theorem harmless_freshEmailCheck (env : Surroundings) (smtp : Bool) (normalized : JsString) :
    Harmless orgId (Deleted orgId) (fun outcome => ¬ outcome.reply.Discloses orgId)
      (freshEmailCheck env orgId smtp normalized) := by
  unfold freshEmailCheck
  split
  · exact Serving.Safe.pure id
  · apply Harmless.bind _ (.locked .orgUnavailable fun m => ⟨_, rfl, rfl⟩)
    intro result is
    obtain rfl := is
    exact Serving.Safe.pure id

end Guarded

/-! ## The routes that are not -/

section Unguarded

variable {env : Surroundings} {orgId : Uuid} {service : Service Moment Store}

/-- A request ends inert. -/
def EndsInert (orgId : Uuid) (request : Handler ProductReply) (service : Service Moment Store) :
    Prop :=
  Ends request service (fun reply t => InertSoFar orgId reply t.ran)
    fun reply t => InertSoFar orgId reply t.ran

/-- Statements find the organisation deleted, and have spared its rows. -/
abbrev Quiet (orgId : Uuid) (service : Service Moment Store) : Prop :=
  service.Orderly (Deleted orgId) (Spares orgId)

theorem inert_iff_endsInert {request : ProductRequest} {found : ℕ → Moment} :
    Inert env orgId request found ↔ EndsInert orgId (handle env request) ⟨found, []⟩ :=
  Serving.serve_iff (InertSoFar orgId)

/-- A reply without anything of the organisation. -/
theorem Quiet.inert (quiet : Quiet orgId service) {reply : ProductReply}
    (nothing : ¬ reply.Discloses orgId) : InertSoFar orgId reply service.ran :=
  ⟨nothing, quiet.does⟩

theorem Harmless.endsInert {finds : Moment → Prop} {part : Handler ProductReply}
    (harmless : Harmless orgId finds (fun reply => ¬ reply.Discloses orgId) part)
    (orderly : service.Orderly finds (Spares orgId)) : EndsInert orgId part service :=
  (harmless service orderly).mono (fun _ _ ⟨after, nothing⟩ => ⟨nothing, after.does⟩)
    fun _ _ ⟨after, nothing⟩ => ⟨nothing, after.does⟩

/-- The statement has read. -/
theorem Quiet.read (quiet : Quiet orgId service) : Quiet orgId (service.leave service.next.toStore) :=
  quiet.leave (SameRows.refl orgId service.next.db)

theorem requireVerified_cases (caller : DashboardCaller) (csrf : Bool) :
    (∃ session ∈ caller.session, caller.Verified csrf ∧
        requireVerified caller csrf = pure session) ∨
      (¬ caller.Verified csrf ∧
        ∃ message, requireVerified caller csrf = throw (.error .unauthorized message)) := by
  unfold requireVerified DashboardCaller.Verified
  cases caller.session with
  | none => exact .inr ⟨fun ⟨_, none_, _⟩ => (by cases none_), _, rfl⟩
  | some session =>
      dsimp only
      split
      · rename_i unverified
        refine .inr ⟨?_, _, rfl⟩
        rintro ⟨other, here, verified, -⟩
        obtain rfl := Option.mem_some_iff.1 here
        exact Bool.noConfusion (unverified.symm.trans verified)
      · rename_i verified
        split
        · rename_i missing
          refine .inr ⟨?_, _, rfl⟩
          rintro ⟨other, here, -, token⟩
          obtain rfl := Option.mem_some_iff.1 here
          exact missing.2 (token missing.1)
        · rename_i passes
          refine .inl ⟨session, rfl, ⟨session, rfl, eq_true_of_ne_false verified, fun asked => ?_⟩,
            rfl⟩
          exact not_not.1 fun missing => passes ⟨asked, missing⟩

/-- A route behind `requireVerified`, with what comes through behind it. -/
theorem endsInert_requireVerified (quiet : Quiet orgId service) {caller : DashboardCaller}
    {csrf : Bool} (own : ∀ session ∈ caller.session, session.orgId = orgId)
    {rest : SessionData → Handler ProductReply} {exposed : Prop}
    (behind : ∀ session, session.orgId = orgId →
      (EndsInert orgId (rest session) service ↔ ¬ exposed)) :
    EndsInert orgId (requireVerified caller csrf >>= rest) service ↔
      ¬ (caller.Verified csrf ∧ exposed) := by
  rcases requireVerified_cases caller csrf with ⟨session, is, verified, passes⟩ |
    ⟨unverified, message, refused⟩
  · rw [passes, pure_bind, behind session (own session is), and_iff_right verified]
  · rw [refused, EndsInert, Interruptible.ends_bind, Interruptible.ends_throw]
    exact iff_of_true (quiet.inert id) fun both => unverified both.1

/-- A route that is guarded behind `requireVerified`. -/
theorem endsInert_behind (quiet : Quiet orgId service) {caller : DashboardCaller} {csrf : Bool}
    (own : ∀ session ∈ caller.session, session.orgId = orgId)
    {rest : SessionData → Handler ProductReply}
    (harmless : ∀ session, session.orgId = orgId → Harmless orgId (Deleted orgId)
      (fun reply => ¬ reply.Discloses orgId) (rest session)) :
    EndsInert orgId (requireVerified caller csrf >>= rest) service := by
  refine (endsInert_requireVerified quiet own fun session mine => ?_).2 fun both => both.2
  exact iff_of_true ((harmless session mine).endsInert quiet) not_false

/-! ### Email checks -/

/-- A recalled check is disclosed, whatever happens about its probe. -/
theorem cachedEmailCheck_discloses (quiet : Quiet orgId service) {row : EmailCheck}
    (own : row.orgId = orgId) (readable : row.checksJson ≠ none) (smtp : Bool) (balance : Int) :
    ¬ EndsInert orgId (EmailCheckOutcome.reply <$> cachedEmailCheck env orgId smtp balance row)
      service := by
  rw [EndsInert, Interruptible.ends_map]
  unfold cachedEmailCheck
  cases is : row.checksJson with
  | none => exact absurd is readable
  | some snapshot =>
      dsimp only
      split
      · have gone := getOrgSettings_inactive (quiet.finds service.ran.length).inactive
        rw [Interruptible.ends_bind, ends_select, Service.next, gone]
        exact fun inert => inert.1 own
      · exact fun inert => inert.1 own

theorem findRecentEmailCheck_orgId {db : Database} {hash : String} {now : Date} {row : EmailCheck}
    (found : db.findRecentEmailCheck orgId hash now = some row) : row.orgId = orgId := by
  have member := List.mem_mergeSort.1 (List.mem_of_head? found)
  have selected := (List.mem_filter.1 member).2
  simp only [Bool.and_eq_true, decide_eq_true_eq] at selected
  exact selected.2.1

/-- The look for a recent check comes first. -/
theorem endsInert_covered_none {email : JsString} (smtp : Bool) (balance : Int)
    (found : service.next.db.findRecentEmailCheck orgId
      (env.sha256Hex (checkedAddress env email)) service.next.now = none) :
    EndsInert orgId (EmailCheckOutcome.reply <$> coveredEmailCheck env orgId email smtp balance)
      service ↔ EndsInert orgId
        (EmailCheckOutcome.reply <$> freshEmailCheck env orgId smtp (checkedAddress env email))
        (service.leave service.next.toStore) := by
  rw [EndsInert, EndsInert, Interruptible.ends_map, Interruptible.ends_map, coveredEmailCheck,
    Interruptible.ends_bind, ends_select, found]

theorem endsInert_covered_some {email : JsString} (smtp : Bool) (balance : Int) {row : EmailCheck}
    (found : service.next.db.findRecentEmailCheck orgId
      (env.sha256Hex (checkedAddress env email)) service.next.now = some row) :
    EndsInert orgId (EmailCheckOutcome.reply <$> coveredEmailCheck env orgId email smtp balance)
      service ↔ EndsInert orgId
        (EmailCheckOutcome.reply <$> cachedEmailCheck env orgId smtp balance row)
        (service.leave service.next.toStore) := by
  rw [EndsInert, EndsInert, Interruptible.ends_map, Interruptible.ends_map, coveredEmailCheck,
    Interruptible.ends_bind, ends_select, found]

/-- Behind the balance, a check is inert exactly when it is not recalled. -/
theorem endsInert_coveredEmailCheck (quiet : Quiet orgId service) (email : JsString) (smtp : Bool)
    (balance : Int) :
    EndsInert orgId (EmailCheckOutcome.reply <$> coveredEmailCheck env orgId email smtp balance)
      service ↔ ¬ Recalled env orgId email service.next := by
  unfold Recalled
  cases found : service.next.db.findRecentEmailCheck orgId
      (env.sha256Hex (checkedAddress env email)) service.next.now with
  | none =>
      rw [endsInert_covered_none smtp balance found]
      refine iff_of_true ?_ ?_
      · rw [EndsInert, Interruptible.ends_map]
        exact (harmless_freshEmailCheck env smtp _ _ quiet.read).mono
          (fun _ _ both => ⟨both.2, both.1.does⟩) fun _ _ both => ⟨both.2, both.1.does⟩
      · rintro ⟨check, none_, -⟩
        cases none_
  | some row =>
      rw [endsInert_covered_some smtp balance found]
      by_cases readable : row.checksJson = none
      · refine iff_of_true ?_ ?_
        · rw [EndsInert, Interruptible.ends_map, cachedEmailCheck, readable]
          exact quiet.read.inert id
        · rintro ⟨check, is, has⟩
          obtain rfl := Option.some.inj is
          exact has readable
      · refine iff_of_false ?_ (not_not.2 ⟨row, rfl, readable⟩)
        exact cachedEmailCheck_discloses quiet.read (findRecentEmailCheck_orgId found) readable _ _

/-- **An email check is inert** exactly when its address is not recalled behind the balance. -/
theorem endsInert_performEmailCheck {found : ℕ → Moment} (deleted : ∀ k, Deleted orgId (found k))
    (email : JsString) (smtp : Bool) :
    EndsInert orgId (EmailCheckOutcome.reply <$> performEmailCheck env orgId email smtp)
      ⟨found, []⟩ ↔ ¬ EmailExposed env orgId email found := by
  have begun : Quiet orgId ⟨found, []⟩ := .begin_ deleted
  -- what is behind the balance, once it is known
  have gate : ∀ (balance : Int) (service : Service Moment Store), Quiet orgId service →
      (Ends (if balance < 1 then pure .insufficient
          else coveredEmailCheck env orgId email smtp balance) service
        (fun outcome t => InertSoFar orgId outcome.reply t.ran)
        (fun reply t => InertSoFar orgId reply t.ran) ↔
          ¬ (1 ≤ balance ∧ Recalled env orgId email service.next)) := by
    intro balance service quiet
    have covered := @endsInert_coveredEmailCheck env orgId service quiet email smtp balance
    rw [EndsInert, Interruptible.ends_map] at covered
    split
    · rename_i low
      exact iff_of_true (quiet.inert id) fun both => absurd both.1 (by omega)
    · rename_i enough
      rw [covered, and_iff_right (by omega : 1 ≤ balance)]
  unfold EndsInert EmailExposed performEmailCheck currentBalance
  rw [Interruptible.ends_map, Interruptible.ends_bind]
  cases env.cachedBalance with
  | some hint =>
      dsimp only
      rw [Interruptible.ends_pure]
      exact gate hint _ begun
  | none =>
      dsimp only
      rw [ends_query]
      have next : (⟨found, []⟩ : Service Moment Store).next = found 0 := rfl
      rw [next]
      by_cases fits : Int4 (balance orgId (found 0).db.creditLedger)
      · have reads := getCreditBalance_ok fits
        simp only [reads, Except.ok.injEq, forall_eq', reduceCtorEq, false_imp_iff, implies_true,
          and_true, and_iff_right fits]
        exact gate _ _ begun.read
      · have fails : getCreditBalance (found 0).db orgId = .error .integerOutOfRange := if_neg fits
        refine iff_of_true ⟨fun _ is => ?_, fun _ _ => begun.read.inert id⟩ fun both => ?_
        · rw [fails] at is
          cases is
        · exact fits both.1.1

/-! ### The list of batches -/

/-- A page of batches shows one exactly when one is selected. -/
theorem cutPage_shows_iff {selected : List Batch}
    (dates : ∀ b ∈ selected, Js.TimeClip (Timestamp.date b.createdAt))
    (own : ∀ b ∈ selected, b.orgId = orgId) {limit : ℕ} (room : 0 < limit) :
    ∃ page, cutPage Batch.createdAt Batch.id
        ((selected.mergeSort (newestFirst Batch.createdAt Batch.id)).take (limit + 1)) limit =
      .ok page ∧ ((∃ b ∈ page.1, b.orgId = orgId) ↔ ∃ b, b ∈ selected) := by
  have sorted : ∀ b, b ∈ selected.mergeSort (newestFirst Batch.createdAt Batch.id) ↔
      b ∈ selected := fun b => List.mem_mergeSort
  refine ⟨_, cutPage_eq (fun b member => dates b ((sorted b).1 member)) limit, ?_⟩
  constructor
  · rintro ⟨b, member, -⟩
    exact ⟨b, (sorted b).1 (List.mem_of_mem_take member)⟩
  · rintro ⟨b, member⟩
    have here := (sorted b).2 member
    cases is : selected.mergeSort (newestFirst Batch.createdAt Batch.id) with
    | nil =>
        rw [is] at here
        cases here
    | cons first rest =>
        have top : first ∈ selected := by
          rw [← sorted, is]
          exact List.mem_cons_self
        refine ⟨first, ?_, own first top⟩
        cases limit with
        | zero => exact absurd room (by omega)
        | succ n => exact List.mem_cons_self

/-! A list answers what its page does. -/

theorem listBatchesForOrg_unread {reader : CursorReader} {db : Database} {cursor : String}
    {limit : ℕ} (reads : reader.decodeCursor cursor = none) :
    listBatchesForOrg reader db orgId (some cursor) limit = .ok none := by
  unfold listBatchesForOrg
  simp only [cursorParameter, reads]
  rfl

theorem listBatchesForOrg_error {reader : CursorReader} {db : Database} {cursor : Option String}
    {decoded : Option (Date × String)} {limit : ℕ} {failure : ReadError}
    (parameter : cursorParameter reader cursor = some decoded)
    (listed : listPage reader Batch.createdAt Batch.id (db.batches.filter fun b => b.orgId = orgId)
      decoded limit = .error failure) :
    listBatchesForOrg reader db orgId cursor limit = .error failure := by
  unfold listBatchesForOrg
  simp only [parameter, listed]
  rfl

theorem listBatchesForOrg_ok {reader : CursorReader} {db : Database} {cursor : Option String}
    {decoded : Option (Date × String)} {limit : ℕ} {page : List Batch × Option String}
    (parameter : cursorParameter reader cursor = some decoded)
    (listed : listPage reader Batch.createdAt Batch.id (db.batches.filter fun b => b.orgId = orgId)
      decoded limit = .ok page) :
    listBatchesForOrg reader db orgId cursor limit = .ok (some ⟨page.1, page.2⟩) := by
  unfold listBatchesForOrg
  simp only [parameter, listed]
  rfl

/-- A page has what its cursor selects, if there is room for one. -/
theorem listBatchesForOrg_shows_iff (reader : CursorReader) {db : Database}
    (dates : ∀ b ∈ db.batches, Js.TimeClip (Timestamp.date b.createdAt)) {cursor : Option String}
    {limit : ℕ} (room : 0 < limit) :
    (∃ page, listBatchesForOrg reader db orgId cursor limit = .ok (some page) ∧
        ∃ b ∈ page.entries, b.orgId = orgId) ↔
      ∃ b ∈ db.batches, b.orgId = orgId ∧
        ∀ c ∈ cursor, behindText reader Batch.createdAt Batch.id c b = true := by
  have shows : ∀ selected : List Batch,
      (∀ b ∈ selected, b ∈ db.batches ∧ b.orgId = orgId) → _ := fun selected inside =>
    cutPage_shows_iff (fun b member => dates b (inside b member).1)
      (fun b member => (inside b member).2) room
  have own : ∀ b ∈ db.batches.filter fun b => b.orgId = orgId, b ∈ db.batches ∧ b.orgId = orgId :=
    fun b member => ⟨List.mem_of_mem_filter member, of_decide_eq_true (List.mem_filter.1 member).2⟩
  cases cursor with
  | none =>
      obtain ⟨page, is, entries⟩ := shows _ own
      have answers : listBatchesForOrg reader db orgId none limit =
          .ok (some ⟨page.1, page.2⟩) :=
        listBatchesForOrg_ok rfl is
      simp only [answers, Except.ok.injEq, Option.some.injEq, exists_eq_left', entries,
        List.mem_filter, decide_eq_true_eq, Option.mem_def, reduceCtorEq, false_imp_iff,
        implies_true, and_true]
  | some cursor =>
      simp only [Option.mem_some_iff, forall_eq']
      unfold behindText
      cases reads : reader.decodeCursor cursor with
      | none => simp [listBatchesForOrg_unread reads]
      | some decoded =>
          obtain ⟨date, text⟩ := decoded
          have parameter : cursorParameter reader (some cursor) = some (some (date, text)) := by
            rw [cursorParameter, reads]
            rfl
          dsimp only
          cases instant : reader.timestamptz date with
          | none =>
              have listed : listPage reader Batch.createdAt Batch.id
                  (db.batches.filter fun b => b.orgId = orgId) (some (date, text)) limit =
                    .error .invalidTimestamp := by
                unfold listPage
                simp only [instant]
                rfl
              simp [listBatchesForOrg_error parameter listed]
          | some at_ =>
              cases is : reader.uuid text with
              | none =>
                  have listed : listPage reader Batch.createdAt Batch.id
                      (db.batches.filter fun b => b.orgId = orgId) (some (date, text)) limit =
                        .error .invalidUuid := by
                    unfold listPage
                    simp only [instant, is]
                    rfl
                  simp [listBatchesForOrg_error parameter listed]
              | some uuid =>
                  obtain ⟨page, cut, entries⟩ := shows
                    ((db.batches.filter fun b => b.orgId = orgId).filter
                      (past Batch.createdAt Batch.id at_ uuid))
                    fun b member => own b (List.mem_of_mem_filter member)
                  have listed : listPage reader Batch.createdAt Batch.id
                      (db.batches.filter fun b => b.orgId = orgId) (some (date, text)) limit =
                        .ok page := by
                    unfold listPage
                    simp only [instant, is]
                    exact cut
                  simp only [listBatchesForOrg_ok parameter listed, Except.ok.injEq,
                    Option.some.injEq, exists_eq_left', entries, List.mem_filter,
                    decide_eq_true_eq, and_assoc]

theorem endsInert_listBatches (quiet : Quiet orgId service) (cursor : Option String) :
    EndsInert orgId (listBatches env orgId cursor 20) service ↔
      ¬ ListExposed env orgId cursor service.next := by
  obtain ⟨tables, is⟩ := (quiet.finds service.ran.length).tables
  have dates : ∀ b ∈ service.next.db.batches, Js.TimeClip (Timestamp.date b.createdAt) := by
    intro b member
    rw [Service.next, ← is] at member
    exact (tables.batchDates b member).1
  rw [ListExposed, ← listBatchesForOrg_shows_iff env.cursors dates (by decide : 0 < 20)]
  unfold listBatches EndsInert
  rw [Interruptible.ends_bind, ends_query]
  cases answer : listBatchesForOrg env.cursors service.next.db orgId cursor 20 with
  | error failure =>
      apply iff_of_true ⟨fun _ no => (by cases no), fun _ _ => quiet.read.inert id⟩
      exact fun ⟨_, no, _⟩ => (by cases no)
  | ok result =>
      simp only [Except.ok.injEq, forall_eq', reduceCtorEq, false_imp_iff, implies_true, and_true]
      cases result with
      | none => exact iff_of_true (quiet.read.inert id) fun ⟨_, no, _⟩ => (by cases no)
      | some page =>
          simp only [Option.some.injEq, exists_eq_left']
          exact ⟨fun inert => inert.1, fun nothing => quiet.read.inert nothing⟩

/-! ### The deletion of a batch -/

theorem refundDeleted_commits {row : Batch} (small : row.status.Claimable → Int4 row.totalRows)
    (draw : Draw) (db : Database) :
    ∃ refunded db', Txn.Commits (refundDeleted row draw) db refunded db' := by
  unfold refundDeleted
  by_cases claimable : row.status.Claimable
  · have fits : (refundEntry row.orgId row.id row.totalRows deletionNote draw).Fits :=
      (refundEntry_fits (.inr (.inr rfl))).2 (small claimable)
    simp only [if_pos claimable, Txn.commits_bind, Txn.commits_pure,
      insertLedgerOnConflictDoNothing_commits]
    by_cases known : Conflicts (refundEntry row.orgId row.id row.totalRows deletionNote draw)
        db.creditLedger
    · exact ⟨_, db, false, db, ⟨fits, .inl ⟨known, rfl, rfl⟩⟩, rfl, rfl⟩
    · exact ⟨_, db.withEntry _, true, _, ⟨fits, .inr ⟨known, rfl, rfl⟩⟩, rfl, rfl⟩
  · rw [if_neg claimable]
    exact ⟨0, db, (Txn.commits_pure _ _ _ _).2 ⟨rfl, rfl⟩⟩

/-- What the deletion of a batch does, where batches have different ids. -/
theorem deleteBatchForOrg_cases {db : Database} (ids : (db.batches.map (·.id)).Nodup) (id : Uuid)
    (draw : Draw) :
    (∃ row ∈ db.batches, row.id = id ∧ row.orgId = orgId ∧ row.status ≠ .processing ∧
        (row.status.Claimable → Int4 row.totalRows) ∧
        ∃ refunded db', Txn.Commits (deleteBatchForOrg id orgId draw) db
            (.deleted row.inputObjectKey row.resultObjectKey refunded) db' ∧
          ∀ b ∈ db'.batches, b.id ≠ id) ∨
      ((∀ b ∈ db.batches, b.id = id → b.orgId = orgId → b.status ≠ .processing →
          b.status.Claimable ∧ ¬ Int4 b.totalRows) ∧
        (Txn.transaction (deleteBatchForOrg id orgId draw) db).2 = db ∧
        ∀ result, (Txn.transaction (deleteBatchForOrg id orgId draw) db).1 = .ok result →
          result = .notFound ∨ result = .processing) := by
  have run : (deleteBatchForOrg id orgId draw).run db = _ := run_get_bind _ db
  cases found : db.batches.find? fun b => b.id = id ∧ b.orgId = orgId with
  | none =>
      rw [found] at run
      have commits : Txn.Commits (deleteBatchForOrg id orgId draw) db .notFound db := run
      rw [Txn.transaction_of_commits commits]
      refine .inr ⟨fun b member own mine => ?_, rfl, fun _ is => .inl (Except.ok.inj is).symm⟩
      exact absurd ⟨own, mine⟩ (of_decide_eq_false
        (Bool.eq_false_of_not_eq_true (List.find?_eq_none.1 found b member)))
  | some row =>
      have here := List.find?_some found
      rw [decide_eq_true_eq] at here
      obtain ⟨own, mine⟩ := here
      have member := List.mem_of_find?_eq_some found
      have only : ∀ b ∈ db.batches, b.id = id → b = row := fun b inside same =>
        List.inj_on_of_nodup_map ids inside member (same.trans own.symm)
      rw [found] at run
      dsimp only at run
      by_cases processing : row.status = .processing
      · rw [if_pos processing] at run
        have commits : Txn.Commits (deleteBatchForOrg id orgId draw) db .processing db := run
        rw [Txn.transaction_of_commits commits]
        refine .inr ⟨fun b inside same _ idle => ?_, rfl, fun _ is => .inr (Except.ok.inj is).symm⟩
        exact absurd (only b inside same ▸ processing) idle
      rw [if_neg processing] at run
      by_cases small : row.status.Claimable → Int4 row.totalRows
      · obtain ⟨refunded, db', commits⟩ := refundDeleted_commits small draw db
        refine .inl ⟨row, member, own, mine, processing, small, refunded,
          db'.deleteBatches fun b => b.id = row.id, run.trans ?_, fun b left => ?_⟩
        · exact (Txn.commits_bind _ _ _ _ _).2 ⟨refunded, db', commits, rfl⟩
        · exact own ▸ (mem_deleteBatches.1 left).2
      · obtain ⟨claimable, large⟩ := Classical.not_imp.1 small
        rw [refundDeleted, if_pos claimable, bind_assoc,
          run_insertLedgerOnConflictDoNothing_bind, if_pos] at run
        · rw [Txn.transaction_of_error run]
          refine .inr ⟨fun b inside same _ _ => ?_, rfl, fun _ no => (by cases no)⟩
          rw [only b inside same]
          exact ⟨claimable, large⟩
        · exact fun fits => large ((refundEntry_fits (.inr (.inr rfl))).1 fits)

theorem endsInert_deleteBatch (quiet : Quiet orgId service) (id : Uuid)
    (actorUserId actorApiKeyId : Option Uuid) :
    EndsInert orgId (deleteBatch orgId id actorUserId actorApiKeyId) service ↔
      ¬ BatchExposed orgId id service.next := by
  obtain ⟨tables, same⟩ := (quiet.finds service.ran.length).tables
  have ids : (service.next.db.batches.map (·.id)).Nodup := by
    rw [Service.next, ← same]
    exact tables.batchIds
  unfold deleteBatch EndsInert
  rw [Interruptible.ends_bind, ends_transact]
  rcases deleteBatchForOrg_cases ids id service.next.draw with
    ⟨row, member, own, mine, idle, small, refunded, db', commits, gone⟩ | ⟨none_, kept, refused⟩
  · -- the batch is gone from the rows of the organisation, whatever comes after
    refine iff_of_false (fun inert => ?_) (not_not.2 ⟨row, member, own, mine, idle, small⟩)
    have after := inert.1 _ (by rw [Txn.transaction_of_commits commits])
    have writes : Ends _ _ _ _ := after
    rw [Interruptible.ends_bind, audit, ends_transact] at writes
    have ended := writes.1 () rfl
    have spared := ended.2 ⟨service.next, service.next.after _⟩
      (List.mem_append_left _ (List.mem_append_right _ List.mem_cons_self))
    have left : row ∈ (Moment.after service.next
        fun m => deleteBatchForOrg id orgId m.draw).db.batches.filter fun b => b.orgId = orgId := by
      rw [spared.batches]
      exact List.mem_filter.2 ⟨member, decide_eq_true mine⟩
    have inside := List.mem_of_mem_filter left
    rw [Moment.after, Txn.transaction_of_commits commits] at inside
    exact gone row inside own
  · refine iff_of_true ?_ ?_
    · have after : Quiet orgId (service.leave
          (service.next.after fun m => deleteBatchForOrg id orgId m.draw)) := by
        apply quiet.leave
        rw [Spares, Moment.after, kept]
        exact SameRows.refl orgId service.next.db
      refine ⟨?_, fun _ _ => after.inert fun h => h⟩
      intro result is
      rcases refused result is with rfl | rfl
      · exact after.inert fun h => h
      · exact after.inert fun h => h
    · rintro ⟨b, member, own, mine, idle, small⟩
      obtain ⟨claimable, large⟩ := none_ b member own mine idle
      exact large (small claimable)

/-! ### The usage -/

theorem getChecksPerDay_ok_iff {db : Database} {days : Int} {now : Date} :
    (∃ counts, getChecksPerDay db orgId days now = .ok counts) ↔
      ∀ day ∈ checkDays db orgId (now - days * msPerDay),
        Int4 ((checkDays db orgId (now - days * msPerDay)).count day) := by
  unfold getChecksPerDay
  dsimp only
  split
  · rename_i fits
    exact iff_of_true ⟨_, rfl⟩ fits
  · rename_i large
    exact iff_of_false (fun ⟨_, no⟩ => (by cases no)) large

/-- A query that a reply waits for: it fails, or the request goes on. -/
theorem endsInert_query (quiet : Quiet orgId service) {ε α : Type} {read : Moment → Except ε α}
    {next : α → Handler ProductReply} {readable exposed : Prop}
    (reads : (∃ a, read service.next = .ok a) ↔ readable)
    (behind : ∀ a, EndsInert orgId (next a) (service.leave service.next.toStore) ↔ ¬ exposed) :
    EndsInert orgId (query read >>= next) service ↔ ¬ (readable ∧ exposed) := by
  rw [EndsInert, Interruptible.ends_bind, ends_query, ← reads]
  cases is : read service.next with
  | error e =>
      apply iff_of_true ⟨fun _ no => (by cases no), fun _ _ => quiet.read.inert id⟩
      exact fun ⟨⟨_, no⟩, _⟩ => (by cases no)
  | ok a =>
      simp only [Except.ok.injEq, forall_eq', reduceCtorEq, false_imp_iff, implies_true, and_true,
        exists_eq', true_and]
      exact behind a

theorem endsInert_showUsage {found : ℕ → Moment} (deleted : ∀ k, Deleted orgId (found k))
    (from_ to_ : Option Date) :
    EndsInert orgId (showUsage env orgId from_ to_) ⟨found, []⟩ ↔ ¬ UsageExposed orgId found := by
  have begun : Quiet orgId ⟨found, []⟩ := .begin_ deleted
  unfold showUsage UsageExposed
  refine endsInert_query begun ?_ fun balance =>
    endsInert_query begun.read getLedgerWithRunningBalance_ok_iff fun ledger => ?_
  · exact ⟨fun ⟨_, is⟩ => by_contra fun large =>
      (by cases is.symm.trans (if_neg large)), fun fits => ⟨_, getCreditBalance_ok fits⟩⟩
  · have shown : ∀ (perDay : List DayCount) (service : Service Moment Store),
        EndsInert orgId (pure (.usage balance ledger perDay)) service ↔ ¬ True :=
      fun _ _ => iff_of_false (fun inert => inert.1 trivial) (not_not.2 trivial)
    refine Iff.trans ?_ (not_congr (iff_of_eq (and_true _)))
    exact endsInert_query begun.read.read getChecksPerDay_ok_iff fun perDay => shown perDay _

end Unguarded

/-! ## The law -/

/-- **A request of a deleted organisation is inert exactly when it is not one of the four that
nothing stops.** -/
theorem inert_iff (env : Surroundings) (orgId : Uuid) (request : ProductRequest)
    (found : ℕ → Moment) (deleted : ∀ k, Deleted orgId (found k))
    (own : request.Of env orgId found) :
    Inert env orgId request found ↔ ¬ Exposed env orgId found request := by
  have begun : Quiet orgId ⟨found, []⟩ := .begin_ deleted
  rw [inert_iff_endsInert]
  cases request with
  | api caller route =>
      refine iff_of_true ?_ id
      have orderly : (⟨found, []⟩ : Service Moment Store).Orderly (fun m => ∃ k, m = found k)
          (Spares orgId) := .begin_ fun k => ⟨k, rfl⟩
      refine (Harmless.bind _ (harmless_requireKey env ?_) fun _ no => no.elim).endsInert orderly
      rintro token is m ⟨k, rfl⟩
      exact ⟨deleted k, own token is k⟩
  | dashboard caller route =>
      cases route with
      | emailCheck email smtp =>
          apply endsInert_requireVerified begun own
          intro session mine
          rw [mine]
          exact endsInert_performEmailCheck deleted email smtp
      | phoneCheck phone country =>
          refine iff_of_true (endsInert_behind begun own fun session mine => ?_) not_false
          rw [mine]
          exact harmless_performPhoneCheck env phone country
      | createBatch batchId upload =>
          refine iff_of_true (endsInert_behind begun own fun session mine => ?_) not_false
          rw [mine]
          exact harmless_uploadBatch env batchId upload
      | listBatches cursor =>
          apply endsInert_requireVerified begun own
          intro session mine
          rw [mine]
          exact endsInert_listBatches begun cursor
      | getBatch id =>
          refine iff_of_true (endsInert_behind begun own fun session mine => ?_) not_false
          rw [mine]
          exact harmless_showBatch env id
      | deleteBatch id =>
          apply endsInert_requireVerified begun own
          intro session mine
          rw [mine]
          exact endsInert_deleteBatch begun id _ _
      | usage from_ to_ =>
          apply endsInert_requireVerified begun own
          intro session mine
          rw [mine]
          exact endsInert_showUsage deleted from_ to_
      | deleteAllChecks confirm =>
          refine iff_of_true ?_ id
          exact (Harmless.bind _ (harmless_requireSession own) fun _ no => no.elim).endsInert begun

/-! ### A session that outlives its organisation -/

/-- An organisation with a grant of five credits. -/
def grantedDatabase : Database where
  organizations := [⟨.numbered 7, none, 30, false⟩]
  creditLedger := [grantAt 1 1000]
  emailChecks := []
  phoneChecks := []
  batches := []
  auditEvents := []

/-- The deletion of the organisation, as its event records it. -/
def deletionEvent : AuditEvent :=
  (softDeleteEvent (.numbered 7) (.numbered 6)).row ⟨2000, .numbered 2, .numbered 3, .numbered 4⟩ 2

theorem deletionEvent_date : ∀ e ∈ [deletionEvent], Js.TimeClip (Timestamp.date e.createdAt) := by
  decide

theorem grant_date : ∀ e ∈ [grantAt 1 1000], Js.TimeClip (Timestamp.date e.createdAt) := by
  decide

theorem grant_id : ([grantAt 1 1000].map (·.id)).Nodup := List.nodup_singleton _

theorem deletionEvent_id : ([deletionEvent].map (·.id)).Nodup := List.nodup_singleton _

/-- The tables after the deletion. -/
def deletedTables : Tables where
  organizations := [⟨.numbered 7, some 2000, 30, false⟩]
  creditLedger := [grantAt 1 1000]
  emailChecks := []
  phoneChecks := []
  batches := []
  auditEvents := [deletionEvent]
  ledgerIds := grant_id
  emailCheckIds := List.nodup_nil
  phoneCheckIds := List.nodup_nil
  batchIds := List.nodup_nil
  auditEventIds := deletionEvent_id
  ledgerDates := grant_date
  emailCheckDates := noEmailCheck_dates
  phoneCheckDates := noPhoneCheck_dates
  batchDates := noBatch_dates
  auditEventDates := deletionEvent_date

/-- Every moment after the deletion. -/
def afterDeletion (_ : ℕ) : Moment where
  db := deletedTables.toDatabase
  apiKeys := []
  now := 3
  draw := ⟨3000, .numbered 12, .numbered 13, .numbered 14⟩

theorem afterDeletion_deleted (k : ℕ) : Deleted (.numbered 7) (afterDeletion k) where
  tables := ⟨deletedTables, rfl⟩
  unique := List.nodup_singleton _
  deleted := ⟨⟨.numbered 7, some 2000, 30, false⟩, List.mem_cons_self, rfl, by decide⟩

/-- Surroundings in which nothing happens. -/
def stillSurroundings : Surroundings where
  sha256Hex := fun _ => ""
  toLowerCase := id
  validatePhone := fun _ _ => ⟨none, false, none, none, []⟩
  timeText := fun _ => ""
  cursors := .written
  cachedBalance := none
  engine := fun _ => none
  smtpEnabled := false
  smtpQueue := true
  batchQueue := true
  deleteObjects := fun _ => true
  presignDownload := some
  lastUsedMarker := false
  rateLimit := none

/-- The session of a member, from before the deletion. -/
def oldSession : DashboardCaller where
  session := some ⟨.numbered 6, .numbered 7, .member, true, "token"⟩
  csrf := none

theorem oldSession_own : ∀ session ∈ oldSession.session, session.orgId = .numbered 7 := by
  decide

theorem inert_iff_one_batch :
    Inert stillSurroundings (.numbered 7) (.dashboard oldSession (.getBatch (.numbered 1)))
      afterDeletion :=
  (inert_iff stillSurroundings (.numbered 7) (.dashboard oldSession (.getBatch (.numbered 1)))
    afterDeletion afterDeletion_deleted oldSession_own).2 id

/-- **The usage of a deleted organisation is shown to a session it left behind.** -/
theorem deleted_organization_shows_usage :
    Txn.transaction (softDeleteOrganization (.numbered 7) (.numbered 6)
        ⟨2000, .numbered 2, .numbered 3, .numbered 4⟩ 2) grantedDatabase =
      (.ok true, (afterDeletion 0).db) ∧
    (∀ k, Deleted (.numbered 7) (afterDeletion k)) ∧
    (Serving.serve (handle stillSurroundings (.dashboard oldSession (.usage none none)))
        afterDeletion).1 = .usage 5 [⟨grantAt 1 1000, 5⟩] [] ∧
    ¬ Inert stillSurroundings (.numbered 7) (.dashboard oldSession (.usage none none))
      afterDeletion := by
  have shown : (Serving.serve (handle stillSurroundings (.dashboard oldSession (.usage none none)))
      afterDeletion).1 = .usage 5 [⟨grantAt 1 1000, 5⟩] [] := by decide +kernel
  refine ⟨rfl, afterDeletion_deleted, shown, fun inert => inert.1 ?_⟩
  rw [shown]
  trivial

end Tozalist.Api
