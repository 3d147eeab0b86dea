/-
# Tozalist.Credits.Reservation -- no reservation is lost in a careful run

`Sound` is the invariant of `Custody`: what is in flight is of created batches, every
created batch is reserved for, and every batch of an active organisation is in one of
the stages.  Each action keeps it (`Sound.step`), under the guard `Careful`;
`reservation_kept` is what follows for runs.

`wipe_loses_reservation` is the run a wipe breaks: it removes a batch nobody has
claimed, whose deletion by its own endpoint would have given the credits back.
`refusal_loses_charge` is the run of a job that was accepted and reported as refused.
-/
import Tozalist.Credits.Custody

namespace Tozalist.Credits.Custody

set_option autoImplicit false

open Db
open Settlement (Worker LacksStatus)
open Theory (Run StepOf Executable Txn)
open Theory.Txn (Delivery attempt attempt_store committed committed_cases)
open Theory.Table

/-! ## The invariant -/

/-- Whatever is in flight is of a created batch. -/
structure InFlight (s : Custody) (created : List Created) : Prop where
  requests : ∀ c ∈ s.requests, c ∈ created
  refusals : ∀ c ∈ s.refusals, c ∈ created
  jobs : ∀ i ∈ s.jobs, ∃ c ∈ created, c.batchId = i
  running : ∀ w ∈ s.running, rowCreated w.batch ∈ created
  charged : ∀ i, s.charged i ≠ none → ∃ c ∈ created, c.batchId = i

theorem InFlight.database {s : Custody} {created : List Created} (inFlight : InFlight s created)
    (db : Database) : InFlight { s with db := db } created :=
  ⟨inFlight.requests, inFlight.refusals, inFlight.jobs, inFlight.running, inFlight.charged⟩

structure Sound (s : Custody) : Prop where
  unique : Unique rowKey s.db.batches
  owned : ∀ b ∈ s.db.batches, rowCreated b ∈ s.created
  reserved : ∀ c ∈ s.created, Taken refKey (held c.orgId c.batchId) s.db.creditLedger
  refunds : ∀ o i, Taken refKey (refunded o i) s.db.creditLedger → ∃ n, ⟨o, i, n⟩ ∈ s.created
  named : ∀ c ∈ s.created, ∀ c' ∈ s.created, c.batchId = c'.batchId → c = c'
  sized : ∀ c ∈ s.created, 1 ≤ c.totalRows
  inFlight : InFlight s s.created
  stages : ∀ c ∈ s.created, s.db.ActiveOrg c.orgId → Stage c.totalRows (s.view c)

theorem Initial.sound {s : Custody} (initial : Initial s) : Sound s := by
  constructor
  · rw [initial.batches]
    exact .nil
  · simp [initial.batches]
  · simp [initial.created]
  · simp [initial.creditLedger, Taken]
  · simp [initial.created]
  · simp [initial.created]
  · constructor <;> simp [initial.requests, initial.refusals, initial.jobs, initial.running,
      initial.charged]
  · simp [initial.created]

theorem view_database (s : Custody) (db : Database) (c : Created) :
    ({ s with db := db } : Custody).view c =
      { s.view c with standing := standing db c.orgId c.batchId } := rfl

theorem view_status {s : Custody} {c : Created} {b : Batch}
    (found : rowOf s.db c.batchId = some b) : (s.view c).standing.status = some b.status :=
  congrArg (Option.map fun b : Batch => b.status) found

/-- A creation leaves the views of other batches alone. -/
theorem view_created_of_ne (s : Custody) {row : Batch} {c : Created}
    (other : c.batchId ≠ row.id) (draw : Draw) (requests : List Created) :
    ({ s with
      db := withReservation s.db row draw
      created := s.created ++ [rowCreated row]
      requests := requests } : Custody).view c = s.view c := by
  rw [Custody.view, Custody.view, View.mk.injEq]
  exact ⟨standing_withReservation_of_ne other draw, rfl, rfl⟩

/-- Whoever works on after a step of `w`: as many at most, and those that were there or are
failing. -/
structure Relieves (s : Custody) (w : Worker) (running : List Worker) : Prop where
  others : ∀ i, i ≠ w.batch.id → running.filter (fun x => x.batch.id = i) = s.crewOf i
  fewer : (running.filter fun x => x.batch.id = w.batch.id).length ≤ (s.crewOf w.batch.id).length
  late : ∀ x ∈ running.filter (fun x => x.batch.id = w.batch.id),
    x ∈ (s.crewOf w.batch.id).erase w ∨ x.failing = true
  owned : ∀ x ∈ running, x ∈ s.running ∨ x.batch = w.batch

theorem mem_crewOf {s : Custody} {w : Worker} (present : w ∈ s.running) :
    w ∈ s.crewOf w.batch.id :=
  List.mem_filter.2 ⟨present, decide_eq_true rfl⟩

theorem crew_erase (s : Custody) (w : Worker) (i : Uuid) :
    (s.running.erase w).filter (fun x => x.batch.id = i) = (s.crewOf i).erase w :=
  List.erase_filter.symm

theorem crew_erase_of_ne (s : Custody) {w : Worker} {i : Uuid} (other : i ≠ w.batch.id) :
    (s.running.erase w).filter (fun x => x.batch.id = i) = s.crewOf i := by
  rw [crew_erase]
  apply List.erase_of_not_mem
  intro inside
  exact other (of_decide_eq_true (List.mem_filter.1 inside).2).symm

/-- The worker leaves. -/
theorem Relieves.leave {s : Custody} {w : Worker} : Relieves s w (s.running.erase w) where
  others := fun _ other => crew_erase_of_ne s other
  fewer := by
    rw [crew_erase]
    exact List.length_erase_le
  late := fun x inside => .inl (crew_erase s w w.batch.id ▸ inside)
  owned := fun x inside => .inl (List.mem_of_mem_erase inside)

/-- The worker turns to failing. -/
theorem Relieves.turn {s : Custody} {w : Worker} (present : w ∈ s.running) :
    Relieves s w (⟨w.batch, true⟩ :: s.running.erase w) where
  others := by
    intro i other
    rw [List.filter_cons_of_neg (by simpa using Ne.symm other), crew_erase_of_ne s other]
  fewer := by
    have some_ := List.length_pos_of_mem (mem_crewOf present)
    rw [List.filter_cons_of_pos (by simp), crew_erase, List.length_cons,
      List.length_erase_of_mem (mem_crewOf present)]
    omega
  late := by
    intro x inside
    rw [List.filter_cons_of_pos (by simp), crew_erase] at inside
    rcases List.mem_cons.1 inside with rfl | old
    · exact .inr rfl
    · exact .inl old
  owned := by
    intro x inside
    rcases List.mem_cons.1 inside with rfl | old
    · exact .inr rfl
    · exact .inl (List.mem_of_mem_erase old)

/-- What `Unfinished` says of a batch on its way. -/
theorem Unfinished.stands {s : Custody} {c : Created} (finds : s.Unfinished c)
    (active : s.db.ActiveOrg c.orgId) :
    (s.view c).standing.status ≠ some .done ∧
      ((s.view c).standing.status = none →
        (s.view c).charged = none ∨ (s.view c).standing.refunded = true) := by
  obtain ⟨lacks, spent⟩ := finds active
  constructor
  · intro done
    obtain ⟨b, found, is⟩ := Option.map_eq_some_iff.1 done
    exact lacks b (rowOf_id found).1 (rowOf_id found).2 is
  · intro missing
    have gone : rowOf s.db c.batchId = none := Option.map_eq_none_iff.1 missing
    exact (spent fun b member here => lookup_eq_none.1 gone ⟨b, member, congrArg some here⟩).imp
      id decide_eq_true

/-- What a failure leaves in the database: nothing, or a failed batch. -/
theorem failed_store {db : Database} (unique : Unique rowKey db.batches) (delivery : Delivery)
    (input : FailBatchInput) (draw : Draw) :
    Confined (· = input.batchId) (some input.orgId) db
        (attempt delivery (failBatch input draw) db).2 ∧
      (standing (attempt delivery (failBatch input draw) db).2 input.orgId input.batchId =
          standing db input.orgId input.batchId ∨
        delivery ≠ .lostBefore ∧
          standing (attempt delivery (failBatch input draw) db).2 input.orgId input.batchId =
            (standing db input.orgId input.batchId).fail input.reservedCredits) := by
  rcases attempt_store delivery (failBatch input draw) db with same | ⟨effective, _, commits⟩
  · rw [same]
    exact ⟨.aside unique rfl rfl (fun _ => id) _, .inl rfl⟩
  · obtain ⟨confined, failed⟩ := failBatch_standing unique commits
    exact ⟨confined, .inr ⟨effective, failed⟩⟩

theorem settled_of_ne (s : Custody) (input : CompleteBatchInput) (answer : Option Unit)
    {i : Uuid} (other : i ≠ input.batchId) : s.settled input answer i = s.charged i := by
  cases answer with
  | none => rfl
  | some u =>
      rw [settled]
      split
      · exact Function.update_of_ne other _ _
      · rfl

/-- A completion that took effect is recorded where the batch has a row. -/
theorem settled_own (s : Custody) (input : CompleteBatchInput) (u : Unit) (orgId : Uuid) :
    s.settled input (some u) input.batchId =
      if (standing s.db orgId input.batchId).status = none then s.charged input.batchId
      else some input.chargedCredits := by
  rw [settled, standing]
  cases found : rowOf s.db input.batchId with
  | none =>
      have missing : ¬ ∃ b ∈ s.db.batches, b.id = input.batchId := by
        rintro ⟨b, member, here⟩
        exact lookup_eq_none.1 found ⟨b, member, congrArg some here⟩
      rw [if_neg missing]
      rfl
  | some b =>
      rw [if_pos ⟨b, rowOf_id found⟩, Function.update_self]
      rfl

namespace Sound

variable {s : Custody} (sound : Sound s)

include sound

/-- **The frame rule.**  A step that touches the batches of `ids` has to answer for their
stages alone, and for what is in flight after it. -/
theorem frame {s' : Custody} {ids : Uuid → Prop} {payee : Option Uuid}
    (confined : Confined ids payee s.db s'.db)
    (payees : ∀ o i, payee = some o → ids i → ∃ n, ⟨o, i, n⟩ ∈ s.created)
    (created : s'.created = s.created) (inFlight : InFlight s' s.created)
    (stages : ∀ c ∈ s.created, s.db.ActiveOrg c.orgId →
      (¬ ids c.batchId → (s'.view c).standing = (s.view c).standing) →
      Stage c.totalRows (s.view c) → Stage c.totalRows (s'.view c)) :
    Sound s' where
  unique := confined.unique
  owned := by
    rw [created]
    exact confined.inherits.created sound.owned
  reserved := by
    rw [created]
    exact fun c member => confined.ledger _ (sound.reserved c member)
  refunds := by
    rw [created]
    intro o i taken
    rcases confined.refunds o i taken with before | ⟨paid, touched⟩
    · exact sound.refunds o i before
    · exact payees o i paid touched
  named := by
    rw [created]
    exact sound.named
  sized := by
    rw [created]
    exact sound.sized
  inFlight := by
    rw [created]
    exact inFlight
  stages := by
    rw [created]
    intro c member active
    have before := confined.active _ active
    exact stages c member before (confined.others _ _ (sound.reserved c member))
      (sound.stages c member before)

/-- A step on the database alone, which touches no batch. -/
theorem aside {db : Database} (confined : Confined (fun _ => False) none s.db db) :
    Sound { s with db := db } :=
  sound.frame confined (fun _ _ => nofun) rfl (sound.inFlight.database db)
    fun c _ _ same stage => by
    have unchanged : standing db c.orgId c.batchId = (s.view c).standing := same id
    rw [view_database, unchanged]
    exact stage

/-- A transaction on the database alone, whose commits touch no batch. -/
theorem transaction {α : Type} {body : Tx α}
    (commit : ∀ result db, Txn.Commits body s.db result db → Sound { s with db := db }) :
    Sound { s with db := (Txn.transaction body s.db).2 } := by
  rcases Txn.transaction_store body s.db with same | ⟨result, commits⟩
  · rw [same]
    exact sound
  · exact commit result _ commits

/-! ### Credits, and deletion of an organisation -/

theorem grant (sha256Hex : JsString → String) (input : GrantInput) (draw : Draw) (now : Date) :
    Sound { s with db := (grantCreditsWithAudit sha256Hex input draw now s.db).2 } := by
  rcases grantCreditsWithAudit_cases sha256Hex input draw now s.db with same | ⟨-, fresh, after⟩
  · rw [same]
    exact sound
  · rw [after]
    refine sound.aside (Confined.entry sound.unique ?_ ?_ ?_ fresh ?_ _)
    · rfl
    · rfl
    · rfl
    · exact refKey_grantEntry_ne _ _ _ _

/-- The debit of a check, with whatever else it wrote. -/
theorem check {orgId checkId : Uuid} {draw : Draw} {db : Database}
    (fresh : ¬ Conflicts (checkEntry orgId checkId draw) s.db.creditLedger)
    (batches : db.batches = s.db.batches)
    (ledger : db.creditLedger = s.db.creditLedger ++ [checkEntry orgId checkId draw])
    (organizations : db.organizations = s.db.organizations) : Sound { s with db := db } :=
  sound.aside (.entry sound.unique batches ledger organizations fresh
    (refKey_checkEntry_ne _ _ _) _)

theorem emailCheck (input : NewEmailCheckInput) (draw : Draw) (now : Date) :
    Sound { s with
      db := (Txn.transaction (createEmailCheckWithDebit input draw now) s.db).2 } := by
  apply sound.transaction
  intro result db commits
  rcases createEmailCheckWithDebit_commits commits with
    rfl | ⟨org, check, -, -, -, -, -, fresh, rfl⟩
  · exact sound
  · exact sound.check fresh rfl rfl rfl

theorem phoneCheck (input : NewPhoneCheckInput) (draw : Draw) (now : Date) :
    Sound { s with
      db := (Txn.transaction (createPhoneCheckWithDebit input draw now) s.db).2 } := by
  apply sound.transaction
  intro result db commits
  rcases createPhoneCheckWithDebit_commits commits with
    rfl | ⟨org, check, -, -, -, -, -, fresh, rfl⟩
  · exact sound
  · exact sound.check fresh rfl rfl rfl

theorem softDelete (orgId actorUserId : Uuid) (draw : Draw) (now : Date) :
    Sound { s with
      db := (Txn.transaction (softDeleteOrganization orgId actorUserId draw now) s.db).2 } := by
  apply sound.transaction
  intro result db commits
  obtain ⟨ledger, batches, active⟩ := softDeleteOrganization_commits commits
  exact sound.aside (.aside sound.unique batches ledger active _)

/-! ### Upload -/

/-- What is in flight after a creation is of batches on record. -/
theorem inFlight_created (row : Batch) (draw : Draw) {requests : List Created}
    (asked : ∀ c ∈ requests, c ∈ s.requests ∨ c = rowCreated row) :
    InFlight { s with
      db := withReservation s.db row draw
      created := s.created ++ [rowCreated row]
      requests := requests } (s.created ++ [rowCreated row]) := by
  have old : ∀ {c}, c ∈ s.created → c ∈ s.created ++ [rowCreated row] :=
    fun member => List.mem_append_left _ member
  refine ⟨?_, fun c member => old (sound.inFlight.refusals c member), ?_,
    fun w member => old (sound.inFlight.running w member), ?_⟩
  · intro c member
    rcases asked c member with inside | rfl
    · exact old (sound.inFlight.requests c inside)
    · exact List.mem_append_right _ (List.mem_singleton.2 rfl)
  · intro i member
    obtain ⟨c, known, same⟩ := sound.inFlight.jobs i member
    exact ⟨c, old known, same⟩
  · intro i some_
    obtain ⟨c, known, same⟩ := sound.inFlight.charged i some_
    exact ⟨c, old known, same⟩

/-- Of the batch that was created nothing else is known. -/
theorem view_created (row : Batch) {draw : Draw} (pending : row.status = .pending)
    (unknown : ∀ c ∈ s.created, c.batchId ≠ row.id) (free : ∀ b ∈ s.db.batches, b.id ≠ row.id)
    (fresh : ¬ Taken refKey (held row.orgId row.id) s.db.creditLedger)
    (unpaid : ¬ Taken refKey (refunded row.orgId row.id) s.db.creditLedger)
    (requests : List Created) :
    ({ s with
      db := withReservation s.db row draw
      created := s.created ++ [rowCreated row]
      requests := requests } : Custody).view (rowCreated row) =
      ⟨⟨some .pending, false, -row.totalRows⟩, [], none⟩ := by
  have notRunning : s.running.filter (fun w => w.batch.id = row.id) = [] := by
    apply List.filter_eq_nil_iff.2
    intro w inside here
    exact unknown _ (sound.inFlight.running w inside) (of_decide_eq_true here)
  have notCharged : s.charged row.id = none := by
    by_contra some_
    obtain ⟨c, known, same⟩ := sound.inFlight.charged _ some_
    exact unknown c known same
  rw [Custody.view, View.mk.injEq]
  refine ⟨?_, notRunning, notCharged⟩
  rw [← pending]
  exact standing_withReservation free fresh unpaid

/-- A committed creation, with the batch on record, and its request open or lost. -/
theorem created (row : Batch) {draw : Draw} (pending : row.status = .pending)
    (rows : 1 ≤ row.totalRows) (unknown : ∀ c ∈ s.created, c.batchId ≠ row.id)
    (free : ∀ b ∈ s.db.batches, b.id ≠ row.id)
    (fresh : ¬ Taken refKey (held row.orgId row.id) s.db.creditLedger) {requests : List Created}
    (asked : ∀ c ∈ requests, c ∈ s.requests ∨ c = rowCreated row) :
    Sound { s with
      db := withReservation s.db row draw
      created := s.created ++ [rowCreated row]
      requests := requests } := by
  have unpaid : ¬ Taken refKey (refunded row.orgId row.id) s.db.creditLedger := by
    intro taken
    obtain ⟨n, known⟩ := sound.refunds _ _ taken
    exact unknown _ known rfl
  have old : ∀ {c}, c ∈ s.created → c ∈ s.created ++ [rowCreated row] :=
    fun member => List.mem_append_left _ member
  have new : rowCreated row ∈ s.created ++ [rowCreated row] :=
    List.mem_append_right _ (List.mem_singleton.2 rfl)
  constructor
  · refine sound.unique.insert fun k key ⟨b, member, same⟩ => ?_
    obtain rfl := Option.some.inj key
    exact free b member (Option.some.inj same)
  · intro b member
    rcases List.mem_append.1 member with inside | last
    · exact old (sound.owned b inside)
    · obtain rfl := List.mem_singleton.1 last
      exact new
  · intro c member
    apply (taken_append [reservationEntry row.orgId row.id row.totalRows draw]).2
    rcases List.mem_append.1 member with inside | last
    · exact .inl (sound.reserved c inside)
    · obtain rfl := List.mem_singleton.1 last
      exact .inr (taken_singleton.2 rfl)
  · intro o i taken
    rcases (taken_append [reservationEntry row.orgId row.id row.totalRows draw]).1 taken with
      before | now
    · obtain ⟨n, known⟩ := sound.refunds o i before
      exact ⟨n, old known⟩
    · have clash : refKey (reservationEntry row.orgId row.id row.totalRows draw) = _ :=
        taken_singleton.1 now
      simp at clash
  · intro c member c' member' same
    rcases List.mem_append.1 member with inside | last <;>
      rcases List.mem_append.1 member' with inside' | last'
    · exact sound.named c inside c' inside' same
    · obtain rfl := List.mem_singleton.1 last'
      exact absurd same (unknown c inside)
    · obtain rfl := List.mem_singleton.1 last
      exact absurd same.symm (unknown c' inside')
    · rw [List.mem_singleton.1 last, List.mem_singleton.1 last']
  · intro c member
    rcases List.mem_append.1 member with inside | last
    · exact sound.sized c inside
    · obtain rfl := List.mem_singleton.1 last
      exact rows
  · exact sound.inFlight_created row draw asked
  · intro c member active
    rcases List.mem_append.1 member with inside | last
    · rw [view_created_of_ne s (unknown c inside) draw]
      exact sound.stages c inside active
    · obtain rfl := List.mem_singleton.1 last
      rw [sound.view_created row pending unknown free fresh unpaid]
      exact .waiting (.inl rfl)

/-! ### The way of one batch -/

/-- A step for one batch: the others keep their crews, and what they were charged. -/
theorem single {c₀ : Created} (known : c₀ ∈ s.created) {s' : Custody}
    (confined : Confined (· = c₀.batchId) (some c₀.orgId) s.db s'.db)
    (created : s'.created = s.created) (inFlight : InFlight s' s.created)
    (crews : ∀ i, i ≠ c₀.batchId → s'.crewOf i = s.crewOf i)
    (charges : ∀ i, i ≠ c₀.batchId → s'.charged i = s.charged i)
    (target : s.db.ActiveOrg c₀.orgId → Stage c₀.totalRows (s.view c₀) →
      Stage c₀.totalRows (s'.view c₀)) : Sound s' := by
  refine sound.frame confined ?_ created inFlight fun c member active same stage => ?_
  · rintro o i paid rfl
    obtain rfl := Option.some.inj paid
    exact ⟨c₀.totalRows, known⟩
  · by_cases here : c = c₀
    · subst here
      exact target active stage
    · have apart : c.batchId ≠ c₀.batchId := fun clash => here (sound.named c member c₀ known clash)
      have view : s'.view c = s.view c := by
        rw [Custody.view, Custody.view, View.mk.injEq]
        exact ⟨same apart, crews _ apart, charges _ apart⟩
      rw [view]
      exact stage

/-- Requests are answered, and jobs accepted. -/
theorem transit {requests refusals : List Created} {jobs : List Uuid}
    (asked : ∀ c ∈ requests, c ∈ s.created) (refused : ∀ c ∈ refusals, c ∈ s.created)
    (queued : ∀ i ∈ jobs, ∃ c ∈ s.created, c.batchId = i) :
    Sound { s with requests := requests, refusals := refusals, jobs := jobs } where
  unique := sound.unique
  owned := sound.owned
  reserved := sound.reserved
  refunds := sound.refunds
  named := sound.named
  sized := sound.sized
  inFlight := ⟨asked, refused, queued, sound.inFlight.running, sound.inFlight.charged⟩
  stages := sound.stages

theorem enqueue (sha256Hex : JsString → String) {c : Created} (requested : c ∈ s.requests)
    (accepted reported : Bool) : Sound (s.after sha256Hex (.enqueue c accepted reported)) := by
  have known := sound.inFlight.requests c requested
  apply sound.transit fun r member => sound.inFlight.requests r (List.mem_of_mem_erase member)
  · intro r member
    cases reported with
    | true => exact sound.inFlight.refusals r member
    | false =>
        rcases List.mem_cons.1 member with rfl | old
        · exact known
        · exact sound.inFlight.refusals r old
  · intro i member
    cases accepted with
    | false => exact sound.inFlight.jobs i member
    | true =>
        rcases List.mem_cons.1 member with rfl | old
        · exact ⟨c, known, rfl⟩
        · exact sound.inFlight.jobs i old

theorem refuse (sha256Hex : JsString → String) {c : Created} (told : c ∈ s.refusals) {draw : Draw}
    {delivery : Delivery} (careful : s.Careful (.refuse c draw delivery)) :
    Sound (s.after sha256Hex (.refuse c draw delivery)) := by
  have known := sound.inFlight.refusals c told
  obtain ⟨confined, stands⟩ := failed_store sound.unique delivery (queueUnavailable c) draw
  refine sound.single known confined rfl ⟨sound.inFlight.requests, ?_, sound.inFlight.jobs,
    sound.inFlight.running, sound.inFlight.charged⟩ (fun _ _ => rfl) (fun _ _ => rfl) ?_
  · exact fun r member => sound.inFlight.refusals r (List.mem_of_mem_erase member)
  · intro active stage
    show Stage _ ⟨standing (attempt delivery (failBatch (queueUnavailable c) draw) s.db).2
      (queueUnavailable c).orgId (queueUnavailable c).batchId, s.crewOf c.batchId, _⟩
    rcases stands with same | ⟨effective, failed⟩
    · rw [same]
      exact stage
    · obtain ⟨notDone, spent⟩ := (careful effective).stands active
      rw [failed]
      exact stage.fail (sound.sized c known) notDone spent

/-- A claim that took effect, with the worker that heard of it. -/
theorem claimed {c₀ : Created} (known : c₀ ∈ s.created) {row : Batch}
    (found : rowOf s.db c₀.batchId = some row) (claimable : row.status.Claimable) {db : Database}
    (confined : Confined (· = c₀.batchId) (some c₀.orgId) s.db db)
    (stands : standing db c₀.orgId c₀.batchId = (standing s.db c₀.orgId c₀.batchId).claim)
    {crew : List Worker} (own : ∀ w ∈ crew, w.batch = row.claim) (one : crew.length ≤ 1) :
    Sound { s with db := db, running := crew ++ s.running } := by
  obtain ⟨member, here⟩ := rowOf_id found
  have id_ : ∀ w ∈ crew, w.batch.id = c₀.batchId := fun w inside => by
    rw [own w inside]
    exact here
  refine sound.single known confined rfl ?_ ?_ (fun _ _ => rfl) fun _ stage => ?_
  · refine ⟨sound.inFlight.requests, sound.inFlight.refusals, sound.inFlight.jobs, ?_,
      sound.inFlight.charged⟩
    intro w inside
    rcases List.mem_append.1 inside with new | old
    · rw [own w new]
      exact sound.owned row member
    · exact sound.inFlight.running w old
  · intro i apart
    have nobody : crew.filter (fun w => w.batch.id = i) = [] :=
      List.filter_eq_nil_iff.2 fun w inside same =>
        apart ((of_decide_eq_true same).symm.trans (id_ w inside))
    show (crew ++ s.running).filter _ = _
    rw [List.filter_append, nobody]
    rfl
  · have all : crew.filter (fun w => w.batch.id = c₀.batchId) = crew :=
      List.filter_eq_self.2 fun w inside => decide_eq_true (id_ w inside)
    have view : ({ s with db := db, running := crew ++ s.running } : Custody).view c₀ =
        { s.view c₀ with
          standing := (s.view c₀).standing.claim
          crew := crew ++ (s.view c₀).crew } := by
      rw [Custody.view, Custody.view, View.mk.injEq]
      refine ⟨stands, ?_, rfl⟩
      show (crew ++ s.running).filter _ = _
      rw [List.filter_append, all]
      rfl
    rw [view]
    exact stage.claim (view_status found) claimable one

theorem deliver (sha256Hex : JsString → String) {batchId : Uuid} (queued : batchId ∈ s.jobs)
    (delivery : Delivery) : Sound (s.after sha256Hex (.deliver batchId delivery)) := by
  obtain ⟨c₀, known, rfl⟩ := sound.inFlight.jobs batchId queued
  obtain ⟨result, db, transaction, confined, lost | ⟨row, found, claimable, won, -, stands⟩⟩ :=
    claimBatch_standing sound.unique c₀.batchId (some c₀.orgId)
  · obtain ⟨nothing, rfl, -⟩ := lost
    cases delivery with
    | lostBefore => exact sound
    | lostAfter =>
        simp only [Custody.after, attempt, transaction]
        exact sound
    | answered =>
        cases result with
        | notClaimable =>
            simp only [Custody.after, attempt, transaction]
            exact sound
        | claimed batch days => cases nothing
        | orgUnavailable batch => cases nothing
  · have ready : ∀ crew : List Worker, (∀ w ∈ crew, w.batch = row.claim) → crew.length ≤ 1 →
        Sound { s with db := db, running := crew ++ s.running } := fun _ =>
      sound.claimed known found claimable confined (stands c₀.orgId)
    have alone : ∀ failing, ∀ w ∈ [(⟨row.claim, failing⟩ : Worker)], w.batch = row.claim := by
      intro failing w member
      rw [List.mem_singleton.1 member]
    cases delivery with
    | lostBefore => exact sound
    | lostAfter =>
        simp only [Custody.after, attempt, transaction]
        exact ready [] (List.forall_mem_nil _) (Nat.zero_le 1)
    | answered =>
        cases result with
        | notClaimable => cases won
        | claimed batch days =>
            obtain rfl := Option.some.inj won
            simp only [Custody.after, attempt, transaction]
            exact ready [_] (alone false) le_rfl
        | orgUnavailable batch =>
            obtain rfl := Option.some.inj won
            simp only [Custody.after, attempt, transaction]
            exact ready [_] (alone true) le_rfl

/-- A step of a worker, with whatever it did to its batch. -/
theorem worked {w : Worker} (present : w ∈ s.running) {running : List Worker}
    (relieves : Relieves s w running) {db : Database} {charged : Uuid → Option ℕ}
    (confined : Confined (· = w.batch.id) (some w.batch.orgId) s.db db)
    (charges : ∀ i, i ≠ w.batch.id → charged i = s.charged i)
    (target : s.db.ActiveOrg w.batch.orgId →
      Stage w.batch.totalRows (s.view (rowCreated w.batch)) →
      Stage w.batch.totalRows
        ⟨standing db w.batch.orgId w.batch.id, running.filter (fun x => x.batch.id = w.batch.id),
          charged w.batch.id⟩) :
    Sound { s with db := db, running := running, charged := charged } := by
  have known := sound.inFlight.running w present
  refine sound.single known confined rfl ?_ relieves.others charges target
  refine ⟨sound.inFlight.requests, sound.inFlight.refusals, sound.inFlight.jobs, ?_, ?_⟩
  · intro x inside
    rcases relieves.owned x inside with old | same
    · exact sound.inFlight.running x old
    · rw [same]
      exact known
  · intro i some_
    by_cases here : i = w.batch.id
    · exact ⟨_, known, here.symm⟩
    · exact sound.inFlight.charged i (charges i here ▸ some_)

/-- A step of a worker that the database does not see. -/
theorem unseen {w : Worker} (present : w ∈ s.running) {running : List Worker}
    (relieves : Relieves s w running) : Sound { s with running := running } := by
  apply sound.worked present relieves (.aside sound.unique rfl rfl (fun _ => id) _)
    (fun _ _ => rfl)
  intro _ stage
  exact stage.relieve relieves.fewer fun x inside =>
    (relieves.late x inside).imp_left List.mem_of_mem_erase

theorem complete (sha256Hex : JsString → String) {w : Worker} {input : CompleteBatchInput}
    {draw : Draw} {now : Date} {delivery : Delivery}
    (allowed : s.Allows (.complete w input draw now delivery))
    (careful : s.Careful (.complete w input draw now delivery)) :
    Sound (s.after sha256Hex (.complete w input draw now delivery)) := by
  obtain ⟨present, active, own, le⟩ := allowed
  obtain ⟨orgId, id, rows⟩ := Created.mk.inj own
  rw [Custody.after]
  rcases committed_cases delivery (completeBatch input draw now) s.db with
    ⟨nothing, eq⟩ | ⟨u, db, commits, effective, took, eq⟩
  · simp only [eq, nothing]
    exact sound.unseen present (.turn present)
  · obtain ⟨confined, unpaid, stands⟩ := completeBatch_standing sound.unique commits
    have settles := settled_own s input u input.orgId
    rw [orgId, id] at confined
    rw [orgId, id, rows] at stands unpaid
    rw [orgId, id] at settles
    have finished : ∀ running, Relieves s w running →
        Sound { s with
          db := db
          running := running
          charged := s.settled input (some u) } := by
      intro running relieves
      refine sound.worked present relieves confined
        (fun i other => settled_of_ne s input _ (id ▸ other)) fun live stage => ?_
      rw [stands, settles]
      refine stage.complete (mem_crewOf present) active (rows ▸ le) unpaid ?_ relieves.late
      intro full failed
      obtain ⟨b, found, is⟩ := Option.map_eq_some_iff.1 failed
      exact careful effective live (rows ▸ full) b (rowOf_id found).1 (rowOf_id found).2 is
    rcases eq with eq | eq
    · simp only [eq, took]
      exact finished _ .leave
    · simp only [eq, took]
      exact finished _ (.turn present)

theorem fail (sha256Hex : JsString → String) {w : Worker} (present : w ∈ s.running)
    {error : String} {draw : Draw} {delivery : Delivery}
    (careful : s.Careful (.fail w error draw delivery)) :
    Sound (s.after sha256Hex (.fail w error draw delivery)) := by
  obtain ⟨confined, stands⟩ := failed_store sound.unique delivery (failInput w.batch error) draw
  have leaves : Relieves s w (s.running.erase w) := .leave
  refine sound.worked present leaves confined (fun _ _ => rfl) fun active stage => ?_
  have relieved := stage.relieve leaves.fewer fun x inside =>
    (leaves.late x inside).imp_left List.mem_of_mem_erase
  show Stage _ ⟨standing _ (failInput w.batch error).orgId (failInput w.batch error).batchId, _, _⟩
  rcases stands with same | ⟨effective, failed⟩
  · rw [same]
    exact relieved
  · obtain ⟨notDone, spent⟩ := (careful effective).stands active
    rw [failed]
    exact relieved.fail (sound.sized _ (sound.inFlight.running w present)) notDone spent

/-! ### Removal -/

/-- Rows go, those of active organisations at their end. -/
theorem removed (p : Batch → Prop) [DecidablePred p] {db : Database}
    (batches : db.batches = (s.db.deleteBatches p).batches)
    (ledger : db.creditLedger = s.db.creditLedger)
    (organizations : db.organizations = s.db.organizations)
    (same : ∀ b ∈ s.db.batches, ∀ b' ∈ s.db.batches, b.id = b'.id → p b → p b')
    (ended : ∀ b ∈ s.db.batches, p b → s.db.ActiveOrg b.orgId → b.status.Terminal) :
    Sound { s with db := db } := by
  have confined : Confined _ none s.db db :=
    (Confined.delete sound.unique p).congr batches ledger organizations
  refine sound.frame confined (fun _ _ => nofun) rfl (sound.inFlight.database db) ?_
  intro c known active spared stage
  by_cases touched : ∃ b ∈ s.db.batches, b.id = c.batchId ∧ p b
  · obtain ⟨b, member, here, selected⟩ := touched
    have found : rowOf s.db c.batchId = some b := sound.unique.lookup_eq member (congrArg some here)
    obtain rfl : rowCreated b = c := sound.named _ (sound.owned b member) c known here
    have gone : standing db b.orgId b.id = (standing s.db b.orgId b.id).remove := by
      rw [standing_congr batches ledger]
      apply standing_delete sound.unique p
      intro b' found'
      exact same b member b' (rowOf_id found').1 (rowOf_id found').2.symm selected
    have gone : standing db (rowCreated b).orgId (rowCreated b).batchId = _ := gone
    rw [view_database, gone]
    apply stage.remove
    intro status present
    rw [view_status found] at present
    obtain rfl := Option.some.inj present
    exact ended b member selected active
  · have unchanged : standing db c.orgId c.batchId = (s.view c).standing := spared touched
    rw [view_database, unchanged]
    exact stage

theorem wipe {orgId : Uuid} {deleteObjects : List String → Bool}
    (careful : s.Careful (.wipe orgId deleteObjects)) :
    Sound { s with
      db := (Txn.transaction (wipeCheckDataForOrg orgId deleteObjects) s.db).2 } := by
  apply sound.transaction
  intro result db commits
  rcases wipeCheckDataForOrg_commits commits with rfl | ⟨active, objects, rfl⟩
  · exact sound
  · refine sound.removed (fun b => b.orgId = orgId) rfl rfl rfl ?_ ?_
    · intro b member b' member' same owner
      have one := sound.named _ (sound.owned b member) _ (sound.owned b' member') same
      rw [← owner]
      exact (congrArg Created.orgId one).symm
    · intro b member owner _
      exact careful active objects b member owner

theorem sweep {page : List BatchPurgeTarget} (careful : s.Careful (.sweepDelete page)) :
    Sound { s with
      db := (Txn.transaction (deleteBatchesByIds (page.map (·.id))) s.db).2 } := by
  rw [deleteBatchesByIds_transaction]
  refine sound.removed (fun b => b.id ∈ page.map BatchPurgeTarget.id) rfl rfl rfl ?_
    careful
  intro b _ b' _ same listed
  rw [← same]
  exact listed

/-- A deletion by the organisation refuses a batch in processing, and refunds one that
waits. -/
theorem delete (batchId orgId : Uuid) (draw : Draw) :
    Sound { s with
      db := (Txn.transaction (deleteBatchForOrg batchId orgId draw) s.db).2 } := by
  apply sound.transaction
  intro result db commits
  rcases deleteBatch_standing sound.unique commits with
    rfl | ⟨row, found, rfl, confined, stands⟩
  · exact sound
  obtain ⟨member, rfl⟩ := rowOf_id found
  have known := sound.owned row member
  refine sound.single known confined rfl (sound.inFlight.database db) (fun _ _ => rfl)
    (fun _ _ => rfl) fun _ stage => ?_
  rw [view_database]
  have status : (s.view (rowCreated row)).standing.status = some row.status := view_status found
  rcases stands with ⟨ended, gone⟩ | ⟨claimable, gone⟩
  · have gone : standing db (rowCreated row).orgId (rowCreated row).batchId = _ := gone
    rw [gone]
    apply stage.remove
    intro st present
    rw [status] at present
    obtain rfl := Option.some.inj present
    exact ended
  · have gone : standing db (rowCreated row).orgId (rowCreated row).batchId = _ := gone
    rw [gone]
    exact stage.withdraw status claimable

theorem upload (sha256Hex : JsString → String) {input : CreateBatchInput}
    (rows : 1 ≤ input.totalRows) (unknown : ∀ c ∈ s.created, c.batchId ≠ input.batchId)
    (draw : Draw) (now : Date) (delivery : Delivery) :
    Sound (s.after sha256Hex (.upload input draw now delivery)) := by
  simp only [Custody.after]
  rcases committed_cases delivery (createBatchWithReservation input draw now) s.db with
    ⟨nothing, eq⟩ | ⟨result, db, commits, -, took, eq⟩
  · simp only [eq, nothing, recorded]
    exact sound
  rcases createBatchWithReservation_commits commits with
    ⟨nothing, rfl⟩ | ⟨org, -, -, -, done, -, -, free, fresh, rfl⟩
  · cases result with
    | created batch balance => exact (nothing trivial).elim
    | insufficient balance shortfall =>
        rcases eq with eq | eq <;> (simp only [eq, took, recorded]; exact sound)
    | orgUnavailable =>
        rcases eq with eq | eq <;> (simp only [eq, took, recorded]; exact sound)
  · cases result with
    | insufficient balance shortfall => exact done.elim
    | orgUnavailable => exact done.elim
    | created batch balance =>
        have available := free_of_not_conflicts fresh _ rfl
        rcases eq with eq | eq
        · simp only [eq, took, recorded]
          exact sound.created (input.row draw _) rfl rows unknown free available
            fun c member => (List.mem_cons.1 member).symm
        · simp only [eq, took, recorded]
          exact sound.created (input.row draw _) rfl rows unknown free available
            fun c member => .inl member

/-- The pages of the sweep are nobody's batch. -/
theorem listing (pages : List (List BatchPurgeTarget)) : Sound { s with pages := pages } where
  unique := sound.unique
  owned := sound.owned
  reserved := sound.reserved
  refunds := sound.refunds
  named := sound.named
  sized := sound.sized
  inFlight := ⟨sound.inFlight.requests, sound.inFlight.refusals, sound.inFlight.jobs,
    sound.inFlight.running, sound.inFlight.charged⟩
  stages := sound.stages

/-- **A careful action keeps the invariant.** -/
theorem step (sha256Hex : JsString → String) {a : Action} {s' : Custody}
    (careful : s.Careful a) (steps : Custody.step sha256Hex s a s') : Sound s' := by
  obtain ⟨allowed, rfl⟩ := steps
  cases a with
  | grant input draw now => exact sound.grant sha256Hex input draw now
  | emailCheck input draw now => exact sound.emailCheck input draw now
  | phoneCheck input draw now => exact sound.phoneCheck input draw now
  | softDelete orgId actorUserId draw now => exact sound.softDelete orgId actorUserId draw now
  | upload input draw now delivery =>
      exact sound.upload sha256Hex allowed.1 allowed.2 draw now delivery
  | enqueue c accepted reported => exact sound.enqueue sha256Hex allowed.1 accepted reported
  | refuse c draw delivery => exact sound.refuse sha256Hex allowed careful
  | deliver batchId delivery => exact sound.deliver sha256Hex allowed delivery
  | stumble w => exact sound.unseen allowed.1 (.turn allowed.1)
  | complete w input draw now delivery => exact sound.complete sha256Hex allowed careful
  | fail w error draw delivery => exact sound.fail sha256Hex allowed.1 careful
  | die w => exact sound.unseen allowed .leave
  | delete batchId orgId draw => exact sound.delete batchId orgId draw
  | wipe orgId deleteObjects => exact sound.wipe careful
  | sweepList now limit page => exact sound.listing _
  | sweepDelete page => exact (sound.sweep careful).listing _

theorem kept : Kept s := by
  intro c known active ended
  have stage := sound.stages c known active
  obtain ⟨paid, nothing⟩ := stage.settled fun status present => by
    obtain ⟨b, found, rfl⟩ := Option.map_eq_some_iff.1 present
    exact ended b (rowOf_id found).1 (rowOf_id found).2
  refine ⟨paid, fun failed => nothing ?_⟩
  simp only [LacksStatus, not_forall, not_not] at failed
  obtain ⟨b, member, here, is⟩ := failed
  rw [view_status (sound.unique.lookup_eq member (congrArg some here)), is]

end Sound

/-! ## Runs -/

/-- **No reservation is lost in a careful run.**  In every state it passes through, the rows
of a batch of an active organisation that is gone or at its end sum to what its completed
processing charged, or to nothing. -/
theorem reservation_kept {sha256Hex : JsString → String} {s t : Custody}
    {tr : List (Theory.Transition Custody Action)} (initial : Initial s)
    (run : Run (step sha256Hex) s tr t) (careful : ∀ e ∈ tr, e.source.Careful e.action) :
    Kept t ∧ ∀ e ∈ tr, Kept e.source ∧ Kept e.target := by
  have keep : ∀ s a t, Sound s → s.Careful a → step sha256Hex s a t → Sound t :=
    fun s a t sound guard steps => sound.step sha256Hex guard steps
  obtain ⟨here, before⟩ := run.invariant_of_guarded keep careful initial.sound
  exact ⟨here.kept, fun e member => ⟨(before e member).1.kept, (before e member).2.kept⟩⟩

/-- One organisation, and nothing in flight. -/
def start : Custody where
  db := oneOrganization.db
  created := []
  requests := []
  refusals := []
  jobs := []
  running := []
  pages := []
  charged := fun _ => none

theorem start_initial : Initial start := ⟨rfl, rfl, rfl, rfl, rfl, rfl, rfl, rfl⟩

/-- A grant of a hundred credits and a batch of ten rows. -/
def uploaded : List Action :=
  [.grant ⟨.numbered 1, 100, Js.ofString "INV-1"⟩ (drawn 1) 0,
    .upload ⟨.numbered 2, .numbered 1, "list.csv", 10, "in", ⟨0, true, 0, 0, 0, 0, 0,
      ⟨0, 0, 0, 0⟩⟩⟩ (drawn 2) 0 .answered]

/-- The job is accepted and reported as refused; the route's failure of the batch takes effect
as `refusal` says, and the worker charges `charged` credits. -/
def processed (refusal : Delivery) (charged : ℕ) : List Action :=
  uploaded ++
    [.enqueue ⟨.numbered 1, .numbered 2, 10⟩ true false,
      .deliver (.numbered 2) .answered,
      .refuse ⟨.numbered 1, .numbered 2, 10⟩ (drawn 3) refusal,
      .complete ⟨Settlement.claimedRow, false⟩ ⟨.numbered 2, .numbered 1, "out", 10,
        ⟨0, true, 0, charged, 0, 10 - charged, 0, ⟨charged, 10 - charged, 0, 0⟩⟩, charged, 10, 30⟩
        (drawn 4) 0 .answered]

/-- The failure of the route is lost, the batch charges four credits, and is wiped with all the
rest. -/
def processedAndWiped : List Action :=
  processed .lostBefore 4 ++
    [.deliver (.numbered 2) .answered, .wipe (.numbered 1) fun _ => true]

theorem reservation_kept_processed :
    Kept (processedAndWiped.foldl (after fun _ => "") start) := by
  have executable : Executable (fun s a => Allows s a ∧ Careful s a) (after fun _ => "") start
      processedAndWiped := by
    decide +kernel
  obtain ⟨tr, run, careful⟩ := executable.run_guarded
  exact (reservation_kept start_initial run careful).1

/-- The batch is wiped before anybody claims it. -/
def uploadedAndWiped : List Action := uploaded ++ [.wipe (.numbered 1) fun _ => true]

/-- What a run with an unkept reservation refutes. -/
theorem not_kept {actions : List Action}
    (executable : Executable Allows (after fun _ => "") start actions)
    (lost : ¬ Kept (actions.foldl (after fun _ => "") start)) :
    ¬ ∀ (s t : Custody) (tr : List (Theory.Transition Custody Action)), Initial s →
      Run (step fun _ => "") s tr t → Kept t := by
  intro kept
  obtain ⟨tr, run⟩ := executable.run
  exact lost (kept start _ tr start_initial run)

/-- A wipe takes a batch nobody has claimed, and ten credits with it. -/
theorem wipe_loses_reservation :
    ¬ ∀ (s t : Custody) (tr : List (Theory.Transition Custody Action)), Initial s →
      Run (step fun _ => "") s tr t → Kept t := by
  have executable : Executable Allows (after fun _ => "") start uploadedAndWiped := by
    decide +kernel
  have lost : ¬ Kept (uploadedAndWiped.foldl (after fun _ => "") start) := by decide +kernel
  exact not_kept executable lost

/-- The route gives ten credits back for a job that was taken, and the worker charges them for
nothing. -/
theorem refusal_loses_charge :
    ¬ ∀ (s t : Custody) (tr : List (Theory.Transition Custody Action)), Initial s →
      Run (step fun _ => "") s tr t → Kept t := by
  have executable : Executable Allows (after fun _ => "") start (processed .answered 10) := by
    decide +kernel
  have lost : ¬ Kept ((processed .answered 10).foldl (after fun _ => "") start) := by
    decide +kernel
  exact not_kept executable lost

end Tozalist.Credits.Custody
