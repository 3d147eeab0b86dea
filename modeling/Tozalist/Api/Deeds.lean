/-
# Tozalist.Api.Deeds -- what a statement does to the accounts

A `Deed` says which transaction a statement of a route runs, and with what.  What it may change
follows from that alone, whoever asked for it: the data of one organisation (`does_dataOf`), the
second factor of one user (`does_users`); and whoever is concerned finds it in the audit events
(`does_recorded`).
-/
import Tozalist.Api.Accounts
import Tozalist.Theory.Table

namespace Tozalist.Api

set_option autoImplicit false

open Db
open Theory (Txn)
open Theory.Table (Evolved Unique)

/-! ## Deeds -/

/-- The transaction of a statement. -/
inductive Deed where
  | nothing
  | logs (event : AuditEventInput)
  | signsUp (orgName email : JsString) (passwordHash : String)
  | enrolls (userId : Uuid)
  | consumes (userId : Uuid) (code : JsString)
  | sets (orgId actorUserId : Uuid) (name : Option JsString) (retentionDays : Option Int)
  | deletes (orgId actorUserId : Uuid)
  | creates (orgId : Uuid) (name : JsString) (actorUserId : Option Uuid)
  | revokes (apiKeyId : Uuid) (actorUserId : Option Uuid)
  | touches (apiKeyId : Uuid)
  | invoices (orgId userId : Uuid) (planCode : String)

namespace Deed

variable (p : AccountPlatform)

/-- A statement that does the deed may leave `b`. -/
def Does : Deed → Accounts × Chance → Accounts → Prop
  | nothing, m, b => b = m.1
  | logs event, m, b => Txn.Commits (Accounts.recordAuditEvent event m.2.now) m.1 () b
  | signsUp orgName email passwordHash, m, b =>
      ∃ ids, Txn.Commits (Accounts.signupOrgWithAdmin m.2 orgName email passwordHash) m.1 ids b
  | enrolls userId, m, b => Txn.Commits (Accounts.enrollMfa p m.2 userId) m.1 () b
  | consumes userId code, m, b =>
      ∃ consumed, Txn.Commits (Accounts.consumeRecoveryCode p m.2 userId code) m.1 consumed b
  | sets orgId actorUserId name retentionDays, m, b => ∃ updated,
      Txn.Commits (Accounts.updateOrgSettings m.2 orgId actorUserId name retentionDays) m.1 updated b
  | deletes orgId actorUserId, m, b => ∃ deleted,
      Txn.Commits (Accounts.softDeleteOrganization m.2 orgId actorUserId) m.1 deleted b
  | creates orgId name actorUserId, m, b => ∃ key,
      Txn.Commits (Accounts.createApiKeyForOrg p m.2 orgId name actorUserId) m.1 key b
  | revokes apiKeyId actorUserId, m, b => ∃ revoked,
      Txn.Commits (Accounts.revokeApiKeyById m.2 apiKeyId actorUserId) m.1 revoked b
  | touches apiKeyId, m, b =>
      Txn.Commits (Accounts.touchApiKeyLastUsed m.2 apiKeyId) m.1 () b
  | invoices orgId userId planCode, m, b => ∃ request,
      Txn.Commits (Accounts.createInvoiceRequest m.2 orgId userId planCode) m.1 request b

end Deed

/-! ## What every deed keeps -/

/-- `k'` is what became of `k`. -/
structure KeyBecame (k k' : KeyRow) : Prop where
  id : k'.id = k.id
  orgId : k'.orgId = k.orgId
  keyHash : k'.keyHash = k.keyHash
  revokedAt : k.revokedAt ≠ none → k'.revokedAt = k.revokedAt

/-- `o'` is what became of `o`. -/
structure TenantBecame (o o' : Tenant) : Prop where
  id : o'.id = o.id
  deletedAt : o.deletedAt ≠ none → o'.deletedAt = o.deletedAt

theorem KeyBecame.refl (k : KeyRow) : KeyBecame k k := ⟨rfl, rfl, rfl, fun _ => rfl⟩

theorem TenantBecame.refl (o : Tenant) : TenantBecame o o := ⟨rfl, fun _ => rfl⟩

/-- What is set and stays is set. -/
theorem stays_trans {α : Type} {x y z : Option α} (first : x ≠ none → y = x)
    (second : y ≠ none → z = y) : x ≠ none → z = x := by
  intro set
  have same := first set
  rw [← same]
  exact second (same ▸ set)

theorem KeyBecame.trans (k l n : KeyRow) (first : KeyBecame k l) (second : KeyBecame l n) :
    KeyBecame k n where
  id := second.id.trans first.id
  orgId := second.orgId.trans first.orgId
  keyHash := second.keyHash.trans first.keyHash
  revokedAt := stays_trans first.revokedAt second.revokedAt

theorem TenantBecame.trans (o p q : Tenant) (first : TenantBecame o p)
    (second : TenantBecame p q) : TenantBecame o q where
  id := second.id.trans first.id
  deletedAt := stays_trans first.deletedAt second.deletedAt

theorem became_revoke (apiKeyId : Uuid) (now : Date) (k : KeyRow) :
    KeyBecame k (if k.id = apiKeyId ∧ k.revokedAt = none then
      { k with revokedAt := some now.timestamp } else k) := by
  split
  · rename_i active
    exact ⟨rfl, rfl, rfl, fun revoked => absurd active.2 revoked⟩
  · exact .refl k

theorem became_touch (apiKeyId : Uuid) (now : Date) (k : KeyRow) :
    KeyBecame k (if k.id = apiKeyId then { k with lastUsedAt := some now.timestamp } else k) := by
  split
  · exact ⟨rfl, rfl, rfl, fun _ => rfl⟩
  · exact .refl k

theorem became_set (orgId : Uuid) {update : Tenant → Tenant} (id : ∀ o, (update o).id = o.id)
    (o : Tenant) : TenantBecame o (if o.id = orgId ∧ o.Active then update o else o) := by
  split
  · rename_i active
    exact ⟨id o, fun deleted => absurd active.2 deleted⟩
  · exact .refl o

namespace Accounts

/-- The unique indexes that queries rely on. -/
structure Indexed (a : Accounts) : Prop where
  organizations : Unique (fun o : Tenant => some o.id) a.organizations
  keyIds : Unique (fun k : KeyRow => some k.id) a.apiKeys
  keyHashes : Unique (fun k : KeyRow => some k.keyHash) a.apiKeys

/-- Organisations stay, and stay deleted; keys stay, and stay revoked; events stay. -/
structure Evolves (a b : Accounts) : Prop where
  organizations : Evolved TenantBecame a.organizations b.organizations
  keys : Evolved KeyBecame a.apiKeys b.apiKeys
  events : a.auditEvents <+: b.auditEvents

theorem Evolves.refl (a : Accounts) : Evolves a a :=
  ⟨.refl .refl _, .refl .refl _, List.prefix_refl _⟩

theorem Evolves.trans {a b c : Accounts} (first : Evolves a b) (second : Evolves b c) :
    Evolves a c where
  organizations := first.organizations.trans TenantBecame.trans second.organizations
  keys := first.keys.trans KeyBecame.trans second.keys
  events := first.events.trans second.events

/-- What a deed keeps. -/
def Keeps (a b : Accounts) : Prop := a.Indexed → b.Indexed ∧ Evolves a b

theorem Keeps.refl (a : Accounts) : Keeps a a := fun indexed => ⟨indexed, .refl a⟩

theorem Keeps.trans {a b c : Accounts} (first : Keeps a b) (second : Keeps b c) : Keeps a c := by
  intro indexed
  obtain ⟨indexed', evolved⟩ := first indexed
  obtain ⟨indexed'', further⟩ := second indexed'
  exact ⟨indexed'', evolved.trans further⟩

theorem keeps_logged (a : Accounts) (event : AuditEventInput) (now : Date) :
    Keeps a (a.logged event now) :=
  fun indexed => ⟨⟨indexed.organizations, indexed.keyIds, indexed.keyHashes⟩,
    ⟨.refl .refl _, .refl .refl _, List.prefix_append _ _⟩⟩

/-- Other tables may change. -/
theorem keeps_others (a : Accounts) (users : List Account)
    (invoiceRequests : List InvoiceRequest) :
    Keeps a { a with users, invoiceRequests } :=
  fun indexed => ⟨⟨indexed.organizations, indexed.keyIds, indexed.keyHashes⟩,
    ⟨.refl .refl _, .refl .refl _, List.prefix_refl _⟩⟩

theorem keeps_withSignup {a : Accounts} {e : Chance} (orgName email : JsString)
    (passwordHash : String) (new : ∀ o ∈ a.organizations, o.id ≠ e.orgId) :
    Keeps a (a.withSignup e orgName email passwordHash) := by
  intro indexed
  refine ⟨⟨indexed.organizations.insert ?_, indexed.keyIds, indexed.keyHashes⟩,
    ⟨.append .refl _ _, .refl .refl _, List.prefix_refl _⟩⟩
  rintro _ ⟨⟩ ⟨o, member, same⟩
  exact new o member (Option.some.inj same)

theorem keeps_setOrganization (a : Accounts) (orgId : Uuid) {update : Tenant → Tenant}
    (id : ∀ o, (update o).id = o.id) :
    Keeps a { a with organizations := setOrganization orgId update a.organizations } := by
  intro indexed
  refine ⟨⟨indexed.organizations.map _ ?_, indexed.keyIds, indexed.keyHashes⟩,
    ⟨.map (became_set orgId id) _, .refl .refl _, List.prefix_refl _⟩⟩
  intro o
  exact congrArg some (became_set orgId id o).id

theorem keeps_insertKey {a : Accounts} {key : KeyRow} (newId : ∀ k ∈ a.apiKeys, k.id ≠ key.id)
    (newHash : ∀ k ∈ a.apiKeys, k.keyHash ≠ key.keyHash) :
    Keeps a { a with apiKeys := a.apiKeys ++ [key] } := by
  intro indexed
  refine ⟨⟨indexed.organizations, indexed.keyIds.insert ?_, indexed.keyHashes.insert ?_⟩,
    ⟨.refl .refl _, .append .refl _ _, List.prefix_refl _⟩⟩
  · rintro _ ⟨⟩ ⟨k, member, same⟩
    exact newId k member (Option.some.inj same)
  · rintro _ ⟨⟩ ⟨k, member, same⟩
    exact newHash k member (Option.some.inj same)

theorem keeps_mapKeys (a : Accounts) {update : KeyRow → KeyRow}
    (became : ∀ k, KeyBecame k (update k)) :
    Keeps a { a with apiKeys := a.apiKeys.map update } := by
  intro indexed
  refine ⟨⟨indexed.organizations, indexed.keyIds.map update ?_, indexed.keyHashes.map update ?_⟩,
    ⟨.refl .refl _, .map became _, List.prefix_refl _⟩⟩
  · intro k
    exact congrArg some (became k).id
  · intro k
    exact congrArg some (became k).keyHash

end Accounts

open Accounts (Keeps keeps_insertKey keeps_logged keeps_mapKeys keeps_others
  keeps_setOrganization keeps_withSignup)

/-- **Every deed** keeps the indexes, and the accounts evolve. -/
theorem Deed.does_keeps {p : AccountPlatform} {d : Deed} {m : Accounts × Chance} {b : Accounts}
    (does : d.Does p m b) : Keeps m.1 b := by
  cases d with
  | nothing =>
      obtain rfl := does
      exact .refl _
  | logs event =>
      obtain rfl := (Txn.commits_modify _ _ _ _).1 does
      exact keeps_logged _ _ _
  | signsUp orgName email passwordHash =>
      obtain ⟨ids, commits⟩ := does
      obtain ⟨-, new, -, rfl⟩ := Accounts.signupOrgWithAdmin_commits commits
      exact ((keeps_withSignup orgName email passwordHash new).trans (keeps_logged _ _ _)).trans
        (keeps_logged _ _ _)
  | enrolls userId =>
      obtain ⟨user, -, rfl⟩ := Accounts.enrollMfa_commits does
      exact (keeps_others m.1 _ _).trans (keeps_logged _ _ _)
  | consumes userId code =>
      obtain ⟨consumed, commits⟩ := does
      obtain ⟨-, rfl⟩ | ⟨-, user, -, -, rfl⟩ := Accounts.consumeRecoveryCode_commits commits
      · exact .refl _
      · exact (keeps_others m.1 _ _).trans (keeps_logged _ _ _)
  | sets orgId actorUserId name retentionDays =>
      obtain ⟨updated, commits⟩ := does
      obtain rfl | ⟨fields, rfl⟩ := Accounts.updateOrgSettings_commits commits
      · exact .refl _
      · refine (keeps_setOrganization m.1 orgId ?_).trans (keeps_logged _ _ _)
        exact fun _ => rfl
  | deletes orgId actorUserId =>
      obtain ⟨deleted, commits⟩ := does
      obtain rfl | rfl := Accounts.softDeleteOrganization_commits commits
      · exact .refl _
      · refine (keeps_setOrganization m.1 orgId ?_).trans (keeps_logged _ _ _)
        exact fun _ => rfl
  | creates orgId name actorUserId =>
      obtain ⟨key, commits⟩ := does
      obtain ⟨-, newId, newHash, rfl⟩ := Accounts.createApiKeyForOrg_commits commits
      exact (keeps_insertKey newId newHash).trans (keeps_logged _ _ _)
  | revokes apiKeyId actorUserId =>
      obtain ⟨revoked, commits⟩ := does
      obtain ⟨-, rfl⟩ | ⟨-, key, -, -, -, rfl⟩ := Accounts.revokeApiKeyById_commits commits
      · exact .refl _
      · exact (keeps_mapKeys m.1 (became_revoke _ _)).trans (keeps_logged _ _ _)
  | touches apiKeyId =>
      obtain rfl := (Txn.commits_modify _ _ _ _).1 does
      exact keeps_mapKeys m.1 (became_touch _ _)
  | invoices orgId userId planCode =>
      obtain ⟨request, commits⟩ := does
      obtain ⟨-, -, rfl⟩ := Accounts.createInvoiceRequest_commits commits
      exact (keeps_others m.1 _ _).trans (keeps_logged _ _ _)

/-! ## Whom a deed concerns -/

/-- The data of one organisation: its row, its keys, but for when they were last used, and its
invoice requests. -/
def Accounts.dataOf (a : Accounts) (orgId : Uuid) :
    List Tenant × List KeyRow × List InvoiceRequest :=
  (a.organizations.filter fun o => o.id = orgId,
    (a.apiKeys.filter fun k => k.orgId = orgId).map fun k => { k with lastUsedAt := none },
    a.invoiceRequests.filter fun r => r.orgId = orgId)

/-- The organisation whose data the deed may change. -/
def Deed.Concerns (m : Accounts × Chance) (orgId : Uuid) : Deed → Prop
  | signsUp .. => m.2.orgId = orgId
  | sets id .. | deletes id .. | creates id .. | invoices id .. => id = orgId
  | revokes apiKeyId _ => ∃ k ∈ m.1.apiKeys, k.id = apiKeyId ∧ k.orgId = orgId
  | nothing | logs _ | enrolls _ | consumes .. | touches _ => False

/-- The user whose second factor the deed may change. -/
def Deed.Factors (m : Accounts × Chance) (userId : Uuid) : Deed → Prop
  | signsUp .. => m.2.userId = userId
  | enrolls id | consumes id _ => id = userId
  | _ => False

/-- Who is recorded as the one who did it. -/
def Deed.actor (m : Accounts × Chance) : Deed → Option Uuid
  | signsUp .. => some m.2.userId
  | sets _ actorUserId _ _ | deletes _ actorUserId | invoices _ actorUserId _ => some actorUserId
  | creates _ _ actorUserId | revokes _ actorUserId => actorUserId
  | enrolls userId | consumes userId _ => some userId
  | nothing | logs _ | touches _ => none

/-- An update of other rows leaves a selection alone. -/
theorem filter_map_of_ne {ρ : Type} {update : ρ → ρ} {q : ρ → Bool} {rows : List ρ}
    (same : ∀ r, q (update r) = q r) (unchanged : ∀ r ∈ rows, q r = true → update r = r) :
    (rows.map update).filter q = rows.filter q := by
  induction rows with
  | nil => rfl
  | cons r rows ih =>
      obtain ⟨first, others⟩ := List.forall_mem_cons.1 unchanged
      rw [List.map_cons, List.filter_cons, List.filter_cons, ih others, same]
      split
      · rename_i selected
        rw [first selected]
      · rfl

theorem filter_append_of_ne {ρ : Type} {q : ρ → Bool} {rows : List ρ} {r : ρ} (out : q r = false) :
    (rows ++ [r]).filter q = rows.filter q := by
  rw [List.filter_append, List.filter_cons_of_neg (by simp [out]), List.filter_nil,
    List.append_nil]

namespace Accounts

@[simp] theorem dataOf_logged (a : Accounts) (event : AuditEventInput) (now : Date) (orgId : Uuid) :
    (a.logged event now).dataOf orgId = a.dataOf orgId := rfl

theorem filter_setOrganization {orgId id : Uuid} {update : Tenant → Tenant}
    (same : ∀ o, (update o).id = o.id) (other : id ≠ orgId) (organizations : List Tenant) :
    ((setOrganization id update organizations).filter fun o => o.id = orgId) =
      organizations.filter fun o => o.id = orgId := by
  apply filter_map_of_ne
  · intro o
    rw [(became_set id same o).id]
  · intro o _ selected
    rw [decide_eq_true_eq] at selected
    rw [if_neg]
    rintro ⟨is, -⟩
    exact other (is.symm.trans selected)

theorem filter_setUser {userId id : Uuid} {update : UserRow → UserRow}
    (same : ∀ u, (update u).id = u.id) (other : id ≠ userId) (users : List Account) :
    ((setUser id update users).filter fun u => u.id = userId) =
      users.filter fun u => u.id = userId := by
  apply filter_map_of_ne
  · intro u
    split
    · show decide ((update u.toUserRow).id = userId) = _
      rw [same]
    · rfl
  · intro u _ selected
    rw [decide_eq_true_eq] at selected
    rw [if_neg]
    intro is
    exact other (is.symm.trans selected)

theorem dataOf_of_keys {a : Accounts} {apiKeys : List KeyRow} {orgId : Uuid}
    (same : (apiKeys.filter fun k => k.orgId = orgId) = a.apiKeys.filter fun k => k.orgId = orgId) :
    Accounts.dataOf { a with apiKeys } orgId = a.dataOf orgId := by
  simp only [dataOf, same]

/-- A key's last use does not show in the data. -/
theorem dataOf_touch (a : Accounts) (apiKeyId : Uuid) (now : Date) (orgId : Uuid) :
    Accounts.dataOf { a with
      apiKeys := a.apiKeys.map fun k =>
        if k.id = apiKeyId then { k with lastUsedAt := some now.timestamp } else k } orgId =
      a.dataOf orgId := by
  simp only [dataOf, List.filter_map, List.map_map, Prod.mk.injEq, true_and, and_true]
  have selected : ((fun k : KeyRow => decide (k.orgId = orgId)) ∘ fun k : KeyRow =>
      if k.id = apiKeyId then { k with lastUsedAt := some now.timestamp } else k) =
        fun k => decide (k.orgId = orgId) := by
    funext k
    simp only [Function.comp_apply, (became_touch apiKeyId now k).orgId]
  rw [selected]
  apply List.map_congr_left
  intro k _
  simp only [Function.comp_apply]
  split <;> rfl

end Accounts

open Accounts (dataOf_logged dataOf_of_keys dataOf_touch filter_setOrganization filter_setUser)

/-- **The data of an organisation** are changed by deeds that concern it only. -/
theorem Deed.does_dataOf {p : AccountPlatform} {d : Deed} {m : Accounts × Chance} {b : Accounts}
    (does : d.Does p m b) {orgId : Uuid} (other : ¬ d.Concerns m orgId) :
    b.dataOf orgId = m.1.dataOf orgId := by
  cases d with
  | nothing =>
      obtain rfl := does
      rfl
  | logs event =>
      obtain rfl := (Txn.commits_modify _ _ _ _).1 does
      rfl
  | signsUp orgName email passwordHash =>
      obtain ⟨ids, commits⟩ := does
      obtain ⟨-, -, -, rfl⟩ := Accounts.signupOrgWithAdmin_commits commits
      have out : decide (m.2.orgId = orgId) = false := decide_eq_false other
      rw [dataOf_logged, dataOf_logged]
      exact Prod.ext (filter_append_of_ne out) rfl
  | enrolls userId =>
      obtain ⟨user, -, rfl⟩ := Accounts.enrollMfa_commits does
      rfl
  | consumes userId code =>
      obtain ⟨consumed, commits⟩ := does
      obtain ⟨-, rfl⟩ | ⟨-, user, -, -, rfl⟩ := Accounts.consumeRecoveryCode_commits commits
      · rfl
      · rfl
  | sets id actorUserId name retentionDays =>
      obtain ⟨updated, commits⟩ := does
      obtain rfl | ⟨fields, rfl⟩ := Accounts.updateOrgSettings_commits commits
      · rfl
      · rw [dataOf_logged]
        refine Prod.ext (filter_setOrganization ?_ other _) rfl
        exact fun _ => rfl
  | deletes id actorUserId =>
      obtain ⟨deleted, commits⟩ := does
      obtain rfl | rfl := Accounts.softDeleteOrganization_commits commits
      · rfl
      · rw [dataOf_logged]
        refine Prod.ext (filter_setOrganization ?_ other _) rfl
        exact fun _ => rfl
  | creates id name actorUserId =>
      obtain ⟨key, commits⟩ := does
      obtain ⟨is, -, -, rfl⟩ := Accounts.createApiKeyForOrg_commits commits
      have out : decide (key.orgId = orgId) = false := by
        rw [is]
        exact decide_eq_false other
      rw [dataOf_logged]
      exact dataOf_of_keys (filter_append_of_ne out)
  | revokes apiKeyId actorUserId =>
      obtain ⟨revoked, commits⟩ := does
      obtain ⟨-, rfl⟩ | ⟨-, key, -, -, -, rfl⟩ := Accounts.revokeApiKeyById_commits commits
      · rfl
      · rw [dataOf_logged]
        refine dataOf_of_keys (filter_map_of_ne ?_ ?_)
        · intro k
          rw [(became_revoke apiKeyId m.2.now k).orgId]
        · intro k member selected
          rw [decide_eq_true_eq] at selected
          rw [if_neg]
          rintro ⟨is, -⟩
          exact other ⟨k, member, is, selected⟩
  | touches apiKeyId =>
      obtain rfl := (Txn.commits_modify _ _ _ _).1 does
      exact dataOf_touch ..
  | invoices id userId planCode =>
      obtain ⟨request, commits⟩ := does
      obtain ⟨is, -, rfl⟩ := Accounts.createInvoiceRequest_commits commits
      have out : decide (request.orgId = orgId) = false := by
        rw [is]
        exact decide_eq_false other
      rw [dataOf_logged]
      exact Prod.ext rfl (Prod.ext rfl (filter_append_of_ne out))

/-- **A user's row** is changed by deeds on the second factor only. -/
theorem Deed.does_users {p : AccountPlatform} {d : Deed} {m : Accounts × Chance} {b : Accounts}
    (does : d.Does p m b) {userId : Uuid} (other : ¬ d.Factors m userId) :
    (b.users.filter fun u => u.id = userId) = m.1.users.filter fun u => u.id = userId := by
  cases d with
  | nothing =>
      obtain rfl := does
      rfl
  | logs event =>
      obtain rfl := (Txn.commits_modify _ _ _ _).1 does
      rfl
  | signsUp orgName email passwordHash =>
      obtain ⟨ids, commits⟩ := does
      obtain ⟨-, -, -, rfl⟩ := Accounts.signupOrgWithAdmin_commits commits
      have out : decide (m.2.userId = userId) = false := decide_eq_false other
      exact filter_append_of_ne out
  | enrolls id =>
      obtain ⟨user, -, rfl⟩ := Accounts.enrollMfa_commits does
      dsimp only [Accounts.logged]
      refine filter_setUser ?_ other _
      exact fun _ => rfl
  | consumes id code =>
      obtain ⟨consumed, commits⟩ := does
      obtain ⟨-, rfl⟩ | ⟨-, user, -, -, rfl⟩ := Accounts.consumeRecoveryCode_commits commits
      · rfl
      · dsimp only [Accounts.logged]
        refine filter_setUser ?_ other _
        exact fun _ => rfl
  | sets id actorUserId name retentionDays =>
      obtain ⟨updated, commits⟩ := does
      obtain rfl | ⟨fields, rfl⟩ := Accounts.updateOrgSettings_commits commits
      · rfl
      · rfl
  | deletes id actorUserId =>
      obtain ⟨deleted, commits⟩ := does
      obtain rfl | rfl := Accounts.softDeleteOrganization_commits commits
      · rfl
      · rfl
  | creates id name actorUserId =>
      obtain ⟨key, commits⟩ := does
      obtain ⟨-, -, -, rfl⟩ := Accounts.createApiKeyForOrg_commits commits
      rfl
  | revokes apiKeyId actorUserId =>
      obtain ⟨revoked, commits⟩ := does
      obtain ⟨-, rfl⟩ | ⟨-, key, -, -, -, rfl⟩ := Accounts.revokeApiKeyById_commits commits
      · rfl
      · rfl
  | touches apiKeyId =>
      obtain rfl := (Txn.commits_modify _ _ _ _).1 does
      rfl
  | invoices id userId planCode =>
      obtain ⟨request, commits⟩ := does
      obtain ⟨-, -, rfl⟩ := Accounts.createInvoiceRequest_commits commits
      rfl

/-- The deed is among the new audit events, with the organisation and whoever did it. -/
def Recorded (d : Deed) (m : Accounts × Chance) (b : Accounts) (orgId : Uuid) : Prop :=
  ∃ row more, b.auditEvents = m.1.auditEvents ++ more ∧ row ∈ more ∧ row.orgId = some orgId ∧
    row.actorUserId = d.actor m

theorem recorded_logged {d : Deed} {m : Accounts × Chance} {a : Accounts} {event : AuditEventInput}
    {now : Date} {orgId : Uuid} (same : a.auditEvents = m.1.auditEvents)
    (org : event.orgId = some orgId) (actor : event.actorUserId = d.actor m) :
    Recorded d m (a.logged event now) orgId := by
  refine ⟨Accounts.eventRow event now, [Accounts.eventRow event now], ?_,
    List.mem_singleton_self _, org, actor⟩
  rw [← same]
  rfl

/-- **A change of an organisation's data** is recorded. -/
theorem Deed.does_recorded {p : AccountPlatform} {d : Deed} {m : Accounts × Chance} {b : Accounts}
    (does : d.Does p m b) (indexed : m.1.Indexed) {orgId : Uuid}
    (changed : b.dataOf orgId ≠ m.1.dataOf orgId) : Recorded d m b orgId := by
  have concerns : d.Concerns m orgId := by
    by_contra other
    exact changed (Deed.does_dataOf does other)
  cases d with
  | nothing | logs _ | enrolls _ | consumes _ _ | touches _ => exact concerns.elim
  | signsUp orgName email passwordHash =>
      obtain ⟨ids, commits⟩ := does
      obtain ⟨-, -, -, rfl⟩ := Accounts.signupOrgWithAdmin_commits commits
      obtain rfl := concerns
      let first := Accounts.eventRow (orgCreatedEvent m.2.orgId m.2.userId) m.2.now
      let second := Accounts.eventRow (userCreatedEvent m.2.orgId m.2.userId) m.2.now
      exact ⟨first, [first, second], List.append_assoc m.1.auditEvents [first] [second],
        List.mem_cons_self, rfl, rfl⟩
  | sets id actorUserId name retentionDays =>
      obtain ⟨updated, commits⟩ := does
      obtain rfl := concerns
      obtain rfl | ⟨fields, rfl⟩ := Accounts.updateOrgSettings_commits commits
      · exact absurd rfl changed
      · exact recorded_logged rfl rfl rfl
  | deletes id actorUserId =>
      obtain ⟨deleted, commits⟩ := does
      obtain rfl := concerns
      obtain rfl | rfl := Accounts.softDeleteOrganization_commits commits
      · exact absurd rfl changed
      · exact recorded_logged rfl rfl rfl
  | creates id name actorUserId =>
      obtain ⟨key, commits⟩ := does
      obtain rfl := concerns
      obtain ⟨rfl, -, -, rfl⟩ := Accounts.createApiKeyForOrg_commits commits
      exact recorded_logged rfl rfl rfl
  | revokes apiKeyId actorUserId =>
      obtain ⟨revoked, commits⟩ := does
      obtain ⟨-, rfl⟩ | ⟨-, key, member, is, -, rfl⟩ := Accounts.revokeApiKeyById_commits commits
      · exact absurd rfl changed
      · obtain ⟨k, inside, same, own⟩ := concerns
        obtain rfl := indexed.keyIds.eq_of_key member inside (congrArg some is)
          (congrArg some same)
        exact recorded_logged rfl (congrArg some own) rfl
  | invoices id userId planCode =>
      obtain ⟨request, commits⟩ := does
      obtain rfl := concerns
      obtain ⟨org, user, rfl⟩ := Accounts.createInvoiceRequest_commits commits
      exact recorded_logged rfl (congrArg some org) (congrArg some user)

/-- A new key is a change of the data of its organisation. -/
theorem Accounts.dataOf_ne_of_newKey {a b : Accounts} {k : KeyRow} (member : k ∈ b.apiKeys)
    (new : ∀ k' ∈ a.apiKeys, k'.keyHash ≠ k.keyHash) : b.dataOf k.orgId ≠ a.dataOf k.orgId := by
  intro same
  have keys := congrArg (·.2.1) same
  have inside : { k with lastUsedAt := none } ∈ (b.dataOf k.orgId).2.1 :=
    List.mem_map_of_mem (List.mem_filter.2 ⟨member, decide_eq_true rfl⟩)
  rw [keys] at inside
  obtain ⟨k', listed, is⟩ := List.mem_map.1 inside
  exact new k' (List.mem_filter.1 listed).1 (congrArg (·.keyHash) is)

/-! ## Keys that are dead -/

/-- The key with this hash is revoked, or its organisation is deleted. -/
def Accounts.Dead (a : Accounts) (keyHash : String) : Prop :=
  ∃ k ∈ a.apiKeys, k.keyHash = keyHash ∧
    (k.revokedAt ≠ none ∨ ∃ o ∈ a.organizations, o.id = k.orgId ∧ o.deletedAt ≠ none)

namespace Accounts

theorem Dead.stays {a b : Accounts} {keyHash : String} (dead : a.Dead keyHash)
    (evolves : Evolves a b) : b.Dead keyHash := by
  obtain ⟨k, member, hash, why⟩ := dead
  obtain ⟨k', inside, became⟩ := evolves.keys k member
  refine ⟨k', inside, became.keyHash.trans hash, ?_⟩
  rcases why with revoked | ⟨o, there, own, deleted⟩
  · exact .inl (by rw [became.revokedAt revoked]; exact revoked)
  · obtain ⟨o', inside', became'⟩ := evolves.organizations o there
    exact .inr ⟨o', inside', became'.id.trans (own.trans became.orgId.symm),
      by rw [became'.deletedAt deleted]; exact deleted⟩

/-- The key that is found active. -/
theorem findActiveApiKeyByHash_ok {a : Accounts} {keyHash : String} {now : Date}
    {key : AuthenticatedKey} (active : a.findActiveApiKeyByHash keyHash now = .ok key) :
    ∃ k ∈ a.apiKeys, k.keyHash = keyHash ∧ k.id = key.apiKeyId ∧ k.orgId = key.orgId ∧
      k.revokedAt = none ∧ ∃ o ∈ a.organizations, o.id = k.orgId ∧ o.deletedAt = none := by
  unfold findActiveApiKeyByHash Db.findActiveApiKeyByHash at active
  split at active
  · cases active
  · rename_i k org row
    obtain ⟨k', inside, found⟩ := List.exists_of_findSome?_eq_some row
    obtain ⟨org', selected, same⟩ := Option.map_eq_some_iff.1 found
    obtain ⟨rfl, rfl⟩ := Prod.mk.inj same
    obtain ⟨member, hash⟩ := List.mem_filter.1 inside
    obtain ⟨whole, listed, rfl⟩ := List.mem_map.1 member
    have own := List.find?_some selected
    obtain ⟨tenant, there, rfl⟩ := List.mem_map.1 (List.mem_of_find?_eq_some selected)
    rw [decide_eq_true_eq] at own hash
    split at active
    · cases active
    · rename_i unrevoked
      split at active
      · cases active
      · split at active
        · cases active
        · rename_i alive
          obtain rfl := Except.ok.inj active
          exact ⟨whole, listed, hash, rfl, rfl, not_not.1 unrevoked, tenant, there, own,
            not_not.1 alive⟩

/-- **A dead key** is refused. -/
theorem Dead.refused {a : Accounts} {keyHash : String} (dead : a.Dead keyHash)
    (indexed : a.Indexed) (now : Date) (key : AuthenticatedKey) :
    a.findActiveApiKeyByHash keyHash now ≠ .ok key := by
  intro active
  obtain ⟨k, member, hash, -, -, unrevoked, o, there, own, alive⟩ :=
    findActiveApiKeyByHash_ok active
  obtain ⟨k', member', hash', why⟩ := dead
  obtain rfl := indexed.keyHashes.eq_of_key member member' (congrArg some hash)
    (congrArg some hash')
  rcases why with revoked | ⟨o', there', own', deleted⟩
  · exact revoked unrevoked
  · obtain rfl := indexed.organizations.eq_of_key there there' (congrArg some own)
      (congrArg some own')
    exact deleted alive

/-! ## The audit trail of keys -/

/-- The audit events about a key. -/
def eventsOf (a : Accounts) (action : String) (apiKeyId : Uuid) : List AccountEventRow :=
  a.auditEvents.filter fun row =>
    row.targetType = "api_key" ∧ row.action = action ∧ row.targetId = apiKeyId.text

/-- One event says that the key was created, and one, if it is revoked, that it was revoked. -/
structure OnRecord (a : Accounts) (k : KeyRow) : Prop where
  created : ∃ row, a.eventsOf "api_key.created" k.id = [row] ∧ row.orgId = some k.orgId
  unrevoked : k.revokedAt = none → a.eventsOf "api_key.revoked" k.id = []
  revoked : k.revokedAt ≠ none →
    ∃ row, a.eventsOf "api_key.revoked" k.id = [row] ∧ row.orgId = some k.orgId

/-- Every key is on record, and no other key is. -/
structure Audited (a : Accounts) : Prop where
  keys : ∀ k ∈ a.apiKeys, OnRecord a k
  known : ∀ row ∈ a.auditEvents, row.targetType = "api_key" →
    ∃ k ∈ a.apiKeys, row.targetId = k.id.text

theorem eventsOf_logged (a : Accounts) (event : AuditEventInput) (now : Date) (action : String)
    (apiKeyId : Uuid) : (a.logged event now).eventsOf action apiKeyId =
      a.eventsOf action apiKeyId ++
        if event.targetType = "api_key" ∧ event.action = action ∧ event.targetId = apiKeyId.text
        then [eventRow event now] else [] := by
  unfold eventsOf logged
  rw [List.filter_append]
  congr 1
  split
  · rename_i about
    exact List.filter_cons_of_pos (decide_eq_true about)
  · rename_i other
    exact List.filter_cons_of_neg fun about => other (of_decide_eq_true about)

theorem eventsOf_logged_of_ne {a : Accounts} {event : AuditEventInput} {now : Date} {action : String}
    {apiKeyId : Uuid} (other : ¬ (event.targetType = "api_key" ∧ event.action = action ∧
      event.targetId = apiKeyId.text)) :
    (a.logged event now).eventsOf action apiKeyId = a.eventsOf action apiKeyId := by
  rw [eventsOf_logged, if_neg other, List.append_nil]

theorem OnRecord.congr {a b : Accounts} {k k' : KeyRow} (onRecord : OnRecord a k)
    (created : b.eventsOf "api_key.created" k.id = a.eventsOf "api_key.created" k.id)
    (revoked : b.eventsOf "api_key.revoked" k.id = a.eventsOf "api_key.revoked" k.id)
    (id : k'.id = k.id) (orgId : k'.orgId = k.orgId) (revokedAt : k'.revokedAt = k.revokedAt) :
    OnRecord b k' := by
  refine ⟨?_, ?_, ?_⟩
  · rw [id, orgId, created]
    exact onRecord.created
  · rw [id, revokedAt, revoked]
    exact onRecord.unrevoked
  · rw [id, orgId, revokedAt, revoked]
    exact onRecord.revoked

/-- Events about something else. -/
theorem Audited.logged {a b : Accounts} (audited : a.Audited) {event : AuditEventInput} {now : Date}
    (other : event.targetType ≠ "api_key") (keys : b.apiKeys = a.apiKeys)
    (events : b.auditEvents = a.auditEvents) : (b.logged event now).Audited := by
  have same : ∀ action id, (b.logged event now).eventsOf action id = a.eventsOf action id := by
    intro action id
    rw [eventsOf_logged_of_ne fun about => other about.1, eventsOf, events, eventsOf]
  constructor
  · intro k member
    have old : k ∈ a.apiKeys := keys ▸ member
    exact (audited.keys k old).congr (same _ _) (same _ _) rfl rfl rfl
  · intro row member about
    rcases List.mem_append.1 member with old | new
    · rw [events] at old
      obtain ⟨k, inside, is⟩ := audited.known row old about
      exact ⟨k, show k ∈ b.apiKeys from keys ▸ inside, is⟩
    · obtain rfl := List.mem_singleton.1 new
      exact absurd about other

theorem Audited.touch {a : Accounts} (audited : a.Audited) (apiKeyId : Uuid) (now : Date) :
    Audited { a with
      apiKeys := a.apiKeys.map fun k =>
        if k.id = apiKeyId then { k with lastUsedAt := some now.timestamp } else k } := by
  constructor
  · intro k member
    obtain ⟨k, inside, rfl⟩ := List.mem_map.1 member
    refine (audited.keys k inside).congr rfl rfl ?_ ?_ ?_ <;> split <;> rfl
  · intro row member about
    obtain ⟨k, inside, is⟩ := audited.known row member about
    refine ⟨_, List.mem_map_of_mem inside, ?_⟩
    rw [is, (became_touch apiKeyId now k).id]

/-- A key that is created goes on record. -/
theorem Audited.insertKey {a : Accounts} (audited : a.Audited) {key : KeyRow}
    {actor : Option Uuid} {now : Date} (new : ∀ k ∈ a.apiKeys, k.id ≠ key.id)
    (active : key.revokedAt = none) :
    (Accounts.logged { a with apiKeys := a.apiKeys ++ [key] } (keyCreatedEvent key actor)
      now).Audited := by
  have none_ : ∀ action, a.eventsOf action key.id = [] := by
    intro action
    apply List.filter_eq_nil_iff.2
    intro row member about
    rw [decide_eq_true_eq] at about
    obtain ⟨k, inside, is⟩ := audited.known row member about.1
    exact new k inside (Uuid.ext_text (is.symm.trans about.2.2))
  constructor
  · intro k member
    rcases List.mem_append.1 member with old | fresh
    · have other : key.id.text ≠ k.id.text := by
        intro same
        exact new k old (Uuid.ext_text same.symm)
      exact (audited.keys k old).congr (eventsOf_logged_of_ne fun about => other about.2.2)
        (eventsOf_logged_of_ne fun about => other about.2.2) rfl rfl rfl
    · obtain rfl := List.mem_singleton.1 fresh
      refine ⟨⟨eventRow (keyCreatedEvent k actor) now, ?_, rfl⟩, ?_, fun revoked =>
        absurd active revoked⟩
      · rw [eventsOf_logged, if_pos ⟨rfl, rfl, rfl⟩]
        exact congrArg (· ++ _) (none_ _)
      · intro _
        have other : ¬ ((keyCreatedEvent k actor).targetType = "api_key" ∧
            (keyCreatedEvent k actor).action = "api_key.revoked" ∧
            (keyCreatedEvent k actor).targetId = k.id.text) := by
          rintro ⟨-, is, -⟩
          exact absurd is (show "api_key.created" ≠ "api_key.revoked" by decide)
        rw [eventsOf_logged_of_ne other]
        exact none_ _
  · intro row member about
    rcases List.mem_append.1 member with old | fresh
    · obtain ⟨k, inside, is⟩ := audited.known row old about
      exact ⟨k, List.mem_append_left _ inside, is⟩
    · obtain rfl := List.mem_singleton.1 fresh
      exact ⟨key, List.mem_append_right _ (List.mem_singleton_self _), rfl⟩

/-- A key that is revoked goes on record once more. -/
theorem Audited.revokeKey {a : Accounts} (audited : a.Audited) (indexed : a.Indexed) {key : KeyRow}
    (inside : key ∈ a.apiKeys) (active : key.revokedAt = none) (actor : Option Uuid)
    (now : Date) :
    (Accounts.logged { a with apiKeys := revokeKey key.id now a.apiKeys }
      (keyRevokedEvent key actor) now).Audited := by
  have created : ∀ id, ¬ ((keyRevokedEvent key actor).targetType = "api_key" ∧
      (keyRevokedEvent key actor).action = "api_key.created" ∧
      (keyRevokedEvent key actor).targetId = Uuid.text id) := by
    rintro id ⟨-, is, -⟩
    exact absurd is (show "api_key.revoked" ≠ "api_key.created" by decide)
  constructor
  · intro k member
    obtain ⟨k, old, rfl⟩ := List.mem_map.1 member
    have before := audited.keys k old
    by_cases same : k.id = key.id
    · obtain rfl := indexed.keyIds.eq_of_key old inside (congrArg some same) rfl
      rw [if_pos ⟨rfl, active⟩]
      refine ⟨?_, fun none_ => absurd none_ (by simp),
        fun _ => ⟨eventRow (keyRevokedEvent k actor) now, ?_, rfl⟩⟩
      · rw [eventsOf_logged_of_ne (created _)]
        exact before.created
      · rw [eventsOf_logged, if_pos ⟨rfl, rfl, rfl⟩]
        exact congrArg (· ++ _) (before.unrevoked active)
    · rw [if_neg fun both => same both.1]
      have other : key.id.text ≠ k.id.text := by
        intro is
        exact same (Uuid.ext_text is.symm)
      exact before.congr (eventsOf_logged_of_ne (created _))
        (eventsOf_logged_of_ne fun about => other about.2.2) rfl rfl rfl
  · intro row member about
    have listed : ∃ k ∈ a.apiKeys, row.targetId = k.id.text := by
      rcases List.mem_append.1 member with old | fresh
      · exact audited.known row old about
      · obtain rfl := List.mem_singleton.1 fresh
        exact ⟨key, inside, rfl⟩
    obtain ⟨k, there, is⟩ := listed
    refine ⟨_, List.mem_map_of_mem there, ?_⟩
    rw [is, (became_revoke key.id now k).id]

end Accounts

/-- **Every deed** keeps the keys on record, unless it writes an event about a key by itself. -/
theorem Deed.does_audited {p : AccountPlatform} {d : Deed} {m : Accounts × Chance} {b : Accounts}
    (does : d.Does p m b) (indexed : m.1.Indexed) (audited : m.1.Audited)
    (plain : ∀ event, d = .logs event → event.targetType ≠ "api_key") : b.Audited := by
  cases d with
  | nothing =>
      obtain rfl := does
      exact audited
  | logs event =>
      obtain rfl := (Txn.commits_modify _ _ _ _).1 does
      exact audited.logged (plain event rfl) rfl rfl
  | signsUp orgName email passwordHash =>
      obtain ⟨ids, commits⟩ := does
      obtain ⟨-, -, -, rfl⟩ := Accounts.signupOrgWithAdmin_commits commits
      have first : ((m.1.withSignup m.2 orgName email passwordHash).logged
          (orgCreatedEvent m.2.orgId m.2.userId) m.2.now).Audited :=
        audited.logged (show "organization" ≠ "api_key" by decide) rfl rfl
      exact first.logged (show "user" ≠ "api_key" by decide) rfl rfl
  | enrolls userId =>
      obtain ⟨user, -, rfl⟩ := Accounts.enrollMfa_commits does
      exact audited.logged (show "user" ≠ "api_key" by decide) rfl rfl
  | consumes userId code =>
      obtain ⟨consumed, commits⟩ := does
      obtain ⟨-, rfl⟩ | ⟨-, user, -, -, rfl⟩ := Accounts.consumeRecoveryCode_commits commits
      · exact audited
      · exact audited.logged (show "user" ≠ "api_key" by decide) rfl rfl
  | sets orgId actorUserId name retentionDays =>
      obtain ⟨updated, commits⟩ := does
      obtain rfl | ⟨fields, rfl⟩ := Accounts.updateOrgSettings_commits commits
      · exact audited
      · exact audited.logged (show "organization" ≠ "api_key" by decide) rfl rfl
  | deletes orgId actorUserId =>
      obtain ⟨deleted, commits⟩ := does
      obtain rfl | rfl := Accounts.softDeleteOrganization_commits commits
      · exact audited
      · exact audited.logged (show "organization" ≠ "api_key" by decide) rfl rfl
  | creates orgId name actorUserId =>
      obtain ⟨key, commits⟩ := does
      obtain ⟨is, new, -, rfl⟩ := Accounts.createApiKeyForOrg_commits commits
      exact audited.insertKey new (by rw [is]; rfl)
  | revokes apiKeyId actorUserId =>
      obtain ⟨revoked, commits⟩ := does
      obtain ⟨-, rfl⟩ | ⟨-, key, member, rfl, active, rfl⟩ :=
        Accounts.revokeApiKeyById_commits commits
      · exact audited
      · exact audited.revokeKey indexed member active actorUserId m.2.now
  | touches apiKeyId =>
      obtain rfl := (Txn.commits_modify _ _ _ _).1 does
      exact audited.touch apiKeyId m.2.now
  | invoices orgId userId planCode =>
      obtain ⟨request, commits⟩ := does
      obtain ⟨-, -, rfl⟩ := Accounts.createInvoiceRequest_commits commits
      exact audited.logged (show "invoice_request" ≠ "api_key" by decide) rfl rfl

end Tozalist.Api
