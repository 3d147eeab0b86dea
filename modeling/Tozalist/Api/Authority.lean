/-
# Tozalist.Api.Authority -- who may change what, over every run

Any number of requests to `Api.Dashboard` at once, one statement at a time and in any order, and
whoever sends them has no sealed session but those that replies have set.

* `tenant_change_authorised` -- the data of an organisation are changed by its own verified
  admins only: somebody gave the password of an admin of it before, and then a second factor of
  this user, and the change is in the audit events under their name.  But for that, there are the
  sign-up of the organisation itself and the operators' commands.
* `second_factor_guarded` -- so is a user's row, by whoever gave the user's password.
* `accepted_key_alive` -- a key that is revoked, or whose organisation is deleted, is refused ever
  after, whatever runs at the same time, and an accepted key was created by who may.
* `keys_on_record` -- every key has one event that says it was created, and one that says it was
  revoked if it is.
-/
import Tozalist.Api.Dashboard
import Tozalist.Api.Deeds

namespace Tozalist.Api.Dashboard

set_option autoImplicit false

open Db
open Theory (Executable Policy Pool PoolAction Ran Request Run Transition Txn transitions)

/-! ## What a request may do -/

/-- What a statement found and left. -/
abbrev Turn : Type := (Accounts × Chance) × Accounts

/-- The request presents the session, and its CSRF token. -/
def Arrival.Presents (q : Arrival) (session : SessionData) : Prop :=
  q.caller.session = some session ∧ q.caller.csrf = some session.csrfToken

/-- The request presents a verified session of an admin, whose organisation was active. -/
def Arrival.Admin (q : Arrival) (past : List Turn) (orgId userId : Uuid) : Prop :=
  ∃ session, q.Presents session ∧ session.mfaVerified = true ∧ session.role = .admin ∧
    session.orgId = orgId ∧ session.userId = userId ∧
    ∃ turn ∈ past, (turn.1.1.getOrgSettings orgId).isSome = true

/-- An operator's command. -/
def Ask.IsCommand : Ask → Prop
  | .createKeyCommand .. | .revokeKeyCommand .. => True
  | _ => False

instance (ask : Ask) : Decidable ask.IsCommand := by
  cases ask <;> unfold Ask.IsCommand <;> infer_instance

/-- An API request. -/
def Ask.IsApi : Ask → Prop
  | .authenticate .. => True
  | _ => False

variable (p : AccountPlatform)

/-- What a request may have its next statement do. -/
def Arrival.May (q : Arrival) (past : List Turn) : Deed → Prop
  | .nothing => True
  | .logs event => event.targetType ≠ "api_key"
  | .signsUp .. => ∃ orgName email password, q.ask = .signup orgName email password
  | .enrolls userId | .consumes userId _ => ∃ session, q.Presents session ∧ session.userId = userId
  | .sets orgId userId _ _ | .deletes orgId userId | .invoices orgId userId _ =>
      q.Admin past orgId userId
  | .creates orgId _ actor =>
      (∃ userId, actor = some userId ∧ q.Admin past orgId userId) ∨
        actor = none ∧ q.ask.IsCommand
  | .revokes keyId actor =>
      (∃ orgId userId, actor = some userId ∧ q.Admin past orgId userId ∧
        ∃ turn ∈ past, ∃ k ∈ turn.1.1.apiKeys, k.id = keyId ∧ k.orgId = orgId) ∨
        actor = none ∧ q.ask.IsCommand
  | .touches _ => q.ask.IsApi

/-- The statement logs in the user of `session`: with the password, or by a sign-up. -/
def LogsIn (q : Arrival) (turn : Turn) (session : SessionData) : Prop :=
  match q.ask with
  | .login email password => ∃ user,
      turn.1.1.findUserForLogin (p.toLowerCase (Js.trim email)) = some (user, none) ∧
        p.argon2Verify user.passwordHash password = true ∧
        session.userId = user.id ∧ session.orgId = user.orgId ∧ session.role = user.role
  | .signup orgName email password => ∃ salt passwordHash,
      hashPassword p salt password = .ok passwordHash ∧
        Txn.Commits (Accounts.signupOrgWithAdmin turn.1.2 (Js.trim orgName)
          (p.toLowerCase (Js.trim email)) passwordHash) turn.1.1
          (session.orgId, session.userId) turn.2 ∧ session.role = .admin
  | _ => False

/-- The statement finds a second factor of the user in the request: a one-time code, or a
recovery code, which then is gone. -/
def ProvesFactor (q : Arrival) (turn : Turn) (userId : Uuid) : Prop :=
  ∃ session code user, q.Presents session ∧ session.userId = userId ∧ q.ask = .verify code ∧
    turn.1.1.getUserById userId = some user ∧
    ((∃ secret, user.mfaSecret = some secret ∧
      verifyTotp p.toUpperCase p.hmacSha1 secret (Js.trim code) turn.1.2.clock = .ok true) ∨
    p.sha256Hex (Js.trim code) ∈ user.mfaRecoveryCodes ∧
      ∀ u ∈ turn.2.users, u.id = userId → p.sha256Hex (Js.trim code) ∉ u.mfaRecoveryCodes)

/-- A reply may set the session. -/
def Grants (q : Arrival) (past : List Turn) (session : SessionData) : Prop :=
  (session.mfaVerified = false ∧ ∃ turn ∈ past, LogsIn p q turn session) ∨
    ∃ before, q.Presents before ∧ session = { before with mfaVerified := true } ∧
      ∃ turn ∈ past, ProvesFactor p q turn before.userId

/-- The statement has found the key of the request active. -/
def FindsKey (q : Arrival) (turn : Turn) (key : AuthenticatedKey) : Prop :=
  ∃ token requestId route, q.ask = .authenticate (.bearer token) requestId route ∧
    turn.1.1.findActiveApiKeyByHash (p.sha256Hex token) turn.1.2.now = .ok key

/-- What requests are held to. -/
def policy : Policy Arrival Accounts Chance Reply where
  holds := Accounts.Indexed
  evolves := Accounts.Evolves
  writes q past m t := ∃ deed : Deed, q.May past deed ∧ deed.Does p m t
  replies q past r := (∀ session, r.cookie = .seal session → Grants p q past session) ∧
    ∀ key, r.body = .authenticated key → ∃ turn ∈ past, FindsKey p q turn key
  evolves_refl := .refl
  evolves_trans _ _ _ := .trans

/-! ## Rules -/

section Rules

variable {p} {q : Arrival} {past : List Turn} {α : Type}

/-- The session that is set. -/
def CookieChange.session : CookieChange → Option SessionData
  | .seal session => some session
  | _ => none

/-- The key that is accepted. -/
def Body.key : Body → Option AuthenticatedKey
  | .authenticated key => some key
  | _ => none

theorem Body.ne_of_key {b : Body} (plain : b.key = none) (key : AuthenticatedKey) :
    b ≠ .authenticated key := by
  rintro rfl
  cases plain

theorem replies_of_granted {r : Reply}
    (granted : ∀ session, r.cookie = .seal session → Grants p q past session)
    (plain : r.body.key = none) : (policy p).replies q past r :=
  ⟨granted, fun key accepts => absurd accepts (Body.ne_of_key plain key)⟩

theorem replies_of_silent {r : Reply} (silent : r.cookie.session = none)
    (plain : r.body.key = none) : (policy p).replies q past r := by
  refine replies_of_granted ?_ plain
  intro session set
  rw [set] at silent
  cases silent

theorem ensures_refuseWith {gives : List Turn → α → Prop} {code : ErrorCode} {message : String} :
    Request.Ensures ((policy p).conduct q) gives past (refuseWith code message) :=
  replies_of_silent rfl rfl

theorem ensures_refuse {gives : List Turn → α → Prop} {code : ErrorCode} :
    Request.Ensures ((policy p).conduct q) gives past (refuse code) :=
  ensures_refuseWith

theorem ensures_return {r : Reply} (silent : r.cookie.session = none)
    (plain : r.body.key = none) :
    Request.Ensures ((policy p).conduct q) ((policy p).replies q) past (pure r) :=
  replies_of_silent silent plain

/-- A query leaves everything as it is. -/
theorem ensures_selectBy {text : JsString} {read : Accounts → Chance → α} :
    Request.Ensures ((policy p).conduct q)
      (fun past' a => ∃ m, past' = past ++ [(m, m.1)] ∧ a = read m.1 m.2) past
      (selectBy text read) := by
  apply Request.Ensures.perform
  · intro m finds
    have same : (if m.2.delivery = .answered ∧ Storable text then
        ((.ok (read m.1 m.2) : Except Reply α), m.1) else (.error (internalError .keep), m.1)).2 =
          m.1 := by split <;> rfl
    rw [same]
    exact ⟨finds.1, .refl _, .nothing, trivial, rfl⟩
  · intro m finds a is
    split at is
    · rename_i fine
      cases is
      exact ⟨m, by rw [if_pos fine], rfl⟩
    · cases is
  · intro m finds r is
    split at is
    · cases is
    · cases is
      exact replies_of_silent rfl rfl

theorem ensures_select {read : Accounts → Chance → α} :
    Request.Ensures ((policy p).conduct q)
      (fun past' a => ∃ m, past' = past ++ [(m, m.1)] ∧ a = read m.1 m.2) past (select read) :=
  ensures_selectBy

/-- A transaction does its deed, or nothing. -/
theorem ensures_transact {cookie : CookieChange} {body : Chance → Work α} (deed : Deed)
    (may : q.May past deed)
    (does : ∀ (m : Accounts × Chance) a t, Txn.Commits (body m.2) m.1 a t → deed.Does p m t)
    (lost : ∀ turn, (policy p).replies q (past ++ [turn]) (internalError cookie)) :
    Request.Ensures ((policy p).conduct q)
      (fun past' a => ∃ m t, past' = past ++ [(m, t)] ∧ Txn.Commits (body m.2) m.1 a t) past
      (transact cookie body) := by
  apply Request.Ensures.perform
  · intro m finds
    rcases Txn.attempt_cases m.2.delivery (body m.2) m.1 with is | ⟨a, t, commits, -, is | is⟩
    · rw [is]
      exact ⟨finds.1, .refl _, .nothing, trivial, rfl⟩
    · rw [is]
      have kept := Deed.does_keeps (does m a t commits) finds.1
      exact ⟨kept.1, kept.2, deed, may, does m a t commits⟩
    · rw [is]
      have kept := Deed.does_keeps (does m a t commits) finds.1
      exact ⟨kept.1, kept.2, deed, may, does m a t commits⟩
  · intro m finds a is
    rcases Txn.attempt_cases m.2.delivery (body m.2) m.1 with ran | ⟨b, t, commits, -, ran | ran⟩
    · rw [ran] at is
      cases is
    · rw [ran] at is ⊢
      cases is
      exact ⟨m, t, rfl, commits⟩
    · rw [ran] at is
      cases is
  · intro m finds r is
    rcases Txn.attempt_cases m.2.delivery (body m.2) m.1 with ran | ⟨b, t, commits, -, ran | ran⟩
    · rw [ran] at is ⊢
      cases is
      exact lost _
    · rw [ran] at is
      cases is
    · rw [ran] at is ⊢
      cases is
      exact lost _

theorem lost_keep (turn : Turn) : (policy p).replies q (past ++ [turn]) (internalError .keep) :=
  replies_of_silent rfl rfl

theorem Arrival.Admin.mono {orgId userId : Uuid} (admin : q.Admin past orgId userId)
    (more : List Turn) : q.Admin (past ++ more) orgId userId := by
  obtain ⟨session, presents, verified, role, org, user, turn, member, active⟩ := admin
  exact ⟨session, presents, verified, role, org, user, turn, List.mem_append_left _ member, active⟩

/-- What `requireSession` has checked. -/
structure Checked (q : Arrival) (mfa csrf : Bool) (past : List Turn) (session : SessionData) :
    Prop where
  presented : q.caller.session = some session
  active : ∃ turn ∈ past, (turn.1.1.getOrgSettings session.orgId).isSome = true
  verified : mfa = true → session.mfaVerified = true
  token : csrf = true → q.caller.csrf = some session.csrfToken

theorem Checked.presents {mfa : Bool} {session : SessionData}
    (checked : Checked q mfa true past session) : q.Presents session :=
  ⟨checked.presented, checked.token rfl⟩

theorem Checked.admin {session : SessionData} (checked : Checked q true true past session)
    (role : session.role = .admin) : q.Admin past session.orgId session.userId :=
  ⟨session, checked.presents, checked.verified rfl, role, rfl, rfl, checked.active⟩

theorem ensures_requireSession (mfa csrf : Bool) :
    Request.Ensures ((policy p).conduct q) (Checked q mfa csrf) past
      (requireSession q.caller mfa csrf) := by
  unfold requireSession
  split
  · exact ensures_refuse
  · rename_i session presented
    refine ensures_select.bind ?_
    rintro past' found ⟨m, rfl, is⟩
    split
    · exact replies_of_silent rfl rfl
    · split
      · exact ensures_refuseWith
      · rename_i verified
        split
        · exact ensures_refuseWith
        · rename_i token
          refine ⟨presented, ⟨_, List.mem_append_right _ (List.mem_singleton_self _), ?_⟩, ?_, ?_⟩
          · rw [← is]
            rfl
          · intro required
            simpa [required] using verified
          · intro required
            simpa [required] using token

/-- What `requireAdmin` gives. -/
theorem ensures_requireAdmin :
    Request.Ensures ((policy p).conduct q) (fun past' session =>
      q.Admin past' session.orgId session.userId) past (requireAdmin q.caller) := by
  refine (ensures_requireSession true true).bind ?_
  intro past' session checked
  split
  · exact ensures_refuse
  · rename_i role
    exact checked.admin (not_not.1 role)

theorem ensures_requireBillingSession :
    Request.Ensures ((policy p).conduct q) (fun past' session =>
      q.Admin past' session.orgId session.userId) past
      (requireBillingSession q.caller true true) := by
  unfold requireBillingSession
  split
  · exact ensures_refuse
  · rename_i session presented
    split
    · exact ensures_refuse
    · rename_i verified
      refine ensures_select.bind ?_
      rintro past' found ⟨m, rfl, is⟩
      split
      · exact ensures_refuse
      · split
        · exact ensures_refuseWith
        · rename_i token
          split
          · exact ensures_refuse
          · rename_i role
            have admin : session.role = .admin := by simpa using role
            have presents : q.caller.csrf = some session.csrfToken := by simpa using token
            refine ⟨session, ⟨presented, presents⟩, by simpa using verified, admin, rfl, rfl, _,
              List.mem_append_right _ (List.mem_singleton_self _), ?_⟩
            rw [← is]
            rfl

/-- What `revoke` runs. -/
theorem ensures_revoke {keyId : Uuid} {actor : Option Uuid}
    (may : q.May past (.revokes keyId actor)) :
    Request.Ensures ((policy p).conduct q) (fun _ _ => True) past (revoke keyId actor) := by
  refine (ensures_transact (.revokes keyId actor) may ?_ lost_keep).bind ?_
  · intro m a t commits
    exact ⟨a, commits⟩
  · intro past' revoked _
    split
    · trivial
    · exact ensures_select.bind fun _ _ _ => trivial

/-- What a new key is shown with. -/
theorem ensures_createApiKey {orgId : Uuid} {name : JsString} {actor : Option Uuid}
    (may : q.May past (.creates orgId name actor)) :
    Request.Ensures ((policy p).conduct q) (fun _ _ => True) past
      (transact .keep fun e => do
        let key ← Accounts.createApiKeyForOrg p e orgId name actor
        return (key, (e.apiKey p).plaintext)) := by
  refine (ensures_transact (.creates orgId name actor) may ?_ lost_keep).mono fun _ _ _ => trivial
  intro m a t commits
  simp only [Txn.commits_bind, Txn.commits_pure] at commits
  obtain ⟨key, _, created, -, rfl⟩ := commits
  exact ⟨key, created⟩

end Rules

/-! ## Routes -/

section Routes

variable {p} {q : Arrival}

/-- The route keeps to the policy. -/
abbrev Obeys (p : AccountPlatform) (q : Arrival) (route : Route Reply) : Prop :=
  (policy p).Obeys q route

theorem obeys_signup {orgName email password : JsString}
    (asks : q.ask = .signup orgName email password) :
    Obeys p q (signup p orgName email password) := by
  refine ensures_selectBy.bind ?_
  rintro _ _ ⟨m, rfl, rfl⟩
  dsimp only
  split
  · exact replies_of_silent rfl rfl
  · rename_i passwordHash hashed
    split
    · exact ensures_refuseWith
    · refine (ensures_transact (.signsUp (Js.trim orgName) (p.toLowerCase (Js.trim email))
        passwordHash) ⟨_, _, _, asks⟩ ?_ lost_keep).bind ?_
      · intro n a t commits
        simp only [Txn.commits_bind, Txn.commits_pure] at commits
        obtain ⟨ids, _, signed, -, rfl⟩ := commits
        exact ⟨ids, signed⟩
      · rintro _ ⟨orgId, userId, csrfBytes⟩ ⟨n, t, rfl, commits⟩
        refine replies_of_granted ?_ rfl
        intro session set
        simp only [Txn.commits_bind, Txn.commits_pure, Prod.mk.injEq] at commits
        obtain ⟨⟨orgId', userId'⟩, _, signed, ⟨rfl, rfl, rfl⟩, rfl⟩ := commits
        obtain rfl := CookieChange.seal.inj set
        refine .inl ⟨rfl, _, List.mem_append_right _ (List.mem_singleton_self _), ?_⟩
        rw [LogsIn, asks]
        exact ⟨_, passwordHash, hashed, signed, rfl⟩

theorem obeys_login {email password : JsString} (asks : q.ask = .login email password) :
    Obeys p q (login p email password) := by
  refine ensures_selectBy.bind ?_
  rintro _ _ ⟨m, rfl, rfl⟩
  dsimp only
  split
  · exact ensures_refuseWith
  · rename_i user orgDeletedAt found
    split
    · exact ensures_refuseWith
    · rename_i active
      split
      · exact ensures_refuseWith
      · rename_i right
        have granted : ∀ more : List Turn, ∀ session, session = SessionData.mk user.id user.orgId
            user.role false (newCsrfToken m.2.csrfBytes) →
            Grants p q ([] ++ [(m, m.1)] ++ more) session := by
          rintro more _ rfl
          refine .inl ⟨rfl, (m, m.1), List.mem_append_left _ (List.mem_singleton_self _), ?_⟩
          rw [LogsIn, asks]
          refine ⟨user, ?_, by simpa using right, rfl, rfl, rfl⟩
          rw [found, not_not.1 active]
        have other : (loginEvent user).targetType ≠ "api_key" :=
          show "user" ≠ "api_key" by decide
        refine (ensures_transact (.logs (loginEvent user)) other ?_ ?_).bind ?_
        · intro n a t commits
          exact commits
        · intro turn
          refine replies_of_granted ?_ rfl
          intro session set
          exact granted [turn] session (CookieChange.seal.inj set).symm
        · rintro _ _ ⟨n, t, rfl, -⟩
          refine replies_of_granted ?_ rfl
          intro session set
          exact granted [(n, t)] session (CookieChange.seal.inj set).symm

theorem obeys_logout : Obeys p q (logout q.caller) := by
  refine (ensures_requireSession false true).bind ?_
  intro past session checked
  have other : (logoutEvent session).targetType ≠ "api_key" := show "user" ≠ "api_key" by decide
  refine (ensures_transact (.logs (logoutEvent session)) other ?_ lost_keep).bind ?_
  · intro m a t commits
    exact commits
  · intro _ _ _
    exact ensures_return rfl rfl

/-- A user that is found by an id has it. -/
theorem id_of_getUserById {a : Accounts} {id : Uuid} {user : Account}
    (found : a.getUserById id = some user) : user.id = id := by
  have selected := List.find?_some found
  rw [decide_eq_true_eq] at selected
  exact selected.1

theorem obeys_enroll : Obeys p q (enroll p q.caller) := by
  refine (ensures_requireSession false true).bind ?_
  intro past session checked
  refine ensures_select.bind ?_
  rintro _ found ⟨m, rfl, is⟩
  split
  · exact ensures_refuse
  · rename_i user
    split
    · exact ensures_refuseWith
    · have own := id_of_getUserById (is : some user = _).symm
      refine (ensures_transact (.enrolls user.id) ⟨session, checked.presents, own.symm⟩ ?_
        lost_keep).bind ?_
      · intro n a t commits
        simp only [Txn.commits_bind, Txn.commits_pure] at commits
        obtain ⟨_, _, enrolled, -, rfl⟩ := commits
        exact enrolled
      · intro _ _ _
        exact ensures_return rfl rfl

/-- What is accepted proves a second factor. -/
theorem ensures_acceptedAs {past : List Turn} {session : SessionData} {code secret : JsString}
    {user : Account} {m : Accounts × Chance} (presents : q.Presents session)
    (asks : q.ask = .verify code) (found : m.1.getUserById session.userId = some user)
    (enrolled : user.mfaSecret = some secret) (seen : (m, m.1) ∈ past) :
    Request.Ensures ((policy p).conduct q) (fun past' method => method ≠ none →
      ∃ turn ∈ past', ProvesFactor p q turn session.userId) past
      (acceptedAs p user (Js.trim code) m.2.clock secret) := by
  have own := id_of_getUserById found
  unfold acceptedAs
  split
  · exact replies_of_silent rfl rfl
  · rename_i right
    intro _
    exact ⟨_, seen, session, code, user, presents, rfl, asks, found, .inl ⟨secret, enrolled, right⟩⟩
  · refine (ensures_transact (.consumes user.id (Js.trim code)) ⟨session, presents, own.symm⟩ ?_
      lost_keep).bind ?_
    · intro n a t commits
      exact ⟨a, commits⟩
    · rintro _ consumed ⟨n, t, rfl, commits⟩
      obtain ⟨rfl, -⟩ | ⟨rfl, user', there, stored, rfl⟩ :=
        Accounts.consumeRecoveryCode_commits commits
      · exact fun no => absurd rfl no
      · intro _
        rw [own] at there
        refine ⟨_, List.mem_append_right _ (List.mem_singleton_self _), session, code, user',
          presents, rfl, asks, there, .inr ⟨stored, ?_⟩⟩
        -- whatever row has the id now, the code is gone from it
        intro u member is
        obtain ⟨old, -, rfl⟩ := List.mem_map.1 member
        rw [own] at is ⊢
        split at is
        · rename_i same
          rw [if_pos same]
          simp [UserRow.consumeRecoveryCode]
        · rename_i other
          exact absurd is other

theorem obeys_verify {code : JsString} (asks : q.ask = .verify code) :
    Obeys p q (verify p q.caller code) := by
  refine (ensures_requireSession false true).bind ?_
  intro past session checked
  refine ensures_select.bind ?_
  rintro _ _ ⟨m, rfl, rfl⟩
  dsimp only
  split
  · exact ensures_refuseWith
  · rename_i user found
    split
    · exact ensures_refuseWith
    · rename_i secret enrolled
      refine (ensures_acceptedAs checked.presents asks found enrolled
        (List.mem_append_right _ (List.mem_singleton_self _))).bind ?_
      intro past' method proved
      split
      · exact ensures_refuseWith
      · rename_i accepted
        obtain ⟨turn, member, proves⟩ := proved (Option.some_ne_none _)
        have other : (mfaVerifiedEvent
            { user.toUserRow with orgId := session.orgId } accepted).targetType ≠ "api_key" :=
          show "user" ≠ "api_key" by decide
        refine (ensures_transact (.logs _) other ?_ lost_keep).bind ?_
        · intro n a t commits
          exact commits
        · rintro _ _ ⟨n, t, rfl, -⟩
          refine replies_of_granted ?_ rfl
          intro granted set
          exact .inr ⟨session, checked.presents, (CookieChange.seal.inj set).symm, turn,
            List.mem_append_left _ member, proves⟩

theorem obeys_me : Obeys p q (me q.caller) := by
  refine (ensures_requireSession false false).bind ?_
  intro past session checked
  refine ensures_select.bind ?_
  intro _ user _
  split
  · exact ensures_refuse
  · refine ensures_select.bind ?_
    intro _ org _
    split
    · exact ensures_refuse
    · exact ensures_return rfl rfl

theorem obeys_keys : Obeys p q (keys q.caller) := by
  refine (ensures_requireSession true false).bind ?_
  intro past session checked
  refine ensures_select.bind ?_
  intro _ _ _
  exact ensures_return rfl rfl

theorem obeys_settings : Obeys p q (settings q.caller) := by
  refine (ensures_requireSession true false).bind ?_
  intro past session checked
  refine ensures_select.bind ?_
  intro _ org _
  split
  · exact ensures_refuse
  · exact ensures_return rfl rfl

theorem obeys_createKey {name : JsString} : Obeys p q (createKey p q.caller name) := by
  refine ensures_requireAdmin.bind ?_
  intro past session admin
  refine ensures_select.bind ?_
  rintro _ refusal ⟨m, rfl, -⟩
  split
  · exact ensures_refuse
  · refine (ensures_createApiKey (.inl ⟨_, rfl, admin.mono _⟩)).bind ?_
    intro _ _ _
    exact ensures_return rfl rfl

theorem obeys_revokeKey {id : Uuid} : Obeys p q (revokeKey q.caller id) := by
  refine ensures_requireAdmin.bind ?_
  intro past session admin
  refine ensures_select.bind ?_
  rintro _ _ ⟨m, rfl, rfl⟩
  split
  · rename_i listed
    obtain ⟨key, member, is⟩ := listed
    obtain ⟨inside, own⟩ := List.mem_filter.1 (List.mem_mergeSort.1 member)
    rw [decide_eq_true_eq] at own
    refine (ensures_revoke (.inl ⟨session.orgId, session.userId, rfl, admin.mono _, _,
      List.mem_append_right _ (List.mem_singleton_self _), key, inside, is, own⟩)).bind ?_
    intro _ _ _
    exact ensures_return rfl rfl
  · exact ensures_refuse

theorem obeys_updateSettings {orgName : Option JsString} {retentionDays : Option Int} :
    Obeys p q (updateSettings q.caller orgName retentionDays) := by
  refine ensures_requireAdmin.bind ?_
  intro past session admin
  split
  · exact ensures_refuseWith
  · refine (ensures_transact (.sets session.orgId session.userId (orgName.map Js.trim)
      retentionDays) admin ?_ lost_keep).bind ?_
    · intro m a t commits
      exact ⟨a, commits⟩
    · intro _ _ _
      split
      · exact ensures_return rfl rfl
      · exact ensures_refuse

theorem obeys_deleteOrg {confirmName : JsString} : Obeys p q (deleteOrg q.caller confirmName) := by
  refine ensures_requireAdmin.bind ?_
  intro past session admin
  refine ensures_select.bind ?_
  rintro _ org ⟨m, rfl, -⟩
  split
  · exact ensures_refuse
  · split
    · exact ensures_refuseWith
    · refine (ensures_transact (.deletes session.orgId session.userId) (admin.mono _) ?_
        lost_keep).bind ?_
      · intro m a t commits
        exact ⟨a, commits⟩
      · intro _ _ _
        exact ensures_return rfl rfl

theorem obeys_requestInvoice {bankDetails : Option JsString} {plan : JsString} :
    Obeys p q (requestInvoice q.caller bankDetails plan) := by
  refine ensures_requireBillingSession.bind ?_
  intro past session admin
  split
  · exact ensures_refuseWith
  · rename_i found _
    split
    · exact ensures_refuse
    · refine ensures_select.bind ?_
      rintro _ user ⟨m, rfl, -⟩
      split
      · exact ensures_refuse
      · refine ensures_select.bind ?_
        rintro _ org ⟨n, rfl, -⟩
        split
        · exact ensures_refuse
        · refine (ensures_transact (.invoices session.orgId session.userId found.code)
            ((admin.mono _).mono _) ?_ lost_keep).bind ?_
          · intro m a t commits
            exact ⟨a, commits⟩
          · intro _ _ _
            exact ensures_return rfl rfl

theorem obeys_createKeyCommand {org : Uuid} {name : JsString} (command : q.ask.IsCommand) :
    Obeys p q (createKeyCommand p org name) := by
  unfold createKeyCommand
  split
  · exact ensures_return rfl rfl
  · refine ensures_select.bind ?_
    intro _ refusal _
    split
    · exact ensures_return rfl rfl
    · refine (ensures_createApiKey (.inr ⟨rfl, command⟩)).bind ?_
      intro _ _ _
      exact ensures_return rfl rfl

theorem obeys_revokeKeyCommand {keyId : Uuid} (command : q.ask.IsCommand) :
    Obeys p q (revokeKeyCommand keyId) := by
  refine (ensures_revoke (.inr ⟨rfl, command⟩)).bind ?_
  rintro _ ⟨revoked, existing⟩ _
  refine ensures_return rfl ?_
  cases revoked
  · cases existing
    · rfl
    · rfl
  · rfl

theorem ensures_auditFailure {past : List Turn} {requestId route category : String} :
    Request.Ensures ((policy p).conduct q) ((policy p).replies q) past
      (auditFailure requestId route category) := by
  have other : (authFailedEvent requestId route category).targetType ≠ "api_key" :=
    show "request" ≠ "api_key" by decide
  refine (ensures_transact (.logs _) other ?_ lost_keep).bind ?_
  · intro m a t commits
    exact commits
  · intro _ _ _
    exact ensures_refuse

theorem obeys_authenticate {authorization : Authorization} {requestId route : String}
    (asks : q.ask = .authenticate authorization requestId route) :
    Obeys p q (authenticate p authorization requestId route) := by
  unfold authenticate
  split
  · exact ensures_auditFailure
  · exact ensures_auditFailure
  · rename_i token
    refine ensures_select.bind ?_
    rintro _ _ ⟨m, rfl, rfl⟩
    dsimp only
    split
    · exact ensures_auditFailure
    · rename_i key active
      have found : ∀ more : List Turn, (policy p).replies q ([] ++ [(m, m.1)] ++ more)
          { body := .authenticated key } := by
        intro more
        constructor
        · intro session set
          cases set
        · rintro _ ⟨⟩
          exact ⟨_, List.mem_append_left _ (List.mem_singleton_self _), token, _, _, asks, active⟩
      split
      · have api : q.May ([] ++ [(m, m.1)]) (.touches key.apiKeyId) := by
          rw [Arrival.May, asks]
          trivial
        refine (ensures_transact (.touches key.apiKeyId) api ?_ lost_keep).bind ?_
        · intro m a t commits
          exact commits
        · rintro _ _ ⟨n, t, rfl, -⟩
          exact found [(n, t)]
      · exact found []

/-- **Every request** keeps to the policy. -/
theorem obeys_handler (bankDetails : Option JsString) (q : Arrival) :
    Obeys p q (handler p bankDetails q) := by
  unfold handler
  split
  · rename_i asks
    exact obeys_signup asks
  · rename_i asks
    exact obeys_login asks
  · exact obeys_logout
  · exact obeys_enroll
  · rename_i asks
    exact obeys_verify asks
  · exact obeys_me
  · exact obeys_keys
  · exact obeys_createKey
  · exact obeys_revokeKey
  · exact obeys_settings
  · exact obeys_updateSettings
  · exact obeys_deleteOrg
  · exact obeys_requestInvoice
  · rename_i asks
    exact obeys_createKeyCommand (by rw [asks]; trivial)
  · rename_i asks
    exact obeys_revokeKeyCommand (by rw [asks]; trivial)
  · rename_i asks
    exact obeys_authenticate asks

end Routes

/-! ## Every run -/

/-- Requests that are served, by `ι`. -/
abbrev Served (ι : Type) : Type := Pool ι Arrival Accounts Chance Reply

abbrev Trace (ι : Type) : Type := List (Transition (Served ι) (PoolAction ι Arrival Chance))

/-- A request arrives, or runs its next statement. -/
abbrev Step {ι : Type} [DecidableEq ι] (p : AccountPlatform) (bankDetails : Option JsString) :
    Served ι → PoolAction ι Arrival Chance → Served ι → Prop :=
  Pool.Step Admitted (handler p bankDetails)

section Runs

variable {ι : Type} (p : AccountPlatform)

/-- Someone gave the password of the user of `session`, or signed up as this user. -/
def LoggedIn (tr : Trace ι) (session : SessionData) : Prop :=
  ∃ e ∈ tr, ∃ i q turn, Ran i (some q) turn e ∧ LogsIn p q turn session

/-- Someone gave a second factor of the user. -/
def FactorProved (tr : Trace ι) (userId : Uuid) : Prop :=
  ∃ e ∈ tr, ∃ i q turn, Ran i (some q) turn e ∧ ProvesFactor p q turn userId

/-- What there is behind the session of a reply. -/
def Vouched (tr : Trace ι) (r : Reply) : Prop :=
  ∀ session, r.cookie = .seal session →
    LoggedIn p tr session ∧ (session.mfaVerified = true → FactorProved p tr session.userId)

variable {p} {bankDetails : Option JsString} {s t : Served ι} {tr : Trace ι}

theorem LoggedIn.grows {session : SessionData} (before : LoggedIn p tr session) (more : Trace ι) :
    LoggedIn p (tr ++ more) session := by
  obtain ⟨e, member, is⟩ := before
  exact ⟨e, List.mem_append_left _ member, is⟩

theorem FactorProved.grows {userId : Uuid} (before : FactorProved p tr userId) (more : Trace ι) :
    FactorProved p (tr ++ more) userId := by
  obtain ⟨e, member, is⟩ := before
  exact ⟨e, List.mem_append_left _ member, is⟩

/-- Whether someone has logged in does not depend on the second factor. -/
theorem LogsIn.verified {q : Arrival} {turn : Turn} {session : SessionData}
    (logsIn : LogsIn p q turn session) :
    LogsIn p q turn { session with mfaVerified := true } := logsIn

/-- What is known where a statement runs. -/
structure Underway (p : AccountPlatform) (first : Trace ι) (e : Transition (Served ι)
    (PoolAction ι Arrival Chance)) (i : ι) (c : Chance) (q : Arrival) (past : List Turn)
    (deed : Deed) : Prop where
  action : e.action = .run i c
  asks : (e.source.stage i).asks = some q
  indexed : e.source.store.Indexed
  may : q.May past deed
  does : deed.Does p (e.source.store, c) e.target.store
  past : ∀ turn ∈ past, (policy p).Turned turn e.source.store ∧
    ∃ e' ∈ first, Ran i (some q) turn e'
  session : ∀ session, q.caller.session = some session → LoggedIn p first session ∧
    (session.mfaVerified = true → FactorProved p first session.userId)

/-- Behind a request stands an admin of the organisation. -/
structure AdminBehind (p : AccountPlatform) (first : Trace ι) (q : Arrival) (orgId userId : Uuid) :
    Prop where
  presents : ∃ session, q.Presents session ∧ session.orgId = orgId ∧ session.userId = userId ∧
    session.role = .admin ∧ session.mfaVerified = true ∧ LoggedIn p first session
  factor : FactorProved p first userId
  active : ∃ e ∈ first, (e.source.store.getOrgSettings orgId).isSome = true

theorem Underway.adminBehind {first : Trace ι}
    {e : Transition (Served ι) (PoolAction ι Arrival Chance)} {i : ι} {c : Chance} {q : Arrival}
    {past : List Turn} {deed : Deed} (underway : Underway p first e i c q past deed)
    {orgId userId : Uuid} (admin : q.Admin past orgId userId) :
    AdminBehind p first q orgId userId := by
  obtain ⟨session, presents, verified, role, rfl, rfl, turn, member, active⟩ := admin
  obtain ⟨login, factor⟩ := underway.session session presents.1
  obtain ⟨e', inside, -, -, found, -⟩ := (underway.past turn member).2
  refine ⟨⟨session, presents, rfl, rfl, role, verified, login⟩, factor verified, e', inside, ?_⟩
  rw [found]
  exact active

/-- Who may change the data of an organisation with the statement `e`, after the statements
`first`. -/
def Authorised (p : AccountPlatform) (first : Trace ι)
    (e : Transition (Served ι) (PoolAction ι Arrival Chance)) (orgId : Uuid) : Prop :=
  ∃ i c q, e.action = .run i c ∧ (e.source.stage i).asks = some q ∧
    -- the organisation is being signed up, or an operator or an admin of it asks
    ((∃ orgName email password, q.ask = .signup orgName email password) ∧
        (∀ o ∈ e.source.store.organizations, o.id ≠ orgId) ∨
      q.ask.IsCommand ∨
      ∃ userId, AdminBehind p first q orgId userId ∧
        ∃ row more, e.target.store.auditEvents = e.source.store.auditEvents ++ more ∧
          row ∈ more ∧ row.orgId = some orgId ∧ row.actorUserId = some userId)

/-- A statement that changes the data of an organisation is authorised. -/
theorem Underway.authorised {first : Trace ι}
    {e : Transition (Served ι) (PoolAction ι Arrival Chance)} {i : ι} {c : Chance} {q : Arrival}
    {past : List Turn} {deed : Deed} (underway : Underway p first e i c q past deed)
    {orgId : Uuid} (changed : e.target.store.dataOf orgId ≠ e.source.store.dataOf orgId) :
    Authorised p first e orgId := by
  refine ⟨i, c, q, underway.action, underway.asks, ?_⟩
  have concerns : deed.Concerns (e.source.store, c) orgId := by
    by_contra other
    exact changed (Deed.does_dataOf underway.does other)
  have recorded := Deed.does_recorded underway.does underway.indexed changed
  have may := underway.may
  cases deed with
  | nothing | logs _ | enrolls _ | consumes _ _ | touches _ => exact concerns.elim
  | signsUp orgName email passwordHash =>
      obtain ⟨ids, commits⟩ := underway.does
      obtain ⟨-, new, -, -⟩ := Accounts.signupOrgWithAdmin_commits commits
      obtain rfl := concerns
      exact .inl ⟨may, new⟩
  | sets id userId name retentionDays =>
      obtain rfl := concerns
      exact .inr (.inr ⟨userId, underway.adminBehind may, recorded⟩)
  | deletes id userId =>
      obtain rfl := concerns
      exact .inr (.inr ⟨userId, underway.adminBehind may, recorded⟩)
  | invoices id userId planCode =>
      obtain rfl := concerns
      exact .inr (.inr ⟨userId, underway.adminBehind may, recorded⟩)
  | creates id name actor =>
      obtain rfl := concerns
      obtain ⟨userId, rfl, admin⟩ | ⟨-, command⟩ := may
      · exact .inr (.inr ⟨userId, underway.adminBehind admin, recorded⟩)
      · exact .inr (.inl command)
  | revokes keyId actor =>
      obtain ⟨own, userId, rfl, admin, turn, member, k, listed, is, belongs⟩ | ⟨-, command⟩ := may
      · -- the key that was listed is the one that is revoked
        obtain ⟨k', there, same, concerned⟩ := concerns
        obtain ⟨turned, -⟩ := underway.past turn member
        obtain ⟨l, left, became⟩ := turned.ran.keys k listed
        obtain ⟨n, now_, further⟩ := turned.since.keys l left
        have whole := KeyBecame.trans _ _ _ became further
        obtain rfl := underway.indexed.keyIds.eq_of_key now_ there
          (congrArg some (whole.id.trans is)) (congrArg some same)
        obtain rfl : own = orgId := belongs.symm.trans (whole.orgId.symm.trans concerned)
        exact .inr (.inr ⟨userId, underway.adminBehind admin, recorded⟩)
      · exact .inr (.inl command)

variable [DecidableEq ι]

/-- **Every session** has a login behind it, and a verified one a second factor. -/
theorem sessions_vouched (fresh : s.Fresh) (indexed : s.store.Indexed)
    (run : Run (Step p bankDetails) s tr t) : ∀ r ∈ t.given, Vouched p tr r := by
  refine Policy.vouched (obeys_handler bankDetails) fresh indexed ?_ ?_ run
  · intro tr more r vouched session set
    obtain ⟨login, factor⟩ := vouched session set
    exact ⟨login.grows more, fun verified => (factor verified).grows more⟩
  · intro tr i q past r early replies admitted vouched ran session set
    obtain ⟨unverified, turn, member, logsIn⟩ | ⟨before, presents, rfl, turn, member, proves⟩ :=
      replies.1 session set
    · obtain ⟨e, inside, is⟩ := ran turn member
      refine ⟨⟨e, inside, i, q, turn, is, logsIn⟩, ?_⟩
      intro verified
      rw [unverified] at verified
      cases verified
    · -- the session that was presented is one that was set before
      obtain ⟨r', inside, set'⟩ := admitted before presents.1
      obtain ⟨e', there, j, q', turn', ran', logsIn⟩ := (vouched r' inside before set').1
      obtain ⟨e, here, is⟩ := ran turn member
      exact ⟨⟨e', there, j, q', turn', ran', logsIn.verified⟩,
        fun _ => ⟨e, here, i, q, turn, is, proves⟩⟩

/-- **A statement of a run**, and what is behind it. -/
theorem underway_of_changed (fresh : s.Fresh) (indexed : s.store.Indexed)
    (run : Run (Step p bankDetails) s tr t) {first rest : Trace ι}
    {e : Transition (Served ι) (PoolAction ι Arrival Chance)} (cut : tr = first ++ e :: rest)
    (changed : e.target.store ≠ e.source.store) :
    ∃ i c q past deed, Underway p first e i c q past deed := by
  obtain ⟨before, last⟩ := run.before cut
  have sound := (Policy.kept (obeys_handler bankDetails) fresh indexed
    before).1
  have wrote := (sound.step (obeys_handler bankDetails) last).2.2
  cases act : e.action with
  | arrive i q =>
      rw [act] at wrote
      exact absurd wrote changed
  | run i c =>
      rw [act] at wrote
      obtain ⟨q, past, leaves, next, here, deed, may, does⟩ := wrote
      have right := sound.stage i
      rw [here] at right
      obtain ⟨⟨⟨early, earlier, admitted⟩, turned⟩, -⟩ := right
      have asks : (e.source.stage i).asks = some q := by
        rw [here]
        rfl
      refine ⟨i, c, q, past, deed, act, asks, sound.holds, may, does, ?_, ?_⟩
      · intro turn member
        have ran := Pool.ran fresh before i turn (by rw [here]; exact member)
        rw [asks] at ran
        exact ⟨turned turn member, ran⟩
      · intro session presented
        obtain ⟨r, inside, set⟩ := admitted session presented
        exact sessions_vouched fresh indexed before r (earlier.subset inside) session set

/-- **The data of an organisation**, but for when its keys were last used, change by its sign-up,
by an operator, or on behalf of a verified admin of it, with the password and a second factor
given before, and then on record. -/
theorem tenant_change_authorised (fresh : s.Fresh) (indexed : s.store.Indexed)
    (run : Run (Step p bankDetails) s tr t) {first rest : Trace ι}
    {e : Transition (Served ι) (PoolAction ι Arrival Chance)} (cut : tr = first ++ e :: rest)
    {orgId : Uuid} (changed : e.target.store.dataOf orgId ≠ e.source.store.dataOf orgId) :
    Authorised p first e orgId := by
  obtain ⟨i, c, q, past, deed, underway⟩ := underway_of_changed fresh indexed run cut
    fun same => changed (by rw [same])
  exact underway.authorised changed

/-- A platform on which every text has one hash. -/
def plainPlatform : AccountPlatform where
  toUpperCase := id
  hmacSha1 := samplePlatform.hmacSha1
  sha256Hex _ := ""
  encodeURIComponent := id
  toLowerCase := id
  argon2Hash _ _ := "$argon2id$"
  argon2Verify _ _ := true

theorem minted_of_zeros : (randomBase62 apiKeyRandomLength [List.replicate 32 0]).isSome := by
  decide

/-- What a statement meets at noon. -/
def noon : Chance where
  now := 0
  clock := 0
  dbNow := 0
  delivery := .answered
  orgId := .numbered 3
  userId := .numbered 4
  rowId := .numbered 5
  csrfBytes := []
  passwordSalt := ""
  mfa := sampleDraw 0
  keyBlocks := [List.replicate 32 0]
  minted := minted_of_zeros
  lastUsedMarker := true

/-- An organisation with one user, who has a second factor. -/
def morning : Served ℕ where
  store :=
    { organizations := [⟨⟨.numbered 1, none, 30, false⟩, [65]⟩]
      users := [⟨⟨.numbered 2, .numbered 1, [66], some [], [""], none⟩, "$argon2id$", .admin⟩]
      apiKeys := []
      invoiceRequests := []
      auditEvents := [] }
  stage _ := .absent
  given := []

theorem morning_fresh : morning.Fresh := ⟨fun _ => rfl, rfl⟩

theorem morning_indexed : morning.store.Indexed :=
  ⟨List.pairwise_singleton _ _, .nil, .nil⟩

/-- A request of the user. -/
def userAsks (i : ℕ) (verified : Bool) (ask : Ask) : PoolAction ℕ Arrival Chance :=
  .arrive i ⟨⟨some ⟨.numbered 2, .numbered 1, .admin, verified, ""⟩, some ""⟩, ask⟩

/-- The user logs in, gives a recovery code, creates a key, which is then used, and deletes the
organisation. -/
def day : List (PoolAction ℕ Arrival Chance) :=
  [.arrive 0 ⟨⟨none, none⟩, .login [66] [67]⟩, .run 0 noon, .run 0 noon,
    userAsks 1 false (.verify [49]), .run 1 noon, .run 1 noon, .run 1 noon, .run 1 noon,
    userAsks 2 true (.createKey [75]), .run 2 noon, .run 2 noon, .run 2 noon,
    .arrive 3 ⟨⟨none, none⟩, .authenticate (.bearer []) "" ""⟩, .run 3 noon, .run 3 noon,
    userAsks 4 true (.deleteOrg [65]), .run 4 noon, .run 4 noon, .run 4 noon]

/-- Where the first `n` actions lead. -/
def hour (n : ℕ) : Served ℕ :=
  (day.take n).foldl (Pool.after Admitted (handler plainPlatform none)) morning

/-- The statements of the first `n` actions. -/
def hours (n : ℕ) : Trace ℕ :=
  transitions (Pool.after Admitted (handler plainPlatform none)) morning (day.take n)

theorem day_executable : ∀ n ≤ 19, Executable (Pool.Allows Admitted (handler plainPlatform none))
    (Pool.after Admitted (handler plainPlatform none)) morning (day.take n) := by
  decide +kernel

theorem day_run {n : ℕ} (early : n ≤ 19) :
    Run (Step plainPlatform none) morning (hours n) (hour n) :=
  (day_executable n early).run_transitions

/-- The deletion of the organisation is its admin's. -/
theorem tenant_change_authorised_day :
    (hour 19).store.dataOf (.numbered 1) ≠ (hour 18).store.dataOf (.numbered 1) ∧
      Authorised plainPlatform (hours 18) ⟨hour 18, .run 4 noon, hour 19⟩ (.numbered 1) := by
  have last : Step plainPlatform none (hour 18) (.run 4 noon) (hour 19) :=
    ⟨by decide +kernel, rfl⟩
  have changed : (hour 19).store.dataOf (.numbered 1) ≠ (hour 18).store.dataOf (.numbered 1) := by
    decide +kernel
  exact ⟨changed, tenant_change_authorised morning_fresh morning_indexed
    ((day_run (by decide)).next last) rfl changed⟩

/-- **A user's row** changes by the user's sign-up, or on behalf of whoever presents a session of
this user, with the password given before. -/
theorem second_factor_guarded (fresh : s.Fresh) (indexed : s.store.Indexed)
    (run : Run (Step p bankDetails) s tr t) {first rest : Trace ι}
    {e : Transition (Served ι) (PoolAction ι Arrival Chance)} (cut : tr = first ++ e :: rest)
    {userId : Uuid} (changed : (e.target.store.users.filter fun u => u.id = userId) ≠
      e.source.store.users.filter fun u => u.id = userId) :
    ∃ i c q, e.action = .run i c ∧ (e.source.stage i).asks = some q ∧
      ((∃ orgName email password, q.ask = .signup orgName email password) ∧
          (∀ u ∈ e.source.store.users, u.id ≠ userId) ∨
        ∃ session, q.Presents session ∧ session.userId = userId ∧ LoggedIn p first session) := by
  obtain ⟨i, c, q, past, deed, underway⟩ := underway_of_changed fresh indexed run cut
    fun same => changed (by rw [same])
  refine ⟨i, c, q, underway.action, underway.asks, ?_⟩
  have factors : deed.Factors (e.source.store, c) userId := by
    by_contra other
    exact changed (Deed.does_users underway.does other)
  have may := underway.may
  cases deed with
  | nothing | logs _ | sets _ _ _ _ | deletes _ _ | creates _ _ _ | revokes _ _ | touches _
  | invoices _ _ _ => exact factors.elim
  | signsUp orgName email passwordHash =>
      obtain ⟨ids, commits⟩ := underway.does
      obtain ⟨-, -, new, -⟩ := Accounts.signupOrgWithAdmin_commits commits
      obtain rfl := factors
      exact .inl ⟨may, new⟩
  | enrolls id =>
      obtain rfl := factors
      obtain ⟨session, presents, own⟩ := may
      exact .inr ⟨session, presents, own, (underway.session session presents.1).1⟩
  | consumes id code =>
      obtain rfl := factors
      obtain ⟨session, presents, own⟩ := may
      exact .inr ⟨session, presents, own, (underway.session session presents.1).1⟩

/-- The request with the recovery code. -/
def codeGiven : Arrival :=
  ⟨⟨some ⟨.numbered 2, .numbered 1, .admin, false, ""⟩, some ""⟩, .verify [49]⟩

/-- The code is taken from the row of the user for a session of this user, who has logged in. -/
theorem second_factor_guarded_day :
    ((hour 6).stage 1).asks = some codeGiven ∧
      ((hour 7).store.users.filter fun u => u.id = .numbered 2) ≠
        ((hour 6).store.users.filter fun u => u.id = .numbered 2) ∧
      ∃ session, codeGiven.Presents session ∧ session.userId = .numbered 2 ∧
        LoggedIn plainPlatform (hours 6) session := by
  have last : Step plainPlatform none (hour 6) (.run 1 noon) (hour 7) := ⟨by decide +kernel, rfl⟩
  have changed : ((hour 7).store.users.filter fun u => u.id = .numbered 2) ≠
      (hour 6).store.users.filter fun u => u.id = .numbered 2 := by decide +kernel
  have here : ((hour 6).stage 1).asks = some codeGiven := by decide +kernel
  obtain ⟨i, c, q, action, asks, behind⟩ := second_factor_guarded morning_fresh morning_indexed
    ((day_run (by decide)).next last) rfl changed
  cases action
  obtain rfl : codeGiven = q := Option.some.inj (here.symm.trans asks)
  refine ⟨here, changed, behind.resolve_left ?_⟩
  rintro ⟨⟨orgName, email, password, signup⟩, -⟩
  cases signup

/-- **An accepted key** was there under the hash of the token, at no earlier point of the run was
it revoked or its organisation deleted, and it was there from the start or was created by whoever
may change the data of its organisation. -/
theorem accepted_key_alive (fresh : s.Fresh) (indexed : s.store.Indexed)
    (run : Run (Step p bankDetails) s tr t) {i : ι} {q : Arrival} {past : List Turn} {r : Reply}
    (replied : t.stage i = .replied q past r) {key : AuthenticatedKey}
    (accepted : r.body = .authenticated key) :
    ∃ first e rest token requestId route, tr = first ++ e :: rest ∧
      q.ask = .authenticate (.bearer token) requestId route ∧
      (∃ c, e.action = .run i c) ∧
      (∃ k ∈ e.source.store.apiKeys, k.keyHash = p.sha256Hex token ∧ k.id = key.apiKeyId ∧
        k.orgId = key.orgId) ∧
      (∀ e' ∈ first, ¬ e'.source.store.Dead (p.sha256Hex token)) ∧
      ((∃ k ∈ s.store.apiKeys, k.keyHash = p.sha256Hex token) ∨
        ∃ before e' after, first = before ++ e' :: after ∧
          (∀ k ∈ e'.source.store.apiKeys, k.keyHash ≠ p.sha256Hex token) ∧
          (∃ k ∈ e'.target.store.apiKeys, k.keyHash = p.sha256Hex token) ∧
          Authorised p before e' key.orgId) := by
  have right := (Policy.kept (obeys_handler bankDetails) fresh indexed
    run).1.stage i
  rw [replied] at right
  obtain ⟨turn, member, token, requestId, route, asks, active⟩ := right.2.2 key accepted
  have ran := Pool.ran fresh run i turn (by rw [replied]; exact member)
  obtain ⟨e, inside, action, -, found, -⟩ := ran
  obtain ⟨first, rest, rfl⟩ := List.append_of_mem inside
  have before := (run.before rfl).1
  obtain ⟨since, evolved⟩ := Policy.evolved (obeys_handler bankDetails) fresh
    indexed before
  have sound := (Policy.kept (obeys_handler bankDetails) fresh indexed
    before).1
  rw [← found] at active
  obtain ⟨k, listed, hash, id, org, -⟩ := Accounts.findActiveApiKeyByHash_ok active
  refine ⟨first, e, rest, token, requestId, route, rfl, asks, ⟨_, action⟩,
    ⟨k, listed, hash, id, org⟩, ?_, ?_⟩
  · intro e' earlier dead
    exact (dead.stays (evolved e' earlier).1).refused sound.holds _ _ active
  · by_cases there : ∃ k ∈ s.store.apiKeys, k.keyHash = p.sha256Hex token
    · exact .inl there
    · -- the key has appeared with some statement, and it is still the same
      obtain ⟨before', e', after, rfl, new, k', listed', hash'⟩ := before.begins
        (P := fun pool => ∃ k ∈ pool.store.apiKeys, k.keyHash = p.sha256Hex token)
        there ⟨k, listed, hash⟩
      have absent : ∀ k ∈ e'.source.store.apiKeys, k.keyHash ≠ p.sha256Hex token :=
        fun k member same => new ⟨k, member, same⟩
      refine .inr ⟨before', e', after, rfl, absent, ⟨k', listed', hash'⟩, ?_⟩
      obtain ⟨k'', listed'', became⟩ := (evolved e' (by simp)).2.keys k' listed'
      obtain rfl := sound.holds.keyHashes.eq_of_key listed'' listed
        (congrArg some (became.keyHash.trans hash')) (congrArg some hash)
      obtain own : k'.orgId = key.orgId := became.orgId.symm.trans org
      have changed := Accounts.dataOf_ne_of_newKey listed' fun k member same =>
        absent k member (same.trans hash')
      rw [own] at changed
      obtain ⟨j, c, q', past', deed, underway⟩ := underway_of_changed fresh indexed before rfl
        fun same => changed (by rw [same])
      exact underway.authorised changed

/-- The key that a request has been accepted with. -/
def keyAccepted :
    Theory.Stage Arrival (Accounts × Chance) Accounts Reply → Option AuthenticatedKey
  | .replied _ _ r => r.body.key
  | _ => none

/-- The key that the request of the day is accepted with was alive all the time before, and it was
created that day on behalf of the admin. -/
theorem accepted_key_alive_day :
    keyAccepted ((hour 15).stage 3) = some ⟨.numbered 5, .numbered 1⟩ ∧
      ∃ first e rest, hours 15 = first ++ e :: rest ∧
        (∃ k ∈ e.source.store.apiKeys, k.id = .numbered 5 ∧ k.orgId = .numbered 1) ∧
        (∀ e' ∈ first, ¬ e'.source.store.Dead (plainPlatform.sha256Hex [])) ∧
        ∃ before e' after, first = before ++ e' :: after ∧
          Authorised plainPlatform before e' (.numbered 1) := by
  have accepted : keyAccepted ((hour 15).stage 3) = some ⟨.numbered 5, .numbered 1⟩ := by
    decide +kernel
  refine ⟨accepted, ?_⟩
  cases replied : (hour 15).stage 3 with
  | absent | under _ _ _ _ =>
      rw [replied] at accepted
      cases accepted
  | replied q past r =>
      rw [replied] at accepted
      obtain ⟨body, cookie⟩ := r
      cases body with
      | authenticated key =>
          obtain rfl := Option.some.inj accepted
          obtain ⟨first, e, rest, token, requestId, route, cut, asks, -, listed, alive, since⟩ :=
            accepted_key_alive morning_fresh morning_indexed (day_run (by decide)) replied rfl
          refine ⟨first, e, rest, cut, ?_, alive, ?_⟩
          · obtain ⟨k, inside, -, id, org⟩ := listed
            exact ⟨k, inside, id, org⟩
          · rcases since with ⟨k, inside, -⟩ | ⟨before, e', after, is, -, -, authorised⟩
            · cases inside
            · exact ⟨before, e', after, is, authorised⟩
      | _ => cases accepted

/-- **The audit trail of keys.**  In every state of a run every key is on record: one event says
that it was created, and one, if it is revoked, that it was revoked. -/
theorem keys_on_record (fresh : s.Fresh) (indexed : s.store.Indexed) (audited : s.store.Audited)
    (run : Run (Step p bankDetails) s tr t) :
    t.store.Audited ∧ ∀ e ∈ tr, e.source.store.Audited := by
  have keep : ∀ (s : Served ι) a t, ((policy p).Sound Admitted s ∧ s.store.Audited) →
      Step p bankDetails s a t → (policy p).Sound Admitted t ∧ t.store.Audited := by
    rintro s a t ⟨sound, audited⟩ step
    obtain ⟨sound', -, wrote⟩ := sound.step (obeys_handler bankDetails) step
    refine ⟨sound', ?_⟩
    cases a with
    | arrive i q =>
        rw [show t.store = s.store from wrote]
        exact audited
    | run i c =>
        obtain ⟨q, past, leaves, next, here, deed, may, does⟩ := wrote
        refine Deed.does_audited does sound.holds audited ?_
        rintro event rfl
        exact may
  obtain ⟨⟨-, last⟩, throughout⟩ := run.throughout keep ⟨.fresh fresh indexed, audited⟩
  exact ⟨last, fun e member => (throughout e member).1.2⟩

theorem keys_on_record_day :
    (hour 19).store.Audited ∧ ∀ e ∈ hours 19, e.source.store.Audited := by
  have audited : morning.store.Audited := ⟨fun _ member => (List.not_mem_nil member).elim,
    fun _ member => (List.not_mem_nil member).elim⟩
  exact keys_on_record morning_fresh morning_indexed audited (day_run le_rfl)

end Runs

end Tozalist.Api.Dashboard
