import Ajenda.TransitionSystem
import Mathlib.Data.List.Nodup

/-!
# The tenant of a login

`complete_login` from the validated identity on: `_resolve_member`, the linking of the subject, the
activation and the check of the tenant. What raises is rolled back. The rows of the memberships are
in the order of `created_at`; reading a UUID is a parameter.
-/
namespace Ajenda.Membership
open TransitionSystem

section Tables

inductive MemberStatus
  | pendingVerification | active | revoked
  deriving DecidableEq

structure TenantMember where
  id : String
  tenantId : String
  emailCanonical : String
  role : String
  status : MemberStatus
  externalSubjectId : Option String
  deriving DecidableEq

structure Tenant where
  id : String
  name : String
  slug : String
  status : String
  deletedAt : Option ℕ
  deriving DecidableEq

/-- An issued session and the subject that logged in. -/
structure LoginSession where
  memberId : String
  tenantId : String
  email : String
  subject : String
  deriving DecidableEq

/-- The tables with the constraints of the memberships. -/
structure World where
  members : List TenantMember
  tenants : List Tenant
  sessions : List LoginSession
  memberKey : (members.map (·.id)).Nodup
  tenantEmail : (members.map fun m => (m.tenantId, m.emailCanonical)).Nodup

/-- A validated identity with the tenant it asks for. -/
structure Identity where
  subject : String
  emailRaw : String
  emailCanonical : String
  tenantId : Option String

structure OidcTenantChoice where
  tenantId : String
  orgName : String
  slug : String
  deriving DecidableEq

inductive OidcError
  | validation (message : String)
  | accountNotFound (message : String)
  | multipleTenants (message : String) (tenants : List OidcTenantChoice)
  deriving DecidableEq

end Tables

section Login
variable (readUuid : String → Option String) (w : World) (identity : Identity)

def World.tenant (tenantId : String) : Option Tenant := w.tenants.find? (·.id = tenantId)

def Tenant.unavailable (tenant : Tenant) : Bool :=
  tenant.deletedAt.isSome || tenant.status = "suspended"

/-- The tenant exists and is neither deleted nor suspended. -/
def World.available (tenantId : String) : Bool := (w.tenant tenantId).any (!·.unavailable)

/-- `get_active_by_external_subject_id`. -/
def getActiveByExternalSubjectId (subject : String) : Option TenantMember :=
  w.members.find? fun m => m.externalSubjectId = some subject ∧ m.status = .active

/-- `list_active_for_email`. -/
def listActiveForEmail (emailCanonical : String) : List TenantMember :=
  w.members.filter fun m => m.emailCanonical = emailCanonical ∧ m.status = .active

/-- `get_owner_by_email_canonical` of the pending owners. -/
def getPendingOwner (emailCanonical : String) : Option TenantMember :=
  w.members.find? fun m => m.emailCanonical = emailCanonical ∧ m.role = "tenant_owner" ∧
    m.status = .pendingVerification

/-- `_tenant_choices_for_members`. -/
def tenantChoices (members : List TenantMember) : List OidcTenantChoice :=
  members.filterMap fun m => (w.tenant m.tenantId).bind fun tenant =>
    if tenant.unavailable then none else some ⟨m.tenantId, tenant.name, tenant.slug⟩

/-- The tenant that is asked for; an empty text asks for none. -/
def Identity.choice (identity : Identity) : Option String := identity.tenantId.filter (· ≠ "")

/-- `_resolve_member`. -/
def resolveMember : Except OidcError TenantMember :=
  match getActiveByExternalSubjectId w identity.subject with
  | some linked => .ok linked
  | none =>
    let active := listActiveForEmail w identity.emailCanonical
    match identity.choice with
    | some text =>
      match readUuid text with
      | none => .error (.validation "invalid tenant_id")
      | some tenantId =>
        match active.find? (·.tenantId = tenantId) with
        | some m => .ok m
        | none => .error (.accountNotFound "no active membership for tenant")
    | none =>
      match active with
      | [m] => .ok m
      | m :: n :: rest => .error (.multipleTenants "multiple active workspaces for this email"
          (tenantChoices w (m :: n :: rest)))
      | [] =>
        match getPendingOwner w identity.emailCanonical with
        | some m => .ok m
        | none => .error (.accountNotFound "no account found for this identity")

/-- A membership with its link and its status as they are in another row of it. -/
def TenantMember.withLogin (m row : TenantMember) : TenantMember :=
  if m.id = row.id then
    { m with externalSubjectId := row.externalSubjectId, status := row.status }
  else m

/-- `link_external_subject`, where the membership is not linked yet. -/
def linkSubject (m : TenantMember) (subject : String) : Except OidcError TenantMember :=
  match m.externalSubjectId with
  | none => .ok { m with externalSubjectId := some subject }
  | some linked =>
    if linked = subject then .ok m
    else .error (.validation "identity provider subject does not match linked membership")

/-- `activate_member`, where the membership is pending. -/
def activate (m : TenantMember) : TenantMember :=
  if m.status = .pendingVerification then { m with status := .active } else m

variable {w}

theorem withLogin_keys (row : TenantMember) :
    (w.members.map (·.withLogin row)).map (·.id) = w.members.map (·.id) ∧
      (w.members.map (·.withLogin row)).map (fun m => (m.tenantId, m.emailCanonical)) =
        w.members.map fun m => (m.tenantId, m.emailCanonical) := by
  simp only [List.map_map]
  constructor <;>
    · refine List.map_congr_left fun m _ => ?_
      simp only [Function.comp_apply, TenantMember.withLogin]
      split_ifs <;> rfl

variable (w)

/-- A membership saved and a session issued for it. -/
def World.issueSession (m : TenantMember) (identity : Identity) : World where
  members := w.members.map (·.withLogin m)
  tenants := w.tenants
  sessions := ⟨m.id, m.tenantId, identity.emailRaw, identity.subject⟩ :: w.sessions
  memberKey := by rw [(withLogin_keys m).1]; exact w.memberKey
  tenantEmail := by rw [(withLogin_keys m).2]; exact w.tenantEmail

/-- `complete_login`. -/
def completeLogin : Except OidcError World := do
  let member ← resolveMember readUuid w identity
  let linked ← linkSubject member identity.subject
  if w.available (activate linked).tenantId then
    return w.issueSession (activate linked) identity
  else .error (.accountNotFound "tenant is not available for login")

end Login

section Runs
variable (readUuid : String → Option String)

/-- A login, or one of the other writes: a new membership, a new status, other tenants. -/
inductive Action
  | login (identity : Identity)
  | createMember (m : TenantMember)
  | setStatus (memberId : String) (status : MemberStatus)
  | setTenants (tenants : List Tenant)

theorem lawfulBEq_key : LawfulBEq (String × String) := inferInstance

attribute [local instance] lawfulBEq_key in
/-- A new membership, unless one of its unique columns is taken. -/
def World.createMember (w : World) (m : TenantMember) : World :=
  if h : m.id ∉ w.members.map (·.id) ∧ (m.tenantId, m.emailCanonical) ∉
      w.members.map fun m => (m.tenantId, m.emailCanonical) then
    { w with
      members := w.members ++ [m]
      memberKey := by
        rw [List.map_append, List.map_singleton]
        exact List.nodup_append.2 ⟨w.memberKey, List.nodup_singleton _, fun a ha b hb heq =>
          h.1 (by rw [← List.mem_singleton.1 hb, ← heq]; exact ha)⟩
      tenantEmail := by
        rw [List.map_append, List.map_singleton]
        exact List.nodup_append.2 ⟨w.tenantEmail, List.nodup_singleton _, fun a ha b hb heq =>
          h.2 (by rw [← List.mem_singleton.1 hb, ← heq]; exact ha)⟩ }
  else w

def World.setStatus (w : World) (memberId : String) (status : MemberStatus) : World :=
  match w.members.find? (·.id = memberId) with
  | none => w
  | some m => { w with
      members := w.members.map (·.withLogin { m with status := status })
      memberKey := by rw [(withLogin_keys _).1]; exact w.memberKey
      tenantEmail := by rw [(withLogin_keys _).2]; exact w.tenantEmail }

def step (w : World) : Action → World
  | .login identity =>
    match completeLogin readUuid w identity with
    | .ok w' => w'
    | .error _ => w
  | .createMember m => w.createMember m
  | .setStatus memberId status => w.setStatus memberId status
  | .setTenants tenants => { w with tenants := tenants }

/-- A world that a run reaches from tables without sessions. -/
def Reachable (w : World) : Prop :=
  ∃ start actions, start.sessions = [] ∧ exec (step readUuid) start actions = w

end Runs

section Logins
variable {readUuid : String → Option String} {w w' : World} {identity : Identity}
  {m row linked : TenantMember} {subject : String}

theorem member_unique (hm : m ∈ w.members) (hrow : row ∈ w.members) (h : m.id = row.id) :
    m = row :=
  List.inj_on_of_nodup_map w.memberKey hm hrow h

theorem linked_of_some (h : getActiveByExternalSubjectId w subject = some m) :
    m ∈ w.members ∧ m.externalSubjectId = some subject ∧ m.status = .active := by
  have hfound := List.find?_some h
  simp only [decide_eq_true_eq] at hfound
  exact ⟨List.mem_of_find?_eq_some h, hfound⟩

theorem mem_listActive {emailCanonical : String} : m ∈ listActiveForEmail w emailCanonical ↔
    m ∈ w.members ∧ m.emailCanonical = emailCanonical ∧ m.status = .active := by
  simp [listActiveForEmail]

/-- The membership that is resolved: stored, not revoked, and of the chosen tenant unless the
subject is linked already. -/
theorem resolveMember_ok (h : resolveMember readUuid w identity = .ok m) :
    m ∈ w.members ∧ m.status ≠ .revoked ∧
      (getActiveByExternalSubjectId w identity.subject = some m ∨
        getActiveByExternalSubjectId w identity.subject = none ∧
          ∀ text ∈ identity.choice, readUuid text = some m.tenantId) := by
  unfold resolveMember at h
  split at h
  next found hfound =>
    cases h
    obtain ⟨hmem, -, hactive⟩ := linked_of_some hfound
    exact ⟨hmem, by simp [hactive], .inl hfound⟩
  next hnone =>
    simp only at h
    split at h
    next text htext =>
      split at h
      · cases h
      next tenantId hread =>
        split at h
        next found hfound =>
          cases h
          obtain ⟨hmem, -, hactive⟩ := mem_listActive.1 (List.mem_of_find?_eq_some hfound)
          have htenant : m.tenantId = tenantId := by simpa using List.find?_some hfound
          refine ⟨hmem, by simp [hactive], .inr ⟨hnone, fun other hother => ?_⟩⟩
          rw [htext, Option.mem_some_iff] at hother
          rw [← hother, hread, htenant]
        · cases h
    next hchoice =>
      have hany : ∀ text ∈ identity.choice, readUuid text = some m.tenantId := by
        simp [hchoice]
      split at h
      next found hactive =>
        cases h
        have hmem := mem_listActive.1 (hactive ▸ List.mem_singleton_self m :
          m ∈ listActiveForEmail w identity.emailCanonical)
        exact ⟨hmem.1, by simp [hmem.2.2], .inr ⟨hnone, hany⟩⟩
      · cases h
      · split at h
        next found hpending =>
          cases h
          have hfound := List.find?_some hpending
          simp only [decide_eq_true_eq] at hfound
          exact ⟨List.mem_of_find?_eq_some hpending, by simp [hfound.2.2], .inr ⟨hnone, hany⟩⟩
        · cases h

theorem linkSubject_ok : linkSubject m subject = .ok linked ↔
    (m.externalSubjectId = none ∨ m.externalSubjectId = some subject) ∧
      linked = { m with externalSubjectId := some subject } := by
  unfold linkSubject
  split
  next hnone => simp [hnone, eq_comm]
  next found hfound =>
    split_ifs with heq
    · subst heq
      have hsame : m = { m with externalSubjectId := some found } := by rw [← hfound]
      simp only [hfound, Except.ok.injEq, or_true, true_and, reduceCtorEq]
      rw [← hsame, eq_comm]
    · simp [hfound, heq]

theorem activate_fields : (activate m).id = m.id ∧ (activate m).tenantId = m.tenantId ∧
    (activate m).externalSubjectId = m.externalSubjectId ∧
      (m.status ≠ .revoked → (activate m).status = .active) := by
  unfold activate
  split_ifs with hpending
  · exact ⟨rfl, rfl, rfl, fun _ => rfl⟩
  · refine ⟨rfl, rfl, rfl, fun hrevoked => ?_⟩
    cases h : m.status <;> simp_all

theorem mem_withLogin (hm : m ∈ w.members) (hid : row.id = m.id) :
    { m with externalSubjectId := row.externalSubjectId, status := row.status } ∈
      w.members.map (·.withLogin row) := by
  refine List.mem_map.2 ⟨m, hm, ?_⟩
  rw [TenantMember.withLogin, if_pos hid.symm]

/-- What a successful login has done. -/
theorem completeLogin_ok (h : completeLogin readUuid w identity = .ok w') : ∃ m,
    resolveMember readUuid w identity = .ok m ∧
      (m.externalSubjectId = none ∨ m.externalSubjectId = some identity.subject) ∧
      w.available m.tenantId = true ∧
      w' = w.issueSession (activate { m with externalSubjectId := some identity.subject })
        identity := by
  unfold completeLogin at h
  cases hm : resolveMember readUuid w identity with
  | error e =>
    rw [hm] at h
    cases h
  | ok m =>
    rw [hm] at h
    simp only [bind, Except.bind] at h
    cases hlinked : linkSubject m identity.subject with
    | error e =>
      rw [hlinked] at h
      cases h
    | ok linked =>
      rw [hlinked] at h
      obtain ⟨hfree, rfl⟩ := linkSubject_ok.1 hlinked
      simp only [activate_fields.2.1] at h
      split_ifs at h with havailable
      cases h
      exact ⟨m, rfl, hfree, havailable, rfl⟩

theorem completeLogin_of_resolved (hm : resolveMember readUuid w identity = .ok m)
    (hfree : m.externalSubjectId = none ∨ m.externalSubjectId = some identity.subject)
    (havailable : w.available m.tenantId = true) :
    ∃ w', completeLogin readUuid w identity = .ok w' := by
  unfold completeLogin
  rw [hm]
  simp only [bind, Except.bind, linkSubject_ok.2 ⟨hfree, rfl⟩, activate_fields.2.1, havailable,
    if_true]
  exact ⟨_, rfl⟩

end Logins

section Sessions
variable {readUuid : String → Option String} {w w' : World} {identity : Identity}
  {m row : TenantMember} {subject : String}

/-- The membership of every session is linked to the subject that logged in. -/
def SessionsLinked (w : World) : Prop :=
  ∀ x ∈ w.sessions, ∃ m ∈ w.members, m.id = x.memberId ∧ m.externalSubjectId = some x.subject

variable (row) in
/-- A row that keeps the links of its membership keeps those of all. -/
theorem linked_withLogin (hlink : ∀ m ∈ w.members, m.id = row.id →
      m.externalSubjectId = some subject → row.externalSubjectId = some subject)
    (hm : m ∈ w.members) (hsubject : m.externalSubjectId = some subject) :
    ∃ m' ∈ w.members.map (·.withLogin row), m'.id = m.id ∧
      m'.externalSubjectId = some subject := by
  refine ⟨m.withLogin row, List.mem_map_of_mem hm, ?_⟩
  unfold TenantMember.withLogin
  split_ifs with hid
  · exact ⟨rfl, hlink m hm hid hsubject⟩
  · exact ⟨rfl, hsubject⟩

/-- The row of the session that a login issues. -/
theorem issued_member (hm : resolveMember readUuid w identity = .ok m) :
    ∃ m' ∈ (w.issueSession (activate { m with externalSubjectId := some identity.subject })
        identity).members, m'.id = m.id ∧ m'.tenantId = m.tenantId ∧ m'.status = .active ∧
      m'.externalSubjectId = some identity.subject := by
  obtain ⟨hmem, hrevoked, -⟩ := resolveMember_ok hm
  obtain ⟨hid, -, hexternal, hactive⟩ :=
    activate_fields (m := { m with externalSubjectId := some identity.subject })
  exact ⟨_, mem_withLogin hmem hid, rfl, rfl, hactive hrevoked, hexternal⟩

theorem SessionsLinked.login (h : SessionsLinked w)
    (hlogin : completeLogin readUuid w identity = .ok w') : SessionsLinked w' := by
  obtain ⟨m, hm, hfree, -, rfl⟩ := completeLogin_ok hlogin
  obtain ⟨hid, -, hexternal, -⟩ :=
    activate_fields (m := { m with externalSubjectId := some identity.subject })
  intro x hx
  rcases List.mem_cons.1 hx with rfl | hx
  · obtain ⟨m', hm', hid', -, -, hlinked⟩ := issued_member hm
    exact ⟨m', hm', hid'.trans hid.symm, hlinked⟩
  · obtain ⟨n, hn, hnid, hnsubject⟩ := h x hx
    obtain ⟨n', hn', hid', hlinked⟩ := linked_withLogin _ (fun k hk hkid hksubject => by
      rw [member_unique hk (resolveMember_ok hm).1 (hkid.trans hid)] at hksubject
      rw [hexternal]
      rcases hfree with hnone | hsome
      · rw [hnone] at hksubject
        cases hksubject
      · exact hsome.symm.trans hksubject) hn hnsubject
    exact ⟨n', hn', hid'.trans hnid, hlinked⟩

/-- Every step keeps the links of the sessions. -/
theorem SessionsLinked.step (h : SessionsLinked w) (action : Action) :
    SessionsLinked (step readUuid w action) := by
  cases action with
  | login identity =>
    simp only [Membership.step]
    split
    next w' hlogin => exact h.login hlogin
    next => exact h
  | createMember m =>
    simp only [Membership.step, World.createMember]
    split_ifs
    · intro x hx
      obtain ⟨n, hn, hlinked⟩ := h x hx
      exact ⟨n, List.mem_append_left _ hn, hlinked⟩
    · exact h
  | setStatus memberId status =>
    simp only [Membership.step, World.setStatus]
    split
    next => exact h
    next m hm =>
      intro x hx
      obtain ⟨n, hn, hnid, hnsubject⟩ := h x hx
      obtain ⟨n', hn', hid', hlinked⟩ := linked_withLogin { m with status := status }
        (fun k hk hkid hksubject => by
          rw [member_unique hk (List.mem_of_find?_eq_some hm) hkid] at hksubject
          exact hksubject) hn hnsubject
      exact ⟨n', hn', hid'.trans hnid, hlinked⟩
  | setTenants tenants => exact h

theorem Reachable.linked (h : Reachable readUuid w) : SessionsLinked w := by
  obtain ⟨start, actions, hstart, rfl⟩ := h
  refine exec_preserves (fun w action hw => hw.step action) ?_ actions
  intro x hx
  rw [hstart] at hx
  cases hx

/-- Two subjects never have sessions for one membership. -/
theorem SessionsLinked.oneSubject (h : SessionsLinked w) {x y : LoginSession}
    (hx : x ∈ w.sessions) (hy : y ∈ w.sessions) (hmember : x.memberId = y.memberId) :
    x.subject = y.subject := by
  obtain ⟨m, hm, hmid, hmsubject⟩ := h x hx
  obtain ⟨n, hn, hnid, hnsubject⟩ := h y hy
  obtain rfl := member_unique hm hn (by rw [hmid, hnid, hmember])
  exact Option.some.inj (hmsubject.symm.trans hnsubject)

end Sessions

section Choice
variable (readUuid : String → Option String) (w : World) (identity : Identity)

/-- The email has an active membership in the tenant that no other subject is linked to. -/
def Claimable (tenantId : String) : Prop :=
  ∃ m ∈ w.members, m.emailCanonical = identity.emailCanonical ∧ m.status = .active ∧
    m.tenantId = tenantId ∧
      (m.externalSubjectId = none ∨ m.externalSubjectId = some identity.subject)

/-- What a login promises about the tenant that is asked for. -/
structure ChoiceHonoured : Prop where
  session : ∀ w', completeLogin readUuid w identity = .ok w' →
    ∃ m ∈ w'.members, m.status = .active ∧ m.externalSubjectId = some identity.subject ∧
      w'.sessions = ⟨m.id, m.tenantId, identity.emailRaw, identity.subject⟩ :: w.sessions ∧
      ∀ text ∈ identity.choice, readUuid text = some m.tenantId
  succeeds : ∀ text ∈ identity.choice, ∀ tenantId, readUuid text = some tenantId →
    w.available tenantId = true → Claimable w identity tenantId →
      ∃ w', completeLogin readUuid w identity = .ok w'
  oneSubject : ∀ x ∈ w.sessions, ∀ y ∈ w.sessions, x.memberId = y.memberId →
    x.subject = y.subject

/-- The active membership that the subject is linked to is of the tenant that is asked for, or
neither it nor that tenant lets the subject in. -/
def LinkAgrees : Prop :=
  ∀ text ∈ identity.choice, ∀ linked,
    getActiveByExternalSubjectId w identity.subject = some linked →
      readUuid text = some linked.tenantId ∨
        w.available linked.tenantId = false ∧ ∀ tenantId, readUuid text = some tenantId →
          w.available tenantId = true → ¬Claimable w identity tenantId

variable {readUuid w identity} {m linked : TenantMember} {tenantId text : String}

variable (readUuid) in
theorem resolveMember_linked
    (h : getActiveByExternalSubjectId w identity.subject = some linked) :
    resolveMember readUuid w identity = .ok linked := by
  rw [resolveMember, h]

/-- Without a link the claimable membership is resolved. -/
theorem resolveMember_claimable (hnone : getActiveByExternalSubjectId w identity.subject = none)
    (htext : text ∈ identity.choice) (hread : readUuid text = some tenantId)
    (h : Claimable w identity tenantId) : ∃ m, resolveMember readUuid w identity = .ok m ∧
      m.tenantId = tenantId ∧
        (m.externalSubjectId = none ∨ m.externalSubjectId = some identity.subject) := by
  obtain ⟨m, hm, hemail, hactive, htenant, hfree⟩ := h
  have hmem : m ∈ listActiveForEmail w identity.emailCanonical :=
    mem_listActive.2 ⟨hm, hemail, hactive⟩
  have hfind : (listActiveForEmail w identity.emailCanonical).find? (·.tenantId = tenantId) =
      some m := by
    cases hfound : (listActiveForEmail w identity.emailCanonical).find?
        (·.tenantId = tenantId) with
    | none => exact absurd (decide_eq_true htenant) (List.find?_eq_none.1 hfound m hmem)
    | some n =>
      obtain ⟨hn, hnemail, -⟩ := mem_listActive.1 (List.mem_of_find?_eq_some hfound)
      have hntenant : n.tenantId = tenantId := by simpa using List.find?_some hfound
      rw [List.inj_on_of_nodup_map w.tenantEmail hn hm
        (Prod.ext (hntenant.trans htenant.symm) (hnemail.trans hemail.symm))]
  refine ⟨m, ?_, htenant, hfree⟩
  unfold resolveMember
  rw [hnone, Option.mem_def.1 htext]
  simp only [hread, hfind]

theorem linkAgrees_of_honoured (h : ChoiceHonoured readUuid w identity) :
    LinkAgrees readUuid w identity := by
  intro text htext linked hlinked
  have hresolved := resolveMember_linked readUuid hlinked
  by_cases hread : readUuid text = some linked.tenantId
  · exact .inl hread
  · have hunavailable : w.available linked.tenantId = false := by
      refine Bool.eq_false_iff.2 fun havailable => hread ?_
      obtain ⟨w', hw'⟩ := completeLogin_of_resolved hresolved
        (.inr (linked_of_some hlinked).2.1) havailable
      obtain ⟨m, -, -, -, hsessions, hchoice⟩ := h.session w' hw'
      obtain ⟨m', hm', -, -, rfl⟩ := completeLogin_ok hw'
      rw [hresolved, Except.ok.injEq] at hm'
      subst hm'
      have hissued := (List.cons.inj hsessions).1
      simp only [LoginSession.mk.injEq, activate_fields.2.1] at hissued
      rw [hchoice text htext, hissued.2.1]
    refine .inr ⟨hunavailable, fun tenantId hread' havailable hclaimable => ?_⟩
    obtain ⟨w', hw'⟩ := h.succeeds text htext tenantId hread' havailable hclaimable
    obtain ⟨m, hm, -, hm', -⟩ := completeLogin_ok hw'
    rw [hresolved, Except.ok.injEq] at hm
    rw [← hm, hunavailable] at hm'
    cases hm'

theorem honoured_of_linkAgrees (hlinks : SessionsLinked w) (h : LinkAgrees readUuid w identity) :
    ChoiceHonoured readUuid w identity where
  session w' hw' := by
    obtain ⟨m, hm, -, havailable, rfl⟩ := completeLogin_ok hw'
    obtain ⟨m', hm', hid, htenant, hactive, hlinked⟩ := issued_member hm
    refine ⟨m', hm', hactive, hlinked, ?_, fun text htext => ?_⟩
    · rw [hid, htenant]
      obtain ⟨hid', htenant', -⟩ :=
        activate_fields (m := { m with externalSubjectId := some identity.subject })
      simp only [World.issueSession, hid', htenant']
    · rw [htenant]
      rcases (resolveMember_ok hm).2.2 with hsome | ⟨-, hchoice⟩
      · rcases h text htext m hsome with hread | ⟨hunavailable, -⟩
        · exact hread
        · rw [hunavailable] at havailable
          cases havailable
      · exact hchoice text htext
  succeeds text htext tenantId hread havailable hclaimable := by
    cases hlinked : getActiveByExternalSubjectId w identity.subject with
    | none =>
      obtain ⟨m, hm, htenant, hfree⟩ := resolveMember_claimable hlinked htext hread hclaimable
      exact completeLogin_of_resolved hm hfree (htenant ▸ havailable)
    | some linked =>
      rcases h text htext linked hlinked with hread' | ⟨-, hnone⟩
      · rw [hread, Option.some.injEq] at hread'
        exact completeLogin_of_resolved (resolveMember_linked readUuid hlinked)
          (.inr (linked_of_some hlinked).2.1) (hread' ▸ havailable)
      · exact absurd hclaimable (hnone tenantId hread havailable)
  oneSubject _ hx _ hy hmember := hlinks.oneSubject hx hy hmember

/-- In every reachable world the choice of a tenant is honoured exactly when the link of the
subject agrees with it. -/
theorem choiceHonoured_iff (h : Reachable readUuid w) :
    ChoiceHonoured readUuid w identity ↔ LinkAgrees readUuid w identity :=
  ⟨linkAgrees_of_honoured, honoured_of_linkAgrees h.linked⟩

end Choice

section TwoTenants

def ownerOf (id tenantId : String) (externalSubjectId : Option String) : TenantMember :=
  ⟨id, tenantId, "ann@example.com", "operator", .active, externalSubjectId⟩

/-- Ann is a member of two tenants and linked in the first. -/
def twoTenants : World where
  members := [ownerOf "m1" "acme" (some "sub-ann"), ownerOf "m2" "globex" none]
  tenants := [⟨"acme", "Acme", "acme", "active", none⟩, ⟨"globex", "Globex", "globex", "active", none⟩]
  sessions := []
  memberKey := by simp [ownerOf]
  tenantEmail := by simp [ownerOf]

/-- Ann asks for a tenant. -/
def annAsks (tenantId : String) : Identity :=
  ⟨"sub-ann", "ann@example.com", "ann@example.com", some tenantId⟩

theorem twoTenants_reachable : Reachable some twoTenants := ⟨twoTenants, [], rfl, rfl⟩

theorem choiceHonoured_acme : ChoiceHonoured some twoTenants (annAsks "acme") ↔
    LinkAgrees some twoTenants (annAsks "acme") :=
  choiceHonoured_iff twoTenants_reachable

/-- Asked for the second tenant, the login answers with a session of the first. -/
theorem choice_ignored : Reachable some twoTenants ∧
    ¬ChoiceHonoured some twoTenants (annAsks "globex") := by
  refine ⟨twoTenants_reachable, fun h => ?_⟩
  have hresolved : resolveMember some twoTenants (annAsks "globex") =
      .ok (ownerOf "m1" "acme" (some "sub-ann")) := by decide +kernel
  obtain ⟨w', hw'⟩ := completeLogin_of_resolved hresolved (.inr rfl) (by decide +kernel)
  obtain ⟨m, -, -, -, hsessions, hchoice⟩ := h.session w' hw'
  obtain ⟨m', hm', -, -, rfl⟩ := completeLogin_ok hw'
  rw [hresolved, Except.ok.injEq] at hm'
  subst hm'
  have htenant : m.tenantId = "acme" :=
    (LoginSession.mk.inj (List.cons.inj hsessions).1).2.1.symm
  have hglobex : some "globex" = some m.tenantId := hchoice "globex" rfl
  rw [htenant] at hglobex
  exact absurd hglobex (by decide)

end TwoTenants

end Ajenda.Membership
