import Ajenda.TransitionSystem
import Mathlib.Logic.Function.Basic
import Mathlib.Data.List.Nodup
import Mathlib.Tactic

/-!
# Login intents and customer sessions

`complete_login` reads the intent without a lock and writes it, with the session, when its
transaction commits; `refresh_session` locks the live row of its token until it commits;
`revoke_session` reads the row of an access token without a lock and writes it at its commit.
The sessions opened by one login and the refreshes that follow it are a chain.
-/
namespace Ajenda.OidcLogin
open TransitionSystem

structure OidcLoginIntent where
  codeChallenge : String
  redirectUri : String
  nonce : String
  clientIpHash : String
  expiresAt : ℕ
  consumedAt : Option ℕ
  deriving DecidableEq, Repr

structure CustomerAuthSession where
  memberId : String
  tenantId : String
  accessJti : String
  refreshTokenHash : String
  expiresAt : ℕ
  refreshExpiresAt : ℕ
  revokedAt : Option ℕ
  clientIpHash : String
  deriving DecidableEq, Repr

structure TenantMember where
  id : String
  tenantId : String
  deriving DecidableEq, Repr

inductive LoginError
  | validation (message : String)
  | accountNotFound (message : String)
  | multipleTenants
  | pendingVerification
  | rateLimited
  | disabled (message : String)
  deriving DecidableEq, Repr

/-- `str.strip`, the PKCE challenge of a verifier, the digest of a refresh token,
`uuid.UUID` of an intent's id, and the session lifetimes. -/
structure Settings where
  strip : String → String
  challenge : String → String
  hashRefreshToken : String → String
  intentUuid : String → Option String
  sessionAccessTtlSeconds : ℕ
  sessionRefreshTtlSeconds : ℕ

structure LoginRequest where
  loginIntentId : String
  code : String
  codeVerifier : String
  redirectUri : String
  clientIpHash : String
  deriving DecidableEq, Repr

/-- An authorization code at the identity provider. -/
structure AuthorizationCode where
  nonce : String
  used : Bool
  deriving DecidableEq, Repr

/-- What an open transaction has read. -/
inductive Transaction
  | login (intentId : String) (intent : OidcLoginIntent) (request : LoginRequest)
  | exchanged (intentId clientIpHash : String)
  | refresh (accessJti refreshToken clientIpHash : String) (now : ℕ)
  | logout (accessJti : String) (presentedLive : Bool)
  | revoking (accessJti : String) (presentedLive : Bool)
  deriving DecidableEq, Repr

structure Successor where
  refreshToken : String
  parent : String
  child : String
  deriving DecidableEq, Repr

/-- The committed rows, keyed by the access token's `jti` with the unique index on the
refresh token's digest, the row locks, the open transactions and the provider's codes. Of
the history: each session's login, the intents' sessions, the refreshes, and the committed
logouts with whether their token was live when presented. -/
structure World where
  intents : String → Option OidcLoginIntent
  sessions : String → Option CustomerAuthSession
  byRefreshTokenHash : String → Option String
  locks : String → Option ℕ
  transactions : ℕ → Option Transaction
  codes : String → Option AuthorizationCode
  root : String → Option String
  logins : List (String × String)
  successors : List Successor
  loggedOut : List (String × Bool)

def World.start : World :=
  ⟨fun _ => none, fun _ => none, fun _ => none, fun _ => none, fun _ => none, fun _ => none,
    fun _ => none, [], [], []⟩

section Code
variable (cfg : Settings)

/-- The checks of `complete_login` up to the code exchange. -/
def readIntent (w : World) (request : LoginRequest) (now : ℕ) :
    Except LoginError (String × OidcLoginIntent) :=
  if cfg.strip request.code = "" ∨ cfg.strip request.codeVerifier = "" then
    .error (.validation "authorization code and code_verifier are required")
  else
    match cfg.intentUuid request.loginIntentId with
    | none => .error (.validation "invalid login_intent_id")
    | some intentId =>
      match w.intents intentId with
      | none => .error (.validation "login intent is invalid or expired")
      | some intent =>
        if intent.consumedAt ≠ none ∨ intent.expiresAt ≤ now then
          .error (.validation "login intent is invalid or expired")
        else if intent.redirectUri ≠ cfg.strip request.redirectUri then
          .error (.validation "redirect_uri mismatch")
        else if intent.clientIpHash ≠ request.clientIpHash then
          .error (.validation "login intent client mismatch")
        else if cfg.challenge (cfg.strip request.codeVerifier) ≠ intent.codeChallenge then
          .error (.validation "invalid PKCE code_verifier")
        else .ok (intentId, intent)

/-- `_exchange_code`: the provider takes each code it issued once and answers with an
`id_token` of the code's nonce. -/
def exchangeCode (codes : String → Option AuthorizationCode) (code : String) :
    (String → Option AuthorizationCode) × Except LoginError String :=
  match codes code with
  | none => (codes, .error (.validation "identity provider token exchange failed"))
  | some issued =>
    if issued.used then
      (codes, .error (.validation "identity provider token exchange failed"))
    else (Function.update codes code (some { issued with used := true }), .ok issued.nonce)

/-- The row `_issue_session` adds. -/
def issueSession (member : TenantMember) (clientIpHash accessJti refreshToken : String)
    (now : ℕ) : CustomerAuthSession where
  memberId := member.id
  tenantId := member.tenantId
  accessJti := accessJti
  refreshTokenHash := cfg.hashRefreshToken refreshToken
  expiresAt := now + cfg.sessionAccessTtlSeconds
  refreshExpiresAt := now + cfg.sessionRefreshTtlSeconds
  revokedAt := none
  clientIpHash := clientIpHash

def World.setTransaction (w : World) (t : ℕ) (transaction : Option Transaction) : World :=
  { w with transactions := Function.update w.transactions t transaction }

/-- The end of a transaction releases its row locks. -/
def World.endTransaction (w : World) (t : ℕ) : World where
  intents := w.intents
  sessions := w.sessions
  byRefreshTokenHash := w.byRefreshTokenHash
  locks := fun k => if w.locks k = some t then none else w.locks k
  transactions := Function.update w.transactions t none
  codes := w.codes
  root := w.root
  logins := w.logins
  successors := w.successors
  loggedOut := w.loggedOut

/-- The insertion of a session row, unless one of its unique columns is taken. -/
def World.insertSession (w : World) (row : CustomerAuthSession) (root : Option String) :
    Option World :=
  if (w.sessions row.accessJti).isSome ∨ (w.byRefreshTokenHash row.refreshTokenHash).isSome then
    none
  else
    some { w with
      sessions := Function.update w.sessions row.accessJti (some row)
      byRefreshTokenHash :=
        Function.update w.byRefreshTokenHash row.refreshTokenHash (some row.accessJti)
      root := Function.update w.root row.accessJti root }

def World.revoke (w : World) (accessJti : String) (revokedAt : ℕ) : World :=
  match w.sessions accessJti with
  | none => w
  | some row =>
    { w with sessions :=
        Function.update w.sessions accessJti (some { row with revokedAt := some revokedAt }) }

/-- The commit of `complete_login`. A row that a unique column refuses, or an intent that is
gone, rolls everything back. -/
def commitLogin (w : World) (intentId clientIpHash : String)
    (resolved : Except LoginError TenantMember) (accessJti refreshToken : String) (now : ℕ) :
    World :=
  match resolved, w.intents intentId with
  | .ok member, some intent =>
    match w.insertSession (issueSession cfg member clientIpHash accessJti refreshToken now)
        (some accessJti) with
    | none => w
    | some w' =>
      { w' with
        intents := Function.update w'.intents intentId (some { intent with consumedAt := some now })
        logins := (intentId, accessJti) :: w'.logins }
  | _, _ => w

def getActiveByRefreshTokenHash (w : World) (refreshTokenHash : String) (now : ℕ) :
    Option CustomerAuthSession :=
  match (w.byRefreshTokenHash refreshTokenHash).bind w.sessions with
  | none => none
  | some row => if row.revokedAt = none ∧ now < row.refreshExpiresAt then some row else none

/-- The commit of `refresh_session`. -/
def commitRefresh (w : World) (parent old clientIpHash : String) (revokedAt : ℕ)
    (resolved : Except LoginError TenantMember) (accessJti refreshToken : String) (now : ℕ) :
    World :=
  match resolved with
  | .error _ => w
  | .ok member =>
    match (w.revoke parent revokedAt).insertSession
        (issueSession cfg member clientIpHash accessJti refreshToken now) (w.root parent) with
    | none => w
    | some w' => { w' with successors := ⟨old, parent, accessJti⟩ :: w'.successors }

/-- `_authenticate_customer_session` of a well-signed token. -/
def authenticates (w : World) (accessJti : String) (now : ℕ) : Bool :=
  match w.sessions accessJti with
  | none => false
  | some row => row.revokedAt.isNone && decide (now < row.expiresAt)

/-- What happens next: a login is started, the provider issues a code, or a transaction
takes a step. `resolved` is what the membership and tenant tables answer, a `jti` and a
refresh token what the random source yields. -/
inductive Action
  | startLogin (intentId : String) (intent : OidcLoginIntent)
  | issueCode (code nonce : String)
  | completeLogin (t : ℕ) (request : LoginRequest) (now : ℕ)
  | exchange (t : ℕ)
  | finishLogin (t : ℕ) (resolved : Except LoginError TenantMember)
      (accessJti refreshToken : String) (now : ℕ)
  | refresh (t : ℕ) (refreshToken clientIpHash : String) (now : ℕ)
  | finishRefresh (t : ℕ) (resolved : Except LoginError TenantMember)
      (accessJti refreshToken : String) (now : ℕ)
  | logout (t : ℕ) (accessJti : String) (now : ℕ)
  | revokeSession (t : ℕ)
  | finishLogout (t : ℕ) (now : ℕ)
  | abort (t : ℕ)

def step (w : World) : Action → World
  | .startLogin intentId intent =>
      match w.intents intentId with
      | some _ => w
      | none =>
        { w with intents :=
            Function.update w.intents intentId (some { intent with consumedAt := none }) }
  | .issueCode code nonce =>
      match w.codes code with
      | some _ => w
      | none => { w with codes := Function.update w.codes code (some ⟨nonce, false⟩) }
  | .completeLogin t request now =>
      match w.transactions t, readIntent cfg w request now with
      | none, .ok (intentId, intent) =>
        w.setTransaction t (some (.login intentId intent request))
      | _, _ => w
  | .exchange t =>
      match w.transactions t with
      | some (.login intentId intent request) =>
        match exchangeCode w.codes (cfg.strip request.code) with
        | (codes, .ok nonce) =>
          if nonce = intent.nonce then
            ({ w with codes } : World).setTransaction t
              (some (.exchanged intentId request.clientIpHash))
          else ({ w with codes } : World).endTransaction t
        | (codes, .error _) => ({ w with codes } : World).endTransaction t
      | _ => w
  | .finishLogin t resolved accessJti refreshToken now =>
      match w.transactions t with
      | some (.exchanged intentId clientIpHash) =>
        commitLogin cfg (w.endTransaction t) intentId clientIpHash resolved accessJti
          refreshToken now
      | _ => w
  | .refresh t refreshToken clientIpHash now =>
      if cfg.strip refreshToken = "" then w
      else
        match w.transactions t,
            getActiveByRefreshTokenHash w (cfg.hashRefreshToken (cfg.strip refreshToken)) now with
        | none, some row =>
          match w.locks row.accessJti with
          | some _ => w
          | none =>
            let locked := w.setTransaction t
              (some (.refresh row.accessJti (cfg.strip refreshToken) clientIpHash now))
            { locked with locks := Function.update w.locks row.accessJti (some t) }
        | _, _ => w
  | .finishRefresh t resolved accessJti refreshToken now =>
      match w.transactions t with
      | some (.refresh parent old clientIpHash revokedAt) =>
        commitRefresh cfg (w.endTransaction t) parent old clientIpHash revokedAt resolved
          accessJti refreshToken now
      | _ => w
  | .logout t accessJti now =>
      match w.transactions t with
      | none => w.setTransaction t (some (.logout accessJti (authenticates w accessJti now)))
      | some _ => w
  | .revokeSession t =>
      match w.transactions t with
      | some (.logout accessJti live) =>
        if (w.sessions accessJti).any (·.revokedAt.isNone) then
          w.setTransaction t (some (.revoking accessJti live))
        else
          -- An unknown or revoked session: the request commits without a write.
          { w.endTransaction t with loggedOut := (accessJti, live) :: w.loggedOut }
      | _ => w
  | .finishLogout t now =>
      match w.transactions t with
      | some (.revoking accessJti live) =>
        match w.locks accessJti with
        | some _ => w
        | none =>
          { (w.endTransaction t).revoke accessJti now with
            loggedOut := (accessJti, live) :: w.loggedOut }
      | _ => w
  | .abort t => w.endTransaction t

end Code

def World.Live (w : World) (accessJti : String) : Prop :=
  ∃ row, w.sessions accessJti = some row ∧ row.revokedAt = none

/-- A session that was refreshed or revoked. -/
def World.Dead (w : World) (accessJti : String) : Prop :=
  (w.sessions accessJti).isSome = true ∧ ¬ w.Live accessJti

variable {cfg : Settings} {w w' : World} {t : ℕ} {j k : String}

theorem World.Live.isSome (h : w.Live j) : (w.sessions j).isSome = true := by
  obtain ⟨row, hrow, -⟩ := h
  simp [hrow]

theorem authenticates_live {now : ℕ} (h : authenticates w j now = true) : w.Live j := by
  unfold authenticates at h
  cases hrow : w.sessions j with
  | none => simp [hrow] at h
  | some row =>
    rw [hrow, Bool.and_eq_true] at h
    exact ⟨row, hrow, Option.isNone_iff_eq_none.1 h.1⟩

theorem getActive_live {h : String} {now : ℕ} {row : CustomerAuthSession}
    (hrow : getActiveByRefreshTokenHash w h now = some row) :
    ∃ j, w.byRefreshTokenHash h = some j ∧ w.sessions j = some row ∧ row.revokedAt = none := by
  unfold getActiveByRefreshTokenHash at hrow
  split at hrow
  next => cases hrow
  next r hr =>
    split_ifs at hrow with hactive
    obtain rfl := Option.some_inj.1 hrow
    obtain ⟨j, hj, hsession⟩ := Option.bind_eq_some_iff.1 hr
    exact ⟨j, hj, hsession, hactive.1⟩

/-! ### What a revocation and an insertion change -/

section Writes
variable {row : CustomerAuthSession} {r : Option String}

@[simp] theorem revoke_root (w : World) (j : String) (n : ℕ) : (w.revoke j n).root = w.root := by
  unfold World.revoke
  split <;> rfl

@[simp] theorem revoke_index (w : World) (j : String) (n : ℕ) :
    (w.revoke j n).byRefreshTokenHash = w.byRefreshTokenHash := by
  unfold World.revoke
  split <;> rfl

@[simp] theorem revoke_locks (w : World) (j : String) (n : ℕ) :
    (w.revoke j n).locks = w.locks := by
  unfold World.revoke
  split <;> rfl

@[simp] theorem revoke_transactions (w : World) (j : String) (n : ℕ) :
    (w.revoke j n).transactions = w.transactions := by
  unfold World.revoke
  split <;> rfl

@[simp] theorem revoke_intents (w : World) (j : String) (n : ℕ) :
    (w.revoke j n).intents = w.intents := by
  unfold World.revoke
  split <;> rfl

@[simp] theorem revoke_logins (w : World) (j : String) (n : ℕ) :
    (w.revoke j n).logins = w.logins := by
  unfold World.revoke
  split <;> rfl

@[simp] theorem revoke_successors (w : World) (j : String) (n : ℕ) :
    (w.revoke j n).successors = w.successors := by
  unfold World.revoke
  split <;> rfl

@[simp] theorem revoke_loggedOut (w : World) (j : String) (n : ℕ) :
    (w.revoke j n).loggedOut = w.loggedOut := by
  unfold World.revoke
  split <;> rfl

theorem revoke_sessions (w : World) (j k : String) (n : ℕ) :
    (w.revoke j n).sessions k =
      if k = j then (w.sessions k).map fun row => { row with revokedAt := some n }
      else w.sessions k := by
  unfold World.revoke
  by_cases hk : k = j
  · subst hk
    cases h : w.sessions k <;> simp [h]
  · cases h : w.sessions j <;> simp [hk]

theorem revoke_live {n : ℕ} : (w.revoke j n).Live k ↔ w.Live k ∧ k ≠ j := by
  unfold World.Live
  rw [revoke_sessions]
  by_cases hk : k = j
  · subst hk
    cases h : w.sessions k <;> simp
  · simp [hk]

theorem revoke_isSome {n : ℕ} :
    ((w.revoke j n).sessions k).isSome = (w.sessions k).isSome := by
  rw [revoke_sessions]
  split_ifs <;> simp

theorem World.Dead.revoke (h : w.Dead k) (j : String) (n : ℕ) : (w.revoke j n).Dead k := by
  refine ⟨?_, fun hl => h.2 (revoke_live.1 hl).1⟩
  rw [revoke_isSome]
  exact h.1

theorem revoke_dead (h : (w.sessions j).isSome = true) (n : ℕ) : (w.revoke j n).Dead j := by
  refine ⟨?_, fun hl => (revoke_live.1 hl).2 rfl⟩
  rw [revoke_isSome]
  exact h

structure Inserted (w w' : World) (row : CustomerAuthSession) (r : Option String) : Prop where
  newJti : w.sessions row.accessJti = none
  newHash : w.byRefreshTokenHash row.refreshTokenHash = none
  eq : w' = { w with
    sessions := Function.update w.sessions row.accessJti (some row)
    byRefreshTokenHash :=
      Function.update w.byRefreshTokenHash row.refreshTokenHash (some row.accessJti)
    root := Function.update w.root row.accessJti r }

theorem insertSession_eq_some (h : w.insertSession row r = some w') : Inserted w w' row r := by
  unfold World.insertSession at h
  split_ifs at h with hfree
  rw [not_or, Option.not_isSome_iff_eq_none, Option.not_isSome_iff_eq_none] at hfree
  exact ⟨hfree.1, hfree.2, (Option.some_inj.1 h).symm⟩

theorem Inserted.live (h : Inserted w w' row r) (hrow : row.revokedAt = none) :
    w'.Live k ↔ w.Live k ∨ k = row.accessJti := by
  rw [h.eq]
  unfold World.Live
  by_cases hk : k = row.accessJti
  · subst hk
    simp [hrow]
  · simp [hk]

theorem Inserted.isSome (h : Inserted w w' row r) (hk : (w.sessions k).isSome = true) :
    (w'.sessions k).isSome = true := by
  rw [h.eq]
  by_cases hkj : k = row.accessJti
  · simp [hkj]
  · simpa [hkj] using hk

theorem Inserted.ne (h : Inserted w w' row r) (hk : (w.sessions k).isSome = true) :
    k ≠ row.accessJti := by
  rintro rfl
  simp [h.newJti] at hk

theorem Inserted.root (h : Inserted w w' row r) (hk : (w.sessions k).isSome = true) :
    w'.root k = w.root k := by
  rw [h.eq]
  simp [h.ne hk]

theorem Inserted.index (h : Inserted w w' row r) {hash : String}
    (hk : w.byRefreshTokenHash hash = some k) : w'.byRefreshTokenHash hash = some k := by
  have hne : hash ≠ row.refreshTokenHash := by
    rintro rfl
    rw [h.newHash] at hk
    cases hk
  rw [h.eq]
  simpa [hne] using hk

theorem Inserted.self (h : Inserted w w' row r) : (w'.sessions row.accessJti).isSome = true := by
  rw [h.eq]
  simp

theorem Inserted.dead (h : Inserted w w' row r) (hrow : row.revokedAt = none) (hk : w.Dead k) :
    w'.Dead k := by
  refine ⟨h.isSome hk.1, fun hl => ?_⟩
  rcases (h.live hrow).1 hl with hl | heq
  · exact hk.2 hl
  · exact h.ne hk.1 heq

end Writes

/-! ### The rows and the locks -/

/-- Every session has its login; the unique index is exact; an open refresh holds the lock
of a live row, that of its token; a chain has one live session; refreshed and logged-out
sessions are dead. -/
structure World.Sound (cfg : Settings) (w : World) : Prop where
  rooted : ∀ j, (w.sessions j).isSome = (w.root j).isSome
  roots : ∀ j r, w.root j = some r → (w.sessions r).isSome = true
  index : ∀ h j, w.byRefreshTokenHash h = some j →
    ∃ row, w.sessions j = some row ∧ row.accessJti = j
  held : ∀ t j token ip now, w.transactions t = some (.refresh j token ip now) →
    w.locks j = some t ∧ w.Live j ∧
      w.byRefreshTokenHash (cfg.hashRefreshToken token) = some j
  chain : ∀ i j, w.Live i → w.Live j → w.root i = w.root j → i = j
  successors : ∀ x ∈ w.successors, w.Dead x.parent ∧
    w.byRefreshTokenHash (cfg.hashRefreshToken x.refreshToken) = some x.parent
  once : (w.successors.map Successor.parent).Nodup
  ended : ∀ x ∈ w.loggedOut, x.2 = true → w.Dead x.1
  presented : ∀ t j, w.transactions t = some (.logout j true) ∨
    w.transactions t = some (.revoking j true) → (w.sessions j).isSome = true

theorem World.Sound.start : World.start.Sound cfg := by
  constructor <;> simp [World.start, World.Live]

/-- A step that leaves the sessions alone and opens no refresh keeps the rest. -/
theorem World.Sound.frame (h : w.Sound cfg) (hsessions : w'.sessions = w.sessions)
    (hroot : w'.root = w.root) (hindex : w'.byRefreshTokenHash = w.byRefreshTokenHash)
    (hsuccessors : w'.successors = w.successors)
    (hloggedOut : ∀ x ∈ w'.loggedOut, x ∈ w.loggedOut ∨ (x.2 = true → w.Dead x.1))
    (hheld : ∀ t j token ip now, w'.transactions t = some (.refresh j token ip now) →
      w'.locks j = some t ∧ w.Live j ∧
        w.byRefreshTokenHash (cfg.hashRefreshToken token) = some j)
    (hpresented : ∀ t j, w'.transactions t = some (.logout j true) ∨
      w'.transactions t = some (.revoking j true) → (w.sessions j).isSome = true) :
    w'.Sound cfg := by
  have hlive : ∀ j, w'.Live j ↔ w.Live j := fun j => by unfold World.Live; rw [hsessions]
  have hdead : ∀ j, w'.Dead j ↔ w.Dead j := fun j => by
    unfold World.Dead
    rw [hsessions, hlive]
  constructor
  · rw [hsessions, hroot]
    exact h.rooted
  · rw [hsessions, hroot]
    exact h.roots
  · rw [hsessions, hindex]
    exact h.index
  · intro t j token ip now ht
    rw [hlive, hindex]
    exact hheld t j token ip now ht
  · intro i j
    rw [hlive, hlive, hroot]
    exact h.chain i j
  · rw [hsuccessors, hindex]
    intro x hx
    rw [hdead]
    exact h.successors x hx
  · rw [hsuccessors]
    exact h.once
  · intro x hx
    rw [hdead]
    exact (hloggedOut x hx).elim (h.ended x) id
  · intro t j ht
    rw [hsessions]
    exact hpresented t j ht

theorem World.Sound.endTransaction (h : w.Sound cfg) (t : ℕ) :
    (w.endTransaction t).Sound cfg := by
  have hold : ∀ u x, (w.endTransaction t).transactions u = some x →
      u ≠ t ∧ w.transactions u = some x := by
    intro u x hu
    by_cases hut : u = t
    · subst hut
      simp [World.endTransaction] at hu
    · exact ⟨hut, by simpa [World.endTransaction, hut] using hu⟩
  apply h.frame <;> try rfl
  · exact fun x hx => .inl hx
  · intro u j token ip now hu
    obtain ⟨hut, hu⟩ := hold u _ hu
    obtain ⟨hlock, hlive, hhash⟩ := h.held u j token ip now hu
    exact ⟨by simp [World.endTransaction, hlock, hut], hlive, hhash⟩
  · rintro u j (hu | hu)
    · exact h.presented u j (.inl (hold u _ hu).2)
    · exact h.presented u j (.inr (hold u _ hu).2)

/-- A transaction reads what makes it neither a refresh nor a logout of an unknown session. -/
theorem World.Sound.setTransaction (h : w.Sound cfg) {x : Transaction}
    (hrefresh : ∀ j token ip now, x ≠ .refresh j token ip now)
    (hlogout : ∀ j, x = .logout j true ∨ x = .revoking j true → (w.sessions j).isSome = true) :
    (w.setTransaction t (some x)).Sound cfg := by
  have hold : ∀ u y, (w.setTransaction t (some x)).transactions u = some y →
      y = x ∨ w.transactions u = some y := by
    intro u y hu
    simp only [World.setTransaction, Function.update_apply] at hu
    split_ifs at hu
    · exact .inl (Option.some_inj.1 hu).symm
    · exact .inr hu
  apply h.frame <;> try rfl
  · exact fun x hx => .inl hx
  · intro u j token ip now hu
    rcases hold u _ hu with heq | hu
    · exact absurd heq.symm (hrefresh j token ip now)
    · exact h.held u j token ip now hu
  · rintro u j (hu | hu)
    · rcases hold u _ hu with heq | hu
      · exact hlogout j (.inl heq.symm)
      · exact h.presented u j (.inl hu)
    · rcases hold u _ hu with heq | hu
      · exact hlogout j (.inr heq.symm)
      · exact h.presented u j (.inr hu)

/-- A row that no open refresh holds is revoked. -/
theorem World.Sound.revoke (h : w.Sound cfg)
    (hfree : ∀ t token ip now, w.transactions t ≠ some (.refresh j token ip now)) (n : ℕ) :
    (w.revoke j n).Sound cfg := by
  constructor
  · intro k
    rw [revoke_isSome, revoke_root]
    exact h.rooted k
  · intro k r hk
    rw [revoke_root] at hk
    rw [revoke_isSome]
    exact h.roots k r hk
  · intro hash k hk
    rw [revoke_index] at hk
    obtain ⟨row, hrow, hjti⟩ := h.index hash k hk
    rw [revoke_sessions, hrow]
    split_ifs
    · exact ⟨_, rfl, hjti⟩
    · exact ⟨row, rfl, hjti⟩
  · intro t k token ip now ht
    rw [revoke_transactions] at ht
    obtain ⟨hlock, hlive, hhash⟩ := h.held t k token ip now ht
    rw [revoke_locks, revoke_index, revoke_live]
    refine ⟨hlock, ⟨hlive, ?_⟩, hhash⟩
    rintro rfl
    exact hfree t token ip now ht
  · intro i k hi hk hroot
    rw [revoke_live] at hi hk
    rw [revoke_root] at hroot
    exact h.chain i k hi.1 hk.1 hroot
  · intro x hx
    rw [revoke_successors] at hx
    rw [revoke_index]
    obtain ⟨hdead, hhash⟩ := h.successors x hx
    exact ⟨hdead.revoke j n, hhash⟩
  · rw [revoke_successors]
    exact h.once
  · intro x hx
    rw [revoke_loggedOut] at hx
    exact fun hpresented => (h.ended x hx hpresented).revoke j n
  · intro t k ht
    rw [revoke_transactions] at ht
    rw [revoke_isSome]
    exact h.presented t k ht

/-- A session is inserted into a chain without a live one. -/
theorem World.Sound.insert (h : w.Sound cfg) {row : CustomerAuthSession} {r : String}
    (hw : Inserted w w' row (some r)) (hrow : row.revokedAt = none)
    (hchain : ∀ i, w.Live i → w.root i ≠ some r) (hr : (w'.sessions r).isSome = true) :
    w'.Sound cfg := by
  have hlive : ∀ k, w'.Live k ↔ w.Live k ∨ k = row.accessJti := fun k => hw.live hrow
  have hroot : ∀ k, w.Live k → w'.root k = w.root k := fun k hk => hw.root hk.isSome
  have hself : w'.root row.accessJti = some r := by rw [hw.eq]; simp
  have htransactions : w'.transactions = w.transactions := by rw [hw.eq]
  have hlocks : w'.locks = w.locks := by rw [hw.eq]
  have hsuccessors : w'.successors = w.successors := by rw [hw.eq]
  have hloggedOut : w'.loggedOut = w.loggedOut := by rw [hw.eq]
  constructor
  · intro k
    rw [hw.eq]
    by_cases hk : k = row.accessJti
    · simp [hk]
    · simpa [hk] using h.rooted k
  · intro k q hk
    by_cases hkj : k = row.accessJti
    · rw [hkj, hself, Option.some_inj] at hk
      rwa [← hk]
    · have hold : w.root k = some q := by
        rw [hw.eq] at hk
        simpa [hkj] using hk
      exact hw.isSome (h.roots k q hold)
  · intro hash k hk
    rw [hw.eq] at hk ⊢
    by_cases hh : hash = row.refreshTokenHash
    · subst hh
      obtain rfl : row.accessJti = k := by simpa using hk
      exact ⟨row, by simp, rfl⟩
    · obtain ⟨old, hold, hjti⟩ := h.index hash k (by simpa [hh] using hk)
      have hne : k ≠ row.accessJti := by
        rintro rfl
        rw [hw.newJti] at hold
        cases hold
      exact ⟨old, by simpa [hne] using hold, hjti⟩
  · intro t k token ip now ht
    rw [htransactions] at ht
    obtain ⟨hlock, hl, hhash⟩ := h.held t k token ip now ht
    exact ⟨by rw [hlocks, hlock], (hlive k).2 (.inl hl), hw.index hhash⟩
  · intro i k hi hk hsame
    rcases (hlive i).1 hi with hi | rfl
    · rcases (hlive k).1 hk with hk | rfl
      · rw [hroot i hi, hroot k hk] at hsame
        exact h.chain i k hi hk hsame
      · rw [hroot i hi, hself] at hsame
        exact absurd hsame (hchain i hi)
    · rcases (hlive k).1 hk with hk | rfl
      · rw [hroot k hk, hself] at hsame
        exact absurd hsame.symm (hchain k hk)
      · rfl
  · intro x hx
    rw [hsuccessors] at hx
    obtain ⟨hdead, hhash⟩ := h.successors x hx
    exact ⟨hw.dead hrow hdead, hw.index hhash⟩
  · rw [hsuccessors]
    exact h.once
  · intro x hx
    rw [hloggedOut] at hx
    exact fun hpresented => hw.dead hrow (h.ended x hx hpresented)
  · intro t k ht
    rw [htransactions] at ht
    exact hw.isSome (h.presented t k ht)

/-- The history of a refresh is written down. -/
theorem World.Sound.succeed (h : w.Sound cfg) {x : Successor} (hdead : w.Dead x.parent)
    (hhash : w.byRefreshTokenHash (cfg.hashRefreshToken x.refreshToken) = some x.parent)
    (hnew : x.parent ∉ w.successors.map Successor.parent) :
    ({ w with successors := x :: w.successors } : World).Sound cfg := by
  refine ⟨h.rooted, h.roots, h.index, h.held, h.chain, ?_, ?_, h.ended, h.presented⟩
  · intro y hy
    rcases List.mem_cons.1 hy with rfl | hy
    · exact ⟨hdead, hhash⟩
    · exact h.successors y hy
  · rw [List.map_cons]
    exact List.nodup_cons.2 ⟨hnew, h.once⟩

theorem World.Sound.commitLogin (h : w.Sound cfg) (intentId ip : String)
    (resolved : Except LoginError TenantMember) (jti token : String) (now : ℕ) :
    (commitLogin cfg w intentId ip resolved jti token now).Sound cfg := by
  unfold OidcLogin.commitLogin
  split
  next member intent _ _ =>
    split
    next => exact h
    next w' hw' =>
      have hinserted := insertSession_eq_some hw'
      have hchain : ∀ i, w.Live i → w.root i ≠ some jti := by
        intro i _ hi
        exact hinserted.ne (h.roots i jti hi) rfl
      have hsound := h.insert hinserted rfl hchain hinserted.self
      exact hsound.frame rfl rfl rfl rfl (fun x hx => .inl hx) hsound.held hsound.presented
  next => exact h

theorem World.Sound.commitRefresh (h : w.Sound cfg) {parent old : String} (ip : String)
    (revokedAt : ℕ) (hlive : w.Live parent)
    (hhash : w.byRefreshTokenHash (cfg.hashRefreshToken old) = some parent)
    (hfree : ∀ t token ip now, w.transactions t ≠ some (.refresh parent token ip now))
    (resolved : Except LoginError TenantMember) (jti token : String) (now : ℕ) :
    (commitRefresh cfg w parent old ip revokedAt resolved jti token now).Sound cfg := by
  unfold OidcLogin.commitRefresh
  split
  next => exact h
  next member =>
    split
    next => exact h
    next w' hw' =>
      have hinserted := insertSession_eq_some hw'
      obtain ⟨r, hr⟩ : ∃ r, w.root parent = some r := by
        rw [← Option.isSome_iff_exists, ← h.rooted]
        exact hlive.isSome
      rw [hr] at hinserted
      have hchain : ∀ i, (w.revoke parent revokedAt).Live i →
          (w.revoke parent revokedAt).root i ≠ some r := by
        intro i hi hroot
        rw [revoke_live] at hi
        rw [revoke_root, ← hr] at hroot
        exact hi.2 (h.chain i parent hi.1 hlive hroot)
      have hrevoked := h.revoke hfree revokedAt
      have hknown : (w'.sessions r).isSome = true := by
        apply hinserted.isSome
        apply hrevoked.roots parent
        rw [revoke_root, hr]
      have hsound := hrevoked.insert hinserted rfl hchain hknown
      have hdead : w'.Dead parent :=
        hinserted.dead rfl (revoke_dead hlive.isSome revokedAt)
      have hsuccessors : w'.successors = w.successors := by
        rw [hinserted.eq]
        exact revoke_successors w parent revokedAt
      apply hsound.succeed (x := ⟨old, parent, jti⟩) hdead
      · apply hinserted.index
        rw [revoke_index, hhash]
      · rw [hsuccessors]
        intro hmem
        obtain ⟨x, hx, hparent⟩ := List.mem_map.1 hmem
        have hx' := (h.successors x hx).1.2
        rw [hparent] at hx'
        exact hx' hlive

/-- The row of an open refresh, once its transaction has ended, is free. -/
theorem World.Sound.released (h : w.Sound cfg) {token ip : String} {now : ℕ}
    (ht : w.transactions t = some (.refresh j token ip now)) :
    ∀ u token ip now, (w.endTransaction t).transactions u ≠ some (.refresh j token ip now) := by
  intro u token' ip' now' hu
  by_cases hut : u = t
  · subst hut
    simp [World.endTransaction] at hu
  · have hu : w.transactions u = some (.refresh j token' ip' now') := by
      simpa [World.endTransaction, hut] using hu
    have hlock := (h.held u j token' ip' now' hu).1
    rw [(h.held t j token ip now ht).1, Option.some_inj] at hlock
    exact hut hlock.symm

/-- A row whose lock is free is held by no open refresh. -/
theorem World.Sound.unlocked (h : w.Sound cfg) (hlock : w.locks j = none) :
    ∀ u token ip now, (w.endTransaction t).transactions u ≠ some (.refresh j token ip now) := by
  intro u token ip now hu
  have hheld := ((h.endTransaction t).held u j token ip now hu).1
  simp [World.endTransaction, hlock] at hheld

theorem World.Sound.refresh (h : w.Sound cfg) {row : CustomerAuthSession} {token ip : String}
    {now : ℕ} (hopen : w.transactions t = none)
    (hrow : getActiveByRefreshTokenHash w (cfg.hashRefreshToken token) now = some row)
    (hlock : w.locks row.accessJti = none) :
    ({ w.setTransaction t (some (.refresh row.accessJti token ip now)) with
      locks := Function.update w.locks row.accessJti (some t) } : World).Sound cfg := by
  obtain ⟨j, hindex, hsession, hlive⟩ := getActive_live hrow
  obtain ⟨row', hrow', hjti⟩ := h.index _ j hindex
  rw [hsession, Option.some_inj] at hrow'
  subst hrow'
  subst hjti
  have hold : ∀ u x, Function.update w.transactions t
      (some (.refresh row.accessJti token ip now)) u = some x →
      u = t ∧ x = .refresh row.accessJti token ip now ∨ w.transactions u = some x := by
    intro u x hu
    rw [Function.update_apply] at hu
    split_ifs at hu with hut
    · exact .inl ⟨hut, (Option.some_inj.1 hu).symm⟩
    · exact .inr hu
  apply h.frame <;> try rfl
  · exact fun x hx => .inl hx
  · intro u k token' ip' now' hu
    rcases hold u _ hu with ⟨rfl, heq⟩ | hu
    · cases heq
      exact ⟨by simp, ⟨row, hsession, hlive⟩, hindex⟩
    · obtain ⟨hheld, hrest⟩ := h.held u k token' ip' now' hu
      refine ⟨?_, hrest⟩
      have hne : k ≠ row.accessJti := by
        rintro rfl
        rw [hlock] at hheld
        cases hheld
      simpa [hne] using hheld
  · rintro u k (hu | hu)
    · rcases hold u _ hu with ⟨-, heq⟩ | hu
      · cases heq
      · exact h.presented u k (.inl hu)
    · rcases hold u _ hu with ⟨-, heq⟩ | hu
      · cases heq
      · exact h.presented u k (.inr hu)

theorem World.Sound.logOut (h : w.Sound cfg) {x : String × Bool}
    (hx : x.2 = true → w.Dead x.1) :
    ({ w with loggedOut := x :: w.loggedOut } : World).Sound cfg := by
  apply h.frame <;> try rfl
  · intro y hy
    rcases List.mem_cons.1 hy with rfl | hy
    · exact .inr hx
    · exact .inl hy
  · exact h.held
  · exact h.presented

theorem World.Sound.codes (h : w.Sound cfg) (codes : String → Option AuthorizationCode) :
    ({ w with codes } : World).Sound cfg :=
  h.frame rfl rfl rfl rfl (fun _ hx => .inl hx) h.held h.presented

theorem step_sound (h : w.Sound cfg) (a : Action) : (step cfg w a).Sound cfg := by
  cases a with
  | startLogin intentId intent =>
    simp only [step]
    split
    · exact h
    · exact h.frame rfl rfl rfl rfl (fun _ hx => .inl hx) h.held h.presented
  | issueCode code nonce =>
    simp only [step]
    split
    · exact h
    · exact h.codes _
  | completeLogin t request now =>
    simp only [step]
    split
    · exact h.setTransaction (by simp) (by simp)
    · exact h
  | exchange t =>
    simp only [step]
    split
    · split
      · split_ifs
        · exact (h.codes _).setTransaction (by simp) (by simp)
        · exact (h.codes _).endTransaction t
      · exact (h.codes _).endTransaction t
    · exact h
  | finishLogin t resolved jti token now =>
    simp only [step]
    split
    · exact (h.endTransaction t).commitLogin _ _ resolved jti token now
    · exact h
  | refresh t token ip now =>
    simp only [step]
    split_ifs
    · exact h
    · split
      next hopen hrow =>
        split
        · exact h
        next hlock => exact h.refresh hopen hrow hlock
      next => exact h
  | finishRefresh t resolved jti token now =>
    simp only [step]
    split
    next parent old ip revokedAt ht =>
      obtain ⟨-, hlive, hhash⟩ := h.held t parent old ip revokedAt ht
      exact (h.endTransaction t).commitRefresh ip revokedAt hlive hhash (h.released ht) resolved
        jti token now
    next => exact h
  | logout t jti now =>
    simp only [step]
    split
    · refine h.setTransaction (by simp) fun j hj => ?_
      rcases hj with hj | hj
      · obtain ⟨rfl, hauth⟩ := by simpa using hj
        exact (authenticates_live hauth).isSome
      · cases hj
    · exact h
  | revokeSession t =>
    simp only [step]
    split
    next jti live ht =>
      split_ifs with hany
      · refine h.setTransaction (by simp) fun j hj => ?_
        rcases hj with hj | hj
        · cases hj
        · cases hj
          exact h.presented t jti (.inl ht)
      · refine (h.endTransaction t).logOut fun hlive => ?_
        dsimp only at hlive
        subst hlive
        refine ⟨h.presented t jti (.inl ht), fun ⟨row, hrow, hnone⟩ => hany ?_⟩
        change w.sessions jti = some row at hrow
        simp [hrow, hnone]
    next => exact h
  | finishLogout t now =>
    simp only [step]
    split
    next jti live ht =>
      split
      · exact h
      next hlock =>
        have hrevoked := (h.endTransaction t).revoke (h.unlocked hlock) now
        have hlogged := hrevoked.logOut (x := (jti, live)) fun hlive => by
          dsimp only at hlive
          subst hlive
          have hsome : ((w.endTransaction t).sessions jti).isSome = true :=
            h.presented t jti (.inr ht)
          exact revoke_dead hsome now
        rw [revoke_loggedOut] at hlogged
        exact hlogged
    next => exact h
  | abort t => exact h.endTransaction t

theorem exec_sound (as : List Action) : (exec (step cfg) World.start as).Sound cfg :=
  exec_preserves (I := World.Sound cfg) (fun _ a h => step_sound h a) World.Sound.start as

/-! ### Dead sessions stay dead -/

theorem Inserted.dead_of_eq {row : CustomerAuthSession} {r : Option String}
    (h : Inserted w w' row r) (hrow : row.revokedAt = none) {v : World}
    (hv : v.sessions = w'.sessions) (hk : w.Dead k) : v.Dead k := by
  have hdead := h.dead hrow hk
  unfold World.Dead World.Live at hdead ⊢
  rw [hv]
  exact hdead

theorem World.Dead.commitLogin (h : w.Dead k) (intentId ip : String)
    (resolved : Except LoginError TenantMember) (jti token : String) (now : ℕ) :
    (commitLogin cfg w intentId ip resolved jti token now).Dead k := by
  unfold OidcLogin.commitLogin
  split
  · split
    · exact h
    next hw' => exact (insertSession_eq_some hw').dead_of_eq rfl rfl h
  · exact h

theorem World.Dead.commitRefresh (h : w.Dead k) (parent old ip : String) (revokedAt : ℕ)
    (resolved : Except LoginError TenantMember) (jti token : String) (now : ℕ) :
    (commitRefresh cfg w parent old ip revokedAt resolved jti token now).Dead k := by
  unfold OidcLogin.commitRefresh
  split
  · exact h
  · split
    · exact h
    next hw' =>
      exact (insertSession_eq_some hw').dead_of_eq rfl rfl (h.revoke parent revokedAt)

theorem step_dead (h : w.Dead k) (a : Action) : (step cfg w a).Dead k := by
  cases a with
  | startLogin intentId intent =>
    simp only [step]
    split <;> exact h
  | issueCode code nonce =>
    simp only [step]
    split <;> exact h
  | completeLogin t request now =>
    simp only [step]
    split <;> exact h
  | exchange t =>
    simp only [step]
    split
    · split
      · split_ifs <;> exact h
      · exact h
    · exact h
  | finishLogin t resolved jti token now =>
    simp only [step]
    split
    · exact World.Dead.commitLogin (w := w.endTransaction t) h _ _ resolved jti token now
    · exact h
  | refresh t token ip now =>
    simp only [step]
    split_ifs
    · exact h
    · split
      · split <;> exact h
      · exact h
  | finishRefresh t resolved jti token now =>
    simp only [step]
    split
    · exact World.Dead.commitRefresh (w := w.endTransaction t) h _ _ _ _ resolved jti token now
    · exact h
  | logout t jti now =>
    simp only [step]
    split <;> exact h
  | revokeSession t =>
    simp only [step]
    split
    · split_ifs <;> exact h
    · exact h
  | finishLogout t now =>
    simp only [step]
    split
    next jti live _ =>
      split
      · exact h
      · exact World.Dead.revoke (w := w.endTransaction t) h jti now
    · exact h
  | abort t => exact h

theorem exec_dead (h : w.Dead k) (as : List Action) : (exec (step cfg) w as).Dead k :=
  exec_preserves (I := fun w : World => w.Dead k) (fun _ a h => step_dead h a) h as

theorem World.Dead.rejected (h : w.Dead k) (now : ℕ) : authenticates w k now = false :=
  Bool.eq_false_iff.2 fun hauth => h.2 (authenticates_live hauth)

/-! ### What overlapping transactions break -/

/-- The two overlaps that lose an update are excluded: no login commits on an intent that
another login has consumed since it was read, and no refresh commits while a logout that was
presented with its session's live token is open. -/
def NoOverlap (w : World) : Action → Prop
  | .finishLogin t (.ok _) _ _ _ => ∀ intentId ip intent,
      w.transactions t = some (.exchanged intentId ip) → w.intents intentId = some intent →
        intent.consumedAt = none
  | .finishRefresh t (.ok _) _ _ _ => ∀ j token ip now u,
      w.transactions t = some (.refresh j token ip now) →
        w.transactions u ≠ some (.logout j true) ∧ w.transactions u ≠ some (.revoking j true)
  | _ => True

/-- The intents of the sessions are consumed; the session of an open logout is the only one
of its chain that may be live; the chain of a finished logout is dead. -/
structure World.Exclusive (w : World) : Prop where
  consumed : ∀ x ∈ w.logins, ∃ intent, w.intents x.1 = some intent ∧ intent.consumedAt ≠ none
  once : (w.logins.map Prod.fst).Nodup
  pending : ∀ t j, w.transactions t = some (.logout j true) ∨
    w.transactions t = some (.revoking j true) → ∀ i, w.root i = w.root j → w.Live i → i = j
  closed : ∀ x ∈ w.loggedOut, x.2 = true → ∀ i, w.root i = w.root x.1 → ¬ w.Live i

theorem World.Exclusive.start : World.start.Exclusive := by
  constructor <;> simp [World.start]

def World.Presented (w : World) (j : String) : Prop :=
  ∃ t, w.transactions t = some (.logout j true) ∨ w.transactions t = some (.revoking j true)

theorem World.Exclusive.frame (h : w.Exclusive) (hlive : ∀ i, w'.Live i → w.Live i)
    (hroot : w'.root = w.root) (hlogins : w'.logins = w.logins)
    (hintents : ∀ x ∈ w.logins, w'.intents x.1 = w.intents x.1)
    (hpending : ∀ j, w'.Presented j → w.Presented j ∨
      ∀ i, w.root i = w.root j → w.Live i → i = j)
    (hloggedOut : ∀ x ∈ w'.loggedOut, x ∈ w.loggedOut ∨
      (x.2 = true → ∀ i, w.root i = w.root x.1 → ¬ w'.Live i)) : w'.Exclusive := by
  constructor
  · rw [hlogins]
    intro x hx
    rw [hintents x hx]
    exact h.consumed x hx
  · rw [hlogins]
    exact h.once
  · rw [hroot]
    intro t j hj i hi hl
    rcases hpending j ⟨t, hj⟩ with ⟨u, hu⟩ | hnew
    · exact h.pending u j hu i hi (hlive i hl)
    · exact hnew i hi (hlive i hl)
  · rw [hroot]
    intro x hx hpresented i hi hl
    rcases hloggedOut x hx with hold | hnew
    · exact h.closed x hold hpresented i hi (hlive i hl)
    · exact hnew hpresented i hi hl

theorem endTransaction_presented (h : (w.endTransaction t).Presented j) : w.Presented j := by
  obtain ⟨u, hu⟩ := h
  have hold : ∀ x, (w.endTransaction t).transactions u = some x → w.transactions u = some x := by
    intro x hx
    by_cases hut : u = t
    · subst hut
      simp [World.endTransaction] at hx
    · simpa [World.endTransaction, hut] using hx
  exact ⟨u, hu.imp (hold _) (hold _)⟩

theorem World.Exclusive.endTransaction (h : w.Exclusive) (t : ℕ) :
    (w.endTransaction t).Exclusive :=
  h.frame (fun _ hl => hl) rfl rfl (fun _ _ => rfl) (fun _ hj => .inl (endTransaction_presented hj))
    fun _ hx => .inl hx

theorem World.Exclusive.codes (h : w.Exclusive) (codes : String → Option AuthorizationCode) :
    ({ w with codes } : World).Exclusive :=
  h.frame (fun _ hl => hl) rfl rfl (fun _ _ => rfl) (fun _ hj => .inl hj) fun _ hx => .inl hx

theorem World.Exclusive.setTransaction (h : w.Exclusive) {x : Transaction}
    (hx : ∀ j, x = .logout j true ∨ x = .revoking j true → w.Presented j ∨
      ∀ i, w.root i = w.root j → w.Live i → i = j) :
    (w.setTransaction t (some x)).Exclusive := by
  refine h.frame (fun _ hl => hl) rfl rfl (fun _ _ => rfl) ?_ fun _ hx => .inl hx
  rintro j ⟨u, hu⟩
  simp only [World.setTransaction, Function.update_apply] at hu
  split_ifs at hu
  · exact hx j (hu.imp Option.some_inj.1 Option.some_inj.1)
  · exact .inl ⟨u, hu⟩

/-- The commit of a login on an intent not consumed before. -/
theorem World.Exclusive.commitLogin (h : w.Exclusive) (hsound : w.Sound cfg)
    {intentId ip : String} {resolved : Except LoginError TenantMember} {jti token : String}
    {now : ℕ} (hfree : ∀ member, resolved = .ok member → ∀ intent,
      w.intents intentId = some intent → intent.consumedAt = none) :
    (commitLogin cfg w intentId ip resolved jti token now).Exclusive := by
  unfold OidcLogin.commitLogin
  split
  next member intent hintent =>
    split
    next => exact h
    next w' hw' =>
      have hinserted := insertSession_eq_some hw'
      have hlogins : w'.logins = w.logins := by rw [hinserted.eq]
      have hintents : w'.intents = w.intents := by rw [hinserted.eq]
      have hnew : intentId ∉ w.logins.map Prod.fst := by
        intro hmem
        obtain ⟨x, hx, rfl⟩ := List.mem_map.1 hmem
        obtain ⟨intent', hintent', hconsumed⟩ := h.consumed x hx
        exact hconsumed (hfree member rfl intent' hintent')
      have hroot : w'.root jti = some jti := by
        rw [hinserted.eq]
        simp [issueSession]
      have hlive : ∀ i, w'.Live i → i ≠ jti → w.Live i := by
        intro i hi hne
        exact ((hinserted.live rfl).1 hi).resolve_right hne
      -- A session of an older chain is in no chain with the new one.
      have hother : ∀ i k, (w.sessions k).isSome = true → w'.root i = w'.root k →
          w'.Live i → w.Live i ∧ w.root i = w.root k := by
        intro i k hk hsame hi
        rw [hinserted.root hk] at hsame
        have hne : i ≠ jti := by
          rintro rfl
          rw [hroot] at hsame
          exact hinserted.ne (hsound.roots k i hsame.symm) rfl
        have hold := hlive i hi hne
        rw [hinserted.root hold.isSome] at hsame
        exact ⟨hold, hsame⟩
      constructor
      · intro x hx
        rw [hlogins] at hx
        dsimp only
        rw [hintents]
        rcases List.mem_cons.1 hx with rfl | hx
        · exact ⟨{ intent with consumedAt := some now }, by simp, by simp⟩
        · have hne : x.1 ≠ intentId := fun heq => hnew (heq ▸ List.mem_map_of_mem hx)
          rw [Function.update_of_ne hne]
          exact h.consumed x hx
      · dsimp only
        rw [hlogins, List.map_cons]
        exact List.nodup_cons.2 ⟨hnew, h.once⟩
      · intro u k hu i hi hl
        have hu : w.transactions u = some (.logout k true) ∨
            w.transactions u = some (.revoking k true) := by
          rw [hinserted.eq] at hu
          exact hu
        obtain ⟨hold, hsame⟩ := hother i k (hsound.presented u k hu) hi hl
        exact h.pending u k hu i hsame hold
      · intro x hx hpresented i hi hl
        have hx : x ∈ w.loggedOut := by
          rw [hinserted.eq] at hx
          exact hx
        obtain ⟨hold, hsame⟩ := hother i x.1 (hsound.ended x hx hpresented).1 hi hl
        exact h.closed x hx hpresented i hsame hold
  next => exact h

/-- The commit of a refresh whose session no open logout was presented with. -/
theorem World.Exclusive.commitRefresh (h : w.Exclusive) (hsound : w.Sound cfg)
    {parent old ip : String} {revokedAt : ℕ} (hparent : w.Live parent)
    {resolved : Except LoginError TenantMember} {jti token : String} {now : ℕ}
    (hfree : ∀ member, resolved = .ok member → ¬ w.Presented parent) :
    (commitRefresh cfg w parent old ip revokedAt resolved jti token now).Exclusive := by
  unfold OidcLogin.commitRefresh
  split
  next => exact h
  next member =>
    split
    next => exact h
    next w' hw' =>
      have hinserted := insertSession_eq_some hw'
      have hroot : w'.root jti = w.root parent := by
        rw [hinserted.eq]
        simp [issueSession]
      have hsessions : ∀ k, (w.sessions k).isSome = true →
          ((w.revoke parent revokedAt).sessions k).isSome = true := by
        intro k hk
        rw [revoke_isSome, hk]
      have hold : ∀ k, (w.sessions k).isSome = true → w'.root k = w.root k := by
        intro k hk
        rw [hinserted.root (hsessions k hk), revoke_root]
      -- The new session stands in its parent's place.
      have hother : ∀ i k, (w.sessions k).isSome = true → w'.root i = w'.root k →
          w'.Live i → ∃ i', w.Live i' ∧ w.root i' = w.root k ∧ (i' = parent ∨ i' = i) := by
        intro i k hk hsame hi
        rw [hold k hk] at hsame
        rcases (hinserted.live rfl).1 hi with hl | rfl
        · rw [revoke_live] at hl
          rw [hold i hl.1.isSome] at hsame
          exact ⟨i, hl.1, hsame, .inr rfl⟩
        · exact ⟨parent, hparent, hroot.symm.trans hsame, .inl rfl⟩
      have hlogins : w'.logins = w.logins := by
        rw [hinserted.eq]
        exact revoke_logins w parent revokedAt
      have hintents : w'.intents = w.intents := by
        rw [hinserted.eq]
        exact revoke_intents w parent revokedAt
      constructor
      · intro x hx
        dsimp only at hx ⊢
        rw [hlogins] at hx
        rw [hintents]
        exact h.consumed x hx
      · dsimp only
        rw [hlogins]
        exact h.once
      · intro u k hu i hi hl
        have hopen : w.transactions u = some (.logout k true) ∨
            w.transactions u = some (.revoking k true) := by
          rw [hinserted.eq] at hu
          simpa using hu
        obtain ⟨i', hl', hsame, heq⟩ := hother i k (hsound.presented u k hopen) hi hl
        have hik := h.pending u k hopen i' hsame hl'
        rcases heq with rfl | rfl
        · rw [← hik] at hopen
          exact absurd ⟨u, hopen⟩ (hfree member rfl)
        · exact hik
      · intro x hx hpresented i hi hl
        have hx : x ∈ w.loggedOut := by
          rw [hinserted.eq] at hx
          simpa using hx
        obtain ⟨i', hl', hsame, -⟩ := hother i x.1 (hsound.ended x hx hpresented).1 hi hl
        exact h.closed x hx hpresented i' hsame hl'

/-- The commit of a logout. -/
theorem World.Exclusive.finishLogout (h : w.Exclusive) {live : Bool}
    (ht : w.transactions t = some (.revoking j live)) (now : ℕ) :
    ({ (w.endTransaction t).revoke j now with
      loggedOut := (j, live) :: w.loggedOut } : World).Exclusive := by
  have hended := h.endTransaction t
  refine hended.frame (fun i hl => (revoke_live.1 hl).1) (revoke_root _ _ _) (revoke_logins _ _ _)
    (fun x _ => by rw [revoke_intents]) (fun k hk => .inl ?_) fun x hx => ?_
  · obtain ⟨u, hu⟩ := hk
    exact ⟨u, by simpa using hu⟩
  · rcases List.mem_cons.1 hx with rfl | hx
    · refine .inr fun hlive i hi hl => ?_
      dsimp only at hlive hi
      subst hlive
      obtain ⟨hl, hne⟩ := revoke_live.1 hl
      exact hne (h.pending t j (.inr ht) i hi hl)
    · exact .inl hx

theorem step_exclusive (h : w.Exclusive) (hsound : w.Sound cfg) (a : Action)
    (hguard : NoOverlap w a) : (step cfg w a).Exclusive := by
  cases a with
  | startLogin intentId intent =>
    simp only [step]
    split
    next => exact h
    next hnone =>
      refine h.frame (fun _ hl => hl) rfl rfl (fun x hx => ?_) (fun _ hj => .inl hj)
        fun _ hx => .inl hx
      obtain ⟨intent', hintent', -⟩ := h.consumed x hx
      have hne : x.1 ≠ intentId := by
        rintro rfl
        rw [hnone] at hintent'
        cases hintent'
      exact Function.update_of_ne hne _ _
  | issueCode code nonce =>
    simp only [step]
    split
    · exact h
    · exact h.codes _
  | completeLogin t request now =>
    simp only [step]
    split
    · exact h.setTransaction (by simp)
    · exact h
  | exchange t =>
    simp only [step]
    split
    · split
      · split_ifs
        · exact (h.codes _).setTransaction (by simp)
        · exact (h.codes _).endTransaction t
      · exact (h.codes _).endTransaction t
    · exact h
  | finishLogin t resolved jti token now =>
    simp only [step]
    split
    next intentId ip ht =>
      apply (h.endTransaction t).commitLogin (hsound.endTransaction t)
      rintro member rfl intent hintent
      exact hguard intentId ip intent ht hintent
    next => exact h
  | refresh t token ip now =>
    simp only [step]
    split_ifs
    · exact h
    · split
      next row _ _ =>
        split
        · exact h
        · have hset := h.setTransaction (t := t)
            (x := .refresh row.accessJti (cfg.strip token) ip now) (by simp)
          exact hset.frame (fun _ hl => hl) rfl rfl (fun _ _ => rfl) (fun _ hj => .inl hj)
            fun _ hx => .inl hx
      next => exact h
  | finishRefresh t resolved jti token now =>
    simp only [step]
    split
    next parent old ip revokedAt ht =>
      obtain ⟨-, hlive, -⟩ := hsound.held t parent old ip revokedAt ht
      apply (h.endTransaction t).commitRefresh (hsound.endTransaction t) hlive
      rintro member rfl hpresented
      obtain ⟨u, hu⟩ := endTransaction_presented hpresented
      exact hu.elim (hguard parent old ip revokedAt u ht).1 (hguard parent old ip revokedAt u ht).2
    next => exact h
  | logout t jti now =>
    simp only [step]
    split
    · refine h.setTransaction fun j hj => .inr fun i hi hl => ?_
      rcases hj with hj | hj
      · obtain ⟨rfl, hauth⟩ := by simpa using hj
        exact hsound.chain i jti hl (authenticates_live hauth) hi
      · cases hj
    · exact h
  | revokeSession t =>
    simp only [step]
    split
    next jti live ht =>
      split_ifs with hany
      · refine h.setTransaction fun j hj => .inl ?_
        rcases hj with hj | hj
        · cases hj
        · cases hj
          exact ⟨t, .inl ht⟩
      · have hended := h.endTransaction t
        refine hended.frame (fun _ hl => hl) rfl rfl (fun _ _ => rfl) (fun _ hj => .inl hj)
          fun x hx => ?_
        rcases List.mem_cons.1 hx with rfl | hx
        · refine .inr fun hlive i hi hl => ?_
          dsimp only at hlive hi
          subst hlive
          obtain rfl := h.pending t jti (.inl ht) i hi hl
          obtain ⟨row, hrow, hnone⟩ := hl
          apply hany
          change w.sessions i = some row at hrow
          simp [hrow, hnone]
        · exact .inl hx
    next => exact h
  | finishLogout t now =>
    simp only [step]
    split
    next jti live ht =>
      split
      · exact h
      · exact h.finishLogout ht now
    next => exact h
  | abort t => exact h.endTransaction t

/-- A login intent yields one session. -/
def World.SingleUse (w : World) : Prop := (w.logins.map Prod.fst).Nodup

/-- A logout presented with a live token leaves no live session of the token's chain. -/
def World.LoggedOutDead (w : World) : Prop :=
  ∀ x ∈ w.loggedOut, x.2 = true → ∀ i, w.root i = w.root x.1 → ¬ w.Live i

/-- In every run a refresh token yields one successor, a chain has one live session, and a
refreshed or revoked session's access token is never accepted again. In every run without
the two overlaps an intent yields one session and a logout ends its chain. -/
theorem login_sessions_single_use (cfg : Settings) (as : List Action) :
    let w := exec (step cfg) World.start as
    (w.successors.map Successor.refreshToken).Nodup ∧
    (∀ i j, w.Live i → w.Live j → w.root i = w.root j → i = j) ∧
    (∀ j, w.Dead j ∨ j ∈ w.successors.map Successor.parent →
      ∀ bs now, authenticates (exec (step cfg) w bs) j now = false) ∧
    (Guarded (step cfg) NoOverlap World.start as → w.SingleUse ∧ w.LoggedOutDead) := by
  intro w
  have hsound : w.Sound cfg := exec_sound as
  refine ⟨?_, hsound.chain, fun j hj bs now => ?_, fun hguard => ?_⟩
  · have hparents : w.successors.map (some ∘ Successor.parent) =
        (w.successors.map Successor.refreshToken).map
          (w.byRefreshTokenHash ∘ cfg.hashRefreshToken) := by
      rw [List.map_map]
      apply List.map_congr_left
      intro x hx
      exact (hsound.successors x hx).2.symm
    apply List.Nodup.of_map (w.byRefreshTokenHash ∘ cfg.hashRefreshToken)
    rw [← hparents, ← List.map_map]
    exact hsound.once.map (Option.some_injective _)
  · have hdead : w.Dead j := by
      rcases hj with hj | hj
      · exact hj
      · obtain ⟨x, hx, rfl⟩ := List.mem_map.1 hj
        exact (hsound.successors x hx).1
    exact (exec_dead hdead bs).rejected now
  · have hboth : w.Sound cfg ∧ w.Exclusive :=
      hguard.preserves (I := fun w : World => w.Sound cfg ∧ w.Exclusive)
        (fun w a h hg => ⟨step_sound h.1 a, step_exclusive h.2 h.1 a hg⟩)
        ⟨World.Sound.start, World.Exclusive.start⟩
    exact ⟨hboth.2.once, hboth.2.closed⟩

namespace Overlap

def settings : Settings := ⟨id, id, id, some, 900, 86400⟩

def intent : OidcLoginIntent := ⟨"verifier", "https://app.example/cb", "nonce", "ip", 600, none⟩

def request (code : String) : LoginRequest :=
  ⟨"intent", code, "verifier", "https://app.example/cb", "ip"⟩

def member : TenantMember := ⟨"member", "tenant"⟩

/-- Two authorization codes of one intent, presented at the same time. -/
def twoLogins : List Action :=
  [.startLogin "intent" intent, .issueCode "code-1" "nonce", .issueCode "code-2" "nonce",
   .completeLogin 1 (request "code-1") 10, .completeLogin 2 (request "code-2") 10,
   .exchange 1, .exchange 2,
   .finishLogin 1 (.ok member) "access-1" "refresh-1" 11,
   .finishLogin 2 (.ok member) "access-2" "refresh-2" 11]

/-- A logout whose session is being refreshed. -/
def refreshedLogout : List Action :=
  [.startLogin "intent" intent, .issueCode "code-1" "nonce",
   .completeLogin 1 (request "code-1") 10, .exchange 1,
   .finishLogin 1 (.ok member) "access-1" "refresh-1" 11,
   .refresh 2 "refresh-1" "ip" 20, .logout 3 "access-1" 20, .revokeSession 3,
   .finishRefresh 2 (.ok member) "access-2" "refresh-2" 21, .finishLogout 3 22]

/-- A second code for a used intent, a refresh of the session and a logout from its successor. -/
def oneByOne : List Action :=
  [.startLogin "intent" intent, .issueCode "code-1" "nonce", .issueCode "code-2" "nonce",
   .completeLogin 1 (request "code-1") 10, .exchange 1,
   .finishLogin 1 (.ok member) "access-1" "refresh-1" 11,
   .completeLogin 2 (request "code-2") 12,
   .refresh 3 "refresh-1" "ip" 20, .finishRefresh 3 (.ok member) "access-2" "refresh-2" 21,
   .logout 4 "access-2" 22, .revokeSession 4, .finishLogout 4 23]

theorem oneByOne_guarded : Guarded (step settings) NoOverlap World.start oneByOne := by
  refine ⟨trivial, trivial, trivial, trivial, trivial, ?_, trivial, trivial, ?_, trivial, trivial,
    trivial, trivial⟩
  · intro intentId ip intent ht hintent
    cases ht
    cases hintent
    rfl
  · intro j token ip now u _
    match u with
    | 0 | 1 | 2 | 3 | u + 4 => exact ⟨nofun, nofun⟩

end Overlap

/-- Logins, refreshes and logouts one by one: one session of the intent, and none is left. -/
theorem login_sessions_one_by_one :
    (exec (step Overlap.settings) World.start Overlap.oneByOne).logins = [("intent", "access-1")] ∧
      (exec (step Overlap.settings) World.start Overlap.oneByOne).loggedOut =
        [("access-2", true)] ∧
      (exec (step Overlap.settings) World.start Overlap.oneByOne).SingleUse ∧
      (exec (step Overlap.settings) World.start Overlap.oneByOne).LoggedOutDead :=
  ⟨by decide +kernel, by decide +kernel,
    (login_sessions_single_use Overlap.settings Overlap.oneByOne).2.2.2 Overlap.oneByOne_guarded⟩

theorem overlapping_logins_and_logout :
    ¬ (exec (step Overlap.settings) World.start Overlap.twoLogins).SingleUse ∧
      ¬ (exec (step Overlap.settings) World.start Overlap.refreshedLogout).LoggedOutDead := by
  constructor
  · have hlogins : (exec (step Overlap.settings) World.start Overlap.twoLogins).logins =
        [("intent", "access-2"), ("intent", "access-1")] := by decide +kernel
    unfold World.SingleUse
    rw [hlogins]
    decide
  · intro hdead
    have hlogged : ("access-1", true) ∈
        (exec (step Overlap.settings) World.start Overlap.refreshedLogout).loggedOut := by
      decide +kernel
    have hauthenticates : authenticates
        (exec (step Overlap.settings) World.start Overlap.refreshedLogout) "access-2" 30 = true := by
      decide +kernel
    refine hdead _ hlogged rfl "access-2" (by decide +kernel) ?_
    exact authenticates_live hauthenticates

end Ajenda.OidcLogin
