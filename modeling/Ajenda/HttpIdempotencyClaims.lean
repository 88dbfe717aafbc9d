import Ajenda.HttpIdempotency
import Ajenda.TransitionSystem

/-!
# Clients of the durable HTTP idempotency repository

Any number of claims run at once, each statement of a claim at its own moment and with the
time the call read when it began. `renew`, `complete` and `release` are one statement each.
The log records what took effect, the latest first, with the time on the clock.
-/
namespace Ajenda.HttpIdempotency
open TransitionSystem

inductive Event
  | acquired (key fingerprint token : String) (now : ℤ)
  | renewed (key token : String) (now : ℤ)
  | completed (key token : String) (response : ReplayResponse)
  | released (key token : String)
  | replayed (key fingerprint : String) (response : ReplayResponse)
  deriving DecidableEq

def Event.key : Event → String
  | .acquired key .. | .renewed key .. | .completed key .. | .released key _
  | .replayed key .. => key

/-- The token whose claim the event starts or extends, and the time it is extended from. -/
def Event.lease : Event → Option (String × ℤ)
  | .acquired _ _ token now | .renewed _ token now => some (token, now)
  | _ => none

abbrev Log := List (ℤ × Event)

/-- The owner of `token` acquired or renewed its claim of the key at the time `now`. -/
def Log.Leased (log : Log) (key token : String) (now : ℤ) : Prop :=
  ∃ entry ∈ log, entry.2.key = key ∧ entry.2.lease = some (token, now)

inductive Progress
  | inProgress
  | completed (response : ReplayResponse)
  | released
  deriving DecidableEq

/-- The most recent acquirer of a key and what became of its claim. -/
structure KeyHistory where
  token : String
  fingerprint : String
  progress : Progress
  deriving DecidableEq

def Event.follow : Event → Option KeyHistory → Option KeyHistory
  | .acquired _ fingerprint token _, _ => some ⟨token, fingerprint, .inProgress⟩
  | .completed _ _ response, history => history.map ({ · with progress := .completed response })
  | .released _ _, history => history.map ({ · with progress := .released })
  | .renewed .., history | .replayed .., history => history

def history (key : String) : Log → Option KeyHistory
  | [] => none
  | entry :: log =>
    if entry.2.key = key then entry.2.follow (history key log) else history key log

/-- Running claims by their tokens; the flag tells that the insert met a conflict. -/
structure World (Text : Type) where
  clock : ℤ
  rows : Receipts Text
  claims : String → Option (ClaimRequest × Bool)
  issued : List String
  log : Log

def World.start {Text : Type} (clock : ℤ) : World Text :=
  ⟨clock, fun _ => none, fun _ => none, [], []⟩

inductive Action
  | tick (elapsed : ℕ)
  | beginClaim (key fingerprint token : String)
  | purge (token key : String)
  | insert (token : String)
  | lock (token : String)
  | abandon (token : String)
  | renew (key token : String) (now : ℤ)
  | complete (key token : String) (response : ReplayResponse) (draw : ℕ) (now : ℤ)
  | release (key token : String)

section Steps
variable {Text : Type} (settings : Settings) (fernet : Fernet Text) (w : World Text)

def World.finish (token : String) : World Text :=
  { w with claims := Function.update w.claims token none }

def World.record (e : Event) : World Text := { w with log := (w.clock, e) :: w.log }

/-- A claim draws a token that no claim has drawn before and reads the clock. -/
def World.beginClaim (key fingerprint token : String) : World Text :=
  if token ∈ w.issued then w
  else { w with
    issued := token :: w.issued
    claims := Function.update w.claims token
      (some (⟨key, fingerprint, token, w.clock⟩, false)) }

/-- The `DELETE` of a running claim reaches the row of `key`. -/
def World.purge (token key : String) : World Text :=
  match w.claims token with
  | some (request, false) =>
    { w with rows := Function.update w.rows key (HttpIdempotency.purge w.rows request.now key) }
  | _ => w

def World.insert (token : String) : World Text :=
  match w.claims token with
  | some (request, false) =>
    match insertReceipt settings w.rows request with
    | (true, rows) => (({ w with rows }).finish token).record
        (.acquired request.operationKey request.requestFingerprint token request.now)
    | (false, _) =>
      { w with claims := Function.update w.claims token (some (request, true)) }
  | _ => w

/-- The row is locked, examined and perhaps taken over. -/
def World.lock (token : String) : World Text :=
  match w.claims token with
  | some (request, true) =>
    let (answer, rows) := lockReceipt settings fernet w.rows request
    let done := ({ w with rows }).finish token
    match answer with
    | .acquired => done.record
        (.acquired request.operationKey request.requestFingerprint token request.now)
    | .replay ciphertext =>
      match decryptResponse fernet ciphertext with
      | some response =>
        done.record (.replayed request.operationKey request.requestFingerprint response)
      | none => done
    | .inFlight | .payloadMismatch => done
  | _ => w

/-- An owner renews after its claim or its previous renewal has returned, so the time it has
read is not before the moment that took effect. -/
def World.mayRenew (key token : String) (now : ℤ) : Bool :=
  now ≤ w.clock && w.log.all fun entry =>
    entry.2.key ≠ key || entry.2.lease.all (·.1 ≠ token) || entry.1 ≤ now

def World.after (result : Bool × Receipts Text) (e : Event) : World Text :=
  if result.1 then ({ w with rows := result.2 }).record e else w

def World.step : Action → World Text
  | .tick elapsed => { w with clock := w.clock + elapsed }
  | .beginClaim key fingerprint token => w.beginClaim key fingerprint token
  | .purge token key => w.purge token key
  | .insert token => w.insert settings token
  | .lock token => w.lock settings fernet token
  | .abandon token => w.finish token
  | .renew key token now =>
    if w.mayRenew key token now then
      w.after (renew settings w.rows key token now) (.renewed key token now)
    else w
  | .complete key token response draw now =>
    if now ≤ w.clock then
      w.after (complete settings w.rows key token (encryptResponse fernet draw response) now)
        (.completed key token response)
    else w
  | .release key token => w.after (release w.rows key token) (.released key token)

end Steps

/-- Every entry of the log stands in the relation to the entries before it. -/
def EveryEntry (P : ℤ × Event → Log → Prop) : Log → Prop
  | [] => True
  | entry :: log => P entry log ∧ EveryEntry P log

/-- What takes effect for a claim is done under the token of the most recent acquirer. -/
def Fenced (entry : ℤ × Event) (earlier : Log) : Prop :=
  match entry.2 with
  | .renewed key token _ | .completed key token _ | .released key token =>
    ∃ h, history key earlier = some h ∧ h.token = token ∧ h.progress = .inProgress
  | _ => True

/-- A replay answers the same fingerprint with the response its owner stored. -/
def Replays (entry : ℤ × Event) (earlier : Log) : Prop :=
  match entry.2 with
  | .replayed key fingerprint response =>
    ∃ h, history key earlier = some h ∧ h.fingerprint = fingerprint ∧
      h.progress = .completed response
  | _ => True

/-- A claim in progress is taken over when its owner has not renewed it for a whole TTL. -/
def TakenOverLate (settings : Settings) (entry : ℤ × Event) (earlier : Log) : Prop :=
  match entry.2 with
  | .acquired key .. => ∀ h, history key earlier = some h → h.progress = .inProgress →
      ∀ now, earlier.Leased key h.token now →
        now + timedelta settings.claimTtlSeconds ≤ entry.1
  | _ => True

/-- An owner that has renewed within the TTL still has its row. -/
def OwnersHold {Text : Type} (settings : Settings) (w : World Text) : Prop :=
  ∀ key h, history key w.log = some h → h.progress = .inProgress →
    ∀ now, w.log.Leased key h.token now → w.clock < now + timedelta settings.claimTtlSeconds →
      ∃ row, w.rows key = some row ∧ row.ownerToken = h.token ∧ row.status = .claiming

/-- At the time `now` the receipt has not expired, or it is not in progress, or its claim has
expired as well. -/
def expiresWithClaim {Text : Type} (now : ℤ) (row : HttpIdempotencyReceipt Text) : Bool :=
  now < row.expiresAt || row.status ≠ .claiming || row.claimExpiresAt.any (· ≤ now)

/-- The claim deletes or overwrites no row whose owner may still renew. -/
def World.sparesOwner {Text : Type} (w : World Text) : Action → Bool
  | .purge token key =>
    match w.claims token with
    | some (request, _) => (w.rows key).all (expiresWithClaim request.now)
    | none => true
  | .lock token =>
    match w.claims token with
    | some (request, _) => (w.rows request.operationKey).all (expiresWithClaim request.now)
    | none => true
  | _ => true

section Histories
variable {log : Log} {entry : ℤ × Event} {key token : String} {now : ℤ}

theorem history_other (h : entry.2.key ≠ key) : history key (entry :: log) = history key log := by
  simp [history, h]

theorem leased_cons : Log.Leased (entry :: log) key token now ↔
    (entry.2.key = key ∧ entry.2.lease = some (token, now)) ∨ log.Leased key token now := by
  simp [Log.Leased]

theorem leased_other (h : entry.2.key ≠ key) :
    Log.Leased (entry :: log) key token now ↔ log.Leased key token now := by
  simp [leased_cons, h]

theorem leased_of_lease_none (h : entry.2.lease = none) :
    Log.Leased (entry :: log) key token now ↔ log.Leased key token now := by
  simp [leased_cons, h]

end Histories

/-- What a row says about the past of its key. -/
structure Recorded {Text : Type} (settings : Settings) (fernet : Fernet Text) (log : Log)
    (key : String) (row : HttpIdempotencyReceipt Text) (h : KeyHistory) : Prop where
  history : history key log = some h
  token : h.token = row.ownerToken
  fingerprint : h.fingerprint = row.requestFingerprint
  claiming : row.status = .claiming → h.progress = .inProgress ∧
    ∃ expiry, row.claimExpiresAt = some expiry ∧
      ∀ now, log.Leased key row.ownerToken now → now + timedelta settings.claimTtlSeconds ≤ expiry
  completed : row.status = .completed → ∃ ciphertext response,
    row.responseCiphertext = some ciphertext ∧
      decryptResponse fernet ciphertext = some response ∧ h.progress = .completed response

/-- The invariant of every run. -/
structure World.Sound {Text : Type} (settings : Settings) (fernet : Fernet Text)
    (w : World Text) : Prop where
  stamps : ∀ entry ∈ w.log, entry.1 ≤ w.clock ∧
    ∀ token now, entry.2.lease = some (token, now) → now ≤ entry.1 ∧ token ∈ w.issued
  claims : ∀ token request conflict, w.claims token = some (request, conflict) →
    request.ownerToken = token ∧ request.now ≤ w.clock ∧ token ∈ w.issued ∧
      ∀ key now, ¬ w.log.Leased key token now
  rows : ∀ key row, w.rows key = some row → ∃ h, Recorded settings fernet w.log key row h
  fenced : EveryEntry Fenced w.log
  replays : EveryEntry Replays w.log

section Soundness
variable {Text : Type} {settings : Settings} {fernet : Fernet Text} {w : World Text}
  {log : Log} {entry : ℤ × Event} {key token : String} {row : HttpIdempotencyReceipt Text}
  {h : KeyHistory}

/-- Events of other keys leave a row recorded. -/
theorem Recorded.other (hr : Recorded settings fernet log key row h) (he : entry.2.key ≠ key) :
    Recorded settings fernet (entry :: log) key row h where
  history := (history_other he).trans hr.history
  token := hr.token
  fingerprint := hr.fingerprint
  claiming hstatus := by
    obtain ⟨hprogress, expiry, hexpiry, hbound⟩ := hr.claiming hstatus
    refine ⟨hprogress, expiry, hexpiry, fun now hleased => hbound now ?_⟩
    rwa [leased_other he] at hleased
  completed := hr.completed

/-- A replay leaves a row recorded. -/
theorem Recorded.replayed (hr : Recorded settings fernet log key row h) (stamp : ℤ)
    (key' fingerprint : String) (response : ReplayResponse) :
    Recorded settings fernet ((stamp, .replayed key' fingerprint response) :: log) key row h where
  history := by
    have hhistory := hr.history
    simp only [HttpIdempotency.history, Event.follow, ite_self]
    exact hhistory
  token := hr.token
  fingerprint := hr.fingerprint
  claiming hstatus := by
    obtain ⟨hprogress, expiry, hexpiry, hbound⟩ := hr.claiming hstatus
    refine ⟨hprogress, expiry, hexpiry, fun now hleased => hbound now ?_⟩
    rwa [leased_of_lease_none rfl] at hleased
  completed := hr.completed

/-- Time passes, claims end and rows go. -/
theorem World.Sound.weaken {w' : World Text} (hw : w.Sound settings fernet)
    (hclock : w.clock ≤ w'.clock) (hlog : w'.log = w.log) (hissued : w'.issued = w.issued)
    (hclaims : ∀ token request conflict, w'.claims token = some (request, conflict) →
      ∃ conflict', w.claims token = some (request, conflict'))
    (hrows : ∀ key row, w'.rows key = some row → w.rows key = some row) :
    w'.Sound settings fernet where
  stamps entry hentry := by
    rw [hlog] at hentry
    obtain ⟨hstamp, hlease⟩ := hw.stamps entry hentry
    exact ⟨hstamp.trans hclock, fun token now h => hissued ▸ hlease token now h⟩
  claims token request conflict h := by
    obtain ⟨conflict', hclaim⟩ := hclaims token request conflict h
    obtain ⟨htoken, hnow, hmem, hfree⟩ := hw.claims token request conflict' hclaim
    exact ⟨htoken, hnow.trans hclock, hissued ▸ hmem, hlog ▸ hfree⟩
  rows key row h := hlog ▸ hw.rows key row (hrows key row h)
  fenced := hlog ▸ hw.fenced
  replays := hlog ▸ hw.replays

/-- An event takes effect on the row of its key. -/
theorem World.Sound.event (hw : w.Sound settings fernet) (e : Event)
    (row : Option (HttpIdempotencyReceipt Text)) (claims : String → Option (ClaimRequest × Bool))
    (hlease : ∀ token now, e.lease = some (token, now) → now ≤ w.clock ∧ token ∈ w.issued ∧
      claims token = none)
    (hclaims : ∀ token claim, claims token = some claim → w.claims token = some claim)
    (hrow : ∀ r, row = some r → ∃ h, Recorded settings fernet ((w.clock, e) :: w.log) e.key r h)
    (hfenced : Fenced (w.clock, e) w.log) (hreplays : Replays (w.clock, e) w.log) :
    (⟨w.clock, Function.update w.rows e.key row, claims, w.issued, (w.clock, e) :: w.log⟩ :
      World Text).Sound settings fernet where
  stamps entry hentry := by
    rcases List.mem_cons.mp hentry with rfl | hentry
    · refine ⟨le_rfl, fun token now h => ?_⟩
      obtain ⟨hnow, hissued, -⟩ := hlease token now h
      exact ⟨hnow, hissued⟩
    · exact hw.stamps entry hentry
  claims token request conflict h := by
    obtain ⟨htoken, hnow, hissued, hfree⟩ :=
      hw.claims token request conflict (hclaims token _ h)
    refine ⟨htoken, hnow, hissued, fun key now hleased => ?_⟩
    rcases leased_cons.mp hleased with ⟨-, hnew⟩ | hold
    · obtain ⟨-, -, hnone⟩ := hlease token now hnew
      have hrunning : claims token = some (request, conflict) := h
      simp [hnone] at hrunning
    · exact hfree key now hold
  rows key r hkey := by
    by_cases hk : key = e.key
    · subst hk
      exact hrow r (by simpa using hkey)
    · obtain ⟨h, hrecorded⟩ := hw.rows key r (by simpa [hk] using hkey)
      exact ⟨h, hrecorded.other fun heq => hk heq.symm⟩
  fenced := ⟨hfenced, hw.fenced⟩
  replays := ⟨hreplays, hw.replays⟩

/-- The row a claim has just acquired. -/
theorem Recorded.acquired {request : ClaimRequest}
    (hstatus : row.status = .claiming) (htoken : row.ownerToken = request.ownerToken)
    (hfingerprint : row.requestFingerprint = request.requestFingerprint)
    (hexpiry : row.claimExpiresAt = some (request.now + timedelta settings.claimTtlSeconds))
    (hfree : ∀ key now, ¬ log.Leased key request.ownerToken now) (stamp : ℤ) :
    Recorded settings fernet ((stamp, .acquired request.operationKey request.requestFingerprint
      request.ownerToken request.now) :: log) request.operationKey row
      ⟨request.ownerToken, request.requestFingerprint, .inProgress⟩ where
  history := by simp [HttpIdempotency.history, Event.key, Event.follow]
  token := htoken.symm
  fingerprint := hfingerprint.symm
  claiming _ := by
    refine ⟨rfl, _, hexpiry, fun now hleased => ?_⟩
    rw [htoken] at hleased
    rcases leased_cons.mp hleased with ⟨-, hnew⟩ | hold
    · have hnow : request.now = now := by simpa [Event.lease] using hnew
      omega
    · exact absurd hold (hfree _ _)
  completed hcompleted := by
    rw [hstatus] at hcompleted
    cases hcompleted

/-- A claim acquires its key and ends. -/
theorem World.Sound.acquire (hw : w.Sound settings fernet) {request : ClaimRequest}
    {conflict : Bool} (hclaim : w.claims token = some (request, conflict))
    (hstatus : row.status = .claiming) (htoken : row.ownerToken = request.ownerToken)
    (hfingerprint : row.requestFingerprint = request.requestFingerprint)
    (hexpiry : row.claimExpiresAt = some (request.now + timedelta settings.claimTtlSeconds)) :
    ((({ w with rows := Function.update w.rows request.operationKey (some row) } :
      World Text).finish token).record (.acquired request.operationKey request.requestFingerprint
        token request.now)).Sound settings fernet := by
  obtain ⟨rfl, hnow, hissued, hfree⟩ := hw.claims token request conflict hclaim
  have hended : ∀ token claim, Function.update w.claims request.ownerToken none token = some claim →
      w.claims token = some claim := by
    intro token claim h
    by_cases ht : token = request.ownerToken
    · simp [ht] at h
    · simpa [ht] using h
  refine hw.event (.acquired request.operationKey request.requestFingerprint request.ownerToken
    request.now) (some row) _ (fun token now h => ?_) hended (fun r hr => ?_) trivial trivial
  · obtain ⟨rfl, rfl⟩ : request.ownerToken = token ∧ request.now = now := by
      simpa [Event.lease] using h
    exact ⟨hnow, hissued, Function.update_self ..⟩
  · obtain rfl := Option.some.inj hr
    exact ⟨_, Recorded.acquired hstatus htoken hfingerprint hexpiry hfree w.clock⟩

/-- The most recent acquirer of a key has acquired it. -/
theorem leased_of_history (hh : history key log = some h) :
    ∃ now, log.Leased key h.token now := by
  induction log generalizing h with
  | nil => simp [history] at hh
  | cons entry log ih =>
    obtain ⟨stamp, e⟩ := entry
    by_cases hkey : e.key = key
    · -- an earlier history of the key goes on
      have hold : ∀ h', history key log = some h' → h'.token = h.token →
          ∃ now, Log.Leased ((stamp, e) :: log) key h.token now := by
        intro h' hh' htoken
        obtain ⟨now, hleased⟩ := ih hh'
        exact ⟨now, leased_cons.mpr (.inr (htoken ▸ hleased))⟩
      rw [history, if_pos hkey] at hh
      cases e with
      | acquired key' fingerprint token now =>
        obtain rfl := Option.some.inj hh
        exact ⟨now, leased_cons.mpr (.inl ⟨hkey, rfl⟩)⟩
      | renewed => exact hold h hh rfl
      | replayed => exact hold h hh rfl
      | completed =>
        obtain ⟨h', hh', rfl⟩ := Option.map_eq_some_iff.mp hh
        exact hold h' hh' rfl
      | released =>
        obtain ⟨h', hh', rfl⟩ := Option.map_eq_some_iff.mp hh
        exact hold h' hh' rfl
    · rw [history, if_neg hkey] at hh
      obtain ⟨now, hleased⟩ := ih hh
      exact ⟨now, leased_cons.mpr (.inr hleased)⟩

/-- A token that owns a row belongs to no running claim. -/
theorem World.Sound.owner_idle (hw : w.Sound settings fernet)
    (hh : history key w.log = some h) : h.token ∈ w.issued ∧ w.claims h.token = none := by
  obtain ⟨now, hleased⟩ := leased_of_history hh
  constructor
  · obtain ⟨entry, hentry, -, hlease⟩ := hleased
    exact ((hw.stamps entry hentry).2 _ _ hlease).2
  · cases hclaim : w.claims h.token with
    | none => rfl
    | some claim =>
      obtain ⟨-, -, -, hfree⟩ := hw.claims h.token claim.1 claim.2 hclaim
      exact absurd hleased (hfree key now)

/-- An owner's statement changes the row it finds. -/
theorem World.Sound.owned (hw : w.Sound settings fernet) (e : Event) (token : String)
    (change : HttpIdempotencyReceipt Text → Option (HttpIdempotencyReceipt Text))
    (hreplay : Replays (w.clock, e) w.log)
    (hlease : ∀ t now, e.lease = some (t, now) → t = token ∧ now ≤ w.clock)
    (hchange : ∀ row h, row.ownerToken = token → row.status = .claiming →
      Recorded settings fernet w.log e.key row h → Fenced (w.clock, e) w.log ∧
        ∀ r, change row = some r →
          ∃ h, Recorded settings fernet ((w.clock, e) :: w.log) e.key r h) :
    (w.after (changeOwned w.rows e.key token change) e).Sound settings fernet := by
  unfold World.after changeOwned
  cases hrow : w.rows e.key with
  | none => simpa using hw
  | some row =>
    by_cases howned : row.ownerToken = token ∧ row.status = .claiming
    · obtain ⟨h, hrecorded⟩ := hw.rows e.key row hrow
      obtain ⟨hfenced, hnew⟩ := hchange row h howned.1 howned.2 hrecorded
      obtain ⟨hissued, hidle⟩ := hw.owner_idle hrecorded.history
      rw [hrecorded.token, howned.1] at hissued hidle
      simp only [if_pos howned, if_true]
      refine hw.event e _ _ (fun t now ht => ?_) (fun _ _ hclaim => hclaim) hnew hfenced hreplay
      obtain ⟨rfl, hnow⟩ := hlease t now ht
      exact ⟨hnow, hissued, hidle⟩
    · simpa [howned] using hw

theorem World.Sound.renew (hw : w.Sound settings fernet) {now : ℤ}
    (hmay : w.mayRenew key token now = true) :
    (w.after (renew settings w.rows key token now) (.renewed key token now)).Sound settings
      fernet := by
  simp only [World.mayRenew, Bool.and_eq_true, decide_eq_true_eq, List.all_eq_true,
    Bool.or_eq_true] at hmay
  refine hw.owned (.renewed key token now) token _ trivial (fun t n hlease => ?_)
    fun row h htoken hstatus hrecorded => ⟨⟨h, hrecorded.history, hrecorded.token.trans htoken,
      (hrecorded.claiming hstatus).1⟩, fun r hr => ⟨h, ?_⟩⟩
  · obtain ⟨rfl, rfl⟩ : token = t ∧ now = n := by simpa [Event.lease] using hlease
    exact ⟨rfl, hmay.1⟩
  · obtain rfl := Option.some.inj hr
    refine ⟨?_, hrecorded.token, hrecorded.fingerprint, fun _ => ?_, fun hcompleted => ?_⟩
    · have hhistory := hrecorded.history
      simpa [history, Event.key, Event.follow] using hhistory
    · refine ⟨(hrecorded.claiming hstatus).1, _, rfl, fun n hleased => ?_⟩
      rcases leased_cons.mp hleased with ⟨-, hnew⟩ | ⟨entry, hentry, hkey, hlease⟩
      · have hn : now = n := by
          have hpair : token = row.ownerToken ∧ now = n := by simpa [Event.lease] using hnew
          exact hpair.2
        omega
      · have hstamp := (hw.stamps entry hentry).2 _ _ hlease
        have hsame : entry.2.key = key := hkey
        have howner : entry.2.lease = some (token, n) := htoken ▸ hlease
        have hbefore := hmay.2 entry hentry
        simp only [hsame, howner, ne_eq, not_true_eq_false, decide_false, Option.all_some,
          Bool.false_eq_true, false_or] at hbefore
        omega
    · rw [hstatus] at hcompleted
      cases hcompleted

theorem World.Sound.complete (hw : w.Sound settings fernet) (response : ReplayResponse)
    (draw : ℕ) (now : ℤ) :
    (w.after (complete settings w.rows key token (encryptResponse fernet draw response) now)
      (.completed key token response)).Sound settings fernet := by
  refine hw.owned (.completed key token response) token _ trivial (fun t n hlease => ?_)
    fun row h htoken hstatus hrecorded => ⟨⟨h, hrecorded.history, hrecorded.token.trans htoken,
      (hrecorded.claiming hstatus).1⟩, fun r hr => ⟨{ h with progress := .completed response }, ?_⟩⟩
  · simp [Event.lease] at hlease
  · obtain rfl := Option.some.inj hr
    refine ⟨?_, hrecorded.token, hrecorded.fingerprint, fun hclaiming => ?_, fun _ => ?_⟩
    · have hhistory := hrecorded.history
      simp only [Event.key] at hhistory
      simp [history, Event.key, Event.follow, hhistory]
    · cases hclaiming
    · exact ⟨_, response, rfl, decryptResponse_encryptResponse fernet draw response, rfl⟩

theorem World.Sound.release (hw : w.Sound settings fernet) :
    (w.after (release w.rows key token) (.released key token)).Sound settings fernet := by
  refine hw.owned (.released key token) token _ trivial (fun t n hlease => ?_)
    fun row h htoken hstatus hrecorded => ⟨⟨h, hrecorded.history, hrecorded.token.trans htoken,
      (hrecorded.claiming hstatus).1⟩, fun r hr => ?_⟩
  · simp [Event.lease] at hlease
  · cases hr

/-- A locked row is taken over, replayed or left. -/
theorem claimLocked_cases (settings : Settings) (fernet : Fernet Text) (request : ClaimRequest)
    (row : HttpIdempotencyReceipt Text) :
    (∃ row', claimLocked settings fernet request row = (.acquired, row') ∧
      row'.status = .claiming ∧ row'.ownerToken = request.ownerToken ∧
      row'.requestFingerprint = request.requestFingerprint ∧
      row'.claimExpiresAt = some (request.now + timedelta settings.claimTtlSeconds) ∧
      (row.expiresAt ≤ request.now ∨ row.claimExpiresAt.any (· ≤ request.now) = true)) ∨
    (∃ ciphertext, claimLocked settings fernet request row = (.replay ciphertext, row) ∧
      row.requestFingerprint = request.requestFingerprint ∧ row.status = .completed ∧
      row.responseCiphertext = some ciphertext) ∨
    claimLocked settings fernet request row = (.inFlight, row) ∨
    claimLocked settings fernet request row = (.payloadMismatch, row) := by
  unfold claimLocked
  by_cases hexpired : row.expiresAt ≤ request.now
  · rw [if_pos hexpired]
    exact .inl ⟨_, rfl, rfl, rfl, rfl, rfl, .inl hexpired⟩
  · rw [if_neg hexpired]
    by_cases hfingerprint : row.requestFingerprint = request.requestFingerprint
    · rw [if_neg (not_not.mpr hfingerprint)]
      split
      next ciphertext hstatus hcipher =>
        obtain ⟨hcipher, -⟩ := Option.filter_eq_some_iff.mp hcipher
        exact .inr (.inl ⟨ciphertext, rfl, hfingerprint, hstatus, hcipher⟩)
      next expiry hstatus hexpiry =>
        split_ifs with hlapsed
        · refine .inl ⟨_, rfl, hstatus, rfl, hfingerprint, rfl, .inr ?_⟩
          simpa [hexpiry] using hlapsed
        · exact .inr (.inr (.inl rfl))
      next => exact .inr (.inr (.inl rfl))
    · rw [if_pos hfingerprint]
      exact .inr (.inr (.inr rfl))

theorem World.Sound.finish (hw : w.Sound settings fernet) (token : String) :
    (w.finish token).Sound settings fernet := by
  refine hw.weaken le_rfl rfl rfl (fun t request conflict h => ?_) fun _ _ h => h
  by_cases ht : t = token
  · simp [World.finish, ht] at h
  · exact ⟨conflict, by simpa [World.finish, ht] using h⟩

theorem World.Sound.beginClaim (hw : w.Sound settings fernet) (key fingerprint token : String) :
    (w.beginClaim key fingerprint token).Sound settings fernet := by
  unfold World.beginClaim
  split_ifs with hissued
  · exact hw
  · refine ⟨fun entry hentry => ?_, fun t request conflict h => ?_, hw.rows, hw.fenced, hw.replays⟩
    · obtain ⟨hstamp, hlease⟩ := hw.stamps entry hentry
      exact ⟨hstamp, fun t now h => ⟨(hlease t now h).1, List.mem_cons_of_mem _ (hlease t now h).2⟩⟩
    · by_cases ht : t = token
      · subst ht
        simp only [Function.update_self, Option.some.injEq, Prod.mk.injEq] at h
        obtain ⟨rfl, -⟩ := h
        refine ⟨rfl, le_rfl, List.mem_cons_self, fun k now hleased => ?_⟩
        obtain ⟨entry, hentry, -, hlease⟩ := hleased
        exact hissued ((hw.stamps entry hentry).2 t now hlease).2
      · have hold : w.claims t = some (request, conflict) := by simpa [ht] using h
        obtain ⟨htoken, hnow, hmem, hfree⟩ := hw.claims t request conflict hold
        exact ⟨htoken, hnow, List.mem_cons_of_mem _ hmem, hfree⟩

theorem World.Sound.purge (hw : w.Sound settings fernet) (token key : String) :
    (w.purge token key).Sound settings fernet := by
  unfold World.purge
  split
  next request _ =>
    refine hw.weaken le_rfl rfl rfl (fun t request conflict h => ⟨conflict, h⟩) fun k row h => ?_
    by_cases hk : k = key
    · subst hk
      have hkept : (w.rows k).filter (fun row => decide (request.now < row.expiresAt)) = some row := by
        simpa [HttpIdempotency.purge] using h
      exact (Option.filter_eq_some_iff.mp hkept).1
    · simpa [hk] using h
  next => exact hw

theorem World.Sound.insert (hw : w.Sound settings fernet) (token : String) :
    (w.insert settings token).Sound settings fernet := by
  unfold World.insert
  split
  next request hclaim =>
    unfold insertReceipt
    cases hrow : w.rows request.operationKey with
    | none =>
      exact hw.acquire hclaim rfl rfl rfl rfl
    | some row =>
      refine hw.weaken le_rfl rfl rfl (fun t req conflict h => ?_) fun _ _ h => h
      by_cases ht : t = token
      · subst ht
        simp only [Function.update_self, Option.some.injEq, Prod.mk.injEq] at h
        obtain ⟨rfl, -⟩ := h
        exact ⟨false, hclaim⟩
      · exact ⟨conflict, by simpa [ht] using h⟩
  next => exact hw

theorem World.Sound.lock (hw : w.Sound settings fernet) (token : String) :
    (w.lock settings fernet token).Sound settings fernet := by
  unfold World.lock
  split
  next request hclaim =>
    unfold lockReceipt
    cases hrow : w.rows request.operationKey with
    | none => exact hw.finish token
    | some row =>
      have hkept : Function.update w.rows request.operationKey (some row) = w.rows := by
        rw [← hrow, Function.update_eq_self]
      rcases claimLocked_cases settings fernet request row with
        ⟨row', heq, hstatus, htoken, hfingerprint, hexpiry, -⟩ |
        ⟨ciphertext, heq, hfingerprint, hstatus, hcipher⟩ | heq | heq
      · simp only [heq]
        exact hw.acquire hclaim hstatus htoken hfingerprint hexpiry
      · obtain ⟨h, hrecorded⟩ := hw.rows _ _ hrow
        obtain ⟨ciphertext', response, hcipher', hdecrypt, hprogress⟩ := hrecorded.completed hstatus
        have hsame : ciphertext = ciphertext' := Option.some.inj (hcipher.symm.trans hcipher')
        simp only [heq, hkept, hsame, hdecrypt]
        have hended := (hw.finish token).event
          (.replayed request.operationKey request.requestFingerprint response) (some row) _
          (fun t now h => by cases h) (fun _ _ h => h) (fun r hr => ?_) trivial
          ⟨h, hrecorded.history, hrecorded.fingerprint.trans hfingerprint, hprogress⟩
        · have hrows : Function.update (w.finish token).rows request.operationKey (some row) =
              w.rows := hkept
          rw [Event.key, hrows] at hended
          exact hended
        · obtain rfl := Option.some.inj hr
          exact ⟨h, hrecorded.replayed _ _ _ _⟩
      · simp only [heq, hkept]
        exact hw.finish token
      · simp only [heq, hkept]
        exact hw.finish token
  next => exact hw

theorem World.Sound.step (hw : w.Sound settings fernet) (action : Action) :
    (w.step settings fernet action).Sound settings fernet := by
  cases action with
  | tick elapsed =>
    have hclock : w.clock ≤ w.clock + elapsed := by omega
    exact hw.weaken hclock rfl rfl (fun _ _ conflict h => ⟨conflict, h⟩) fun _ _ h => h
  | beginClaim key fingerprint token => exact hw.beginClaim key fingerprint token
  | purge token key => exact hw.purge token key
  | insert token => exact hw.insert token
  | lock token => exact hw.lock token
  | abandon token => exact hw.finish token
  | renew key token now =>
    simp only [World.step]
    split_ifs with hmay
    · exact hw.renew hmay
    · exact hw
  | complete key token response draw now =>
    simp only [World.step]
    split_ifs
    · exact hw.complete response draw now
    · exact hw
  | release key token => exact hw.release

theorem World.Sound.start (clock : ℤ) : (World.start clock : World Text).Sound settings fernet where
  stamps entry h := by simp [World.start] at h
  claims token request conflict h := by simp [World.start] at h
  rows key row h := by simp [World.start] at h
  fenced := trivial
  replays := trivial

end Soundness

/-- The invariant of runs that spare owners: a claim in progress without its row has lapsed. -/
structure World.Kept {Text : Type} (settings : Settings) (w : World Text) : Prop where
  lost : ∀ key h, w.rows key = none → history key w.log = some h → h.progress = .inProgress →
    ∀ now, w.log.Leased key h.token now → now + timedelta settings.claimTtlSeconds ≤ w.clock
  late : EveryEntry (TakenOverLate settings) w.log

section Keeping
variable {Text : Type} {settings : Settings} {fernet : Fernet Text} {w : World Text}
  {key token : String} {row : HttpIdempotencyReceipt Text} {h : KeyHistory}

/-- A claim in progress whose row has expired with it has lapsed. -/
theorem Recorded.lapsed {log : Log} (hr : Recorded settings fernet log key row h)
    (hprogress : h.progress = .inProgress) {time : ℤ}
    (hexpired : row.expiresAt ≤ time ∨ row.claimExpiresAt.any (· ≤ time) = true)
    (hspared : expiresWithClaim time row = true) {now : ℤ} (hleased : log.Leased key h.token now) :
    now + timedelta settings.claimTtlSeconds ≤ time := by
  have hstatus : row.status = .claiming := by
    cases hstatus : row.status with
    | claiming => rfl
    | completed =>
      obtain ⟨-, response, -, -, hcompleted⟩ := hr.completed hstatus
      rw [hprogress] at hcompleted
      cases hcompleted
  obtain ⟨-, expiry, hexpiry, hbound⟩ := hr.claiming hstatus
  have hlast := hbound now (hr.token ▸ hleased)
  have hover : expiry ≤ time := by
    simp only [expiresWithClaim, hstatus, hexpiry, Option.any_some, ne_eq, not_true_eq_false,
      decide_false, Bool.or_false, Bool.or_eq_true, decide_eq_true_eq] at hspared hexpired
    omega
  omega

theorem World.Kept.event (hk : w.Kept settings) (e : Event)
    (row : Option (HttpIdempotencyReceipt Text)) (claims : String → Option (ClaimRequest × Bool))
    (hgone : row = none → ∀ h, history e.key ((w.clock, e) :: w.log) = some h →
      h.progress ≠ .inProgress)
    (hlate : TakenOverLate settings (w.clock, e) w.log) :
    (⟨w.clock, Function.update w.rows e.key row, claims, w.issued, (w.clock, e) :: w.log⟩ :
      World Text).Kept settings where
  lost key h hrow hhistory hprogress now hleased := by
    by_cases hkey : key = e.key
    · subst hkey
      have hnone : row = none := by simpa using hrow
      exact absurd hprogress (hgone hnone h hhistory)
    · have hne : ((w.clock, e) : ℤ × Event).2.key ≠ key := fun heq => hkey heq.symm
      have hold : w.rows key = none := by simpa [hkey] using hrow
      rw [history_other hne] at hhistory
      rw [leased_other hne] at hleased
      exact hk.lost key h hold hhistory hprogress now hleased
  late := ⟨hlate, hk.late⟩

/-- Time passes and claims begin or end. -/
theorem World.Kept.weaken {w' : World Text} (hk : w.Kept settings) (hclock : w.clock ≤ w'.clock)
    (hlog : w'.log = w.log) (hrows : w'.rows = w.rows) : w'.Kept settings where
  lost key h hrow hhistory hprogress now hleased := by
    rw [hrows] at hrow
    rw [hlog] at hhistory hleased
    exact (hk.lost key h hrow hhistory hprogress now hleased).trans hclock
  late := hlog ▸ hk.late

theorem World.Kept.owned (hk : w.Kept settings) (e : Event) (token : String)
    (change : HttpIdempotencyReceipt Text → Option (HttpIdempotencyReceipt Text))
    (hgone : ∀ row, change row = none → ∀ h, history e.key ((w.clock, e) :: w.log) = some h →
      h.progress ≠ .inProgress)
    (hlate : TakenOverLate settings (w.clock, e) w.log) :
    (w.after (changeOwned w.rows e.key token change) e).Kept settings := by
  unfold World.after changeOwned
  cases hrow : w.rows e.key with
  | none => simpa using hk
  | some row =>
    by_cases howned : row.ownerToken = token ∧ row.status = .claiming
    · simp only [if_pos howned, if_true]
      exact hk.event e _ _ (hgone row) hlate
    · simpa [howned] using hk

theorem World.Kept.purge (hk : w.Kept settings) (hw : w.Sound settings fernet) (token key : String)
    (hspares : w.sparesOwner (.purge token key) = true) : (w.purge token key).Kept settings := by
  unfold World.purge
  split
  next request hclaim =>
    have hnow := (hw.claims token request false hclaim).2.1
    simp only [World.sparesOwner, hclaim] at hspares
    refine ⟨fun k h hrow hhistory hprogress now hleased => ?_, hk.late⟩
    by_cases hkey : k = key
    · subst hkey
      have hfiltered : HttpIdempotency.purge w.rows request.now k = none := by simpa using hrow
      cases hheld : w.rows k with
      | none => exact hk.lost k h hheld hhistory hprogress now hleased
      | some row =>
        obtain ⟨h', hrecorded⟩ := hw.rows k row hheld
        obtain rfl := Option.some.inj (hrecorded.history.symm.trans hhistory)
        have hexpired : row.expiresAt ≤ request.now := by
          simpa [HttpIdempotency.purge, hheld] using hfiltered
        have hspared : expiresWithClaim request.now row = true := by simpa [hheld] using hspares
        exact (hrecorded.lapsed hprogress (.inl hexpired) hspared hleased).trans hnow
    · exact hk.lost k h (by simpa [hkey] using hrow) hhistory hprogress now hleased
  next => exact hk

theorem World.Kept.insert (hk : w.Kept settings) (token : String) :
    (w.insert settings token).Kept settings := by
  unfold World.insert
  split
  next request hclaim =>
    unfold insertReceipt
    cases hrow : w.rows request.operationKey with
    | none =>
      refine hk.event (.acquired request.operationKey request.requestFingerprint token request.now)
        (some (newReceipt settings request)) _ (fun h => ?_) fun h hhistory hprogress now hleased => ?_
      · cases h
      · exact hk.lost _ h hrow hhistory hprogress now hleased
    | some row => exact hk.weaken le_rfl rfl rfl
  next => exact hk

theorem World.Kept.lock (hk : w.Kept settings) (hw : w.Sound settings fernet) (token : String)
    (hspares : w.sparesOwner (.lock token) = true) : (w.lock settings fernet token).Kept settings := by
  unfold World.lock
  split
  next request hclaim =>
    have hnow := (hw.claims token request true hclaim).2.1
    simp only [World.sparesOwner, hclaim] at hspares
    unfold lockReceipt
    cases hrow : w.rows request.operationKey with
    | none => exact hk.weaken le_rfl rfl rfl
    | some row =>
      have hspared : expiresWithClaim request.now row = true := by simpa [hrow] using hspares
      obtain ⟨h, hrecorded⟩ := hw.rows _ _ hrow
      have hkept : Function.update w.rows request.operationKey (some row) = w.rows := by
        rw [← hrow, Function.update_eq_self]
      rcases claimLocked_cases settings fernet request row with
        ⟨row', heq, -, -, -, -, hexpired⟩ | ⟨ciphertext, heq, -⟩ | heq | heq
      · simp only [heq]
        refine hk.event (.acquired request.operationKey request.requestFingerprint token
          request.now) (some row') _ (fun h => ?_) fun h' hhistory hprogress now hleased => ?_
        · cases h
        · obtain rfl := Option.some.inj (hrecorded.history.symm.trans hhistory)
          exact (hrecorded.lapsed hprogress hexpired hspared hleased).trans hnow
      · simp only [heq, hkept]
        cases decryptResponse fernet ciphertext with
        | none => exact hk.weaken le_rfl rfl rfl
        | some response =>
          have hfinished : (w.finish token).Kept settings := hk.weaken le_rfl rfl rfl
          have hended := hfinished.event
            (.replayed request.operationKey request.requestFingerprint response) (some row)
            (w.finish token).claims (fun h => by cases h) trivial
          have hrows : Function.update (w.finish token).rows request.operationKey (some row) =
              w.rows := hkept
          rw [Event.key, hrows] at hended
          exact hended
      · simp only [heq, hkept]
        exact hk.weaken le_rfl rfl rfl
      · simp only [heq, hkept]
        exact hk.weaken le_rfl rfl rfl
  next => exact hk

theorem World.Kept.step (hk : w.Kept settings) (hw : w.Sound settings fernet) {action : Action}
    (hspares : w.sparesOwner action = true) : (w.step settings fernet action).Kept settings := by
  cases action with
  | tick elapsed =>
    have hclock : w.clock ≤ w.clock + elapsed := by omega
    exact hk.weaken hclock rfl rfl
  | beginClaim key fingerprint token =>
    simp only [World.step, World.beginClaim]
    split_ifs
    · exact hk
    · exact hk.weaken le_rfl rfl rfl
  | purge token key => exact hk.purge hw token key hspares
  | insert token => exact hk.insert token
  | lock token => exact hk.lock hw token hspares
  | abandon token => exact hk.weaken le_rfl rfl rfl
  | renew key token now =>
    simp only [World.step]
    split_ifs
    · exact hk.owned (.renewed key token now) token _ (fun row h => by cases h) trivial
    · exact hk
  | complete key token response draw now =>
    simp only [World.step]
    split_ifs
    · exact hk.owned (.completed key token response) token _ (fun row h => by cases h) trivial
    · exact hk
  | release key token =>
    refine hk.owned (.released key token) token _ (fun row _ h hhistory hprogress => ?_) trivial
    have hfollow : (history key w.log).map ({ · with progress := .released }) = some h := by
      simpa [history, Event.key, Event.follow] using hhistory
    obtain ⟨h', -, rfl⟩ := Option.map_eq_some_iff.mp hfollow
    cases hprogress

/-- An owner within its TTL has its row, because a claim that lost its row has lapsed. -/
theorem World.Kept.ownersHold (hk : w.Kept settings) (hw : w.Sound settings fernet) :
    OwnersHold settings w := by
  intro key h hhistory hprogress now hleased hwithin
  cases hrow : w.rows key with
  | none =>
    have hlapsed := hk.lost key h hrow hhistory hprogress now hleased
    omega
  | some row =>
    obtain ⟨h', hrecorded⟩ := hw.rows key row hrow
    obtain rfl := Option.some.inj (hrecorded.history.symm.trans hhistory)
    refine ⟨row, rfl, hrecorded.token.symm, ?_⟩
    cases hstatus : row.status with
    | claiming => rfl
    | completed =>
      obtain ⟨-, response, -, -, hcompleted⟩ := hrecorded.completed hstatus
      rw [hprogress] at hcompleted
      cases hcompleted

end Keeping

section Runs
variable {Text : Type} (settings : Settings) (fernet : Fernet Text) (clock : ℤ)
  (actions : List Action)

/-- In every run only the most recent acquirer has effect and replays are faithful; where every
step spares owners, takeovers come late and owners keep their rows. -/
theorem owners_fenced_and_spared :
    EveryEntry Fenced (exec (World.step settings fernet) (.start clock) actions).log ∧
    EveryEntry Replays (exec (World.step settings fernet) (.start clock) actions).log ∧
    (Guarded (World.step settings fernet) (fun w action => w.sparesOwner action = true)
        (.start clock) actions →
      EveryEntry (TakenOverLate settings)
          (exec (World.step settings fernet) (.start clock) actions).log ∧
        OwnersHold settings (exec (World.step settings fernet) (.start clock) actions)) := by
  have hsound : (exec (World.step settings fernet) (.start clock) actions).Sound settings fernet :=
    exec_preserves (fun w action hw => hw.step action) (.start clock) actions
  refine ⟨hsound.fenced, hsound.replays, fun hguarded => ?_⟩
  have hstart : (World.start clock : World Text).Kept settings :=
    ⟨fun key h _ hhistory => by simp [World.start, history] at hhistory, trivial⟩
  have hkept := hguarded.preserves
    (I := fun w : World Text => w.Sound settings fernet ∧ w.Kept settings)
    (fun w action hw hspares => ⟨hw.1.step action, hw.2.step hw.1 hspares⟩) ⟨.start clock, hstart⟩
  exact ⟨hkept.2.late, hkept.2.ownersHold hsound⟩

end Runs

/-- A claim TTL of 60 s and a receipt TTL of 100 s. -/
def minuteSettings : Settings := ⟨60, 100, by decide, by decide⟩

/-- The owner `t` renews after 50 s; after 100 s another claim deletes its row. -/
def displacingRun : List Action :=
  [.beginClaim "k" "f" "t", .insert "t", .tick 50000000, .renew "k" "t" 50000000, .tick 50000000,
    .beginClaim "k" "f" "u", .purge "u" "k", .insert "u"]

/-- The claim of `t` is in force until 110 s and is taken over at 100 s. -/
theorem renewing_owner_displaced :
    (exec (World.step minuteSettings plainFernet) (.start 0) displacingRun).log =
      [(100000000, .acquired "k" "f" "u" 100000000), (50000000, .renewed "k" "t" 50000000),
        (0, .acquired "k" "f" "t" 0)] ∧
    ¬ ∀ actions, EveryEntry (TakenOverLate minuteSettings)
      (exec (World.step minuteSettings plainFernet) (.start 0) actions).log := by
  have hlog : (exec (World.step minuteSettings plainFernet) (.start 0) displacingRun).log =
      [(100000000, .acquired "k" "f" "u" 100000000), (50000000, .renewed "k" "t" 50000000),
        (0, .acquired "k" "f" "t" 0)] := by decide +kernel
  refine ⟨hlog, fun hall => ?_⟩
  have hlate := hall displacingRun
  rw [hlog] at hlate
  have hlapsed := hlate.1 ⟨"t", "f", .inProgress⟩ (by decide) rfl 50000000
    ⟨(50000000, .renewed "k" "t" 50000000), by simp, rfl, rfl⟩
  simp [timedelta, minuteSettings] at hlapsed

end Ajenda.HttpIdempotency
