import Ajenda.HttpIdempotency
import Ajenda.TransitionSystem

/-!
# The two HTTP idempotency authorities side by side

The same calls are made to the authority in memory and to the one over the database, at the
same times of a clock that never goes back. The one counts microseconds, and the other reads the
clock as a float. A claim draws the same token on both sides.
-/
namespace Ajenda.HttpIdempotency
open DoubleRounding JsonValue TransitionSystem

inductive AuthorityCall
  | claim (operationKey requestFingerprint ownerToken : String)
  | renew (operationKey ownerToken : String)
  | complete (operationKey ownerToken : String) (response : ReplayResponse) (draw : ℕ)
  | release (operationKey ownerToken : String)

/-- What a caller sees. -/
inductive Outcome
  | claimed (decision : IdempotencyDecision)
  | done (ok : Bool)
  | raised
  deriving DecidableEq

section InMemory
variable (settings : Settings)

/-- What the process-local authority reads at a time. -/
def reading (now : ℤ) : JsonNumber := toDouble (now / 1000000 : ℚ)

def inMemoryCall (store : InMemoryStore) (now : ℤ) : AuthorityCall → Outcome × InMemoryStore
  | .claim key fingerprint token =>
    match inMemoryClaim settings store (reading now) key fingerprint token with
    | some (decision, store) => (.claimed decision, store)
    | none => (.raised, store)
  | .renew key token =>
    match inMemoryRenew settings store (reading now) key token with
    | some (ok, store) => (.done ok, store)
    | none => (.raised, store)
  | .complete key token response _ =>
    match inMemoryComplete settings store (reading now) key token response with
    | some (ok, store) => (.done ok, store)
    | none => (.raised, store)
  | .release key token =>
    match inMemoryRelease store key token with
    | some (ok, store) => (.done ok, store)
    | none => (.raised, store)

end InMemory

section Durable
variable {Text : Type} (settings : Settings) (fernet : Fernet Text)

/-- A text in a column of `n` characters: blanks too many are cut off, other characters raise. -/
def varchar (n : ℕ) (text : String) : Option String :=
  if text.length ≤ n then some text
  else if (text.toList.drop n).all (· = ' ') then some (String.ofList (text.toList.take n))
  else none

/-- A parameter of a statement has no NUL character. -/
def isParameter (text : String) : Bool := Char.ofNat 0 ∉ text.toList

/-- The first and the last time of a `datetime`. -/
def firstDatetime : ℤ := -62135596800000000
def lastDatetime : ℤ := 253402300799999999

/-- `now + timedelta(seconds=ttl_seconds)` is a `datetime`. -/
def inDates (now ttlSeconds : ℤ) : Bool := now + timedelta ttlSeconds ≤ lastDatetime

/-- `json.dumps` writes integers of up to 4300 digits. -/
def isWritable (response : ReplayResponse) : Bool := response.statusCode.natAbs < 10 ^ 4300

/-- The parameters of the call are sent to the database. -/
def isSent (now : ℤ) : AuthorityCall → Bool
  | .claim key fingerprint token =>
    isParameter key && isParameter fingerprint && isParameter token &&
      inDates now settings.claimTtlSeconds && inDates now settings.receiptTtlSeconds
  | .renew key token => isParameter key && isParameter token && inDates now settings.claimTtlSeconds
  | .complete key token response _ => isParameter key && isParameter token &&
      inDates now settings.receiptTtlSeconds && isWritable response
  | .release key token => isParameter key && isParameter token

/-- `claim` of the repository with the columns of the table, when no other transaction interferes. -/
def durableClaim (rows : Receipts Text) (request : ClaimRequest) :
    Option (RepositoryClaimDecision Text × Receipts Text) := do
  let key ← varchar 64 request.operationKey
  let fingerprint ← varchar 64 request.requestFingerprint
  let token ← varchar 36 request.ownerToken
  match insertReceipt settings (purge rows request.now) ⟨key, fingerprint, token, request.now⟩ with
  | (true, rows) => return (.acquired, rows)
  -- after the purge the locked row has not expired, so no text is written
  | (false, rows) => return lockReceipt settings fernet rows request

/-- A call that raises is rolled back, but a receipt is decrypted after the commit. -/
def durableCall (rows : Receipts Text) (now : ℤ) (call : AuthorityCall) : Outcome × Receipts Text :=
  if isSent settings now call then
    match call with
    | .claim key fingerprint token =>
      match durableClaim settings fernet rows ⟨key, fingerprint, token, now⟩ with
      | some (answer, rows) => (((decision fernet token answer).map .claimed).getD .raised, rows)
      | none => (.raised, rows)
    | .renew key token =>
      let (ok, rows) := renew settings rows key token now
      (.done ok, rows)
    | .complete key token response draw =>
      let (ok, rows) := complete settings rows key token (encryptResponse fernet draw response) now
      (.done ok, rows)
    | .release key token =>
      let (ok, rows) := release rows key token
      (.done ok, rows)
  else (.raised, rows)

end Durable

section Steps
variable {Text : Type} (settings : Settings) (fernet : Fernet Text)

/-- Both authorities, the time of the latest claim and the outcomes so far. `due` is when the claim
and the receipt of a key in memory expire by the clock. -/
structure Authorities (Text : Type) where
  clock : ℤ
  inMemory : InMemoryStore
  rows : Receipts Text
  due : String → ℤ × ℤ
  lastClaim : Option ℤ
  outcomes : List (Outcome × Outcome)

def Authorities.start (clock : ℤ) : Authorities Text :=
  ⟨clock, fun _ => none, fun _ => none, fun _ => (clock, clock), none, []⟩

/-- The expiries after a call with an outcome in memory. -/
def nextDue (due : String → ℤ × ℤ) (now : ℤ) : AuthorityCall → Outcome → String → ℤ × ℤ
  | .claim key _ _, .claimed (.owner _) => Function.update due key
      (now + timedelta settings.claimTtlSeconds, now + timedelta settings.receiptTtlSeconds)
  | .renew key _, .done true =>
    Function.update due key (now + timedelta settings.claimTtlSeconds, (due key).2)
  | .complete key _ _ _, .done true =>
    Function.update due key ((due key).1, now + timedelta settings.receiptTtlSeconds)
  | _, _ => due

/-- The clock advances by `label.1` and both authorities get the call. -/
def Authorities.step (a : Authorities Text) (label : ℕ × AuthorityCall) : Authorities Text where
  clock := a.clock + label.1
  inMemory := (inMemoryCall settings a.inMemory (a.clock + label.1) label.2).2
  rows := (durableCall settings fernet a.rows (a.clock + label.1) label.2).2
  due := nextDue settings a.due (a.clock + label.1) label.2
    (inMemoryCall settings a.inMemory (a.clock + label.1) label.2).1
  lastClaim := match label.2 with
    | .claim .. => some (a.clock + label.1)
    | _ => a.lastClaim
  outcomes := ((inMemoryCall settings a.inMemory (a.clock + label.1) label.2).1,
    (durableCall settings fernet a.rows (a.clock + label.1) label.2).1) :: a.outcomes

end Steps

section Conditions
variable {Text : Type} (settings : Settings)

/-- Every call so far had the same outcome on both sides. -/
def Authorities.agree (a : Authorities Text) : Prop :=
  ∀ outcome ∈ a.outcomes, outcome.1 = outcome.2

/-- What a claim inserts fits the columns. -/
def fitsColumns : AuthorityCall → Bool
  | .claim key fingerprint token =>
    key.length ≤ 64 && fingerprint.length ≤ 64 && token.length ≤ 36
  | _ => true

/-- The database takes the call as it is: the times are dates, and the texts fit their columns. -/
def Authorities.Storable (a : Authorities Text) (label : ℕ × AuthorityCall) : Prop :=
  firstDatetime ≤ a.clock + label.1 ∧ isSent settings (a.clock + label.1) label.2 = true ∧
    fitsColumns label.2 = true

instance (a : Authorities Text) (label : ℕ × AuthorityCall) :
    Decidable (a.Storable settings label) :=
  inferInstanceAs (Decidable (_ ∧ _ ∧ _))

/-- No claim has been made at or after the time. -/
def alive (lastClaim : Option ℤ) (expiresAt : ℤ) : Bool :=
  lastClaim.all fun last => last < expiresAt

/-- The token does not own a claim of the key whose receipt had expired at the latest claim. -/
def keepsOwned (a : Authorities Text) (key token : String) : Bool :=
  (a.inMemory key).all fun receipt =>
    receipt.ownerToken ≠ token || receipt.status ≠ .claiming || alive a.lastClaim (a.due key).2

/-- The call is no renewal, completion or release of a claim whose receipt has expired. -/
def Authorities.keepsReceipt (a : Authorities Text) : ℕ × AuthorityCall → Bool
  | (_, .claim ..) => true
  | (_, .renew key token) | (_, .complete key token _ _) | (_, .release key token) =>
      keepsOwned a key token

/-- What a receipt is to a claim. -/
inductive Verdict
  | free
  | mismatch
  | completed (response : ReplayResponse)
  | held
  deriving DecidableEq

/-- The verdict on a receipt that has expired or not, and whose claim has lapsed or not. -/
def verdict (expired lapsed : Bool) (receipt : InMemoryReceipt) (fingerprint : String) : Verdict :=
  if expired then .free
  else if receipt.requestFingerprint ≠ fingerprint then .mismatch
  else
    match receipt.status, receipt.response with
    | .completed, some response => .completed response
    | _, _ => if lapsed then .free else .held

/-- The floats give a claim the same verdict as the clock. -/
def Authorities.readsAlike (a : Authorities Text) : ℕ × AuthorityCall → Bool
  | (elapsed, .claim key fingerprint _) => (a.inMemory key).all fun receipt =>
      verdict (ClockReadings.le receipt.expiresAt (reading (a.clock + elapsed)))
          (ClockReadings.le receipt.claimExpiresAt (reading (a.clock + elapsed)))
          receipt fingerprint =
        verdict ((a.due key).2 ≤ a.clock + elapsed) ((a.due key).1 ≤ a.clock + elapsed)
          receipt fingerprint
  | _ => true

end Conditions
section InMemoryClaims
variable {settings : Settings} {store : InMemoryStore} {now claimExpiresAt expiresAt : JsonNumber}
  {key fingerprint token : String} {receipt : InMemoryReceipt}

/-- What a claim answers on a verdict. -/
def answer (token : String) : Verdict → IdempotencyDecision
  | .free => .owner token
  | .mismatch => .payloadMismatch
  | .completed response => .replay response
  | .held => .inFlight

theorem answer_injective (token : String) : Function.Injective (answer token) := by
  intro v w h
  cases v <;> cases w <;> cases h <;> rfl

/-- A receipt has a response when it is completed. -/
def Whole (receipt : InMemoryReceipt) : Prop :=
  receipt.status = .completed ↔ receipt.response.isSome = true

theorem verdict_completed {response : ReplayResponse} (hstatus : receipt.status = .completed)
    (hresponse : receipt.response = some response) (expired lapsed : Bool) :
    verdict expired lapsed receipt fingerprint =
      if expired then .free
      else if receipt.requestFingerprint ≠ fingerprint then .mismatch else .completed response := by
  rw [verdict, hstatus, hresponse]

theorem verdict_claiming (hstatus : receipt.status = .claiming) (expired lapsed : Bool) :
    verdict expired lapsed receipt fingerprint =
      if expired then .free
      else if receipt.requestFingerprint ≠ fingerprint then .mismatch
      else if lapsed then .free else .held := by
  rw [verdict, hstatus]

variable (hclaim : inMemoryExpiry now settings.claimTtlSeconds = some claimExpiresAt)
  (hexpiry : inMemoryExpiry now settings.receiptTtlSeconds = some expiresAt)
include hclaim hexpiry

theorem inMemoryClaim_none (hreceipt : store key = none) :
    inMemoryClaim settings store now key fingerprint token = some (.owner token,
      Function.update store key
        (some ⟨fingerprint, token, .claiming, claimExpiresAt, expiresAt, none⟩)) := by
  simp only [inMemoryClaim, hreceipt, hclaim, hexpiry, Option.bind_eq_bind, Option.bind_some,
    Option.pure_def]

/-- A claim answers the verdict on the receipt, and a free one is replaced. -/
theorem inMemoryClaim_some (hreceipt : store key = some receipt) (hwhole : Whole receipt) :
    inMemoryClaim settings store now key fingerprint token =
      some (answer token (verdict (ClockReadings.le receipt.expiresAt now)
          (ClockReadings.le receipt.claimExpiresAt now) receipt fingerprint),
        if verdict (ClockReadings.le receipt.expiresAt now)
            (ClockReadings.le receipt.claimExpiresAt now) receipt fingerprint = .free then
          Function.update store key
            (some ⟨fingerprint, token, .claiming, claimExpiresAt, expiresAt, none⟩)
        else store) := by
  simp only [inMemoryClaim, hreceipt, hclaim, hexpiry, Option.bind_eq_bind, Option.bind_some,
    Option.pure_def]
  cases hstatus : receipt.status with
  | completed =>
    obtain ⟨response, hresponse⟩ := Option.isSome_iff_exists.1 (hwhole.1 hstatus)
    rw [verdict_completed hstatus hresponse, hresponse]
    split_ifs <;> first | rfl | contradiction
  | claiming =>
    have hnone : receipt.response = none := by
      cases hresponse : receipt.response with
      | none => rfl
      | some response =>
        have hcompleted := hwhole.2 (by rw [hresponse]; rfl)
        rw [hstatus] at hcompleted
        cases hcompleted
    rw [verdict_claiming hstatus, hnone]
    by_cases hexpired : ClockReadings.le receipt.expiresAt now = true
    · simp [hexpired, answer]
    by_cases hfingerprint : receipt.requestFingerprint = fingerprint
    · by_cases hlapsed : ClockReadings.le receipt.claimExpiresAt now = true
      · simp [hexpired, hfingerprint, hlapsed, answer]
      · simp [hexpired, hfingerprint, hlapsed, answer]
    · simp [hexpired, hfingerprint, answer]

end InMemoryClaims

section Simulation
variable {Text : Type} {settings : Settings} {fernet : Fernet Text} {rows : Receipts Text}
  {store : InMemoryStore} {due : String → ℤ × ℤ} {expiry : ℤ × ℤ} {lastClaim : Option ℤ} {now : ℤ}
  {key fingerprint token : String}

/-- A row and a receipt in memory for the same claim or completion. -/
structure Mirrors (fernet : Fernet Text) (expiry : ℤ × ℤ) (row : HttpIdempotencyReceipt Text)
    (receipt : InMemoryReceipt) : Prop where
  fingerprint : row.requestFingerprint = receipt.requestFingerprint
  token : row.ownerToken = receipt.ownerToken
  status : row.status = receipt.status
  expires : row.expiresAt = expiry.2
  claiming : row.status = .claiming → row.claimExpiresAt = some expiry.1
  completed : row.status = .completed → ∃ ciphertext response,
    row.responseCiphertext = some ciphertext ∧ fernet.isBlank ciphertext = false ∧
      decryptResponse fernet ciphertext = some response ∧ receipt.response = some response

/-- The table holds the receipts in memory that no claim has found expired. -/
def Mirrored (fernet : Fernet Text) (lastClaim : Option ℤ) (due : String → ℤ × ℤ)
    (rows : Receipts Text) (store : InMemoryStore) : Prop :=
  ∀ key, Option.Rel (Mirrors fernet (due key)) (rows key)
    ((store key).filter fun _ => alive lastClaim (due key).2)

theorem Mirrored.update (h : Mirrored fernet lastClaim due rows store) (key : String)
    {row : Option (HttpIdempotencyReceipt Text)} {receipt : Option InMemoryReceipt}
    (hnew : Option.Rel (Mirrors fernet expiry) row
      (receipt.filter fun _ => alive lastClaim expiry.2)) :
    Mirrored fernet lastClaim (Function.update due key expiry) (Function.update rows key row)
      (Function.update store key receipt) := by
  intro k
  by_cases hk : k = key
  · subst hk
    simpa using hnew
  · simpa [hk] using h k

/-- Read both sides at a key. -/
theorem Mirrored.cases (h : Mirrored fernet lastClaim due rows store) (key : String) :
    (rows key = none ∧
        ∀ receipt, store key = some receipt → alive lastClaim (due key).2 = false) ∨
      ∃ row receipt, rows key = some row ∧ store key = some receipt ∧
        alive lastClaim (due key).2 = true ∧ Mirrors fernet (due key) row receipt := by
  have hk := h key
  cases hreceipt : store key with
  | none =>
    rw [hreceipt, Option.filter_none] at hk
    cases hrow : rows key with
    | none => exact .inl ⟨rfl, fun receipt h => by cases h⟩
    | some row =>
      rw [hrow] at hk
      cases hk
  | some receipt =>
    rw [hreceipt, Option.filter_some] at hk
    cases halive : alive lastClaim (due key).2 with
    | false =>
      rw [halive] at hk
      cases hrow : rows key with
      | none => exact .inl ⟨rfl, fun _ _ => rfl⟩
      | some row =>
        rw [hrow] at hk
        cases hk
    | true =>
      rw [halive, if_pos rfl] at hk
      cases hrow : rows key with
      | none =>
        rw [hrow] at hk
        cases hk
      | some row =>
        rw [hrow] at hk
        cases hk with
        | some hmirrors => exact .inr ⟨row, receipt, rfl, rfl, rfl, hmirrors⟩

theorem Mirrored.purge (h : Mirrored fernet lastClaim due rows store)
    (hlast : ∀ last, lastClaim = some last → last ≤ now) :
    Mirrored fernet (some now) due (purge rows now) store := by
  intro k
  have halive : alive (some now) (due k).2 = decide (now < (due k).2) := rfl
  rcases h.cases k with ⟨hrow, hdead⟩ | ⟨row, receipt, hrow, hreceipt, -, hmirrors⟩
  · have hpurged : HttpIdempotency.purge rows now k = none := by
      rw [HttpIdempotency.purge, hrow, Option.filter_none]
    rw [hpurged]
    cases hreceipt : store k with
    | none => exact .none
    | some receipt =>
      have hexpired : alive (some now) (due k).2 = false := by
        have hdead := hdead receipt hreceipt
        cases lastClaim with
        | none => cases hdead
        | some last =>
          have hle := hlast last rfl
          simp only [alive, Option.all_some, decide_eq_false_iff_not] at hdead ⊢
          omega
      rw [Option.filter_some, hexpired]
      exact .none
  · rw [HttpIdempotency.purge, hrow, hreceipt, Option.filter_some, Option.filter_some,
      hmirrors.expires, halive]
    split_ifs
    · exact .some hmirrors
    · exact .none

theorem alive_fresh (hlast : ∀ last, lastClaim = some last → last ≤ now) :
    alive lastClaim (now + timedelta settings.receiptTtlSeconds) = true := by
  have hpos := settings.receiptTtl_pos
  cases lastClaim with
  | none => rfl
  | some last =>
    have hle := hlast last rfl
    refine decide_eq_true ?_
    rw [timedelta]
    omega

variable (settings key fingerprint token) in
/-- The database answers the verdict on the receipt by the clock. -/
theorem claimLocked_mirrors {row : HttpIdempotencyReceipt Text} {receipt : InMemoryReceipt}
    (hmirrors : Mirrors fernet expiry row receipt) (hopen : now < expiry.2) :
    decision fernet token
        (claimLocked settings fernet ⟨key, fingerprint, token, now⟩ row).1 =
      some (answer token (verdict false (expiry.1 ≤ now) receipt fingerprint)) ∧
    (claimLocked settings fernet ⟨key, fingerprint, token, now⟩ row).2 =
      if verdict false (expiry.1 ≤ now) receipt fingerprint = .free then
        { row with
          ownerToken := token
          claimExpiresAt := some (now + timedelta settings.claimTtlSeconds)
          expiresAt := now + timedelta settings.receiptTtlSeconds }
      else row := by
  have hunexpired : ¬row.expiresAt ≤ now := by
    rw [hmirrors.expires]
    exact not_le.2 hopen
  by_cases hfingerprint : receipt.requestFingerprint = fingerprint
  · cases hstatus : receipt.status with
    | completed =>
      obtain ⟨ciphertext, response, hcipher, hblank, hdecrypt, hresponse⟩ :=
        hmirrors.completed (hmirrors.status.trans hstatus)
      have hfilter : row.responseCiphertext.filter (!fernet.isBlank ·) = some ciphertext := by
        rw [hcipher, Option.filter_some, hblank, Bool.not_false, if_pos rfl]
      simp [claimLocked, hunexpired, hmirrors.fingerprint, hfingerprint,
        hmirrors.status.trans hstatus, hfilter, decision, hdecrypt, answer,
        verdict_completed hstatus hresponse]
    | claiming =>
      have hclaiming := hmirrors.claiming (hmirrors.status.trans hstatus)
      by_cases hlapsed : expiry.1 ≤ now
      · simp [claimLocked, hunexpired, hmirrors.fingerprint, hfingerprint,
          hmirrors.status.trans hstatus, hclaiming, hlapsed, decision, answer,
          verdict_claiming hstatus]
      · simp [claimLocked, hunexpired, hmirrors.fingerprint, hfingerprint,
          hmirrors.status.trans hstatus, hclaiming, hlapsed, decision, answer,
          verdict_claiming hstatus]
  · simp [claimLocked, hunexpired, hmirrors.fingerprint, hfingerprint, decision, answer, verdict]

/-- A receipt that has not expired is free when its claim is, for the same request. -/
theorem verdict_free {receipt : InMemoryReceipt} {lapsed : Bool} (hwhole : Whole receipt)
    (h : verdict false lapsed receipt fingerprint = .free) :
    receipt.requestFingerprint = fingerprint ∧ receipt.status = .claiming := by
  cases hstatus : receipt.status with
  | completed =>
    obtain ⟨response, hresponse⟩ := Option.isSome_iff_exists.1 (hwhole.1 hstatus)
    rw [verdict_completed hstatus hresponse] at h
    simp only [Bool.false_eq_true, if_false] at h
    split_ifs at h
  | claiming =>
    rw [verdict_claiming hstatus] at h
    simp only [Bool.false_eq_true, if_false] at h
    split_ifs at h with hfingerprint
    exact ⟨not_not.1 hfingerprint, rfl⟩

theorem nextDue_answer {v : Verdict} (hne : v ≠ .free) :
    nextDue settings due now (.claim key fingerprint token) (.claimed (answer token v)) = due := by
  cases v with
  | free => exact absurd rfl hne
  | mismatch => rfl
  | completed response => rfl
  | held => rfl

theorem whole_update (h : ∀ key receipt, store key = some receipt → Whole receipt)
    {new : Option InMemoryReceipt} (hnew : ∀ receipt, new = some receipt → Whole receipt) :
    ∀ k receipt, Function.update store key new k = some receipt → Whole receipt := by
  intro k receipt hk
  by_cases hkey : k = key
  · subst hkey
    rw [Function.update_self] at hk
    exact hnew receipt hk
  · rw [Function.update_of_ne hkey] at hk
    exact h k receipt hk

theorem whole_claimed (h : ∀ key receipt, store key = some receipt → Whole receipt) (v : Verdict)
    (claimExpiresAt expiresAt : JsonNumber) :
    ∀ k receipt, (if v = .free then Function.update store key
      (some ⟨fingerprint, token, .claiming, claimExpiresAt, expiresAt, none⟩) else store) k =
        some receipt → Whole receipt := by
  split_ifs
  · refine whole_update h fun receipt hnew => ?_
    obtain rfl := Option.some.inj hnew
    exact iff_of_false (fun hstatus => by cases hstatus) Bool.false_ne_true
  · exact h

/-- A claim of a free key is held by both sides. -/
theorem Mirrored.claimFree (h : Mirrored fernet (some now) due rows store) (key : String)
    {row : HttpIdempotencyReceipt Text} (hfingerprint : row.requestFingerprint = fingerprint)
    (htoken : row.ownerToken = token) (hstatus : row.status = .claiming)
    (hclaiming : row.claimExpiresAt = some (now + timedelta settings.claimTtlSeconds))
    (hexpires : row.expiresAt = now + timedelta settings.receiptTtlSeconds)
    (claimExpiresAt expiresAt : JsonNumber) :
    Mirrored fernet (some now)
      (nextDue settings due now (.claim key fingerprint token) (.claimed (answer token .free)))
      (Function.update rows key (some row))
      (Function.update store key
        (some ⟨fingerprint, token, .claiming, claimExpiresAt, expiresAt, none⟩)) := by
  have halive : alive (some now) (now + timedelta settings.receiptTtlSeconds) = true :=
    alive_fresh fun last hlast => (Option.some.inj hlast).ge
  refine h.update key ?_
  rw [Option.filter_some, halive, if_pos rfl]
  refine .some ⟨hfingerprint, htoken, hstatus, hexpires, fun _ => hclaiming, fun hcompleted => ?_⟩
  rw [hstatus] at hcompleted
  cases hcompleted

/-- A claim is answered by the verdict `v` on the floats and by the verdict `v'` on the clock; when
the verdicts are the same, both sides hold the same afterwards. -/
structure ClaimAnswered (settings : Settings) (fernet : Fernet Text) (due : String → ℤ × ℤ)
    (rows : Receipts Text) (store : InMemoryStore) (now : ℤ) (key fingerprint token : String)
    (v v' : Verdict) (store' : InMemoryStore) : Prop where
  memory : inMemoryClaim settings store (reading now) key fingerprint token =
    some (answer token v, store')
  durable : decision fernet token (HttpIdempotency.claim settings fernet rows
    ⟨key, fingerprint, token, now⟩).1 = some (answer token v')
  alike : v = v' ↔ (store key).all (fun receipt =>
    verdict (ClockReadings.le receipt.expiresAt (reading now))
        (ClockReadings.le receipt.claimExpiresAt (reading now)) receipt fingerprint =
      verdict ((due key).2 ≤ now) ((due key).1 ≤ now) receipt fingerprint) = true
  mirrored : v = v' → Mirrored fernet (some now)
    (nextDue settings due now (.claim key fingerprint token) (.claimed (answer token v)))
    (HttpIdempotency.claim settings fernet rows ⟨key, fingerprint, token, now⟩).2 store'
  whole : ∀ k receipt, store' k = some receipt → Whole receipt

section Claims
variable (hpurged : Mirrored fernet (some now) due (HttpIdempotency.purge rows now) store)
  (hwhole : ∀ key receipt, store key = some receipt → Whole receipt)
  {claimExpiresAt expiresAt : JsonNumber}
  (hclaim : inMemoryExpiry (reading now) settings.claimTtlSeconds = some claimExpiresAt)
  (hexpiry : inMemoryExpiry (reading now) settings.receiptTtlSeconds = some expiresAt)
include hpurged hwhole hclaim hexpiry

theorem claimAnswered_absent (hrow : HttpIdempotency.purge rows now key = none)
    (hreceipt : store key = none) (fingerprint token : String) :
    ClaimAnswered settings fernet due rows store now key fingerprint token .free .free
      (Function.update store key
        (some ⟨fingerprint, token, .claiming, claimExpiresAt, expiresAt, none⟩)) where
  memory := inMemoryClaim_none hclaim hexpiry hreceipt
  durable := by
    simp only [HttpIdempotency.claim, insertReceipt, hrow]
    rfl
  alike := by simp [hreceipt]
  mirrored _ := by
    simp only [HttpIdempotency.claim, insertReceipt, hrow]
    exact hpurged.claimFree key rfl rfl rfl rfl rfl claimExpiresAt expiresAt
  whole := whole_claimed hwhole .free claimExpiresAt expiresAt

variable {receipt : InMemoryReceipt} (hreceipt : store key = some receipt)
include hreceipt

theorem claimAnswered_purged (hrow : HttpIdempotency.purge rows now key = none)
    (hexpired : (due key).2 ≤ now) (fingerprint token : String) :
    ∃ v store', ClaimAnswered settings fernet due rows store now key fingerprint token v .free
      store' := by
  have hexact : verdict ((due key).2 ≤ now) ((due key).1 ≤ now) receipt fingerprint = .free := by
    rw [verdict, if_pos (decide_eq_true hexpired)]
  refine ⟨_, _, inMemoryClaim_some hclaim hexpiry hreceipt (hwhole key receipt hreceipt), ?_, ?_,
    fun hfree => ?_, ?_⟩
  · simp only [HttpIdempotency.claim, insertReceipt, hrow]
    rfl
  · rw [hreceipt, Option.all_some, decide_eq_true_eq, hexact]
  · simp only [HttpIdempotency.claim, insertReceipt, hrow]
    rw [if_pos hfree, hfree]
    exact hpurged.claimFree key rfl rfl rfl rfl rfl claimExpiresAt expiresAt
  · exact whole_claimed hwhole _ claimExpiresAt expiresAt

theorem claimAnswered_locked {row : HttpIdempotencyReceipt Text}
    (hrow : HttpIdempotency.purge rows now key = some row) (hopen : now < (due key).2)
    (hmirrors : Mirrors fernet (due key) row receipt) (fingerprint token : String) :
    ∃ v store', ClaimAnswered settings fernet due rows store now key fingerprint token v
      (verdict false ((due key).1 ≤ now) receipt fingerprint) store' := by
  have hthis := hwhole key receipt hreceipt
  obtain ⟨hanswer, hchanged⟩ := claimLocked_mirrors settings key fingerprint token hmirrors hopen
  refine ⟨_, _, inMemoryClaim_some hclaim hexpiry hreceipt hthis, ?_, ?_, fun hsame => ?_, ?_⟩
  · simp only [HttpIdempotency.claim, insertReceipt, hrow, lockReceipt]
    exact hanswer
  · rw [hreceipt, Option.all_some, decide_eq_true_eq, decide_eq_false (not_le.2 hopen)]
  · simp only [HttpIdempotency.claim, insertReceipt, hrow, lockReceipt]
    rw [hchanged, hsame]
    by_cases hfree : verdict false ((due key).1 ≤ now) receipt fingerprint = .free
    · obtain ⟨hfingerprint, hstatus⟩ := verdict_free hthis hfree
      rw [if_pos hfree, if_pos hfree, hfree]
      refine hpurged.claimFree key ?_ ?_ ?_ ?_ ?_ claimExpiresAt expiresAt
      · exact hmirrors.fingerprint.trans hfingerprint
      · rfl
      · exact hmirrors.status.trans hstatus
      · rfl
      · rfl
    · rw [if_neg hfree, if_neg hfree, nextDue_answer hfree, ← hrow, Function.update_eq_self]
      exact hpurged
  · exact whole_claimed hwhole _ claimExpiresAt expiresAt

end Claims

/-- A claim is answered by a verdict on the floats and by one on the clock. -/
theorem Mirrored.claim (h : Mirrored fernet lastClaim due rows store)
    (hwhole : ∀ key receipt, store key = some receipt → Whole receipt)
    (hlast : ∀ last, lastClaim = some last → last ≤ now) {claimExpiresAt expiresAt : JsonNumber}
    (hclaim : inMemoryExpiry (reading now) settings.claimTtlSeconds = some claimExpiresAt)
    (hexpiry : inMemoryExpiry (reading now) settings.receiptTtlSeconds = some expiresAt)
    (key fingerprint token : String) : ∃ v v' store',
      ClaimAnswered settings fernet due rows store now key fingerprint token v v' store' := by
  have hpurged := h.purge hlast
  rcases hpurged.cases key with ⟨hrow, hdead⟩ | ⟨row, receipt, hrow, hreceipt, halive, hmirrors⟩
  · cases hreceipt : store key with
    | none =>
      exact ⟨_, _, _,
        claimAnswered_absent hpurged hwhole hclaim hexpiry hrow hreceipt fingerprint token⟩
    | some receipt =>
      have hexpired : (due key).2 ≤ now := by
        simpa [alive] using hdead receipt hreceipt
      obtain ⟨v, store', hanswered⟩ := claimAnswered_purged hpurged hwhole hclaim hexpiry hreceipt
        hrow hexpired fingerprint token
      exact ⟨v, _, store', hanswered⟩
  · have hopen : now < (due key).2 := by simpa [alive] using halive
    obtain ⟨v, store', hanswered⟩ := claimAnswered_locked hpurged hwhole hclaim hexpiry hreceipt
      hrow hopen hmirrors fingerprint token
    exact ⟨v, _, store', hanswered⟩

/-- What a call of an owner is answered: `ok` on the floats, which leaves `store'`, and the answer
of the table, which is alike exactly when the table still has the claim. -/
structure ChangeAnswered (fernet : Fernet Text) (lastClaim : Option ℤ) (due : String → ℤ × ℤ)
    (rows : Receipts Text) (store : InMemoryStore) (key token : String) (expiry : ℤ × ℤ)
    (change : HttpIdempotencyReceipt Text → Option (HttpIdempotencyReceipt Text))
    (change' : InMemoryReceipt → Option InMemoryReceipt) (ok : Bool) (store' : InMemoryStore) :
    Prop where
  memory : inMemoryChangeOwned store key token (fun receipt => some (change' receipt)) =
    some (ok, store')
  alike : ok = (changeOwned rows key token change).1 ↔
    (store key).all (fun receipt => receipt.ownerToken ≠ token || receipt.status ≠ .claiming ||
      alive lastClaim (due key).2) = true
  mirrored : ok = (changeOwned rows key token change).1 →
    Mirrored fernet lastClaim (if ok then Function.update due key expiry else due)
      (changeOwned rows key token change).2 store'
  whole : ∀ k receipt, store' k = some receipt → Whole receipt

section Changes
variable (h : Mirrored fernet lastClaim due rows store)
  (hwhole : ∀ key receipt, store key = some receipt → Whole receipt) (key token : String)
  (expiry : ℤ × ℤ) (change : HttpIdempotencyReceipt Text → Option (HttpIdempotencyReceipt Text))
  (change' : InMemoryReceipt → Option InMemoryReceipt)
include h hwhole

theorem changeAnswered_absent (hreceipt : store key = none) :
    ChangeAnswered fernet lastClaim due rows store key token expiry change change' false store := by
  have hrefused : changeOwned rows key token change = (false, rows) := by
    rcases h.cases key with ⟨hrow, -⟩ | ⟨row, receipt, -, hsome, -⟩
    · rw [changeOwned, hrow]
    · rw [hreceipt] at hsome
      cases hsome
  constructor
  · rw [inMemoryChangeOwned, hreceipt]
  · simp [hrefused, hreceipt]
  · rw [hrefused]
    exact fun _ => h
  · exact hwhole

/-- Who does not own the claim is refused on both sides. -/
theorem changeAnswered_refused {receipt : InMemoryReceipt} (hreceipt : store key = some receipt)
    (hforeign : receipt.ownerToken ≠ token ∨ receipt.status ≠ .claiming) :
    ChangeAnswered fernet lastClaim due rows store key token expiry change change' false store := by
  have hrefused : changeOwned rows key token change = (false, rows) := by
    rcases h.cases key with ⟨hrow, -⟩ | ⟨row, receipt', hrow, hsome, -, hmirrors⟩
    · rw [changeOwned, hrow]
    · obtain rfl := Option.some.inj (hreceipt.symm.trans hsome)
      have hnot : ¬(row.ownerToken = token ∧ row.status = .claiming) := by
        rw [hmirrors.token, hmirrors.status, not_and_or]
        exact hforeign
      simp only [changeOwned, hrow, if_neg hnot]
  constructor
  · rw [inMemoryChangeOwned, hreceipt]
    exact if_pos hforeign
  · rcases hforeign with htoken | hstatus
    · simp [hrefused, hreceipt, htoken]
    · simp [hrefused, hreceipt, hstatus]
  · rw [hrefused]
    exact fun _ => h
  · exact hwhole

/-- The owner changes its claim on both sides unless the table has purged it. -/
theorem changeAnswered_owned {receipt : InMemoryReceipt} (hreceipt : store key = some receipt)
    (howned : receipt.ownerToken = token ∧ receipt.status = .claiming)
    (hchange : ∀ row receipt, Mirrors fernet (due key) row receipt → row.status = .claiming →
      alive lastClaim (due key).2 = true → Option.Rel (Mirrors fernet expiry) (change row)
        ((change' receipt).filter fun _ => alive lastClaim expiry.2))
    (hwhole' : ∀ changed, change' receipt = some changed → Whole changed) :
    ChangeAnswered fernet lastClaim due rows store key token expiry change change' true
      (Function.update store key (change' receipt)) := by
  have hmemory : inMemoryChangeOwned store key token (fun receipt => some (change' receipt)) =
      some (true, Function.update store key (change' receipt)) := by
    rw [inMemoryChangeOwned, hreceipt]
    exact if_neg (by simp [howned])
  have hkept : (store key).all (fun receipt => receipt.ownerToken ≠ token ||
      receipt.status ≠ .claiming || alive lastClaim (due key).2) =
        alive lastClaim (due key).2 := by
    simp [hreceipt, howned]
  rcases h.cases key with ⟨hrow, hdead⟩ | ⟨row, receipt', hrow, hsome, halive, hmirrors⟩
  · have hrefused : changeOwned rows key token change = (false, rows) := by
      rw [changeOwned, hrow]
    refine ⟨hmemory, ?_, ?_, whole_update hwhole hwhole'⟩
    · rw [hkept, hrefused, hdead receipt hreceipt]
      simp
    · rw [hrefused]
      exact fun habsurd => absurd habsurd (by simp)
  · obtain rfl := Option.some.inj (hreceipt.symm.trans hsome)
    have hrowed : row.ownerToken = token ∧ row.status = .claiming := by
      rw [hmirrors.token, hmirrors.status]
      exact howned
    have hgranted : changeOwned rows key token change =
        (true, Function.update rows key (change row)) := by
      simp only [changeOwned, hrow, if_pos hrowed]
    refine ⟨hmemory, ?_, ?_, whole_update hwhole hwhole'⟩
    · rw [hkept, hgranted, halive]
    · rw [hgranted]
      exact fun _ => h.update key (hchange row receipt hmirrors hrowed.2 halive)

/-- A call of the owner of a claim is answered alike exactly when the table still has it. -/
theorem Mirrored.changeOwned
    (hchange : ∀ row receipt, Mirrors fernet (due key) row receipt → row.status = .claiming →
      alive lastClaim (due key).2 = true → Option.Rel (Mirrors fernet expiry) (change row)
        ((change' receipt).filter fun _ => alive lastClaim expiry.2))
    (hwhole' : ∀ receipt changed, Whole receipt → change' receipt = some changed →
      Whole changed) : ∃ ok store',
    ChangeAnswered fernet lastClaim due rows store key token expiry change change' ok store' := by
  cases hreceipt : store key with
  | none => exact ⟨_, _, changeAnswered_absent h hwhole key token expiry change change' hreceipt⟩
  | some receipt =>
    by_cases hforeign : receipt.ownerToken ≠ token ∨ receipt.status ≠ .claiming
    · exact ⟨_, _,
        changeAnswered_refused h hwhole key token expiry change change' hreceipt hforeign⟩
    · rw [not_or, not_not, not_not] at hforeign
      exact ⟨_, _, changeAnswered_owned h hwhole key token expiry change change' hreceipt hforeign
        hchange fun changed => hwhole' receipt changed (hwhole key receipt hreceipt)⟩

end Changes

end Simulation

section Storing
variable {Text : Type} {settings : Settings} {fernet : Fernet Text} {rows : Receipts Text}
  {now ttl : ℤ}

theorem varchar_of_length {n : ℕ} {text : String} (h : text.length ≤ n) :
    varchar n text = some text :=
  if_pos h

/-- Texts that fit their columns are stored as they are. -/
theorem durableClaim_of_length (request : ClaimRequest) (hkey : request.operationKey.length ≤ 64)
    (hfingerprint : request.requestFingerprint.length ≤ 64)
    (htoken : request.ownerToken.length ≤ 36) :
    durableClaim settings fernet rows request =
      some (HttpIdempotency.claim settings fernet rows request) := by
  rw [durableClaim, varchar_of_length hkey, varchar_of_length hfingerprint,
    varchar_of_length htoken, HttpIdempotency.claim]
  simp only [Option.bind_eq_bind, Option.bind_some]
  cases insertReceipt settings (purge rows request.now) request with
  | mk inserted rows => cases inserted <;> rfl

/-- A time to live that ends at a date is a float. -/
theorem inMemoryExpiry_of_date (hpos : 0 < ttl) (hnow : firstDatetime ≤ now)
    (hdate : inDates now ttl = true) : ∃ time, inMemoryExpiry (reading now) ttl = some time := by
  obtain ⟨n, rfl⟩ := Int.eq_ofNat_of_zero_le hpos.le
  rw [inDates, decide_eq_true_eq, timedelta, lastDatetime] at hdate
  rw [firstDatetime] at hnow
  have hsmall : n < 2 ^ 53 := by
    norm_num
    omega
  exact ⟨_, by rw [inMemoryExpiry, ClockReadings.ofInt_natCast hsmall, Option.map_some]⟩

end Storing

section Runs
variable {Text : Type} {settings : Settings} {fernet : Fernet Text}

/-- The two sides hold the same, and every claim is in the past. -/
structure Authorities.Consistent (fernet : Fernet Text) (a : Authorities Text) : Prop where
  past : ∀ last, a.lastClaim = some last → last ≤ a.clock
  whole : ∀ key receipt, a.inMemory key = some receipt → Whole receipt
  mirrored : Mirrored fernet a.lastClaim a.due a.rows a.inMemory

theorem Authorities.Consistent.start (clock : ℤ) :
    (Authorities.start clock : Authorities Text).Consistent fernet where
  past last hlast := by simp [Authorities.start] at hlast
  whole key receipt h := by simp [Authorities.start] at h
  mirrored key := .none

/-- A call is answered alike exactly when the receipts are kept and read alike, and both sides hold
the same then. -/
structure Authorities.Answers (settings : Settings) (fernet : Fernet Text) (a : Authorities Text)
    (label : ℕ × AuthorityCall) : Prop where
  alike : (inMemoryCall settings a.inMemory (a.clock + label.1) label.2).1 =
      (durableCall settings fernet a.rows (a.clock + label.1) label.2).1 ↔
    a.keepsReceipt label = true ∧ a.readsAlike label = true
  consistent : a.keepsReceipt label = true ∧ a.readsAlike label = true →
    (a.step settings fernet label).Consistent fernet

/-- A call of an owner, from what the two sides answer and leave. -/
theorem Authorities.Consistent.owned {a : Authorities Text} (h : a.Consistent fernet) {elapsed : ℕ}
    {key token : String} {call : AuthorityCall} {expiry : ℤ × ℤ}
    {change : HttpIdempotencyReceipt Text → Option (HttpIdempotencyReceipt Text)}
    {change' : InMemoryReceipt → Option InMemoryReceipt} {ok : Bool} {store : InMemoryStore}
    (hchanged : ChangeAnswered fernet a.lastClaim a.due a.rows a.inMemory key token expiry change
      change' ok store)
    (hcall : inMemoryCall settings a.inMemory (a.clock + elapsed) call = (.done ok, store))
    (hcall' : durableCall settings fernet a.rows (a.clock + elapsed) call =
      (.done (changeOwned a.rows key token change).1, (changeOwned a.rows key token change).2))
    (hclaim : ∀ key fingerprint token, call ≠ .claim key fingerprint token)
    (hkeeps : a.keepsReceipt (elapsed, call) = keepsOwned a key token)
    (hdue : nextDue settings a.due (a.clock + elapsed) call (.done ok) =
      if ok then Function.update a.due key expiry else a.due) :
    a.Answers settings fernet (elapsed, call) := by
  have hkept : ok = (changeOwned a.rows key token change).1 ↔ keepsOwned a key token = true :=
    hchanged.alike
  have hreads : a.readsAlike (elapsed, call) = true := by
    cases call with
    | claim key fingerprint token => exact absurd rfl (hclaim key fingerprint token)
    | _ => rfl
  have hlast : (a.step settings fernet (elapsed, call)).lastClaim = a.lastClaim := by
    cases call with
    | claim key fingerprint token => exact absurd rfl (hclaim key fingerprint token)
    | _ => rfl
  have hanswers : (inMemoryCall settings a.inMemory (a.clock + elapsed) call).1 =
      (durableCall settings fernet a.rows (a.clock + elapsed) call).1 ↔
        a.keepsReceipt (elapsed, call) = true ∧ a.readsAlike (elapsed, call) = true := by
    rw [hcall, hcall', Outcome.done.injEq, hkept, hkeeps, and_iff_left hreads]
  refine ⟨hanswers, fun hguard => ⟨?_, ?_, ?_⟩⟩
  · rw [hlast]
    intro last hpast
    have hle := h.past last hpast
    exact hle.trans (le_add_of_nonneg_right (Int.natCast_nonneg elapsed))
  · rw [Authorities.step, hcall]
    exact hchanged.whole
  · rw [hlast, Authorities.step, hcall, hcall', hdue]
    exact hchanged.mirrored (hkept.2 (hkeeps.symm.trans hguard.1))

section Calls
variable {a : Authorities Text} (h : a.Consistent fernet) {elapsed : ℕ} {key fingerprint token : String}
include h

theorem Authorities.Consistent.past_later : ∀ last, a.lastClaim = some last →
    last ≤ a.clock + elapsed := by
  intro last hlast
  have hle := h.past last hlast
  omega

theorem Authorities.Consistent.claim
    (hstorable : a.Storable settings (elapsed, .claim key fingerprint token)) :
    a.Answers settings fernet (elapsed, .claim key fingerprint token) := by
  obtain ⟨hdate, hsent, hfits⟩ := hstorable
  simp only [fitsColumns, Bool.and_eq_true, decide_eq_true_eq] at hfits
  obtain ⟨⟨hkey, hfingerprint⟩, htoken⟩ := hfits
  have hdates := hsent
  simp only [isSent, Bool.and_eq_true] at hdates
  obtain ⟨claimTime, hclaim⟩ := inMemoryExpiry_of_date settings.claimTtl_pos hdate hdates.1.2
  obtain ⟨time, hexpiry⟩ := inMemoryExpiry_of_date settings.receiptTtl_pos hdate hdates.2
  obtain ⟨v, v', store, hanswered⟩ :=
    h.mirrored.claim h.whole h.past_later hclaim hexpiry key fingerprint token
  have hcall : inMemoryCall settings a.inMemory (a.clock + elapsed) (.claim key fingerprint token) =
      (.claimed (answer token v), store) := by
    rw [inMemoryCall, hanswered.memory]
  have hcall' : durableCall settings fernet a.rows (a.clock + elapsed)
      (.claim key fingerprint token) = (.claimed (answer token v'),
        (HttpIdempotency.claim settings fernet a.rows
          ⟨key, fingerprint, token, a.clock + elapsed⟩).2) := by
    rw [durableCall, if_pos hsent]
    simp only [durableClaim_of_length ⟨key, fingerprint, token, a.clock + elapsed⟩ hkey
      hfingerprint htoken, hanswered.durable, Option.map_some, Option.getD_some]
  have hsame : Outcome.claimed (answer token v) = Outcome.claimed (answer token v') ↔
      a.keepsReceipt (elapsed, .claim key fingerprint token) = true ∧
        a.readsAlike (elapsed, .claim key fingerprint token) = true := by
    rw [Outcome.claimed.injEq, (answer_injective token).eq_iff, hanswered.alike]
    exact (and_iff_right rfl).symm
  refine ⟨by rw [hcall, hcall']; exact hsame, fun hguard => ?_⟩
  have heq : v = v' := by
    rw [← (answer_injective token).eq_iff, ← Outcome.claimed.injEq]
    exact hsame.2 hguard
  rw [Authorities.step, hcall, hcall']
  refine ⟨?_, hanswered.whole, hanswered.mirrored heq⟩
  rintro last ⟨⟩
  exact le_rfl

theorem Authorities.Consistent.renew (hstorable : a.Storable settings (elapsed, .renew key token)) :
    a.Answers settings fernet (elapsed, .renew key token) := by
  obtain ⟨hdate, hsent, -⟩ := hstorable
  have hdates := hsent
  simp only [isSent, Bool.and_eq_true] at hdates
  obtain ⟨claimTime, hclaim⟩ := inMemoryExpiry_of_date settings.claimTtl_pos hdate hdates.2
  obtain ⟨ok, store, hchanged⟩ := h.mirrored.changeOwned h.whole key token
    (a.clock + elapsed + timedelta settings.claimTtlSeconds, (a.due key).2)
    (fun row => some { row with
      claimExpiresAt := some (a.clock + elapsed + timedelta settings.claimTtlSeconds) })
    (fun receipt => some { receipt with claimExpiresAt := claimTime })
    (fun row receipt hmirrors hclaiming halive => by
      rw [Option.filter_some, if_pos halive]
      exact .some ⟨hmirrors.fingerprint, hmirrors.token, hmirrors.status, hmirrors.expires,
        fun _ => rfl, hmirrors.completed⟩)
    (fun receipt changed hwhole hchanged => by
      obtain rfl := Option.some.inj hchanged
      exact hwhole)
  refine h.owned hchanged ?_ ?_ (fun _ _ _ hc => by cases hc) ?_ ?_
  · rw [inMemoryCall, inMemoryRenew, hclaim]
    simp only [Option.map_some, hchanged.memory]
  · rw [durableCall, if_pos hsent]
    rfl
  · rfl
  · cases ok <;> rfl

theorem Authorities.Consistent.complete {response : ReplayResponse} {draw : ℕ}
    (hstorable : a.Storable settings (elapsed, .complete key token response draw)) :
    a.Answers settings fernet (elapsed, .complete key token response draw) := by
  obtain ⟨hdate, hsent, -⟩ := hstorable
  have hdates := hsent
  simp only [isSent, Bool.and_eq_true] at hdates
  obtain ⟨time, hexpiry⟩ := inMemoryExpiry_of_date settings.receiptTtl_pos hdate hdates.1.2
  obtain ⟨ok, store, hchanged⟩ := h.mirrored.changeOwned h.whole key token
    ((a.due key).1, a.clock + elapsed + timedelta settings.receiptTtlSeconds)
    (fun row => some { row with
      status := .completed
      claimExpiresAt := none
      responseCiphertext := some (encryptResponse fernet draw response)
      expiresAt := a.clock + elapsed + timedelta settings.receiptTtlSeconds })
    (fun receipt => some { receipt with
      status := .completed
      response := some response
      expiresAt := time })
    (fun row receipt hmirrors hclaiming halive => by
      rw [Option.filter_some, alive_fresh h.past_later, if_pos rfl]
      refine .some ⟨hmirrors.fingerprint, hmirrors.token, rfl, rfl, fun hstatus => ?_, fun _ => ?_⟩
      · cases hstatus
      · exact ⟨_, response, rfl, fernet.encrypt_not_blank _ _,
          decryptResponse_encryptResponse fernet draw response, rfl⟩)
    (fun receipt changed hwhole hchanged => by
      obtain rfl := Option.some.inj hchanged
      exact iff_of_true rfl rfl)
  refine h.owned hchanged ?_ ?_ (fun _ _ _ hc => by cases hc) ?_ ?_
  · rw [inMemoryCall, inMemoryComplete, hexpiry]
    simp only [Option.map_some, hchanged.memory]
  · rw [durableCall, if_pos hsent]
    rfl
  · rfl
  · cases ok <;> rfl

theorem Authorities.Consistent.release
    (hstorable : a.Storable settings (elapsed, .release key token)) :
    a.Answers settings fernet (elapsed, .release key token) := by
  obtain ⟨-, hsent, -⟩ := hstorable
  obtain ⟨ok, store, hchanged⟩ := h.mirrored.changeOwned h.whole key token (a.due key)
    (fun _ => none) (fun _ => none) (fun row receipt _ _ _ => .none)
    (fun receipt changed hwhole hchanged => by cases hchanged)
  refine h.owned hchanged ?_ ?_ (fun _ _ _ hc => by cases hc) ?_ ?_
  · rw [inMemoryCall, inMemoryRelease]
    simp only [hchanged.memory]
  · rw [durableCall, if_pos hsent]
    rfl
  · rfl
  · rw [Function.update_eq_self, ite_self]
    cases ok <;> rfl

/-- A call that can be stored is answered alike exactly when the receipts are kept and read alike. -/
theorem Authorities.Consistent.step {label : ℕ × AuthorityCall}
    (hstorable : a.Storable settings label) : a.Answers settings fernet label := by
  obtain ⟨elapsed, call⟩ := label
  cases call with
  | claim key fingerprint token => exact h.claim hstorable
  | renew key token => exact h.renew hstorable
  | complete key token response draw => exact h.complete hstorable
  | release key token => exact h.release hstorable

end Calls

theorem outcomes_exec (a : Authorities Text) (labels : List (ℕ × AuthorityCall)) :
    a.outcomes ⊆ (exec (Authorities.step settings fernet) a labels).outcomes := by
  induction labels generalizing a with
  | nil => exact fun outcome h => h
  | cons label labels ih =>
    intro outcome h
    exact ih (a.step settings fernet label) (List.mem_cons_of_mem _ h)

theorem agree_exec_iff {a : Authorities Text} (h : a.Consistent fernet) (hagree : a.agree)
    (labels : List (ℕ × AuthorityCall))
    (hstorable : Guarded (Authorities.step settings fernet) (fun a => a.Storable settings) a
      labels) :
    (exec (Authorities.step settings fernet) a labels).agree ↔
      Guarded (Authorities.step settings fernet)
        (fun a label => a.keepsReceipt label = true ∧ a.readsAlike label = true) a labels := by
  induction labels generalizing a with
  | nil => simp [Guarded, hagree]
  | cons label labels ih =>
    obtain ⟨houtcome, hleft⟩ := h.step hstorable.1
    rw [exec_cons]
    by_cases hguard : a.keepsReceipt label = true ∧ a.readsAlike label = true
    · have hstep : (a.step settings fernet label).agree := by
        intro outcome hmem
        rcases List.mem_cons.mp hmem with rfl | hmem
        · exact houtcome.mpr hguard
        · exact hagree outcome hmem
      rw [ih (hleft hguard) hstep hstorable.2, Guarded, and_iff_right hguard]
    · have hparted : ¬ (exec (Authorities.step settings fernet)
          (a.step settings fernet label) labels).agree := by
        intro hall
        exact hguard (houtcome.mp (hall _ (outcomes_exec _ labels List.mem_cons_self)))
      exact iff_of_false hparted fun hguarded => hguard hguarded.1

/-- On a run of calls that can be stored the authorities agree exactly when no claim is renewed,
completed or released after its receipt has expired and some claim has been made since, and the
floats give every claim the verdict of the clock. -/
theorem authorities_agree_iff (settings : Settings) (fernet : Fernet Text) (clock : ℤ)
    (labels : List (ℕ × AuthorityCall))
    (hstorable : Guarded (Authorities.step settings fernet) (fun a => a.Storable settings)
      (.start clock) labels) :
    (exec (Authorities.step settings fernet) (.start clock) labels).agree ↔
      Guarded (Authorities.step settings fernet)
        (fun a label => a.keepsReceipt label = true ∧ a.readsAlike label = true) (.start clock)
        labels :=
  agree_exec_iff (.start clock) (by simp [Authorities.agree, Authorities.start]) labels hstorable

end Runs

section Samples

def defaultSettings : Settings := ⟨120, 86400, by decide, by decide⟩

def sampleResponse : ReplayResponse := ⟨201, [([99], [49])], [123, 125]⟩

/-- A claim that lapses after a renewal, another owner who completes it, and a replay. -/
def sampleCalls : List (ℕ × AuthorityCall) :=
  [(0, .claim "k" "f" "t"), (60000000, .renew "k" "t"), (1, .claim "k" "f" "u"),
    (1, .claim "k" "g" "u"), (130000000, .claim "k" "f" "v"),
    (5, .complete "k" "t" sampleResponse 1), (5, .complete "k" "v" sampleResponse 2),
    (7, .claim "k" "f" "w")]

theorem authorities_agree_sample :
    (exec (Authorities.step defaultSettings plainFernet) (.start 0) sampleCalls).agree :=
  (authorities_agree_iff defaultSettings plainFernet 0 sampleCalls (by decide +kernel)).2
    (by decide +kernel)

/-- A day after the claim of `k` another key is claimed, and the owner of `k` renews; a claim is made
again after the time of a claim by the clock, which the floats take for earlier; and a key is longer
than its column. -/
theorem authorities_part_on_expired_receipt :
    (exec (Authorities.step defaultSettings plainFernet) (.start 0)
      [(0, .claim "k" "f" "t"), (86400000000, .claim "other" "f" "u"),
        (0, .renew "k" "t")]).outcomes.head? = some (.done true, .done false) ∧
    (exec (Authorities.step defaultSettings plainFernet) (.start 34084)
      [(0, .claim "k" "f" "t"), (120000000, .claim "k" "f" "u")]).outcomes.head? =
        some (.claimed .inFlight, .claimed (.owner "u")) ∧
    (exec (Authorities.step defaultSettings plainFernet) (.start 0)
      [(0, .claim (String.ofList (List.replicate 65 'k')) "f" "t")]).outcomes.head? =
        some (.claimed (.owner "t"), .raised) ∧
    ¬ ∀ labels, (exec (Authorities.step defaultSettings plainFernet) (.start 0) labels).agree := by
  have hhead : (exec (Authorities.step defaultSettings plainFernet) (.start 0)
      [(0, .claim "k" "f" "t"), (86400000000, .claim "other" "f" "u"),
        (0, .renew "k" "t")]).outcomes.head? = some (.done true, .done false) := by decide +kernel
  refine ⟨hhead, by decide +kernel, by decide +kernel, fun hall => ?_⟩
  have hagree := hall _ _ (List.mem_of_mem_head? hhead)
  simp at hagree

end Samples

end Ajenda.HttpIdempotency
