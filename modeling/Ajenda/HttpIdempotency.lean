import Ajenda.Base64
import Ajenda.ClockReadings
import Ajenda.JsonValue

/-!
# HTTP idempotency receipts

The rows of `http_idempotency_receipts` by operation key with the statements of
`HttpIdempotencyRepository`, the authority that encrypts responses over them, and the
process-local authority. Times of the database are microseconds; the process-local authority keeps
floats of seconds.
-/
namespace Ajenda.HttpIdempotency
open JsonValue

structure ReplayResponse where
  statusCode : ℤ
  headers : List (List UInt8 × List UInt8)
  body : List UInt8
  deriving DecidableEq

def b64encode (bytes : List UInt8) : String := String.ofList (Base64.encode bytes)

def b64decode (text : String) : Option (List UInt8) := Base64.decode text.toList

def headerDoc (header : List UInt8 × List UInt8) : Json :=
  .arr [.str (b64encode header.1), .str (b64encode header.2)]

/-- The payload of `_encrypt_response`. -/
def responseDoc (response : ReplayResponse) : Json :=
  .obj [("body", .str (b64encode response.body)),
    ("headers", .arr (response.headers.map headerDoc)),
    ("status_code", .num (.finite response.statusCode))]

def readHeader : Json → Option (List UInt8 × List UInt8)
  | .arr [.str name, .str value] => do return (← b64decode name, ← b64decode value)
  | _ => none

/-- `_decrypt_response` on the decrypted payload; `none` when it raises. -/
def readResponse (doc : Json) : Option ReplayResponse :=
  match doc.field "status_code", doc.field "headers", doc.field "body" with
  | some (.num (.finite q)), some (.arr headers), some (.str body) => do
    return ⟨if 0 ≤ q then q.floor else q.ceil, ← headers.mapM readHeader, ← b64decode body⟩
  | _, _, _ => none

/-- The `cryptography` package. A ciphertext depends on a random draw, decrypts to what was
encrypted and is never the empty text. -/
structure Fernet (Text : Type) where
  encrypt : ℕ → Json → Text
  decrypt : Text → Option Json
  isBlank : Text → Bool
  decrypt_encrypt : ∀ draw doc, decrypt (encrypt draw doc) = some doc
  encrypt_not_blank : ∀ draw doc, isBlank (encrypt draw doc) = false

/-- A cipher that keeps the document readable. -/
def plainFernet : Fernet Json :=
  ⟨fun _ doc => doc, some, fun _ => false, fun _ _ => rfl, fun _ _ => rfl⟩

/-- What the constructors accept. -/
structure Settings where
  claimTtlSeconds : ℤ
  receiptTtlSeconds : ℤ
  claimTtl_pos : 0 < claimTtlSeconds
  receiptTtl_pos : 0 < receiptTtlSeconds

def timedelta (seconds : ℤ) : ℤ := seconds * 1000000

inductive Status
  | claiming
  | completed
  deriving DecidableEq

structure HttpIdempotencyReceipt (Text : Type) where
  requestFingerprint : String
  ownerToken : String
  status : Status
  claimExpiresAt : Option ℤ
  responseCiphertext : Option Text
  expiresAt : ℤ

/-- The table by its unique operation key. -/
abbrev Receipts (Text : Type) := String → Option (HttpIdempotencyReceipt Text)

/-- The arguments of one call of `claim`. -/
structure ClaimRequest where
  operationKey : String
  requestFingerprint : String
  ownerToken : String
  now : ℤ

inductive RepositoryClaimDecision (Text : Type)
  | acquired
  | replay (responseCiphertext : Text)
  | inFlight
  | payloadMismatch

section Repository
variable {Text : Type} (settings : Settings) (fernet : Fernet Text) (rows : Receipts Text)

/-- The first statement of `claim` deletes every expired row. -/
def purge (now : ℤ) : Receipts Text := fun key => (rows key).filter fun row => now < row.expiresAt

def newReceipt (request : ClaimRequest) : HttpIdempotencyReceipt Text where
  requestFingerprint := request.requestFingerprint
  ownerToken := request.ownerToken
  status := .claiming
  claimExpiresAt := some (request.now + timedelta settings.claimTtlSeconds)
  responseCiphertext := none
  expiresAt := request.now + timedelta settings.receiptTtlSeconds

/-- The second statement, `INSERT … ON CONFLICT DO NOTHING`. -/
def insertReceipt (request : ClaimRequest) : Bool × Receipts Text :=
  match rows request.operationKey with
  | some _ => (false, rows)
  | none => (true, Function.update rows request.operationKey (some (newReceipt settings request)))

/-- What `claim` does with a row it has locked. -/
def claimLocked (request : ClaimRequest) (row : HttpIdempotencyReceipt Text) :
    RepositoryClaimDecision Text × HttpIdempotencyReceipt Text :=
  if row.expiresAt ≤ request.now then (.acquired, newReceipt settings request)
  else if row.requestFingerprint ≠ request.requestFingerprint then (.payloadMismatch, row)
  else
    match row.status, row.responseCiphertext.filter (!fernet.isBlank ·), row.claimExpiresAt with
    | .completed, some ciphertext, _ => (.replay ciphertext, row)
    | .claiming, _, some claimExpiresAt =>
      if claimExpiresAt ≤ request.now then
        (.acquired, { row with
          ownerToken := request.ownerToken
          claimExpiresAt := some (request.now + timedelta settings.claimTtlSeconds)
          expiresAt := request.now + timedelta settings.receiptTtlSeconds })
      else (.inFlight, row)
    | _, _, _ => (.inFlight, row)

/-- `SELECT … FOR UPDATE` and what follows. -/
def lockReceipt (request : ClaimRequest) : RepositoryClaimDecision Text × Receipts Text :=
  match rows request.operationKey with
  | none => (.inFlight, rows)
  | some row =>
    let (decision, row) := claimLocked settings fernet request row
    (decision, Function.update rows request.operationKey (some row))

/-- `claim` when no other transaction interferes. -/
def claim (request : ClaimRequest) : RepositoryClaimDecision Text × Receipts Text :=
  let rows := purge rows request.now
  match insertReceipt settings rows request with
  | (true, rows) => (.acquired, rows)
  | (false, rows) => lockReceipt settings fernet rows request

/-- A statement on the row of a key while the token owns it; the answer is `rowcount == 1`. -/
def changeOwned (key token : String)
    (change : HttpIdempotencyReceipt Text → Option (HttpIdempotencyReceipt Text)) :
    Bool × Receipts Text :=
  match rows key with
  | none => (false, rows)
  | some row =>
    if row.ownerToken = token ∧ row.status = .claiming then
      (true, Function.update rows key (change row))
    else (false, rows)

/-- `renew`. -/
def renew (key token : String) (now : ℤ) : Bool × Receipts Text :=
  changeOwned rows key token fun row =>
    some { row with claimExpiresAt := some (now + timedelta settings.claimTtlSeconds) }

/-- `complete`. -/
def complete (key token : String) (responseCiphertext : Text) (now : ℤ) : Bool × Receipts Text :=
  changeOwned rows key token fun row => some { row with
    status := .completed
    claimExpiresAt := none
    responseCiphertext := some responseCiphertext
    expiresAt := now + timedelta settings.receiptTtlSeconds }

/-- `release`. -/
def release (key token : String) : Bool × Receipts Text :=
  changeOwned rows key token fun _ => none

end Repository

/-- An answer of `claim` of an authority. -/
inductive IdempotencyDecision
  | owner (ownerToken : String)
  | replay (response : ReplayResponse)
  | inFlight
  | payloadMismatch
  deriving DecidableEq

section Authority
variable {Text : Type} (settings : Settings) (fernet : Fernet Text) (rows : Receipts Text)

/-- `_encrypt_response`. -/
def encryptResponse (draw : ℕ) (response : ReplayResponse) : Text :=
  fernet.encrypt draw (responseDoc response)

/-- `_decrypt_response`; `none` when it raises. -/
def decryptResponse (ciphertext : Text) : Option ReplayResponse :=
  (fernet.decrypt ciphertext).bind readResponse

/-- `HttpIdempotencyAuthority.claim` on the answer of the repository. -/
def decision (token : String) : RepositoryClaimDecision Text → Option IdempotencyDecision
  | .acquired => some (.owner token)
  | .replay ciphertext => (decryptResponse fernet ciphertext).map .replay
  | .inFlight => some .inFlight
  | .payloadMismatch => some .payloadMismatch

end Authority

/-- A receipt of `InMemoryHttpIdempotencyAuthority`. Its times are floats. -/
structure InMemoryReceipt where
  requestFingerprint : String
  ownerToken : String
  status : Status
  claimExpiresAt : JsonNumber
  expiresAt : JsonNumber
  response : Option ReplayResponse

abbrev InMemoryStore := String → Option InMemoryReceipt

section InMemory
variable (settings : Settings) (store : InMemoryStore) (now : JsonNumber)

/-- `now + ttl_seconds`; an integer too large for a float raises. -/
def inMemoryExpiry (ttlSeconds : ℤ) : Option JsonNumber :=
  (ClockReadings.ofInt ttlSeconds).map (ClockReadings.add now)

/-- `InMemoryHttpIdempotencyAuthority.claim` at a reading of the clock; `none` when it raises, which
is before there is a receipt to change. -/
def inMemoryClaim (key fingerprint token : String) : Option (IdempotencyDecision × InMemoryStore) :=
  let create : Option (IdempotencyDecision × InMemoryStore) := do
    let claimExpiresAt ← inMemoryExpiry now settings.claimTtlSeconds
    let expiresAt ← inMemoryExpiry now settings.receiptTtlSeconds
    return (.owner token, Function.update store key (some
      ⟨fingerprint, token, .claiming, claimExpiresAt, expiresAt, none⟩))
  match store key with
  | none => create
  | some row =>
    if ClockReadings.le row.expiresAt now then create
    else if row.requestFingerprint ≠ fingerprint then some (.payloadMismatch, store)
    else
      match row.status, row.response with
      | .completed, some response => some (.replay response, store)
      | _, _ =>
        if ClockReadings.le row.claimExpiresAt now then do
          let claimExpiresAt ← inMemoryExpiry now settings.claimTtlSeconds
          let expiresAt ← inMemoryExpiry now settings.receiptTtlSeconds
          return (.owner token, Function.update store key (some { row with
            ownerToken := token
            claimExpiresAt := claimExpiresAt
            expiresAt := expiresAt }))
        else some (.inFlight, store)

/-- A method on the receipt of a key while the token owns it. -/
def inMemoryChangeOwned (key token : String)
    (change : InMemoryReceipt → Option (Option InMemoryReceipt)) : Option (Bool × InMemoryStore) :=
  match store key with
  | none => some (false, store)
  | some row =>
    if row.ownerToken ≠ token ∨ row.status ≠ .claiming then some (false, store)
    else (change row).map fun row => (true, Function.update store key row)

/-- `InMemoryHttpIdempotencyAuthority.renew`. -/
def inMemoryRenew (key token : String) : Option (Bool × InMemoryStore) :=
  inMemoryChangeOwned store key token fun row =>
    (inMemoryExpiry now settings.claimTtlSeconds).map fun claimExpiresAt =>
      some { row with claimExpiresAt := claimExpiresAt }

/-- `InMemoryHttpIdempotencyAuthority.complete`. -/
def inMemoryComplete (key token : String) (response : ReplayResponse) :
    Option (Bool × InMemoryStore) :=
  inMemoryChangeOwned store key token fun row =>
    (inMemoryExpiry now settings.receiptTtlSeconds).map fun expiresAt => some { row with
      status := .completed
      response := some response
      expiresAt := expiresAt }

/-- `InMemoryHttpIdempotencyAuthority.release`. -/
def inMemoryRelease (key token : String) : Option (Bool × InMemoryStore) :=
  inMemoryChangeOwned store key token fun _ => some none

end InMemory

section Responses

theorem b64decode_b64encode (bytes : List UInt8) : b64decode (b64encode bytes) = some bytes := by
  simp [b64decode, b64encode, Base64.decode_encode]

theorem readHeader_headerDoc (header : List UInt8 × List UInt8) :
    readHeader (headerDoc header) = some header := by
  simp [readHeader, headerDoc, b64decode_b64encode]

theorem mapM_readHeader (headers : List (List UInt8 × List UInt8)) :
    headers.mapM (readHeader ∘ headerDoc) = some headers := by
  induction headers with
  | nil => rfl
  | cons header headers ih => simp [readHeader_headerDoc, ih]

/-- A replay returns the response that was stored. -/
theorem readResponse_responseDoc (response : ReplayResponse) :
    readResponse (responseDoc response) = some response := by
  simp only [readResponse, responseDoc, Json.field, Fields.get_cons, Fields.get_nil]
  simp [mapM_readHeader, b64decode_b64encode]

variable {Text : Type} (fernet : Fernet Text)

theorem decryptResponse_encryptResponse (draw : ℕ) (response : ReplayResponse) :
    decryptResponse fernet (encryptResponse fernet draw response) = some response := by
  rw [decryptResponse, encryptResponse, fernet.decrypt_encrypt, Option.bind_some,
    readResponse_responseDoc]

end Responses

end Ajenda.HttpIdempotency
