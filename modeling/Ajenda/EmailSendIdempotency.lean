import Ajenda.MissionInputBinding
import Mathlib.Logic.Function.Basic

/-!
# Receipts for sends that a provider does not deduplicate

The rows of `email_send_idempotency_receipts` by their unique key with the statements of
`EmailSendIdempotencyRepository`, each a transaction of its own. Times are microseconds.
-/
namespace Ajenda.EmailSend
open JsonValue

/-- `datetime.isoformat` and `datetime.fromisoformat` on times in UTC. -/
structure IsoFormat where
  isoformat : ℤ → String
  fromisoformat : String → Option ℤ
  fromisoformat_isoformat : ∀ time, fromisoformat (isoformat time) = some time
  isoformat_ne_empty : ∀ time, isoformat time ≠ ""

/-- A time by its sign and as many strokes. -/
def strokeFormat : IsoFormat where
  isoformat time :=
    String.ofList ((if 0 ≤ time then '+' else '-') :: List.replicate time.natAbs '|')
  fromisoformat text :=
    match text.toList with
    | '+' :: strokes => some strokes.length
    | '-' :: strokes => some (-strokes.length)
    | _ => none
  fromisoformat_isoformat time := by
    rw [String.toList_ofList]
    split_ifs with h
    · simp only [List.length_replicate, Option.some.injEq]
      omega
    · simp only [List.length_replicate, Option.some.injEq]
      omega
  isoformat_ne_empty time := by
    intro h
    have hlist := congrArg String.toList h
    rw [String.toList_ofList] at hlist
    cases hlist

inductive ReceiptStatus
  | claiming
  | sending
  | uncertain
  | completed
  deriving DecidableEq

structure EmailSendIdempotencyReceipt where
  status : ReceiptStatus
  resultPayload : Option Fields
  errorDetail : Option String
  deriving DecidableEq

/-- The columns of the unique constraint. -/
structure ReceiptKey where
  tenantId : String
  action : String
  idempotencyKey : String
  deriving DecidableEq

abbrev Receipts := ReceiptKey → Option EmailSendIdempotencyReceipt

inductive ClaimStatus
  | newlyClaimed
  | replayed (payload : Fields)
  | inFlight
  deriving DecidableEq

def timedelta (seconds : ℤ) : ℤ := seconds * 1000000

section Repository
variable (iso : IsoFormat)

/-- `_claim_metadata`. -/
def claimMetadata (ownerToken : String) (expiresAt : ℤ) : Fields :=
  [("claim_owner", .str ownerToken), ("claim_expires_at", .str (iso.isoformat expiresAt))]

/-- `_claim_owner`. -/
def claimOwner (row : EmailSendIdempotencyReceipt) : Option String :=
  match row.resultPayload.bind (Fields.get · "claim_owner") with
  | some (.str owner) => if owner = "" then none else some owner
  | _ => none

/-- `_claim_expiry`. -/
def claimExpiry (row : EmailSendIdempotencyReceipt) : Option ℤ :=
  match row.resultPayload.bind (Fields.get · "claim_expires_at") with
  | some (.str raw) => if raw = "" then none else iso.fromisoformat raw
  | _ => none

variable (rows : Receipts) (key : ReceiptKey)

def setRow (row : Option EmailSendIdempotencyReceipt) : Receipts := Function.update rows key row

/-- `try_claim`. -/
def tryClaim : ClaimStatus × Receipts :=
  match rows key with
  | none => (.newlyClaimed, setRow rows key (some ⟨.claiming, none, none⟩))
  | some existing =>
    if existing.status = .completed then (.replayed (existing.resultPayload.getD []), rows)
    else (.inFlight, rows)

/-- `try_claim_smtp`. -/
def tryClaimSmtp (ownerToken : String) (now leaseSeconds : ℤ) : ClaimStatus × Receipts :=
  let expiry := now + timedelta (max 1 leaseSeconds)
  let metadata := claimMetadata iso ownerToken expiry
  match rows key with
  | none => (.newlyClaimed, setRow rows key (some ⟨.claiming, some metadata, none⟩))
  | some existing =>
    if existing.status = .completed then (.replayed (existing.resultPayload.getD []), rows)
    else if existing.status ≠ .claiming then (.inFlight, rows)
    else
      match claimExpiry iso existing with
      | none => (.inFlight, rows)
      | some currentExpiry =>
        if now < currentExpiry then (.inFlight, rows)
        else (.newlyClaimed, setRow rows key
          (some { existing with resultPayload := some metadata, errorDetail := none }))

/-- `fence_smtp_send`. -/
def fenceSmtpSend (ownerToken : String) : Bool × Receipts :=
  match rows key with
  | none => (false, rows)
  | some row =>
    if row.status ≠ .claiming then (false, rows)
    else if claimOwner row ≠ some ownerToken then (false, rows)
    else (true, setRow rows key (some { row with status := .sending }))

/-- `complete_smtp_owned`. -/
def completeSmtpOwned (ownerToken : String) (resultPayload : Fields) : Bool × Receipts :=
  match rows key with
  | none => (false, rows)
  | some row =>
    if row.status ≠ .sending then (false, rows)
    else if claimOwner row ≠ some ownerToken then (false, rows)
    else (true, setRow rows key (some ⟨.completed, some resultPayload, none⟩))

/-- `release_smtp_owned`. -/
def releaseSmtpOwned (ownerToken : String) (errorDetail : Option String) : Bool × Receipts :=
  match rows key with
  | none => (false, rows)
  | some row =>
    if claimOwner row ≠ some ownerToken then (false, rows)
    else if row.status = .claiming then (true, setRow rows key none)
    else if row.status = .sending then
      (true, setRow rows key (some { row with status := .uncertain, errorDetail }))
    else (false, rows)

/-- `complete`. -/
def complete (resultPayload : Fields) : Receipts :=
  match rows key with
  | none => rows
  | some _ => setRow rows key (some ⟨.completed, some resultPayload, none⟩)

/-- `release`. -/
def release : Receipts :=
  match rows key with
  | some row => if row.status = .claiming then setRow rows key none else rows
  | none => rows

end Repository

@[simp] theorem claimOwner_claimMetadata (iso : IsoFormat) (status : ReceiptStatus)
    {ownerToken : String} (h : ownerToken ≠ "") (expiresAt : ℤ) (errorDetail : Option String) :
    claimOwner ⟨status, some (claimMetadata iso ownerToken expiresAt), errorDetail⟩ =
      some ownerToken := by
  simp [claimOwner, claimMetadata, Fields.get, h]

@[simp] theorem claimExpiry_claimMetadata (iso : IsoFormat) (status : ReceiptStatus)
    (ownerToken : String) (expiresAt : ℤ) (errorDetail : Option String) :
    claimExpiry iso ⟨status, some (claimMetadata iso ownerToken expiresAt), errorDetail⟩ =
      some expiresAt := by
  simp [claimExpiry, claimMetadata, Fields.get, iso.isoformat_ne_empty,
    iso.fromisoformat_isoformat]

end Ajenda.EmailSend
