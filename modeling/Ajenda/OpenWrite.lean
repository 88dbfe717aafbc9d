import Ajenda.EmailSendIdempotency
import Ajenda.TransitionSystem

/-!
# Open writes to the public web

`execute_open_write` on the durable backend: any number of calls in any number of workers, each
database transaction and the network request at its own moment. A transaction may be rolled
back, or be committed while the caller sees a failure, and a worker may crash between any two
steps. The log records requests, responses, stored results and what the calls returned, the
latest first.
-/
namespace Ajenda.OpenWrite
open JsonValue TransitionSystem EmailSend
open Ajenda.Runtime (strip)

def openWriteAction : String := "web.open_write"

/-- A request that passed the policy, with its SHA-256 fingerprint. -/
structure OpenWriteRequest where
  method : String
  url : String
  fingerprint : String
  fingerprint_ne_empty : fingerprint ≠ ""

structure NetworkResponse where
  statusCode : ℤ
  bodyText : String
  bodyTruncated : Bool
  deriving DecidableEq

structure OpenWriteResult where
  real : Bool
  url : String
  method : String
  statusCode : Option ℤ
  bodyText : Option String
  bodyTruncated : Bool
  error : Option String
  rateLimitRemaining : Option ℤ
  idempotencyDecision : String
  deriving DecidableEq

def optionJson {α : Type} (f : α → Json) : Option α → Json
  | some a => f a
  | none => .null

def intJson (n : ℤ) : Json := .num (.finite n)

/-- `as_dict`, with the backend of a durable call. -/
def OpenWriteResult.asDict (result : OpenWriteResult) : Fields :=
  [("real", .bool result.real), ("url", .str result.url), ("method", .str result.method),
    ("status_code", optionJson intJson result.statusCode),
    ("body_text", optionJson .str result.bodyText),
    ("body_truncated", .bool result.bodyTruncated), ("error", optionJson .str result.error),
    ("rate_limit_remaining", optionJson intJson result.rateLimitRemaining),
    ("access_mode", .str "open_write"), ("idempotency_decision", .str result.idempotencyDecision),
    ("idempotency_backend", .str "durable")]

def OpenWriteResult.payload (result : OpenWriteResult) (request : OpenWriteRequest) : Fields :=
  Fields.set result.asDict "request_fingerprint" (.str request.fingerprint)

section Results
variable (request : OpenWriteRequest)

/-- A result without a response. -/
def failedResult (error decision : String) (remaining : Option ℤ) : OpenWriteResult :=
  ⟨false, request.url, request.method, none, none, false, some error, remaining, decision⟩

def responseResult (response : NetworkResponse) (remaining : ℤ) : OpenWriteResult :=
  ⟨true, request.url, request.method, some response.statusCode, some response.bodyText,
    response.bodyTruncated, none, some remaining, "newly_claimed"⟩

/-- A stored text that is not empty, or what the request says. -/
def storedText (cached : Fields) (field default : String) : String :=
  match Fields.get cached field with
  | some (.str text) => if text = "" then default else text
  | _ => default

def storedOption (cached : Fields) (field : String) : Option String :=
  match Fields.get cached field with
  | some (.str text) => some text
  | _ => none

def storedStatusCode (cached : Fields) : Option ℤ :=
  match Fields.get cached "status_code" with
  | some (.num (.finite q)) => if q.den = 1 then some q.num else none
  | some (.bool code) => some (if code then 1 else 0)
  | _ => none

def fingerprintMismatch (cached : Fields) : Bool :=
  match Fields.get cached "request_fingerprint" with
  | some (.str prior) => prior ≠ "" && prior ≠ request.fingerprint
  | _ => false

/-- The answer to a call that finds a completed receipt. -/
def replayResult (cached : Fields) : OpenWriteResult :=
  if fingerprintMismatch request cached then
    failedResult request "idempotency_key already used for a different open_write request"
      "fingerprint_mismatch" none
  else
    ⟨((Fields.get cached "real").getD (.bool true)).truthy, storedText cached "url" request.url,
      storedText cached "method" request.method, storedStatusCode cached,
      storedOption cached "body_text",
      ((Fields.get cached "body_truncated").getD (.bool false)).truthy,
      storedOption cached "error", none, "replayed"⟩

end Results

/-- What a transaction did and what its caller saw. -/
inductive Outcome
  | committed
  | rolledBack (error : String)
  | lost (error : String)
  deriving DecidableEq

def Outcome.apply (outcome : Outcome) (before after : Receipts) : Receipts :=
  match outcome with
  | .rolledBack _ => before
  | .committed | .lost _ => after

def Outcome.error : Outcome → Option String
  | .committed => none
  | .rolledBack error | .lost error => some error

/-- Where a call stands that has claimed its key; the first completion follows a response, the
handler's completion an exception. -/
inductive Stage
  | claimed
  | responded (response : NetworkResponse)
  | raised (error : String)
  deriving DecidableEq

structure Call where
  key : ReceiptKey
  request : OpenWriteRequest
  remaining : ℤ
  stage : Stage

inductive Event
  | requested (call : String) (key : ReceiptKey)
  | responded (key : ReceiptKey)
  | stored (key : ReceiptKey) (fingerprint : String) (payload : Fields)
  | returned (key : ReceiptKey) (fingerprint : String) (result : OpenWriteResult)
  deriving DecidableEq

structure World where
  rows : Receipts
  calls : String → Option Call
  log : List Event

def World.start : World := ⟨fun _ => none, fun _ => none, []⟩

inductive Action
  | claim (call tenantId idempotencyKey : String) (request : OpenWriteRequest)
      (outcome : Outcome)
  | limit (call : String) (retryAfterSeconds : String) (outcome : Outcome)
  | respond (call : String) (remaining : ℤ) (response : NetworkResponse)
  | raise (call : String) (remaining : ℤ) (error : String)
  | store (call : String) (outcome : Outcome)
  | storeFailure (call : String) (outcome : Outcome)
  | crash (call : String)

section Steps
variable (w : World)

def World.setCall (call : String) (state : Option Call) : World :=
  { w with calls := Function.update w.calls call state }

def World.record (event : Event) : World := { w with log := event :: w.log }

def World.return (call : Call) (result : OpenWriteResult) : World :=
  w.record (.returned call.key call.request.fingerprint result)

/-- `_claim_durable` and the answers that need no request; a failure raises. -/
def World.claim (id tenantId idempotencyKey : String) (request : OpenWriteRequest)
    (outcome : Outcome) : World :=
  let key : ReceiptKey := ⟨tenantId, openWriteAction, strip idempotencyKey⟩
  let call : Call := ⟨key, request, 0, .claimed⟩
  if strip idempotencyKey = "" ∨ (w.calls id).isSome then w
  else
    let (answer, rows) := tryClaim w.rows key
    let w := { w with rows := outcome.apply w.rows rows }
    match outcome.error, answer with
    | some _, _ => w
    | none, .newlyClaimed => w.setCall id (some call)
    | none, .replayed cached => w.return call (replayResult request cached)
    | none, .inFlight => w.return call (failedResult request
        "open_write already claimed for this idempotency_key and is not yet finalized"
        "in_flight" none)

/-- The tenant's quota is used up: the claim is released, whether or not that succeeds. -/
def World.limit (id retryAfterSeconds : String) (outcome : Outcome) : World :=
  match w.calls id with
  | some call =>
    if call.stage = .claimed then
      let w := { w with rows := outcome.apply w.rows (EmailSend.release w.rows call.key) }
      (w.setCall id none).return call (failedResult call.request
        ("open_write rate limit exceeded; retry_after_seconds=" ++ retryAfterSeconds) "released"
        (some 0))
    else w
  | none => w

/-- The network request is made and gets a response or raises. -/
def World.request (id : String) (remaining : ℤ) (stage : Stage) (events : List Event) : World :=
  match w.calls id with
  | some call =>
    if call.stage = .claimed then
      let w := w.setCall id (some { call with remaining, stage })
      { w with log := events ++ w.log }
    else w
  | none => w

/-- The events of a request under the key of a call. -/
def World.eventsOf (id : String) (responded : Bool) : List Event :=
  match w.calls id with
  | some call =>
    if responded then [.responded call.key, .requested id call.key] else [.requested id call.key]
  | none => []

/-- What `_complete_durable` writes; a rollback writes nothing. -/
def World.complete (call : Call) (result : OpenWriteResult) (outcome : Outcome) : World :=
  let payload := result.payload call.request
  match outcome with
  | .rolledBack _ => w
  | .committed | .lost _ =>
    ({ w with rows := EmailSend.complete w.rows call.key payload }).record
      (.stored call.key call.request.fingerprint payload)

/-- The completion after a response; when it fails, the handler for network errors follows. -/
def World.store (id : String) (outcome : Outcome) : World :=
  match w.calls id with
  | some call =>
    match call.stage with
    | .responded response =>
      let result := responseResult call.request response call.remaining
      let w := w.complete call result outcome
      match outcome.error with
      | none => (w.setCall id none).return call result
      | some error => w.setCall id (some { call with stage := .raised error })
    | _ => w
  | none => w

/-- The completion of the handler; its own failure is ignored. -/
def World.storeFailure (id : String) (outcome : Outcome) : World :=
  match w.calls id with
  | some call =>
    match call.stage with
    | .raised error =>
      let result := failedResult call.request error "failed_finalized" (some call.remaining)
      ((w.complete call result outcome).setCall id none).return call result
    | _ => w
  | none => w

def World.step : Action → World
  | .claim id tenantId idempotencyKey request outcome =>
    w.claim id tenantId idempotencyKey request outcome
  | .limit id retryAfterSeconds outcome => w.limit id retryAfterSeconds outcome
  | .respond id remaining response =>
    w.request id remaining (.responded response) (w.eventsOf id true)
  | .raise id remaining error => w.request id remaining (.raised error) (w.eventsOf id false)
  | .store id outcome => w.store id outcome
  | .storeFailure id outcome => w.storeFailure id outcome
  | .crash id => w.setCall id none

end Steps

/-- The network requests made under the key. -/
def requests (key : ReceiptKey) (log : List Event) : ℕ :=
  log.countP fun
    | .requested _ k => k = key
    | _ => false

/-- The result says that the request failed. -/
def OpenWriteResult.saysFailed (result : OpenWriteResult) : Bool :=
  !result.real &&
    (result.idempotencyDecision = "failed_finalized" || result.idempotencyDecision = "replayed")

/-- A replay gives a stored result to a call with the fingerprint it was stored for. -/
def Replays (earlier : List Event) (key : ReceiptKey) (fingerprint : String)
    (result : OpenWriteResult) : Prop :=
  result.idempotencyDecision = "replayed" → ∃ request payload,
    Event.stored key fingerprint payload ∈ earlier ∧ request.fingerprint = fingerprint ∧
      result = replayResult request payload

def ReplaysFaithfully : List Event → Prop
  | [] => True
  | .returned key fingerprint result :: earlier =>
    Replays earlier key fingerprint result ∧ ReplaysFaithfully earlier
  | _ :: earlier => ReplaysFaithfully earlier

/-- No call says that a request failed that got a response. -/
def NoFalseFailure (log : List Event) : Prop :=
  ∀ key fingerprint result, Event.responded key ∈ log →
    Event.returned key fingerprint result ∈ log → result.saysFailed = false

/-- The completion after a response is stored, and the caller knows. -/
def storesResponse : Action → Bool
  | .store _ outcome => outcome = .committed
  | _ => true

/-- The invariant of every run. -/
structure World.Sound (w : World) : Prop where
  calls : ∀ id call, w.calls id = some call → (w.rows call.key).isSome = true ∧
    ∀ id' call', w.calls id' = some call' → call'.key = call.key → id' = id
  claimed : ∀ id call, w.calls id = some call → call.stage = .claimed →
    requests call.key w.log = 0 ∧ ∀ row, w.rows call.key = some row → row.status = .claiming
  requested : ∀ id call, w.calls id = some call → call.stage ≠ .claimed →
    requests call.key w.log ≠ 0
  once : ∀ key, requests key w.log ≤ 1 ∧ (requests key w.log ≠ 0 → (w.rows key).isSome = true)
  completed : ∀ key row, w.rows key = some row → row.status = .completed →
    requests key w.log ≠ 0 ∧ ∃ (request : OpenWriteRequest) (result : OpenWriteResult),
      row.resultPayload = some (result.payload request) ∧
      Event.stored key request.fingerprint (result.payload request) ∈ w.log
  responded : ∀ key, Event.responded key ∈ w.log → requests key w.log ≠ 0
  failed : ∀ key fingerprint result, Event.returned key fingerprint result ∈ w.log →
    result.saysFailed = true → requests key w.log ≠ 0
  replays : ReplaysFaithfully w.log

section Soundness
variable {w : World} {key : ReceiptKey} {id : String} {log : List Event}

@[simp] theorem requests_returned {k : ReceiptKey} {fingerprint : String}
    {result : OpenWriteResult} :
    requests key (.returned k fingerprint result :: log) = requests key log := by
  simp [requests]

@[simp] theorem requests_stored {k : ReceiptKey} {fingerprint : String} {payload : Fields} :
    requests key (.stored k fingerprint payload :: log) = requests key log := by
  simp [requests]

@[simp] theorem requests_responded {k : ReceiptKey} :
    requests key (.responded k :: log) = requests key log := by
  simp [requests]

theorem requests_requested {k : ReceiptKey} {call : String} :
    requests key (.requested call k :: log) = requests key log + if k = key then 1 else 0 := by
  simp [requests, List.countP_cons]

theorem World.Sound.start : World.start.Sound := by
  constructor <;> simp [World.start, requests, ReplaysFaithfully]

/-- A call ends. -/
theorem World.Sound.endCall (h : w.Sound) (id : String) : (w.setCall id none).Sound := by
  have hold : ∀ i call, (w.setCall id none).calls i = some call → w.calls i = some call := by
    intro i call hi
    simp only [World.setCall, Function.update_apply] at hi
    split_ifs at hi
    exact hi
  refine ⟨fun i call hi => ?_, fun i call hi => h.claimed i call (hold i call hi),
    fun i call hi => h.requested i call (hold i call hi), h.once, h.completed, h.responded,
    h.failed, h.replays⟩
  obtain ⟨hrow, hunique⟩ := h.calls i call (hold i call hi)
  exact ⟨hrow, fun i' call' hi' => hunique i' call' (hold i' call' hi')⟩

/-- A call returns a result. -/
theorem World.Sound.return (h : w.Sound) (call : Call) {result : OpenWriteResult}
    (hfailed : result.saysFailed = true → requests call.key w.log ≠ 0)
    (hreplays : Replays w.log call.key call.request.fingerprint result) :
    (w.return call result).Sound := by
  constructor
  · exact h.calls
  · simpa [World.return, World.record] using h.claimed
  · simpa [World.return, World.record] using h.requested
  · simpa [World.return, World.record] using h.once
  · simpa [World.return, World.record] using h.completed
  · simpa [World.return, World.record] using h.responded
  · intro k fingerprint r hr hsays
    simp only [World.return, World.record, List.mem_cons, Event.returned.injEq,
      requests_returned] at hr ⊢
    rcases hr with ⟨rfl, -, rfl⟩ | hr
    · exact hfailed hsays
    · exact h.failed k fingerprint r hr hsays
  · exact ⟨hreplays, h.replays⟩

/-- The receipt of a key without a call and a request is written or deleted. -/
theorem World.Sound.replaceRow (h : w.Sound) {rows : Receipts}
    (hother : ∀ k, k ≠ key → rows k = w.rows k)
    (hfree : ∀ i call, w.calls i = some call → call.key ≠ key) (hzero : requests key w.log = 0)
    (hrow : ∀ row, rows key = some row → row.status ≠ .completed) :
    ({ w with rows } : World).Sound := by
  constructor
  · intro i call hi
    dsimp only at hi ⊢
    rw [hother _ (hfree i call hi)]
    exact h.calls i call hi
  · intro i call hi
    dsimp only at hi ⊢
    rw [hother _ (hfree i call hi)]
    exact h.claimed i call hi
  · exact h.requested
  · intro k
    refine ⟨(h.once k).1, fun hk => ?_⟩
    dsimp only at hk ⊢
    rw [hother]
    · exact (h.once k).2 hk
    · intro heq
      rw [heq] at hk
      exact hk hzero
  · intro k row hk hstatus
    by_cases heq : k = key
    · rw [heq] at hk
      exact absurd hstatus (hrow row hk)
    · dsimp only at hk
      rw [hother k heq] at hk
      exact h.completed k row hk hstatus
  · exact h.responded
  · exact h.failed
  · exact h.replays

theorem World.Sound.no_calls (h : w.Sound) (hnone : w.rows key = none) {i : String} {call : Call}
    (hi : w.calls i = some call) : call.key ≠ key := by
  intro heq
  have hrow := (h.calls i call hi).1
  rw [heq, hnone] at hrow
  cases hrow

theorem World.Sound.no_requests (h : w.Sound) (hnone : w.rows key = none) :
    requests key w.log = 0 := by
  by_contra hne
  have hrow := (h.once key).2 hne
  rw [hnone] at hrow
  cases hrow

/-- A key without a receipt is claimed. -/
theorem World.Sound.claimRow (h : w.Sound) (hnone : w.rows key = none) :
    ({ w with rows := setRow w.rows key (some ⟨.claiming, none, none⟩) } : World).Sound := by
  refine h.replaceRow (fun k hk => Function.update_of_ne hk _ _)
    (fun i call hi => h.no_calls hnone hi) (h.no_requests hnone) ?_
  intro row hrow
  simp only [setRow, Function.update_self, Option.some_inj] at hrow
  rw [← hrow]
  simp

/-- A receipt without a call and a request is released. -/
theorem World.Sound.releaseRow (h : w.Sound)
    (hfree : ∀ i call, w.calls i = some call → call.key ≠ key) (hzero : requests key w.log = 0) :
    ({ w with rows := EmailSend.release w.rows key } : World).Sound := by
  unfold EmailSend.release
  split
  · split_ifs
    · refine h.replaceRow (fun k hk => Function.update_of_ne hk _ _) hfree hzero ?_
      simp [setRow]
    · exact h
  · exact h

/-- A call stores its result. -/
theorem World.Sound.complete (h : w.Sound) {call : Call} (hcall : w.calls id = some call)
    (hstage : call.stage ≠ .claimed) (result : OpenWriteResult) (outcome : Outcome) :
    (w.complete call result outcome).Sound := by
  have hmade := h.requested id call hcall hstage
  obtain ⟨hrow, hunique⟩ := h.calls id call hcall
  obtain ⟨row, hrow⟩ := Option.isSome_iff_exists.1 hrow
  have hcomplete : EmailSend.complete w.rows call.key (result.payload call.request) =
      setRow w.rows call.key (some ⟨.completed, some (result.payload call.request), none⟩) := by
    simp [EmailSend.complete, hrow]
  have hsome : ∀ k, (w.rows k).isSome = true → (setRow w.rows call.key
      (some ⟨.completed, some (result.payload call.request), none⟩) k).isSome = true := by
    intro k hk
    simp only [setRow, Function.update_apply]
    split_ifs
    · rfl
    · exact hk
  unfold World.complete
  cases outcome with
  | rolledBack => exact h
  | committed | lost =>
    dsimp only
    rw [hcomplete]
    constructor
    · intro i c hi
      obtain ⟨hsomeRow, hother⟩ := h.calls i c hi
      exact ⟨hsome _ hsomeRow, hother⟩
    · intro i c hi hclaimed
      obtain ⟨hzero, hclaiming⟩ := h.claimed i c hi hclaimed
      refine ⟨requests_stored.trans hzero, fun r hr => ?_⟩
      have hne : c.key ≠ call.key := by
        intro heq
        rw [heq] at hzero
        exact hmade hzero
      simp only [World.record, setRow, Function.update_of_ne hne] at hr
      exact hclaiming r hr
    · intro i c hi hnot
      exact fun hzero => h.requested i c hi hnot (requests_stored.symm.trans hzero)
    · intro k
      refine ⟨requests_stored.le.trans (h.once k).1, fun hk => hsome k ((h.once k).2 ?_)⟩
      exact fun hzero => hk (requests_stored.trans hzero)
    · intro k r hr hstatus
      simp only [World.record, setRow, Function.update_apply] at hr
      split_ifs at hr with hk
      · obtain rfl := Option.some_inj.1 hr
        rw [hk]
        exact ⟨fun hzero => hmade (requests_stored.symm.trans hzero), call.request, result, rfl,
          List.mem_cons_self⟩
      · obtain ⟨hne, request, res, hpayload, hstored⟩ := h.completed k r hr hstatus
        exact ⟨fun hzero => hne (requests_stored.symm.trans hzero), request, res, hpayload,
          List.mem_cons_of_mem _ hstored⟩
    · intro k hk
      simp only [World.record, List.mem_cons, reduceCtorEq, false_or, requests_stored] at hk ⊢
      exact h.responded k hk
    · intro k fingerprint r hr hsays
      simp only [World.record, List.mem_cons, reduceCtorEq, false_or, requests_stored] at hr ⊢
      exact h.failed k fingerprint r hr hsays
    · exact h.replays

theorem payload_fingerprint (result : OpenWriteResult) (request : OpenWriteRequest) :
    Fields.get (result.payload request) "request_fingerprint" = some (.str request.fingerprint) :=
  Fields.get_set_self _ _ _

theorem payload_real (result : OpenWriteResult) (request : OpenWriteRequest) :
    Fields.get (result.payload request) "real" = some (.bool result.real) := by
  rw [OpenWriteResult.payload, Fields.get_set_ne _ _ (by simp)]
  simp [OpenWriteResult.asDict, Fields.get]

/-- A replay of what was stored for another request says so. -/
theorem replayResult_payload (request stored : OpenWriteRequest) (result : OpenWriteResult) :
    (replayResult request (result.payload stored)).idempotencyDecision = "replayed" →
      stored.fingerprint = request.fingerprint := by
  intro h
  by_contra hne
  have hmismatch : fingerprintMismatch request (result.payload stored) = true := by
    simp [fingerprintMismatch, payload_fingerprint, stored.fingerprint_ne_empty, hne]
  rw [replayResult, if_pos hmismatch] at h
  exact absurd h (by simp [failedResult])

/-- What `try_claim` answers and writes. -/
theorem tryClaim_cases (rows : Receipts) (key : ReceiptKey) :
    (rows key = none ∧ tryClaim rows key =
        (.newlyClaimed, setRow rows key (some ⟨.claiming, none, none⟩))) ∨
      tryClaim rows key = (.inFlight, rows) ∨
      ∃ row, rows key = some row ∧ row.status = .completed ∧
        tryClaim rows key = (.replayed (row.resultPayload.getD []), rows) := by
  unfold tryClaim
  split
  next hnone => exact Or.inl ⟨hnone, rfl⟩
  next row hrow =>
    split_ifs with hcompleted
    · exact Or.inr (Or.inr ⟨row, hrow, hcompleted, rfl⟩)
    · exact Or.inr (Or.inl rfl)

theorem Outcome.apply_same (outcome : Outcome) (rows : Receipts) :
    outcome.apply rows rows = rows := by
  cases outcome <;> rfl

/-- A call that has claimed a key without a receipt. -/
theorem World.Sound.beginCall (h : w.Sound) (hnone : w.rows key = none) {call : Call}
    (hkey : call.key = key) (hstage : call.stage = .claimed) :
    ({ rows := setRow w.rows key (some ⟨.claiming, none, none⟩)
       calls := Function.update w.calls id (some call)
       log := w.log } : World).Sound := by
  have hrow := h.claimRow hnone
  have hcalls : ∀ i c, Function.update w.calls id (some call) i = some c →
      (i = id ∧ c = call) ∨ (i ≠ id ∧ w.calls i = some c) := by
    intro i c hi
    rw [Function.update_apply] at hi
    split_ifs at hi with heq
    · exact Or.inl ⟨heq, (Option.some_inj.1 hi).symm⟩
    · exact Or.inr ⟨heq, hi⟩
  refine ⟨fun i c hi => ?_, fun i c hi hclaimed => ?_, fun i c hi hnot => ?_, hrow.once,
    hrow.completed, hrow.responded, hrow.failed, hrow.replays⟩
  · rcases hcalls i c hi with ⟨rfl, rfl⟩ | ⟨-, hold⟩
    · refine ⟨by simp [setRow, hkey], fun i' c' hi' heq => ?_⟩
      rcases hcalls i' c' hi' with ⟨rfl, -⟩ | ⟨-, hold'⟩
      · rfl
      · exact absurd (heq.trans hkey) (h.no_calls hnone hold')
    · obtain ⟨hsome, hunique⟩ := hrow.calls i c hold
      refine ⟨hsome, fun i' c' hi' heq => ?_⟩
      rcases hcalls i' c' hi' with ⟨-, rfl⟩ | ⟨-, hold'⟩
      · exact absurd (heq.symm.trans hkey) (h.no_calls hnone hold)
      · exact hunique i' c' hold' heq
  · rcases hcalls i c hi with ⟨-, rfl⟩ | ⟨-, hold⟩
    · refine ⟨by rw [hkey]; exact h.no_requests hnone, fun row hr => ?_⟩
      simp only [hkey, setRow, Function.update_self, Option.some_inj] at hr
      rw [← hr]
    · exact hrow.claimed i c hold hclaimed
  · rcases hcalls i c hi with ⟨-, rfl⟩ | ⟨-, hold⟩
    · exact absurd hstage hnot
    · exact h.requested i c hold hnot

theorem World.Sound.claim (h : w.Sound) (id tenantId idempotencyKey : String)
    (request : OpenWriteRequest) (outcome : Outcome) :
    (w.claim id tenantId idempotencyKey request outcome).Sound := by
  unfold World.claim
  dsimp only
  split_ifs
  · exact h
  · set key : ReceiptKey := ⟨tenantId, openWriteAction, strip idempotencyKey⟩
    rcases tryClaim_cases w.rows key with ⟨hnone, hclaim⟩ | hflight | ⟨row, hrow, hstatus, hreplay⟩
    · rw [hclaim]
      cases outcome with
      | rolledBack => exact h
      | lost => exact h.claimRow hnone
      | committed => exact h.beginCall hnone rfl rfl
    · rw [hflight]
      dsimp only
      rw [Outcome.apply_same]
      split
      · exact h
      · contradiction
      · contradiction
      · apply h.return
        · simp [OpenWriteResult.saysFailed, failedResult]
        · intro hreplayed
          simp [failedResult] at hreplayed
    · rw [hreplay]
      dsimp only
      rw [Outcome.apply_same]
      split
      · exact h
      · contradiction
      next cached _ heq =>
        obtain rfl := ClaimStatus.replayed.inj heq
        obtain ⟨hmade, stored, result, hpayload, hstored⟩ := h.completed key row hrow hstatus
        rw [hpayload, Option.getD_some]
        apply h.return
        · intro _
          exact hmade
        · intro hreplayed
          have hsame := replayResult_payload request stored result hreplayed
          rw [hsame] at hstored
          exact ⟨request, _, hstored, rfl, rfl⟩
      · contradiction

theorem World.Sound.limit (h : w.Sound) (id retryAfterSeconds : String) (outcome : Outcome) :
    (w.limit id retryAfterSeconds outcome).Sound := by
  unfold World.limit
  split
  next call hcall =>
    split_ifs with hstage
    · have hended := h.endCall id
      have hzero := (h.claimed id call hcall hstage).1
      have hfree : ∀ i c, (w.setCall id none).calls i = some c → c.key ≠ call.key := by
        intro i c hi heq
        simp only [World.setCall, Function.update_apply] at hi
        split_ifs at hi with hne
        exact hne ((h.calls id call hcall).2 i c hi heq)
      let rows : Receipts := outcome.apply w.rows (EmailSend.release w.rows call.key)
      have hreleased : (({ w with rows } : World).setCall id none).Sound := by
        cases outcome with
        | rolledBack => exact hended
        | committed | lost => exact hended.releaseRow hfree hzero
      apply hreleased.return
      · simp [OpenWriteResult.saysFailed, failedResult]
      · intro hreplayed
        simp [failedResult] at hreplayed
    · exact h
  · exact h

/-- The one request of a claim. -/
theorem World.Sound.request (h : w.Sound) (id : String) (remaining : ℤ) {stage : Stage}
    (hstage : stage ≠ .claimed) (responded : Bool) :
    (w.request id remaining stage (w.eventsOf id responded)).Sound := by
  unfold World.request
  split
  next call hcall =>
    split_ifs with hclaimed
    · obtain ⟨hrow, hunique⟩ := h.calls id call hcall
      obtain ⟨hzero, hclaiming⟩ := h.claimed id call hcall hclaimed
      have hlog : ∀ k, requests k (w.eventsOf id responded ++ w.log) =
          requests k w.log + if call.key = k then 1 else 0 := by
        intro k
        cases responded
        · simp [World.eventsOf, hcall, requests_requested]
        · simp [World.eventsOf, hcall, requests_requested]
      have hkept : ∀ k, requests k w.log ≠ 0 →
          requests k (w.eventsOf id responded ++ w.log) ≠ 0 := by
        intro k hk
        rw [hlog]
        omega
      have hmade : requests call.key (w.eventsOf id responded ++ w.log) ≠ 0 := by
        rw [hlog, if_pos rfl]
        omega
      have hcalls : ∀ i c, Function.update w.calls id (some { call with remaining, stage }) i =
          some c → (i = id ∧ c = { call with remaining, stage }) ∨ (i ≠ id ∧ w.calls i = some c) := by
        intro i c hi
        rw [Function.update_apply] at hi
        split_ifs at hi with heq
        · exact Or.inl ⟨heq, (Option.some_inj.1 hi).symm⟩
        · exact Or.inr ⟨heq, hi⟩
      have hmem : ∀ event, event ∈ w.log → event ∈ w.eventsOf id responded ++ w.log :=
        fun event hevent => List.mem_append_right _ hevent
      constructor
      · intro i c hi
        have hsame : ∀ i' c', Function.update w.calls id (some { call with remaining, stage }) i' =
            some c' → ∃ c'', w.calls i' = some c'' ∧ c''.key = c'.key := by
          intro i' c' hi'
          rcases hcalls i' c' hi' with ⟨rfl, rfl⟩ | ⟨-, hold⟩
          · exact ⟨call, hcall, rfl⟩
          · exact ⟨c', hold, rfl⟩
        obtain ⟨c₀, hc₀, hkey⟩ := hsame i c hi
        obtain ⟨hsome, hone⟩ := h.calls i c₀ hc₀
        rw [hkey] at hsome hone
        refine ⟨hsome, fun i' c' hi' heq => ?_⟩
        obtain ⟨c₁, hc₁, hkey'⟩ := hsame i' c' hi'
        exact hone i' c₁ hc₁ (hkey'.trans heq)
      · intro i c hi hc
        rcases hcalls i c hi with ⟨rfl, rfl⟩ | ⟨hne, hold⟩
        · exact absurd hc hstage
        · obtain ⟨hz, hrowClaiming⟩ := h.claimed i c hold hc
          refine ⟨?_, hrowClaiming⟩
          change requests c.key (w.eventsOf id responded ++ w.log) = 0
          rw [hlog, hz, if_neg]
          intro heq
          exact hne (hunique i c hold heq.symm)
      · intro i c hi hc
        rcases hcalls i c hi with ⟨rfl, rfl⟩ | ⟨-, hold⟩
        · exact hmade
        · exact hkept _ (h.requested i c hold hc)
      · intro k
        change requests k (w.eventsOf id responded ++ w.log) ≤ 1 ∧
          (requests k (w.eventsOf id responded ++ w.log) ≠ 0 → (w.rows k).isSome = true)
        rw [hlog]
        split_ifs with hk
        · rw [← hk, hzero]
          exact ⟨le_rfl, fun _ => hrow⟩
        · exact h.once k
      · intro k row hr hstatus
        obtain ⟨hne, req, result, hpayload, hstored⟩ := h.completed k row hr hstatus
        exact ⟨hkept k hne, req, result, hpayload, hmem _ hstored⟩
      · intro k hk
        rcases List.mem_append.1 hk with hnew | hold
        · have hkey : k = call.key := by
            cases responded <;> simp [World.eventsOf, hcall] at hnew
            exact hnew
          rw [hkey]
          exact hmade
        · exact hkept k (h.responded k hold)
      · intro k fingerprint result hr hsays
        rcases List.mem_append.1 hr with hnew | hold
        · cases responded <;> simp [World.eventsOf, hcall] at hnew
        · exact hkept k (h.failed k fingerprint result hold hsays)
      · cases responded
        · simpa [World.eventsOf, World.setCall, hcall, ReplaysFaithfully] using h.replays
        · simpa [World.eventsOf, World.setCall, hcall, ReplaysFaithfully] using h.replays
    · exact h
  · exact h

/-- A call that goes on after its request. -/
theorem World.Sound.setStage (h : w.Sound) {call : Call} (hcall : w.calls id = some call)
    (hmade : call.stage ≠ .claimed) {stage : Stage} (hstage : stage ≠ .claimed) :
    (w.setCall id (some { call with stage })).Sound := by
  have hcalls : ∀ i c, (w.setCall id (some { call with stage })).calls i = some c →
      ∃ c', w.calls i = some c' ∧ c'.key = c.key ∧ (c.stage = .claimed → c' = c) := by
    intro i c hi
    simp only [World.setCall, Function.update_apply] at hi
    split_ifs at hi with heq
    · obtain rfl := Option.some_inj.1 hi
      rw [heq]
      exact ⟨call, hcall, rfl, fun hc => absurd hc hstage⟩
    · exact ⟨c, hi, rfl, fun _ => rfl⟩
  refine ⟨fun i c hi => ?_, fun i c hi hc => ?_, fun i c hi hc => ?_, h.once, h.completed,
    h.responded, h.failed, h.replays⟩
  · obtain ⟨c₀, hc₀, hkey, -⟩ := hcalls i c hi
    obtain ⟨hsome, hone⟩ := h.calls i c₀ hc₀
    rw [hkey] at hsome hone
    refine ⟨hsome, fun i' c' hi' heq => ?_⟩
    obtain ⟨c₁, hc₁, hkey', -⟩ := hcalls i' c' hi'
    exact hone i' c₁ hc₁ (hkey'.trans heq)
  · obtain ⟨c₀, hc₀, -, hsame⟩ := hcalls i c hi
    rw [hsame hc] at hc₀
    exact h.claimed i c hc₀ hc
  · simp only [World.setCall, Function.update_apply] at hi
    split_ifs at hi with heq
    · obtain rfl := Option.some_inj.1 hi
      exact h.requested id call hcall hmade
    · exact h.requested i c hi hc

theorem World.complete_calls (call : Call) (result : OpenWriteResult) (outcome : Outcome) :
    (w.complete call result outcome).calls = w.calls := by
  cases outcome <;> rfl

theorem World.complete_requests (call : Call) (result : OpenWriteResult) (outcome : Outcome) :
    requests key (w.complete call result outcome).log = requests key w.log := by
  cases outcome with
  | rolledBack => rfl
  | committed | lost => exact requests_stored

theorem World.Sound.store (h : w.Sound) (id : String) (outcome : Outcome) :
    (w.store id outcome).Sound := by
  unfold World.store
  split
  next call hcall =>
    split
    next response hstage =>
      have hnot : call.stage ≠ .claimed := by simp [hstage]
      have hstored := h.complete hcall hnot (responseResult call.request response call.remaining)
        outcome
      dsimp only
      split
      · apply (hstored.endCall id).return
        · simp [OpenWriteResult.saysFailed, responseResult]
        · intro hreplayed
          simp [responseResult] at hreplayed
      · refine hstored.setStage ?_ hnot ?_
        · rw [World.complete_calls]
          exact hcall
        · simp
    · exact h
  · exact h

theorem World.Sound.storeFailure (h : w.Sound) (id : String) (outcome : Outcome) :
    (w.storeFailure id outcome).Sound := by
  unfold World.storeFailure
  split
  next call hcall =>
    split
    next error hstage =>
      have hnot : call.stage ≠ .claimed := by simp [hstage]
      have hstored := h.complete hcall hnot
        (failedResult call.request error "failed_finalized" (some call.remaining)) outcome
      apply (hstored.endCall id).return
      · intro _
        change requests call.key (w.complete call _ outcome).log ≠ 0
        rw [World.complete_requests]
        exact h.requested id call hcall hnot
      · intro hreplayed
        simp [failedResult] at hreplayed
    · exact h
  · exact h

theorem World.Sound.step (h : w.Sound) (a : Action) : (w.step a).Sound := by
  cases a with
  | claim id tenantId idempotencyKey request outcome =>
    exact h.claim id tenantId idempotencyKey request outcome
  | limit id retryAfterSeconds outcome => exact h.limit id retryAfterSeconds outcome
  | respond id remaining response => exact h.request id remaining (by simp) true
  | raise id remaining error => exact h.request id remaining (by simp) false
  | store id outcome => exact h.store id outcome
  | storeFailure id outcome => exact h.storeFailure id outcome
  | crash id => exact h.endCall id

theorem sound_of_run (as : List Action) : (exec World.step World.start as).Sound :=
  exec_preserves (fun _ a h => h.step a) .start as

end Soundness

/-- No one takes a request for failed that got a response. -/
structure World.Honest (w : World) : Prop where
  raised : ∀ id call error, w.calls id = some call → call.stage = .raised error →
    Event.responded call.key ∉ w.log
  completed : ∀ key row, w.rows key = some row → row.status = .completed →
    Event.responded key ∈ w.log → ∃ payload, row.resultPayload = some payload ∧
      Fields.get payload "real" = some (.bool true)
  results : NoFalseFailure w.log

section Honesty
variable {w : World} {key : ReceiptKey} {id : String}

theorem World.Honest.start : World.start.Honest := by
  constructor <;> simp [World.start, NoFalseFailure]

theorem World.Honest.endCall (h : w.Honest) (id : String) : (w.setCall id none).Honest := by
  refine ⟨fun i call error hi => ?_, h.completed, h.results⟩
  simp only [World.setCall, Function.update_apply] at hi
  split_ifs at hi
  exact h.raised i call error hi

theorem World.Honest.return (h : w.Honest) (call : Call) {result : OpenWriteResult}
    (hresult : Event.responded call.key ∈ w.log → result.saysFailed = false) :
    (w.return call result).Honest := by
  refine ⟨fun i c error hi hstage => ?_, fun k row hrow hstatus hk => ?_,
    fun k fingerprint r hk hr => ?_⟩
  · simpa [World.return, World.record] using h.raised i c error hi hstage
  · exact h.completed k row hrow hstatus (by simpa [World.return, World.record] using hk)
  · have hold : Event.responded k ∈ w.log := by simpa [World.return, World.record] using hk
    simp only [World.return, World.record, List.mem_cons, Event.returned.injEq] at hr
    rcases hr with ⟨rfl, -, rfl⟩ | hr
    · exact hresult hold
    · exact h.results k fingerprint r hold hr

theorem World.Honest.replaceRow (h : w.Honest) {rows : Receipts}
    (hrows : ∀ k row, rows k = some row → row.status = .completed → w.rows k = some row) :
    ({ w with rows } : World).Honest :=
  ⟨h.raised, fun k row hrow hstatus => h.completed k row (hrows k row hrow hstatus) hstatus,
    h.results⟩

theorem World.Honest.setStage (h : w.Honest) {call : Call}
    (hcall : ∀ error, call.stage = .raised error → Event.responded call.key ∉ w.log) :
    (w.setCall id (some call)).Honest := by
  refine ⟨fun i c error hi hstage => ?_, h.completed, h.results⟩
  simp only [World.setCall, Function.update_apply] at hi
  split_ifs at hi
  · obtain rfl := Option.some_inj.1 hi
    exact hcall error hstage
  · exact h.raised i c error hi hstage

/-- A stored result that does not contradict a response. -/
theorem World.Honest.complete (h : w.Honest) (call : Call) {result : OpenWriteResult}
    (hreal : Event.responded call.key ∈ w.log → result.real = true) (outcome : Outcome) :
    (w.complete call result outcome).Honest := by
  let rows : Receipts := EmailSend.complete w.rows call.key (result.payload call.request)
  have hstored : ({ w with rows } : World).Honest := by
    refine ⟨h.raised, fun k row hrow hstatus hk => ?_, h.results⟩
    dsimp only [rows] at hrow hk
    unfold EmailSend.complete at hrow
    cases hold : w.rows call.key with
    | none =>
      simp only [hold] at hrow
      exact h.completed k row hrow hstatus hk
    | some _ =>
      simp only [hold, setRow, Function.update_apply] at hrow
      split_ifs at hrow with heq
      · obtain rfl := Option.some_inj.1 hrow
        refine ⟨_, rfl, ?_⟩
        rw [payload_real, hreal (heq ▸ hk)]
      · exact h.completed k row hrow hstatus hk
  unfold World.complete
  cases outcome with
  | rolledBack => exact h
  | committed | lost =>
    refine ⟨fun i c error hi hstage => ?_, fun k row hrow hstatus hk => ?_,
      fun k fingerprint r hk hr => ?_⟩
    · simpa [World.record] using hstored.raised i c error hi hstage
    · exact hstored.completed k row hrow hstatus (by simpa [World.record] using hk)
    · exact h.results k fingerprint r (by simpa [World.record] using hk)
        (by simpa [World.record] using hr)

theorem World.Sound.no_response (h : w.Sound) (hzero : requests key w.log = 0) :
    Event.responded key ∉ w.log := by
  intro hk
  exact h.responded key hk hzero

theorem World.Honest.claim (h : w.Honest) (id tenantId idempotencyKey : String)
    (request : OpenWriteRequest) (outcome : Outcome) :
    (w.claim id tenantId idempotencyKey request outcome).Honest := by
  unfold World.claim
  dsimp only
  split_ifs
  · exact h
  · set key : ReceiptKey := ⟨tenantId, openWriteAction, strip idempotencyKey⟩
    rcases tryClaim_cases w.rows key with ⟨hnone, hclaim⟩ | hflight | ⟨row, hrow, hstatus, hreplay⟩
    · have hclaimed : ({ w with rows := setRow w.rows key (some ⟨.claiming, none, none⟩) } :
          World).Honest := by
        apply h.replaceRow
        intro k row hrow hstatus
        simp only [setRow, Function.update_apply] at hrow
        split_ifs at hrow
        · obtain rfl := Option.some_inj.1 hrow
          cases hstatus
        · exact hrow
      rw [hclaim]
      cases outcome with
      | rolledBack => exact h
      | lost => exact hclaimed
      | committed => exact hclaimed.setStage (by simp)
    · rw [hflight]
      dsimp only
      rw [Outcome.apply_same]
      split
      · exact h
      · contradiction
      · contradiction
      · apply h.return
        simp [OpenWriteResult.saysFailed, failedResult]
    · rw [hreplay]
      dsimp only
      rw [Outcome.apply_same]
      split
      · exact h
      · contradiction
      next cached _ heq =>
        obtain rfl := ClaimStatus.replayed.inj heq
        apply h.return
        intro hresponded
        obtain ⟨payload, hpayload, hreal⟩ := h.completed key row hrow hstatus hresponded
        rw [hpayload, Option.getD_some, replayResult]
        split_ifs
        · simp [OpenWriteResult.saysFailed, failedResult]
        · simp [OpenWriteResult.saysFailed, hreal, Json.truthy]
      · contradiction

theorem stored_of_release {rows : Receipts} {k : ReceiptKey} {row : EmailSendIdempotencyReceipt}
    (h : EmailSend.release rows key k = some row) : rows k = some row := by
  unfold EmailSend.release at h
  cases hold : rows key with
  | none =>
    simp only [hold] at h
    exact h
  | some stored =>
    simp only [hold] at h
    split_ifs at h
    · simp only [setRow, Function.update_apply] at h
      split_ifs at h
      exact h
    · exact h

theorem World.Honest.limit (h : w.Honest) (id retryAfterSeconds : String) (outcome : Outcome) :
    (w.limit id retryAfterSeconds outcome).Honest := by
  unfold World.limit
  split
  next call hcall =>
    split_ifs
    · let rows : Receipts := outcome.apply w.rows (EmailSend.release w.rows call.key)
      have hreleased : ({ w with rows } : World).Honest := by
        apply h.replaceRow
        intro k row hrow hstatus
        cases outcome with
        | rolledBack => exact hrow
        | committed | lost => exact stored_of_release hrow
      apply (hreleased.endCall id).return
      simp [OpenWriteResult.saysFailed, failedResult]
    · exact h
  · exact h

theorem World.Honest.respond (hs : w.Sound) (h : w.Honest) (id : String) (remaining : ℤ)
    (response : NetworkResponse) :
    (w.request id remaining (.responded response) (w.eventsOf id true)).Honest := by
  unfold World.request
  split
  next call hcall =>
    split_ifs with hclaimed
    · obtain ⟨hzero, hclaiming⟩ := hs.claimed id call hcall hclaimed
      have hunique := (hs.calls id call hcall).2
      have hset : (w.setCall id (some { call with remaining, stage := .responded response })).Honest :=
        h.setStage (by simp)
      have hnew : ∀ k, Event.responded k ∈ w.eventsOf id true ++ w.log →
          k = call.key ∨ Event.responded k ∈ w.log := by
        intro k hk
        simpa [World.eventsOf, hcall] using hk
      refine ⟨fun i c error hi hstage hk => ?_, fun k row hrow hstatus hk => ?_,
        fun k fingerprint r hk hr => ?_⟩
      · rcases hnew c.key hk with heq | hold
        · simp only [World.setCall, Function.update_apply] at hi
          split_ifs at hi with hne
          · obtain rfl := Option.some_inj.1 hi
            cases hstage
          · exact hne (hunique i c hi heq)
        · exact hset.raised i c error hi hstage hold
      · rcases hnew k hk with rfl | hold
        · have hstate := hclaiming row hrow
          rw [hstatus] at hstate
          cases hstate
        · exact h.completed k row hrow hstatus hold
      · have hrold : Event.returned k fingerprint r ∈ w.log := by
          simpa [World.eventsOf, World.setCall, hcall] using hr
        rcases hnew k hk with rfl | hold
        · by_contra hsays
          rw [Bool.not_eq_false] at hsays
          exact hs.failed _ _ _ hrold hsays hzero
        · exact h.results k fingerprint r hold hrold
    · exact h
  · exact h

theorem World.Honest.raise (hs : w.Sound) (h : w.Honest) (id : String) (remaining : ℤ)
    (error : String) :
    (w.request id remaining (.raised error) (w.eventsOf id false)).Honest := by
  unfold World.request
  split
  next call hcall =>
    split_ifs with hclaimed
    · have hzero := (hs.claimed id call hcall hclaimed).1
      have hset : (w.setCall id (some { call with remaining, stage := .raised error })).Honest :=
        h.setStage fun _ _ => hs.no_response hzero
      have hnew : ∀ k, Event.responded k ∈ w.eventsOf id false ++ w.log →
          Event.responded k ∈ w.log := by
        intro k hk
        simpa [World.eventsOf, hcall] using hk
      refine ⟨fun i c e hi hstage hk => hset.raised i c e hi hstage (hnew _ hk),
        fun k row hrow hstatus hk => h.completed k row hrow hstatus (hnew k hk),
        fun k fingerprint r hk hr => h.results k fingerprint r (hnew k hk) ?_⟩
      simpa [World.eventsOf, World.setCall, hcall] using hr
    · exact h
  · exact h

theorem World.Honest.store (h : w.Honest) (id : String) :
    (w.store id .committed).Honest := by
  unfold World.store
  split
  next call hcall =>
    split
    next response _ =>
      have hstored := h.complete call
        (fun _ => (rfl : (responseResult call.request response call.remaining).real = true))
        .committed
      apply (hstored.endCall id).return
      intro _
      simp [OpenWriteResult.saysFailed, responseResult]
    · exact h
  · exact h

theorem World.Honest.storeFailure (h : w.Honest) (id : String) (outcome : Outcome) :
    (w.storeFailure id outcome).Honest := by
  unfold World.storeFailure
  split
  next call hcall =>
    split
    next error hstage =>
      have hnone := h.raised id call error hcall hstage
      have hreal : Event.responded call.key ∈ w.log →
          (failedResult call.request error "failed_finalized"
            (some call.remaining)).real = true :=
        fun hk => absurd hk hnone
      have hstored := h.complete call hreal outcome
      apply (hstored.endCall id).return
      intro hk
      refine absurd ?_ hnone
      cases outcome <;> simpa [World.complete, World.setCall, World.record] using hk
    · exact h
  · exact h

theorem World.Honest.step (hs : w.Sound) (h : w.Honest) {a : Action}
    (ha : storesResponse a = true) : (w.step a).Honest := by
  cases a with
  | claim id tenantId idempotencyKey request outcome =>
    exact h.claim id tenantId idempotencyKey request outcome
  | limit id retryAfterSeconds outcome => exact h.limit id retryAfterSeconds outcome
  | respond id remaining response => exact World.Honest.respond hs h id remaining response
  | raise id remaining error => exact World.Honest.raise hs h id remaining error
  | store id outcome =>
    obtain rfl : outcome = .committed := by simpa [storesResponse] using ha
    exact h.store id
  | storeFailure id outcome => exact h.storeFailure id outcome
  | crash id => exact h.endCall id

end Honesty

theorem honest_of_run {as : List Action} (hstores : ∀ a ∈ as, storesResponse a = true) {w : World}
    (hs : w.Sound) (h : w.Honest) : (exec World.step w as).Honest := by
  induction as generalizing w with
  | nil => exact h
  | cons a as ih =>
    exact ih (fun b hb => hstores b (by simp [hb])) (hs.step a)
      (World.Honest.step hs h (hstores a (by simp)))

/-- In every run a key sends one request and replays faithfully. When every completion after a
response is stored, no call says of a request with a response that it failed. -/
theorem open_write_once (as : List Action) :
    let w := exec World.step World.start as
    (∀ key, requests key w.log ≤ 1) ∧ ReplaysFaithfully w.log ∧
      ((∀ a ∈ as, storesResponse a = true) → NoFalseFailure w.log) := by
  intro w
  have hsound : w.Sound := sound_of_run as
  refine ⟨fun key => (hsound.once key).1, hsound.replays, fun hstores => ?_⟩
  exact (honest_of_run hstores .start .start).results

def sampleRequest : OpenWriteRequest := ⟨"POST", "https://example.com/form", "digest", by decide⟩

/-- The response of the first call is not stored, and its handler stores a failure. -/
def lostCompletion : List Action :=
  [.claim "first" "tenant" "key" sampleRequest .committed,
    .respond "first" 19 ⟨200, "ok", false⟩, .store "first" (.rolledBack "connection lost"),
    .storeFailure "first" .committed, .claim "second" "tenant" "key" sampleRequest .committed]

/-- The first call returns a failure and the second one replays it. -/
theorem lost_completion_replayed :
    let w := exec World.step World.start lostCompletion
    let key : ReceiptKey := ⟨"tenant", openWriteAction, "key"⟩
    let failed := failedResult sampleRequest "connection lost" "failed_finalized" (some 19)
    Event.responded key ∈ w.log ∧ Event.returned key "digest" failed ∈ w.log ∧
      Event.returned key "digest" { failed with
        rateLimitRemaining := none, idempotencyDecision := "replayed" } ∈ w.log ∧
      ¬NoFalseFailure w.log := by
  intro w key failed
  have hresponded : Event.responded key ∈ w.log := by decide +kernel
  have hreturned : Event.returned key "digest" failed ∈ w.log := by decide +kernel
  refine ⟨hresponded, hreturned, by decide +kernel, ?_⟩
  intro h
  have hsays := h key "digest" failed hresponded hreturned
  cases hsays

end Ajenda.OpenWrite
