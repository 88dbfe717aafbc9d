import Ajenda.StripePlanSync
import Ajenda.ReadCommitted
import Mathlib.Data.List.Sort
import Mathlib.Data.List.Nodup

/-!
# Metered usage

`record` commits a pending dispatch; `publish_one` reads it without a lock and `publish_due`
locks the batch it reads, until its first commit. An attempt looks the tenant's subscription
item up, reports the usage under the dispatch's idempotency key and commits the columns it
changed. A worker may die at any point. Stripe applies one usage record per key, repeats its
answer for the same parameters and refuses the key with others.
-/
namespace Ajenda.BillingMeter
open TransitionSystem KeyedRows
open StripeSync (Settings priceIdToPlan)

inductive Status
  | pending
  | delivered
  | skipped
  deriving DecidableEq, Repr

/-- Times are in microseconds. -/
structure BillingMeterDispatch where
  id : String
  tenantId : String
  metric : String
  quantity : ℤ
  status : Status
  attemptCount : ℕ
  nextAttemptAt : ℕ
  lastError : Option String
  stripeSubscriptionItemId : Option String
  reportedAt : Option ℕ
  createdAt : ℕ
  deriving DecidableEq, Repr

structure SubscriptionItem where
  id : String
  price : Option String
  deriving DecidableEq, Repr

structure UsageParams where
  subscriptionItem : String
  quantity : ℤ
  timestamp : ℕ
  deriving DecidableEq, Repr

/-- How an attempt's report ends: Stripe has the usage, nothing to report it to, Stripe was
not reached or did not answer, or Stripe refuses the key. -/
inductive Outcome
  | reported (subscriptionItemId : String)
  | notReported (detail : String)
  | raised (error : String)
  | refused (error : String)
  deriving DecidableEq, Repr

inductive Phase
  | reading
  | calling (subscriptionItemId : String)
  | done (outcome : Outcome)
  deriving DecidableEq, Repr

/-- A publisher with the rows it has read and not yet committed, the current one first. -/
structure Worker where
  queue : List BillingMeterDispatch
  phase : Phase
  deriving DecidableEq, Repr

/-- A committed attempt, and whether Stripe had the dispatch's usage by then. -/
structure Attempt where
  dispatchId : String
  outcome : Outcome
  accepted : Bool
  deriving DecidableEq, Repr

/-- The committed rows with their locks, the tenants' customer ids, the active subscriptions
and the usage records at Stripe by idempotency key, the open publishers, and of the history
the usage Stripe has counted and the committed attempts. -/
structure World where
  ids : List String
  dispatches : String → Option BillingMeterDispatch
  locks : String → Option ℕ
  tenants : String → Option (Option String)
  subscriptions : String → List (List SubscriptionItem)
  usage : String → Option UsageParams
  workers : ℕ → Option Worker
  counted : List (String × UsageParams)
  attempts : List Attempt

def World.start : World :=
  ⟨[], fun _ => none, fun _ => none, fun _ => none, fun _ => [], fun _ => none, fun _ => none,
    [], []⟩

def supportedMetrics : List String := ["missions", "tasks", "agents", "api_calls"]

def idempotencyKey (dispatchId : String) : String := "billing-meter:" ++ dispatchId

def BillingMeterDispatch.timestamp (d : BillingMeterDispatch) : ℕ := d.createdAt / 1000000

/-- What the publishers never write. -/
def BillingMeterDispatch.intent (d : BillingMeterDispatch) : String × String × String × ℤ × ℕ :=
  (d.id, d.tenantId, d.metric, d.quantity, d.createdAt)

def backoff (attemptCount : ℕ) : ℕ := min 3600 (2 ^ min (max attemptCount 1) 12) * 1000000

section Code
variable (cfg : Settings)

/-- The first item of a known price in the first three active subscriptions. -/
def meteredItem (subscriptions : List (List SubscriptionItem)) : Option String :=
  ((subscriptions.take 3).flatten.find? fun item =>
    item.price.any fun p => p ≠ "" && (priceIdToPlan cfg p).isSome).map SubscriptionItem.id

/-- `report_metered_usage` up to the usage record. `failure` is the error of Stripe's listing,
if it fails. -/
def findItem (w : World) (d : BillingMeterDispatch) (failure : Option String) :
    Except Outcome String :=
  if d.quantity ≤ 0 then .error (.raised "metered usage quantity must be positive")
  else
    match w.tenants d.tenantId with
    | none => .error (.notReported "tenant not found")
    | some customer =>
      match customer.filter (· ≠ "") with
      | none => .error (.notReported "tenant has no Stripe customer")
      | some customerId =>
        match failure with
        | some error => .error (.raised error)
        | none =>
          match meteredItem cfg (w.subscriptions customerId) with
          | none => .error (.notReported "no active metered subscription item")
          | some item => .ok item

def keyReused : String :=
  "Keys for idempotent requests can only be used with the same parameters they were first used with"

/-- Stripe's side of `create_usage_record`. -/
def createUsageRecord (w : World) (key : String) (params : UsageParams) : World × Outcome :=
  match w.usage key with
  | none =>
    ({ w with
        usage := Function.update w.usage key (some params)
        counted := (key, params) :: w.counted }, .reported params.subscriptionItem)
  | some earlier =>
    if earlier = params then (w, .reported params.subscriptionItem)
    else (w, .refused keyReused)

/-- What `_deliver` leaves in the row it has read. -/
def applyOutcome (d : BillingMeterDispatch) (outcome : Outcome) (now : ℕ) :
    BillingMeterDispatch :=
  let attempted := { d with attemptCount := d.attemptCount + 1 }
  match outcome with
  | .raised error | .refused error =>
    { attempted with
      lastError := some error
      nextAttemptAt := now + backoff attempted.attemptCount }
  | .reported item =>
    { attempted with
      lastError := some "usage reported"
      stripeSubscriptionItemId := some item
      status := .delivered
      reportedAt := some now }
  | .notReported detail =>
    { attempted with
      lastError := some detail
      stripeSubscriptionItemId := none
      status := .skipped }

/-- The update of the changed columns. -/
def mergeRow (base new cur : BillingMeterDispatch) : BillingMeterDispatch :=
  { cur with
    status := column base.status new.status cur.status
    attemptCount := column base.attemptCount new.attemptCount cur.attemptCount
    nextAttemptAt := column base.nextAttemptAt new.nextAttemptAt cur.nextAttemptAt
    lastError := column base.lastError new.lastError cur.lastError
    stripeSubscriptionItemId :=
      column base.stripeSubscriptionItemId new.stripeSubscriptionItemId
        cur.stripeSubscriptionItemId
    reportedAt := column base.reportedAt new.reportedAt cur.reportedAt }

def listDuePending (w : World) (now limit : ℕ) : List BillingMeterDispatch :=
  let due := (w.ids.filterMap w.dispatches).filter fun d =>
    d.status = .pending && decide (d.nextAttemptAt ≤ now) && (w.locks d.id).isNone
  (due.mergeSort fun a b =>
    decide (a.nextAttemptAt < b.nextAttemptAt ∨
      (a.nextAttemptAt = b.nextAttemptAt ∧ a.createdAt ≤ b.createdAt))).take limit

def World.setWorker (w : World) (i : ℕ) (worker : Option Worker) : World :=
  { w with workers := Function.update w.workers i worker }

def World.unlock (w : World) (i : ℕ) : World :=
  { w with locks := fun k => if w.locks k = some i then none else w.locks k }

/-- The commit of an attempt at the row `d` that the worker has read. -/
def commitAttempt (w : World) (d : BillingMeterDispatch) (outcome : Outcome) (now : ℕ) : World :=
  match w.dispatches d.id with
  | none => w
  | some cur =>
    { w with
      dispatches := Function.update w.dispatches d.id
        (some (mergeRow d (applyOutcome d outcome now) cur))
      attempts := ⟨d.id, outcome, (w.usage (idempotencyKey d.id)).isSome⟩ :: w.attempts }

inductive Transport
  | answered
  | lost (error : String)
  | unreachable (error : String)
  deriving DecidableEq, Repr

inductive Action
  | record (id tenantId : String) (quantity : ℤ) (metric : String) (now : ℕ)
  | setTenant (tenantId : String) (customerId : Option (Option String))
  | setSubscriptions (customerId : String) (subscriptions : List (List SubscriptionItem))
  | publishOne (i : ℕ) (tenantId dispatchId : String)
  | publishDue (i now limit : ℕ)
  | lookUp (i : ℕ) (failure : Option String)
  | call (i : ℕ) (transport : Transport)
  | commit (i now : ℕ)
  | crash (i : ℕ)

def record (w : World) (id tenantId : String) (quantity : ℤ) (metric : String) (now : ℕ) : World :=
  if quantity ≤ 0 ∨ metric ∉ supportedMetrics then w
  else
    match w.dispatches id with
    | some _ => w
    | none =>
      let dispatch : BillingMeterDispatch := {
        id, tenantId, metric, quantity
        status := .pending
        attemptCount := 0
        nextAttemptAt := now
        lastError := none
        stripeSubscriptionItemId := none
        reportedAt := none
        createdAt := now }
      { w with
        ids := w.ids ++ [id]
        dispatches := Function.update w.dispatches id (some dispatch) }

def callStripe (w : World) (i : ℕ) (worker : Worker) (d : BillingMeterDispatch) (item : String)
    (transport : Transport) : World :=
  let called := createUsageRecord w (idempotencyKey d.id) ⟨item, d.quantity, d.timestamp⟩
  match transport with
  | .answered => called.1.setWorker i (some { worker with phase := .done called.2 })
  | .lost error => called.1.setWorker i (some { worker with phase := .done (.raised error) })
  | .unreachable error => w.setWorker i (some { worker with phase := .done (.raised error) })

def step (w : World) : Action → World
  | .record id tenantId quantity metric now => record w id tenantId quantity metric now
  | .setTenant tenantId customerId =>
      { w with tenants := Function.update w.tenants tenantId customerId }
  | .setSubscriptions customerId subscriptions =>
      { w with subscriptions := Function.update w.subscriptions customerId subscriptions }
  | .publishOne i tenantId dispatchId =>
      match w.workers i, w.dispatches dispatchId with
      | none, some d =>
        if d.tenantId = tenantId ∧ d.status = .pending then
          w.setWorker i (some ⟨[d], .reading⟩)
        else w
      | _, _ => w
  | .publishDue i now limit =>
      match w.workers i with
      | none =>
        let rows := listDuePending w now limit
        if rows = [] then w
        else
          let opened := w.setWorker i (some ⟨rows, .reading⟩)
          { opened with
            locks := fun k => if k ∈ rows.map BillingMeterDispatch.id then some i else w.locks k }
      | some _ => w
  | .lookUp i failure =>
      match w.workers i with
      | some ⟨d :: rest, .reading⟩ =>
        match findItem cfg w d failure with
        | .ok item => w.setWorker i (some ⟨d :: rest, .calling item⟩)
        | .error outcome => w.setWorker i (some ⟨d :: rest, .done outcome⟩)
      | _ => w
  | .call i transport =>
      match w.workers i with
      | some ⟨d :: rest, .calling item⟩ =>
        callStripe w i ⟨d :: rest, .calling item⟩ d item transport
      | _ => w
  | .commit i now =>
      match w.workers i with
      | some ⟨d :: rest, .done outcome⟩ =>
        -- The update waits for a lock that another publisher holds.
        if w.locks d.id = none ∨ w.locks d.id = some i then
          let next : Option Worker := if rest = [] then none else some ⟨rest, .reading⟩
          ((commitAttempt w d outcome now).unlock i).setWorker i next
        else w
      | _ => w
  | .crash i => (w.unlock i).setWorker i none

end Code

variable {cfg : Settings} {w w' : World} {i : ℕ} {d : BillingMeterDispatch}

theorem idempotencyKey_injective : Function.Injective idempotencyKey := by
  intro a b h
  unfold idempotencyKey at h
  simpa using h

theorem mem_listDuePending {now limit : ℕ} (h : d ∈ listDuePending w now limit) :
    d.status = .pending ∧ ∃ id, w.dispatches id = some d := by
  have hdue := List.mem_mergeSort.1 (List.mem_of_mem_take h)
  obtain ⟨hrow, hcond⟩ := List.mem_filter.1 hdue
  obtain ⟨id, -, hid⟩ := List.mem_filterMap.1 hrow
  simp only [Bool.and_eq_true, decide_eq_true_eq] at hcond
  exact ⟨hcond.1.1, id, hid⟩

theorem findItem_error {failure : Option String} {o : Outcome}
    (h : findItem cfg w d failure = .error o) :
    (∃ detail, o = .notReported detail) ∨ ∃ error, o = .raised error := by
  unfold findItem at h
  repeat' split at h
  all_goals cases h
  · exact .inr ⟨_, rfl⟩
  · exact .inl ⟨_, rfl⟩
  · exact .inl ⟨_, rfl⟩
  · exact .inr ⟨_, rfl⟩
  · exact .inl ⟨_, rfl⟩

@[simp] theorem mergeRow_intent (base new cur : BillingMeterDispatch) :
    (mergeRow base new cur).intent = cur.intent := rfl

theorem intent_id {d e : BillingMeterDispatch} (h : d.intent = e.intent) : d.id = e.id := by
  simp only [BillingMeterDispatch.intent, Prod.mk.injEq] at h
  exact h.1

/-- The rows of the open publishers are pending rows of committed intents; Stripe's usage is
that of committed intents, each counted once; a reported outcome has its usage. -/
structure World.Sound (w : World) : Prop where
  keys : ∀ id row, w.dispatches id = some row → row.id = id
  held : ∀ i worker, w.workers i = some worker → ∀ d ∈ worker.queue,
    d.status = .pending ∧ ∃ row, w.dispatches d.id = some row ∧ row.intent = d.intent
  done : ∀ i d rest item, w.workers i = some ⟨d :: rest, .done (.reported item)⟩ →
    (w.usage (idempotencyKey d.id)).isSome = true
  usage : ∀ key p, w.usage key = some p → ∃ id row, key = idempotencyKey id ∧
    w.dispatches id = some row ∧ p.quantity = row.quantity ∧ p.timestamp = row.timestamp
  once : (w.counted.map Prod.fst).Nodup
  counted : ∀ c ∈ w.counted, w.usage c.1 = some c.2
  reported : ∀ a ∈ w.attempts, ∀ item, a.outcome = .reported item →
    (w.usage (idempotencyKey a.dispatchId)).isSome = true

theorem World.Sound.start : World.start.Sound := by
  constructor <;> simp [World.start]

/-- A publisher takes a step that Stripe and the table do not see. -/
theorem World.Sound.setWorker (h : w.Sound) {worker : Option Worker}
    (hqueue : ∀ x, worker = some x → ∀ d ∈ x.queue,
      d.status = .pending ∧ ∃ row, w.dispatches d.id = some row ∧ row.intent = d.intent)
    (hdone : ∀ d rest item, worker = some ⟨d :: rest, .done (.reported item)⟩ →
      (w.usage (idempotencyKey d.id)).isSome = true) :
    (w.setWorker i worker).Sound := by
  have hold : ∀ j x, (w.setWorker i worker).workers j = some x →
      worker = some x ∨ w.workers j = some x := by
    intro j x hj
    simp only [World.setWorker, Function.update_apply] at hj
    split_ifs at hj
    · exact .inl hj
    · exact .inr hj
  refine ⟨h.keys, fun j x hj => ?_, fun j d rest item hj => ?_, h.usage, h.once, h.counted,
    h.reported⟩
  · exact (hold j x hj).elim (hqueue x) (h.held j x)
  · exact (hold j _ hj).elim (hdone d rest item) (h.done j d rest item)

theorem World.Sound.setLocks (h : w.Sound) (locks : String → Option ℕ) :
    ({ w with locks } : World).Sound :=
  ⟨h.keys, h.held, h.done, h.usage, h.once, h.counted, h.reported⟩

theorem World.Sound.environment (h : w.Sound) (tenants : String → Option (Option String))
    (subscriptions : String → List (List SubscriptionItem)) :
    ({ w with tenants, subscriptions } : World).Sound :=
  ⟨h.keys, h.held, h.done, h.usage, h.once, h.counted, h.reported⟩

theorem World.Sound.record (h : w.Sound) (id tenantId : String) (quantity : ℤ) (metric : String)
    (now : ℕ) : (record w id tenantId quantity metric now).Sound := by
  unfold BillingMeter.record
  split_ifs
  · exact h
  · split
    next => exact h
    next hnone =>
      have hold : ∀ k row dispatch, w.dispatches k = some row →
          Function.update w.dispatches id (some dispatch) k = some row := by
        intro k row dispatch hk
        have hne : k ≠ id := by
          rintro rfl
          rw [hnone] at hk
          cases hk
        rw [Function.update_of_ne hne, hk]
      refine ⟨fun k row hk => ?_, fun i worker hi d hd => ?_, h.done, fun key p hp => ?_, h.once,
        h.counted, h.reported⟩
      · dsimp only at hk
        rw [Function.update_apply] at hk
        split_ifs at hk with heq
        · cases hk
          exact heq.symm
        · exact h.keys k row hk
      · obtain ⟨hpending, row, hrow, hintent⟩ := h.held i worker hi d hd
        exact ⟨hpending, row, hold _ _ _ hrow, hintent⟩
      · obtain ⟨k, row, hkey, hrow, hsame⟩ := h.usage key p hp
        exact ⟨k, row, hkey, hold _ _ _ hrow, hsame⟩

/-- Stripe's answer to a usage report, by whether it has the usage already. -/
theorem createUsageRecord_cases (w : World) (key : String) (p : UsageParams) :
    (w.usage key = none ∧ createUsageRecord w key p = ({ w with
      usage := Function.update w.usage key (some p)
      counted := (key, p) :: w.counted }, .reported p.subscriptionItem)) ∨
    (w.usage key = some p ∧ createUsageRecord w key p = (w, .reported p.subscriptionItem)) ∨
    ∃ q, w.usage key = some q ∧ q ≠ p ∧ createUsageRecord w key p = (w, .refused keyReused) := by
  unfold createUsageRecord
  cases hkey : w.usage key with
  | none => exact .inl ⟨rfl, rfl⟩
  | some q =>
    by_cases hq : q = p
    · exact .inr (.inl ⟨by rw [hq], by simp [hq]⟩)
    · exact .inr (.inr ⟨q, rfl, hq, by simp [hq]⟩)

theorem World.Sound.accept (h : w.Sound) {key : String} {p : UsageParams}
    (hnone : w.usage key = none) (hintent : ∃ id row, key = idempotencyKey id ∧
      w.dispatches id = some row ∧ p.quantity = row.quantity ∧ p.timestamp = row.timestamp) :
    ({ w with
      usage := Function.update w.usage key (some p)
      counted := (key, p) :: w.counted } : World).Sound := by
  have hold : ∀ k, (w.usage k).isSome = true →
      (Function.update w.usage key (some p) k).isSome = true := by
    intro k hk
    by_cases hkey : k = key
    · simp [hkey]
    · simpa [hkey] using hk
  refine ⟨h.keys, h.held, fun i d rest item hi => hold _ (h.done i d rest item hi),
    fun k q hq => ?_, ?_, fun c hc => ?_, fun a ha item hitem => hold _ (h.reported a ha item hitem)⟩
  · dsimp only at hq
    rw [Function.update_apply] at hq
    split_ifs at hq with hkey
    · obtain rfl := Option.some_inj.1 hq
      obtain ⟨id, row, hid, hrest⟩ := hintent
      exact ⟨id, row, hkey.trans hid, hrest⟩
    · exact h.usage k q hq
  · rw [List.map_cons]
    refine List.nodup_cons.2 ⟨fun hmem => ?_, h.once⟩
    obtain ⟨c, hc, hkey⟩ := List.mem_map.1 hmem
    have husage := h.counted c hc
    rw [hkey, hnone] at husage
    cases husage
  · rcases List.mem_cons.1 hc with rfl | hc
    · exact Function.update_self _ _ _
    · have husage := h.counted c hc
      have hne : c.1 ≠ key := by
        intro hkey
        rw [hkey, hnone] at husage
        cases husage
      dsimp only
      rw [Function.update_of_ne hne, husage]

theorem World.Sound.finish (h : w.Sound) {worker : Worker} (hworker : w.workers i = some worker)
    {o : Outcome} (hdone : ∀ item, o = .reported item → ∀ d ∈ worker.queue.head?,
      (w.usage (idempotencyKey d.id)).isSome = true) :
    (w.setWorker i (some { worker with phase := .done o })).Sound := by
  refine h.setWorker (fun x hx => ?_) fun d rest item heq => ?_
  · obtain rfl := Option.some_inj.1 hx
    exact h.held i worker hworker
  · simp only [Option.some_inj, Worker.mk.injEq, Phase.done.injEq] at heq
    exact hdone item heq.2 d (by rw [heq.1]; rfl)

/-- A row that a publisher has read reports what its committed row would. -/
theorem World.Sound.params (h : w.Sound) {worker : Worker} (hworker : w.workers i = some worker)
    (hd : d ∈ worker.queue) :
    ∃ row, w.dispatches d.id = some row ∧ d.quantity = row.quantity ∧
      d.timestamp = row.timestamp := by
  obtain ⟨-, row, hrow, hintent⟩ := h.held i worker hworker d hd
  simp only [BillingMeterDispatch.intent, Prod.mk.injEq] at hintent
  exact ⟨row, hrow, by simp [hintent], by simp [BillingMeterDispatch.timestamp, hintent]⟩

theorem World.Sound.callStripe (h : w.Sound) {rest : List BillingMeterDispatch} {item : String}
    (hworker : w.workers i = some ⟨d :: rest, .calling item⟩) (transport : Transport) :
    (callStripe w i ⟨d :: rest, .calling item⟩ d item transport).Sound := by
  obtain ⟨row, hrow, hsame⟩ := h.params hworker List.mem_cons_self
  have hraised : ∀ e v, Outcome.raised e = .reported v → False := fun e v heq => nomatch heq
  unfold BillingMeter.callStripe
  rcases createUsageRecord_cases w (idempotencyKey d.id) ⟨item, d.quantity, d.timestamp⟩ with
    ⟨hnone, heq⟩ | ⟨hsome, heq⟩ | ⟨q, hsome, -, heq⟩
  · have haccepted := h.accept (p := ⟨item, d.quantity, d.timestamp⟩) hnone
      ⟨d.id, row, rfl, hrow, hsame⟩
    rw [heq]
    cases transport with
    | answered =>
      refine haccepted.finish hworker fun v _ e he => ?_
      obtain rfl : d = e := by simpa using he
      simp
    | lost error => exact haccepted.finish hworker fun v hv => (hraised _ v hv).elim
    | unreachable error => exact h.finish hworker fun v hv => (hraised _ v hv).elim
  · rw [heq]
    cases transport with
    | answered =>
      refine h.finish hworker fun v _ e he => ?_
      obtain rfl : d = e := by simpa using he
      simp [hsome]
    | lost error => exact h.finish hworker fun v hv => (hraised _ v hv).elim
    | unreachable error => exact h.finish hworker fun v hv => (hraised _ v hv).elim
  · rw [heq]
    cases transport with
    | answered => exact h.finish hworker fun v hv => nomatch hv
    | lost error => exact h.finish hworker fun v hv => (hraised _ v hv).elim
    | unreachable error => exact h.finish hworker fun v hv => (hraised _ v hv).elim

theorem World.Sound.commitAttempt (h : w.Sound) (d : BillingMeterDispatch) {o : Outcome}
    (hdone : ∀ item, o = .reported item → (w.usage (idempotencyKey d.id)).isSome = true)
    (now : ℕ) : (commitAttempt w d o now).Sound := by
  unfold BillingMeter.commitAttempt
  split
  next => exact h
  next cur hcur =>
    have hold : ∀ k row, w.dispatches k = some row → ∃ row', Function.update w.dispatches d.id
        (some (mergeRow d (applyOutcome d o now) cur)) k = some row' ∧
          row'.intent = row.intent := by
      intro k row hk
      by_cases hkd : k = d.id
      · subst hkd
        rw [hcur, Option.some_inj] at hk
        subst hk
        exact ⟨_, Function.update_self _ _ _, mergeRow_intent _ _ _⟩
      · exact ⟨row, by rw [Function.update_of_ne hkd, hk], rfl⟩
    refine ⟨fun k row hk => ?_, fun i worker hi e he => ?_, h.done, fun key p hp => ?_, h.once,
      h.counted, fun a ha item hitem => ?_⟩
    · dsimp only at hk
      rw [Function.update_apply] at hk
      split_ifs at hk with hkd
      · obtain rfl := Option.some_inj.1 hk
        rw [intent_id (mergeRow_intent d _ cur), h.keys d.id cur hcur, hkd]
      · exact h.keys k row hk
    · obtain ⟨hpending, row, hrow, hintent⟩ := h.held i worker hi e he
      obtain ⟨row', hrow', hintent'⟩ := hold e.id row hrow
      exact ⟨hpending, row', hrow', hintent'.trans hintent⟩
    · obtain ⟨k, row, hkey, hrow, hq, ht⟩ := h.usage key p hp
      obtain ⟨row', hrow', hintent⟩ := hold k row hrow
      simp only [BillingMeterDispatch.intent, Prod.mk.injEq] at hintent
      refine ⟨k, row', hkey, hrow', ?_, ?_⟩
      · rw [hq, hintent.2.2.2.1]
      · rw [ht]
        simp only [BillingMeterDispatch.timestamp, hintent.2.2.2.2]
    · rcases List.mem_cons.1 ha with rfl | ha
      · exact hdone item hitem
      · exact h.reported a ha item hitem

theorem step_sound (h : w.Sound) (a : Action) : (step cfg w a).Sound := by
  cases a with
  | record id tenantId quantity metric now => exact h.record id tenantId quantity metric now
  | setTenant tenantId customerId => exact h.environment _ w.subscriptions
  | setSubscriptions customerId subscriptions => exact h.environment w.tenants _
  | publishOne i tenantId dispatchId =>
    simp only [step]
    split
    next d _ hd =>
      split_ifs with hcond
      · refine h.setWorker (fun x hx e he => ?_) (by simp)
        obtain rfl := Option.some_inj.1 hx
        obtain rfl : e = d := by simpa using he
        refine ⟨hcond.2, e, ?_, rfl⟩
        rw [h.keys dispatchId e hd]
        exact hd
      · exact h
    next => exact h
  | publishDue i now limit =>
    simp only [step]
    split
    · split_ifs
      · exact h
      · refine World.Sound.setLocks (h.setWorker (fun x hx e he => ?_) (by simp)) _
        obtain rfl := Option.some_inj.1 hx
        obtain ⟨hpending, id, hid⟩ := mem_listDuePending he
        refine ⟨hpending, e, ?_, rfl⟩
        rw [h.keys id e hid]
        exact hid
    · exact h
  | lookUp i failure =>
    simp only [step]
    split
    next d rest hworker =>
      have hqueue := h.held i _ hworker
      split
      · refine h.setWorker (fun x hx => ?_) (by simp)
        obtain rfl := Option.some_inj.1 hx
        exact hqueue
      next outcome hfind =>
        refine h.setWorker (fun x hx => ?_) fun e r item heq => ?_
        · obtain rfl := Option.some_inj.1 hx
          exact hqueue
        · simp only [Option.some_inj, Worker.mk.injEq, Phase.done.injEq] at heq
          rcases findItem_error hfind with ⟨detail, rfl⟩ | ⟨error, rfl⟩ <;> cases heq.2
    next => exact h
  | call i transport =>
    simp only [step]
    split
    next d rest item hworker => exact h.callStripe hworker transport
    next => exact h
  | commit i now =>
    simp only [step]
    split
    next d rest outcome hworker =>
      split_ifs with hlock hrest
      · refine World.Sound.setWorker (World.Sound.setLocks
          (h.commitAttempt d (fun item hitem => ?_) now) _) (by simp) (by simp)
        subst hitem
        exact h.done i d rest item hworker
      · have hcommitted := h.commitAttempt d (o := outcome) (fun item hitem => by
          subst hitem
          exact h.done i d rest item hworker) now
        refine World.Sound.setWorker (World.Sound.setLocks hcommitted _) (fun x hx e he => ?_)
          (by simp)
        obtain rfl := Option.some_inj.1 hx
        have hworker' : (commitAttempt w d outcome now).workers i =
            some ⟨d :: rest, .done outcome⟩ := by
          unfold commitAttempt
          split <;> exact hworker
        exact hcommitted.held i _ hworker' e (List.mem_cons_of_mem _ he)
      · exact h
    next => exact h
  | crash i => exact World.Sound.setWorker (h.setLocks _) (by simp) (by simp)

theorem exec_sound (as : List Action) : (exec (step cfg) World.start as).Sound :=
  exec_preserves (I := World.Sound) (fun _ a h => step_sound h a) World.Sound.start as

/-! ### The item an accepted usage went to -/

/-- What an open attempt has found does not contradict the usage `p`. -/
def Phase.Agrees (p : UsageParams) : Phase → Prop
  | .reading => True
  | .calling item => item = p.subscriptionItem
  | .done (.reported _) | .done (.raised _) => True
  | .done (.notReported _) | .done (.refused _) => False

/-- Every attempt at a dispatch finds the item that Stripe accepts its usage for: a lookup
after the acceptance that Stripe answers finds that item, and at the acceptance the dispatch
is not skipped and the open attempts that have looked the item up have found it. -/
def SameItem (cfg : Settings) (w : World) : Action → Prop
  | .lookUp i failure => ∀ d rest p, w.workers i = some ⟨d :: rest, .reading⟩ →
      w.usage (idempotencyKey d.id) = some p →
        match findItem cfg w d failure with
        | .ok item => item = p.subscriptionItem
        | .error o => ∃ error, o = .raised error
  | .call i transport => ∀ d rest item, w.workers i = some ⟨d :: rest, .calling item⟩ →
      (∀ error, transport ≠ .unreachable error) → w.usage (idempotencyKey d.id) = none →
        (∀ row, w.dispatches d.id = some row → row.status ≠ .skipped) ∧
        ∀ j e rest' phase, w.workers j = some ⟨e :: rest', phase⟩ → e.id = d.id →
          phase.Agrees ⟨item, d.quantity, d.timestamp⟩
  | _ => True

/-- The attempt has the usage delivered, or Stripe did not answer. -/
def Outcome.Settled : Outcome → Prop
  | .reported _ | .raised _ => True
  | .notReported _ | .refused _ => False

structure World.Delivering (w : World) : Prop where
  accepted : ∀ id row, (w.usage (idempotencyKey id)).isSome = true →
    w.dispatches id = some row → row.status ≠ .skipped
  agrees : ∀ i d rest phase p, w.workers i = some ⟨d :: rest, phase⟩ →
    w.usage (idempotencyKey d.id) = some p → phase.Agrees p
  settled : ∀ a ∈ w.attempts, a.accepted = true → a.outcome.Settled
  delivered : ∀ a ∈ w.attempts, ∀ item, a.outcome = .reported item →
    ∀ row, w.dispatches a.dispatchId = some row → row.status = .delivered

theorem World.Delivering.start : World.start.Delivering := by
  constructor <;> simp [World.start]

theorem World.Delivering.setWorker (h : w.Delivering) {worker : Option Worker}
    (hworker : ∀ d rest phase p, worker = some ⟨d :: rest, phase⟩ →
      w.usage (idempotencyKey d.id) = some p → phase.Agrees p) :
    (w.setWorker i worker).Delivering := by
  refine ⟨h.accepted, fun j d rest phase p hj => ?_, h.settled, h.delivered⟩
  simp only [World.setWorker, Function.update_apply] at hj
  split_ifs at hj
  · exact hworker d rest phase p hj
  · exact h.agrees j d rest phase p hj

theorem World.Delivering.setLocks (h : w.Delivering) (locks : String → Option ℕ) :
    ({ w with locks } : World).Delivering :=
  ⟨h.accepted, h.agrees, h.settled, h.delivered⟩

theorem World.Delivering.environment (h : w.Delivering)
    (tenants : String → Option (Option String))
    (subscriptions : String → List (List SubscriptionItem)) :
    ({ w with tenants, subscriptions } : World).Delivering :=
  ⟨h.accepted, h.agrees, h.settled, h.delivered⟩

theorem World.Delivering.record (h : w.Delivering) (hsound : w.Sound) (id tenantId : String)
    (quantity : ℤ) (metric : String) (now : ℕ) :
    (record w id tenantId quantity metric now).Delivering := by
  unfold BillingMeter.record
  split_ifs
  · exact h
  · split
    next => exact h
    next hnone =>
      have hnew : w.usage (idempotencyKey id) = none := by
        by_contra hsome
        obtain ⟨p, hp⟩ := Option.ne_none_iff_exists'.1 hsome
        obtain ⟨k, row, hkey, hrow, -⟩ := hsound.usage _ p hp
        rw [← idempotencyKey_injective hkey, hnone] at hrow
        cases hrow
      refine ⟨fun k row husage hk => ?_, h.agrees, h.settled, fun a ha item hitem row hk => ?_⟩
      · dsimp only at husage hk
        rw [Function.update_apply] at hk
        split_ifs at hk with heq
        · rw [heq, hnew] at husage
          cases husage
        · exact h.accepted k row husage hk
      · have husage := hsound.reported a ha item hitem
        dsimp only at hk
        rw [Function.update_apply] at hk
        split_ifs at hk with heq
        · rw [heq, hnew] at husage
          cases husage
        · exact h.delivered a ha item hitem row hk

/-- Stripe accepts the usage of a dispatch whose open attempts agree on the item. -/
theorem World.Delivering.accept (h : w.Delivering) {id : String} {p : UsageParams}
    (hstatus : ∀ row, w.dispatches id = some row → row.status ≠ .skipped)
    (hagrees : ∀ j e rest phase, w.workers j = some ⟨e :: rest, phase⟩ → e.id = id →
      phase.Agrees p) :
    ({ w with
      usage := Function.update w.usage (idempotencyKey id) (some p)
      counted := (idempotencyKey id, p) :: w.counted } : World).Delivering := by
  refine ⟨fun k row husage hk => ?_, fun j d rest phase q hj hq => ?_, h.settled, h.delivered⟩
  · by_cases hkey : k = id
    · subst hkey
      exact hstatus row hk
    · have hne : idempotencyKey k ≠ idempotencyKey id :=
        fun heq => hkey (idempotencyKey_injective heq)
      dsimp only at husage
      rw [Function.update_of_ne hne] at husage
      exact h.accepted k row husage hk
  · by_cases hkey : d.id = id
    · dsimp only at hq
      rw [hkey, Function.update_self, Option.some_inj] at hq
      subst hq
      exact hagrees j d rest phase hj hkey
    · have hne : idempotencyKey d.id ≠ idempotencyKey id :=
        fun heq => hkey (idempotencyKey_injective heq)
      dsimp only at hq
      rw [Function.update_of_ne hne] at hq
      exact h.agrees j d rest phase q hj hq

theorem World.Delivering.finish (h : w.Delivering) {rest : List BillingMeterDispatch} {o : Outcome}
    (ho : ∀ p, w.usage (idempotencyKey d.id) = some p → (Phase.done o).Agrees p) :
    (w.setWorker i (some ⟨d :: rest, .done o⟩)).Delivering := by
  refine h.setWorker fun e r phase p heq husage => ?_
  simp only [Option.some_inj, Worker.mk.injEq, List.cons.injEq] at heq
  obtain ⟨⟨rfl, -⟩, rfl⟩ := heq
  exact ho p husage

theorem World.Delivering.callStripe (h : w.Delivering) (hsound : w.Sound)
    {rest : List BillingMeterDispatch} {item : String}
    (hworker : w.workers i = some ⟨d :: rest, .calling item⟩) {transport : Transport}
    (hguard : (∀ error, transport ≠ .unreachable error) →
      w.usage (idempotencyKey d.id) = none →
        (∀ row, w.dispatches d.id = some row → row.status ≠ .skipped) ∧
        ∀ j e rest' phase, w.workers j = some ⟨e :: rest', phase⟩ → e.id = d.id →
          phase.Agrees ⟨item, d.quantity, d.timestamp⟩) :
    (callStripe w i ⟨d :: rest, .calling item⟩ d item transport).Delivering := by
  unfold BillingMeter.callStripe
  cases transport with
  | unreachable error => exact h.finish fun _ _ => trivial
  | answered =>
    rcases createUsageRecord_cases w (idempotencyKey d.id) ⟨item, d.quantity, d.timestamp⟩ with
      ⟨hnone, heq⟩ | ⟨hsome, heq⟩ | ⟨q, hsome, hne, heq⟩
    · obtain ⟨hstatus, hagrees⟩ := hguard (by simp) hnone
      rw [heq]
      exact (h.accept hstatus hagrees).finish fun _ _ => trivial
    · rw [heq]
      exact h.finish fun _ _ => trivial
    · obtain ⟨row, hrow, hquantity, htimestamp⟩ := hsound.params hworker List.mem_cons_self
      obtain ⟨id, row', hkey, hrow', hquantity', htimestamp'⟩ := hsound.usage _ q hsome
      rw [← idempotencyKey_injective hkey, hrow, Option.some_inj] at hrow'
      subst hrow'
      have hitem : item = q.subscriptionItem := h.agrees i d rest _ q hworker hsome
      refine absurd ?_ hne
      rw [hitem, hquantity, htimestamp, ← hquantity', ← htimestamp']
  | lost error =>
    rcases createUsageRecord_cases w (idempotencyKey d.id) ⟨item, d.quantity, d.timestamp⟩ with
      ⟨hnone, heq⟩ | ⟨hsome, heq⟩ | ⟨q, hsome, hne, heq⟩
    · obtain ⟨hstatus, hagrees⟩ := hguard (by simp) hnone
      rw [heq]
      exact (h.accept hstatus hagrees).finish fun _ _ => trivial
    · rw [heq]
      exact h.finish fun _ _ => trivial
    · rw [heq]
      exact h.finish fun _ _ => trivial

theorem mergeRow_status (h : d.status = .pending) (o : Outcome) (now : ℕ)
    (cur : BillingMeterDispatch) : (mergeRow d (applyOutcome d o now) cur).status =
      match o with
      | .reported _ => .delivered
      | .notReported _ => .skipped
      | _ => cur.status := by
  cases o <;> simp [mergeRow, applyOutcome, column, h]

theorem World.Delivering.commitAttempt (h : w.Delivering) (hsound : w.Sound)
    {rest : List BillingMeterDispatch} {o : Outcome}
    (hworker : w.workers i = some ⟨d :: rest, .done o⟩) (now : ℕ) :
    (commitAttempt w d o now).Delivering := by
  obtain ⟨hpending, -⟩ := hsound.held i _ hworker d List.mem_cons_self
  have hsettled : (w.usage (idempotencyKey d.id)).isSome = true → o.Settled := by
    intro husage
    obtain ⟨p, hp⟩ := Option.isSome_iff_exists.1 husage
    have hagrees := h.agrees i d rest _ p hworker hp
    cases o with
    | reported item => trivial
    | notReported detail => exact hagrees
    | raised error => trivial
    | refused error => exact hagrees
  unfold BillingMeter.commitAttempt
  split
  next => exact h
  next cur hcur =>
    have hstatus := mergeRow_status hpending o now cur
    refine ⟨fun k row husage hk => ?_, h.agrees, fun a ha haccepted => ?_,
      fun a ha item hitem row hk => ?_⟩
    · dsimp only at husage hk
      rw [Function.update_apply] at hk
      split_ifs at hk with heq
      · obtain rfl := Option.some_inj.1 hk
        rw [heq] at husage
        rw [hstatus]
        cases o with
        | reported item => simp
        | notReported detail => exact (hsettled husage).elim
        | raised error => exact h.accepted d.id cur husage hcur
        | refused error => exact (hsettled husage).elim
      · exact h.accepted k row husage hk
    · rcases List.mem_cons.1 ha with rfl | ha
      · exact hsettled haccepted
      · exact h.settled a ha haccepted
    · dsimp only at hk
      rw [Function.update_apply] at hk
      rcases List.mem_cons.1 ha with rfl | ha
      · dsimp only at hitem hk
        rw [if_pos rfl, Option.some_inj] at hk
        rw [← hk, hstatus, hitem]
      · split_ifs at hk with heq
        · obtain rfl := Option.some_inj.1 hk
          have husage := hsound.reported a ha item hitem
          rw [heq] at husage
          have hdelivered := h.delivered a ha item hitem cur (by rw [heq, hcur])
          rw [hstatus]
          cases o with
          | reported _ => rfl
          | notReported detail => exact (hsettled husage).elim
          | raised error => exact hdelivered
          | refused error => exact (hsettled husage).elim
        · exact h.delivered a ha item hitem row hk

theorem step_delivering (h : w.Delivering) (hsound : w.Sound) (a : Action)
    (hguard : SameItem cfg w a) : (step cfg w a).Delivering := by
  cases a with
  | record id tenantId quantity metric now =>
    exact h.record hsound id tenantId quantity metric now
  | setTenant tenantId customerId => exact h.environment _ w.subscriptions
  | setSubscriptions customerId subscriptions => exact h.environment w.tenants _
  | publishOne i tenantId dispatchId =>
    simp only [step]
    split
    next d _ hd =>
      split_ifs
      · refine h.setWorker fun e rest phase p heq _ => ?_
        simp only [Option.some_inj, Worker.mk.injEq] at heq
        rw [← heq.2]
        trivial
      · exact h
    next => exact h
  | publishDue i now limit =>
    simp only [step]
    split
    · split_ifs
      · exact h
      · refine World.Delivering.setLocks (h.setWorker fun e rest phase p heq _ => ?_) _
        simp only [Option.some_inj, Worker.mk.injEq] at heq
        rw [← heq.2]
        trivial
    · exact h
  | lookUp i failure =>
    simp only [step]
    split
    next d rest hworker =>
      split
      next item hfind =>
        refine h.setWorker fun e r phase p heq husage => ?_
        simp only [Option.some_inj, Worker.mk.injEq, List.cons.injEq] at heq
        obtain ⟨⟨rfl, rfl⟩, rfl⟩ := heq
        have hsame := hguard d rest p hworker husage
        rw [hfind] at hsame
        exact hsame
      next outcome hfind =>
        refine h.finish fun p husage => ?_
        have hsame := hguard d rest p hworker husage
        rw [hfind] at hsame
        obtain ⟨error, rfl⟩ := hsame
        trivial
    next => exact h
  | call i transport =>
    simp only [step]
    split
    next d rest item hworker =>
      exact h.callStripe hsound hworker (hguard d rest item hworker)
    next => exact h
  | commit i now =>
    simp only [step]
    split
    next d rest outcome hworker =>
      split_ifs
      · exact World.Delivering.setWorker (World.Delivering.setLocks
          (h.commitAttempt hsound hworker now) _) (by simp)
      · refine World.Delivering.setWorker (World.Delivering.setLocks
          (h.commitAttempt hsound hworker now) _) fun e r phase p heq _ => ?_
        simp only [Option.some_inj, Worker.mk.injEq] at heq
        rw [← heq.2]
        trivial
      · exact h
    next => exact h
  | crash i => exact World.Delivering.setWorker (h.setLocks _) (by simp)

/-- A dispatch whose usage Stripe has accepted is not skipped, every attempt committed since
has it delivered unless Stripe did not answer, and one that has it delivered has marked it so. -/
def World.Delivers (w : World) (id : String) : Prop :=
  (w.usage (idempotencyKey id)).isSome = true → ∀ row, w.dispatches id = some row →
    row.status ≠ .skipped ∧ ∀ a ∈ w.attempts, a.dispatchId = id → a.accepted = true →
      (∃ error, a.outcome = .raised error) ∨
        ∃ item, a.outcome = .reported item ∧ row.status = .delivered

/-- In every run Stripe counts each committed intent at most once, with its own quantity and
time. In every run in which the attempts at a dispatch find the item its usage was accepted
for, every accepted dispatch is delivered. -/
theorem usage_delivered (cfg : Settings) (as : List Action) :
    let w := exec (step cfg) World.start as
    ((w.counted.map Prod.fst).Nodup ∧ ∀ c ∈ w.counted, ∃ id row, c.1 = idempotencyKey id ∧
      w.dispatches id = some row ∧ c.2.quantity = row.quantity ∧
        c.2.timestamp = row.timestamp) ∧
    (Guarded (step cfg) (SameItem cfg) World.start as → ∀ id, w.Delivers id) := by
  intro w
  have hsound : w.Sound := exec_sound as
  refine ⟨⟨hsound.once, fun c hc => hsound.usage c.1 c.2 (hsound.counted c hc)⟩, ?_⟩
  intro hguard id husage row hrow
  have hboth : w.Sound ∧ w.Delivering :=
    hguard.preserves (I := fun w : World => w.Sound ∧ w.Delivering)
      (fun w a h hg => ⟨step_sound h.1 a, step_delivering h.2 h.1 a hg⟩)
      ⟨World.Sound.start, World.Delivering.start⟩
  refine ⟨hboth.2.accepted id row husage hrow, fun a ha hid haccepted => ?_⟩
  have hsettled := hboth.2.settled a ha haccepted
  cases ho : a.outcome with
  | reported item =>
    refine .inr ⟨item, rfl, hboth.2.delivered a ha item ho row ?_⟩
    rw [hid]
    exact hrow
  | raised error => exact .inl ⟨error, rfl⟩
  | notReported detail =>
    rw [ho] at hsettled
    exact hsettled.elim
  | refused error =>
    rw [ho] at hsettled
    exact hsettled.elim

namespace Cancelled

def settings : Settings := ⟨"price_starter", "price_pro", 1000⟩

/-- Stripe accepts the usage and the publisher dies before its commit. -/
def accepted : List Action :=
  [.setTenant "tenant" (some (some "cus_1")),
   .setSubscriptions "cus_1" [[⟨"si_1", some "price_pro"⟩]],
   .record "dispatch" "tenant" 3 "tasks" 0,
   .publishOne 1 "tenant" "dispatch", .lookUp 1 none, .call 1 .answered, .crash 1]

/-- The subscription ends before the next attempt. -/
def skipped : List Action :=
  accepted ++ [.setSubscriptions "cus_1" [], .publishDue 2 5 25, .lookUp 2 none, .commit 2 5]

/-- The tenant has another subscription item at the next attempt. -/
def refused : List Action :=
  accepted ++ [.setSubscriptions "cus_1" [[⟨"si_2", some "price_starter"⟩]], .publishDue 2 5 25,
    .lookUp 2 none, .call 2 .answered, .commit 2 5]

end Cancelled

theorem accepted_usage_skipped_or_refused :
    ¬ (exec (step Cancelled.settings) World.start Cancelled.skipped).Delivers "dispatch" ∧
      ¬ (exec (step Cancelled.settings) World.start Cancelled.refused).Delivers "dispatch" := by
  constructor
  · intro h
    have husage : ((exec (step Cancelled.settings) World.start Cancelled.skipped).usage
        (idempotencyKey "dispatch")).isSome = true := by decide +kernel
    have hskipped : ((exec (step Cancelled.settings) World.start Cancelled.skipped).dispatches
        "dispatch").map BillingMeterDispatch.status = some .skipped := by decide +kernel
    obtain ⟨row, hrow, hstatus⟩ := Option.map_eq_some_iff.1 hskipped
    exact (h husage row hrow).1 hstatus
  · intro h
    have husage : ((exec (step Cancelled.settings) World.start Cancelled.refused).usage
        (idempotencyKey "dispatch")).isSome = true := by decide +kernel
    have hrow : ((exec (step Cancelled.settings) World.start Cancelled.refused).dispatches
        "dispatch").isSome = true := by decide +kernel
    have hattempt : ⟨"dispatch", .refused keyReused, true⟩ ∈
        (exec (step Cancelled.settings) World.start Cancelled.refused).attempts := by
      decide +kernel
    obtain ⟨row, hrow⟩ := Option.isSome_iff_exists.1 hrow
    have hsettled := (h husage row hrow).2 _ hattempt rfl rfl
    simp at hsettled

end Ajenda.BillingMeter
