import Ajenda.CanonicalText
import Mathlib.Data.List.Sort
import Mathlib.Algebra.BigOperators.Group.Finset.Basic
import Mathlib.Algebra.Order.BigOperators.Group.Finset

/-!
# Settled revenue

`handle_webhook` keeps one receipt for each Stripe event, `sync_revenue` reads the settled ones of a
tenant and the finance actions sum and draft what it read. Reading a UUID and the events that are
not about a settled invoice are parameters. An amount is an integer of at most eight digits, so the
floating-point sums are exact and taken in the naturals.
-/
namespace Ajenda.StripeRevenue

section Events

/-- What is read of the object of an event. -/
structure StripeObject where
  id : String
  customer : Option String
  amountPaid : Option ℕ
  amountDue : Option ℕ
  currency : Option String
  status : Option String
  created : Option ℤ
  periodStart : Option ℤ
  periodEnd : Option ℤ
  metadataTenantId : Option String
  subscriptionTenantId : Option String
  deriving DecidableEq

structure StripeEvent where
  eventType : String
  object : StripeObject
  deriving DecidableEq

def settledTypes : List String := ["invoice.paid", "invoice.payment_succeeded"]

/-- The events under their ids. The events that settle an invoice agree on the amount paid. -/
structure StripeAccount where
  event : String → StripeEvent
  consistent : ∀ i j, (event i).eventType ∈ settledTypes → (event j).eventType ∈ settledTypes →
    (event i).object.id = (event j).object.id →
      (event i).object.amountPaid = (event j).object.amountPaid
  eightDigits : ∀ i, ∀ amount ∈ (event i).object.amountPaid, amount < 10 ^ 8

structure RevenuePayload where
  eventType : String
  objectId : String
  customerId : Option String
  amountPaid : Option ℕ
  amountDue : Option ℕ
  currency : Option String
  status : Option String
  created : Option ℤ
  periodStart : Option ℤ
  periodEnd : Option ℤ
  tenantId : Option String
  deriving DecidableEq

/-- `_revenue_payload`. -/
def revenuePayload (event : StripeEvent) : Option RevenuePayload :=
  if event.eventType ∈ settledTypes then
    some {
      eventType := event.eventType
      objectId := event.object.id
      customerId := event.object.customer
      amountPaid := event.object.amountPaid
      amountDue := event.object.amountDue
      currency := event.object.currency
      status := event.object.status
      created := event.object.created
      periodStart := event.object.periodStart
      periodEnd := event.object.periodEnd
      tenantId := event.object.metadataTenantId }
  else none

end Events

section Webhook

/-- What dispatching an event gives. -/
inductive Dispatched
  | done (outcome : String) (detail : Option String) (tenantId : Option String)
  | failed (retryable : Bool)

/-- `UUID`, the stored tenants and the dispatch of the other events. -/
structure Backend where
  readUuid : String → Option String
  tenants : List String
  dispatchOther : StripeEvent → Dispatched

structure StripeWebhookEvent where
  eventId : String
  eventType : String
  tenantId : Option String
  outcome : String
  detail : Option String
  payloadJson : Option RevenuePayload
  processedAt : ℕ
  deriving DecidableEq

/-- A delivery of an event and the time it is processed. -/
structure Delivery where
  eventId : String
  processedAt : ℕ
  deriving DecidableEq

/-- `_resolve_tenant_id_from_metadata`. -/
def resolveTenantIdFromMetadata (object : StripeObject) : Option String :=
  match object.metadataTenantId.filter (· ≠ "") with
  | some tenantId => some tenantId
  | none => object.subscriptionTenantId.filter (· ≠ "")

variable (B : Backend) (account : StripeAccount)

/-- `_resolve_invoice_tenant`. -/
def resolveInvoiceTenant (object : StripeObject) : Dispatched :=
  match resolveTenantIdFromMetadata object with
  | none => .done "skipped" (some "invoice missing tenant_id in metadata") none
  | some text =>
    match B.readUuid text with
    | none => .done "skipped" (some "invoice has invalid tenant_id") none
    | some tenantId =>
      if tenantId ∈ B.tenants then
        .done "applied" (some "settled invoice receipt recorded") (some tenantId)
      else .done "skipped" (some "invoice references unknown tenant") (some tenantId)

/-- `_dispatch_event`. -/
def dispatchEvent (event : StripeEvent) : Dispatched :=
  if event.eventType ∈ settledTypes then resolveInvoiceTenant B event.object
  else B.dispatchOther event

/-- The receipt that a first delivery leaves. A retryable failure rolls it back. -/
def receiptOf (d : Delivery) : Option StripeWebhookEvent :=
  let event := account.event d.eventId
  match dispatchEvent B event with
  | .done outcome detail tenantId => some {
      eventId := d.eventId
      eventType := event.eventType
      tenantId := tenantId
      outcome := outcome
      detail := detail
      payloadJson := revenuePayload event
      processedAt := d.processedAt }
  | .failed true => none
  | .failed false => some {
      eventId := d.eventId
      eventType := event.eventType
      tenantId := none
      outcome := "processing"
      detail := none
      payloadJson := revenuePayload event
      processedAt := d.processedAt }

/-- `handle_webhook`. -/
def handleWebhook (receipts : List StripeWebhookEvent) (d : Delivery) : List StripeWebhookEvent :=
  if receipts.any (·.eventId = d.eventId) then receipts
  else receipts ++ (receiptOf B account d).toList

/-- The receipts that some deliveries leave. -/
def receiptsAfter (deliveries : List Delivery) : List StripeWebhookEvent :=
  deliveries.foldl (handleWebhook B account) []

end Webhook

section Actions

def isSettledFor (tenantId : String) (receipt : StripeWebhookEvent) : Bool :=
  receipt.tenantId = some tenantId && receipt.eventType ∈ settledTypes &&
    receipt.outcome = "applied"

/-- `list_for_tenant`. -/
def listForTenant (receipts : List StripeWebhookEvent) (tenantId : String) (limit : ℕ) :
    List StripeWebhookEvent :=
  ((receipts.filter (isSettledFor tenantId)).insertionSort
    fun a b => b.processedAt ≤ a.processedAt).take (max 1 (min limit 500))

structure FinanceRevenueSyncInput where
  limit : ℕ
  ge : 1 ≤ limit
  le : limit ≤ 500

structure RevenueRecord where
  id : String
  stripeEventId : String
  eventType : String
  amount : Option ℕ
  currency : Option String
  status : String
  occurredAt : ℕ
  customerId : Option String
  source : String
  deriving DecidableEq

def revenueRecord (receipt : StripeWebhookEvent) : RevenueRecord where
  id := receipt.eventId
  stripeEventId := receipt.eventId
  eventType := receipt.eventType
  amount := receipt.payloadJson.bind (·.amountPaid)
  currency := receipt.payloadJson.bind (·.currency)
  status := ((receipt.payloadJson.bind (·.status)).filter (· ≠ "")).getD "paid"
  occurredAt := receipt.processedAt
  customerId := receipt.payloadJson.bind (·.customerId)
  source := "stripe_webhook_events"

/-- The records of `sync_revenue`. -/
def syncRevenue (receipts : List StripeWebhookEvent) (tenantId : String)
    (input : FinanceRevenueSyncInput) : List RevenueRecord :=
  (listForTenant receipts tenantId input.limit).map revenueRecord

structure ReconciliationPackage where
  recordCount : ℕ
  totalAmount : ℕ
  currencies : List String
  source : String
  deriving DecidableEq

structure InvoiceDraft where
  sourceEventId : String
  customerId : Option String
  amount : Option ℕ
  currency : Option String
  status : String
  deriving DecidableEq

/-- The validation of the records that an action is given. -/
def validateRecords (records : List RevenueRecord) : Except String (List RevenueRecord) :=
  if records.length ≤ 500 then .ok records
  else .error "List should have at most 500 items after validation"

/-- `prepare_reconciliation`. -/
def prepareReconciliation (records : List RevenueRecord) : Except String ReconciliationPackage :=
  (validateRecords records).map fun records => {
    recordCount := records.length
    totalAmount := (records.map fun r => r.amount.getD 0).sum
    currencies := Experience.sortedSet ((records.filterMap (·.currency)).filter (· ≠ ""))
    source := "stripe_webhook_events" }

/-- `prepare_invoice_drafts`. -/
def prepareInvoiceDrafts (records : List RevenueRecord) : Except String (List InvoiceDraft) :=
  (validateRecords records).map fun records => records.map fun r =>
    ⟨r.stripeEventId, r.customerId, r.amount, r.currency, "draft"⟩

end Actions

section Receipts
variable {B : Backend} {account : StripeAccount} {deliveries : List Delivery} {d : Delivery}
  {receipts : List StripeWebhookEvent} {r : StripeWebhookEvent} {t tenantId : String}

theorem receiptOf_fields (h : receiptOf B account d = some r) :
    r.eventId = d.eventId ∧ r.eventType = (account.event d.eventId).eventType ∧
      r.payloadJson = revenuePayload (account.event d.eventId) := by
  unfold receiptOf at h
  simp only at h
  split at h
  · cases h
    exact ⟨rfl, rfl, rfl⟩
  · cases h
  · cases h
    exact ⟨rfl, rfl, rfl⟩

theorem mem_handleWebhook (h : r ∈ handleWebhook B account receipts d) :
    r ∈ receipts ∨ receiptOf B account d = some r := by
  unfold handleWebhook at h
  split_ifs at h
  · exact .inl h
  · rcases List.mem_append.1 h with h | h
    · exact .inl h
    · exact .inr (Option.mem_toList.1 h)

theorem receiptsAfter_append (d : Delivery) :
    receiptsAfter B account (deliveries ++ [d]) =
      handleWebhook B account (receiptsAfter B account deliveries) d := by
  rw [receiptsAfter, List.foldl_append]
  rfl

/-- Every receipt is that of a delivery. -/
theorem receiptsAfter_delivered (h : r ∈ receiptsAfter B account deliveries) :
    ∃ d ∈ deliveries, receiptOf B account d = some r := by
  induction deliveries using List.reverseRecOn with
  | nil => cases h
  | append_singleton deliveries d ih =>
    rw [receiptsAfter_append] at h
    rcases mem_handleWebhook h with h | h
    · obtain ⟨d', hd', hr⟩ := ih h
      exact ⟨d', List.mem_append_left _ hd', hr⟩
    · exact ⟨d, by simp, h⟩

/-- An event has one receipt. -/
theorem receiptsAfter_nodup : ((receiptsAfter B account deliveries).map (·.eventId)).Nodup := by
  induction deliveries using List.reverseRecOn with
  | nil => exact List.nodup_nil
  | append_singleton deliveries d ih =>
    rw [receiptsAfter_append, handleWebhook]
    split_ifs with hany
    · exact ih
    · cases hr : receiptOf B account d with
      | none => simpa using ih
      | some r =>
        have hid := (receiptOf_fields hr).1
        rw [Option.toList_some, List.map_append, List.map_singleton, List.nodup_append]
        refine ⟨ih, List.nodup_singleton _, fun id hmem id' hid' heq => hany ?_⟩
        obtain ⟨r', hr', rfl⟩ := List.mem_map.1 hmem
        exact List.any_eq_true.2 ⟨r', hr', by simp [heq, List.mem_singleton.1 hid', hid]⟩

theorem resolveInvoiceTenant_done (object : StripeObject) : ∃ outcome detail tenantId,
    resolveInvoiceTenant B object = .done outcome detail tenantId ∧
      (tenantId = some t ∧ outcome = "applied" ↔
        (resolveTenantIdFromMetadata object).bind B.readUuid = some t ∧ t ∈ B.tenants) := by
  unfold resolveInvoiceTenant
  cases resolveTenantIdFromMetadata object with
  | none => exact ⟨_, _, _, rfl, by simp⟩
  | some text =>
    simp only [Option.bind_some]
    cases B.readUuid text with
    | none => exact ⟨_, _, _, rfl, by simp⟩
    | some tenantId =>
      simp only
      split_ifs with htenant
      · refine ⟨_, _, _, rfl, ⟨fun h => ⟨h.1, ?_⟩, fun h => ⟨h.1, rfl⟩⟩⟩
        rwa [← Option.some.inj h.1]
      · refine ⟨_, _, _, rfl, ⟨fun h => ?_, fun h => absurd ?_ htenant⟩⟩
        · exact absurd h.2 (by decide)
        · rw [Option.some.inj h.1]
          exact h.2

/-- The event settles an invoice of the tenant. -/
def settles (B : Backend) (tenantId : String) (event : StripeEvent) : Bool :=
  event.eventType ∈ settledTypes &&
    ((resolveTenantIdFromMetadata event.object).bind B.readUuid = some tenantId &&
      tenantId ∈ B.tenants)

theorem receiptOf_settles (h : settles B tenantId (account.event d.eventId) = true) :
    ∃ r, receiptOf B account d = some r := by
  rw [settles, Bool.and_eq_true, decide_eq_true_eq] at h
  obtain ⟨outcome, detail, found, hdone, -⟩ :=
    resolveInvoiceTenant_done (B := B) (t := tenantId) (account.event d.eventId).object
  unfold receiptOf dispatchEvent
  simp only [if_pos h.1, hdone]
  exact ⟨_, rfl⟩

/-- The receipt of an event is settled for the tenants whose invoice the event settles. -/
theorem isSettledFor_iff (h : receiptOf B account d = some r) :
    isSettledFor tenantId r = settles B tenantId (account.event d.eventId) := by
  by_cases htype : (account.event d.eventId).eventType ∈ settledTypes
  · obtain ⟨outcome, detail, found, hdone, hiff⟩ :=
      resolveInvoiceTenant_done (B := B) (t := tenantId) (account.event d.eventId).object
    unfold receiptOf dispatchEvent at h
    simp only [if_pos htype, hdone] at h
    cases h
    rw [Bool.eq_iff_iff]
    simp only [isSettledFor, settles, htype, Bool.and_eq_true, decide_eq_true_eq, decide_true,
      and_true, true_and]
    exact hiff
  · have htype' := (receiptOf_fields h).2.1
    simp [isSettledFor, settles, htype, htype']

/-- A delivered event that settles an invoice leaves a receipt. -/
theorem receiptsAfter_settled (hd : d ∈ deliveries)
    (h : settles B tenantId (account.event d.eventId) = true) :
    ∃ r ∈ receiptsAfter B account deliveries, r.eventId = d.eventId := by
  induction deliveries using List.reverseRecOn with
  | nil => cases hd
  | append_singleton deliveries e ih =>
    rw [receiptsAfter_append, handleWebhook]
    split_ifs with hany
    · rcases List.mem_append.1 hd with hd | hd
      · exact ih hd
      · rw [List.mem_singleton.1 hd]
        obtain ⟨r, hr, hid⟩ := List.any_eq_true.1 hany
        exact ⟨r, hr, of_decide_eq_true hid⟩
    · rcases List.mem_append.1 hd with hd | hd
      · obtain ⟨r, hr, hid⟩ := ih hd
        exact ⟨r, List.mem_append_left _ hr, hid⟩
      · obtain rfl := List.mem_singleton.1 hd
        obtain ⟨r, hr⟩ := receiptOf_settles h
        exact ⟨r, List.mem_append_right _ (by simp [hr]), (receiptOf_fields hr).1⟩

end Receipts

section Revenue
variable (B : Backend) (account : StripeAccount) (deliveries : List Delivery) (tenantId : String)
  (input : FinanceRevenueSyncInput)

/-- The delivered events that settle an invoice of the tenant. -/
def settledEvents : Finset String :=
  (deliveries.map (·.eventId)).toFinset.filter fun id =>
    settles B tenantId (account.event id) = true

/-- The invoices they settle and what was paid for each. -/
def settledInvoices : Finset (String × ℕ) :=
  (settledEvents B account deliveries tenantId).image fun id =>
    ((account.event id).object.id, (account.event id).object.amountPaid.getD 0)

/-- The total is that of the invoices and there is a draft for each. -/
def CountedOncePerInvoice : Prop :=
  let records := syncRevenue (receiptsAfter B account deliveries) tenantId input
  let invoices := settledInvoices B account deliveries tenantId
  ∃ package drafts, prepareReconciliation records = .ok package ∧
    prepareInvoiceDrafts records = .ok drafts ∧
      package.totalAmount = ∑ invoice ∈ invoices, invoice.2 ∧ drafts.length = invoices.card

/-- No two of the events settle one invoice. -/
def OneEventPerInvoice : Prop :=
  ∀ i ∈ settledEvents B account deliveries tenantId,
    ∀ j ∈ settledEvents B account deliveries tenantId,
      (account.event i).object.id = (account.event j).object.id → i = j

variable {B account deliveries tenantId input}

theorem settledReceipts_ids :
    (((receiptsAfter B account deliveries).filter (isSettledFor tenantId)).map
      (·.eventId)).toFinset = settledEvents B account deliveries tenantId := by
  ext id
  simp only [settledEvents, List.mem_toFinset, Finset.mem_filter, List.mem_map, List.mem_filter]
  constructor
  · rintro ⟨r, ⟨hr, hsettled⟩, rfl⟩
    obtain ⟨d, hd, hreceipt⟩ := receiptsAfter_delivered hr
    rw [isSettledFor_iff hreceipt] at hsettled
    rw [(receiptOf_fields hreceipt).1]
    exact ⟨⟨d, hd, rfl⟩, hsettled⟩
  · rintro ⟨⟨d, hd, rfl⟩, hsettles⟩
    obtain ⟨r, hr, hid⟩ := receiptsAfter_settled hd hsettles
    obtain ⟨d', hd', hreceipt⟩ := receiptsAfter_delivered hr
    refine ⟨r, ⟨hr, ?_⟩, hid⟩
    rw [isSettledFor_iff hreceipt, ← (receiptOf_fields hreceipt).1, hid]
    exact hsettles

theorem settledReceipts_nodup :
    (((receiptsAfter B account deliveries).filter (isSettledFor tenantId)).map
      (·.eventId)).Nodup :=
  receiptsAfter_nodup.sublist (List.filter_sublist.map _)

theorem settledReceipts_length :
    ((receiptsAfter B account deliveries).filter (isSettledFor tenantId)).length =
      (settledEvents B account deliveries tenantId).card := by
  rw [← settledReceipts_ids, List.toFinset_card_of_nodup settledReceipts_nodup, List.length_map]

/-- Within the limit `sync_revenue` reads every settled receipt. -/
theorem syncRevenue_perm
    (hlimit : (settledEvents B account deliveries tenantId).card ≤ input.limit) :
    (syncRevenue (receiptsAfter B account deliveries) tenantId input).Perm
      (((receiptsAfter B account deliveries).filter (isSettledFor tenantId)).map revenueRecord) := by
  refine List.Perm.map _ ?_
  rw [listForTenant, List.take_of_length_le]
  · exact List.perm_insertionSort _ _
  · rw [List.length_insertionSort, settledReceipts_length]
    have := input.le
    omega

theorem revenueRecord_amount {r : StripeWebhookEvent}
    (hr : r ∈ (receiptsAfter B account deliveries).filter (isSettledFor tenantId)) :
    (revenueRecord r).amount = (account.event r.eventId).object.amountPaid := by
  obtain ⟨hr, hsettled⟩ := List.mem_filter.1 hr
  obtain ⟨d, -, hreceipt⟩ := receiptsAfter_delivered hr
  obtain ⟨hid, htype, hpayload⟩ := receiptOf_fields hreceipt
  rw [isSettledFor_iff hreceipt, settles, Bool.and_eq_true, decide_eq_true_eq] at hsettled
  rw [revenueRecord, hpayload, revenuePayload, if_pos hsettled.1, hid]
  rfl

/-- The records sum up the settled events. -/
theorem syncRevenue_sum
    (hlimit : (settledEvents B account deliveries tenantId).card ≤ input.limit) :
    ((syncRevenue (receiptsAfter B account deliveries) tenantId input).map
        fun r => r.amount.getD 0).sum =
      ∑ id ∈ settledEvents B account deliveries tenantId,
        (account.event id).object.amountPaid.getD 0 := by
  rw [((syncRevenue_perm hlimit).map _).sum_eq, List.map_map, ← settledReceipts_ids,
    List.sum_toFinset _ settledReceipts_nodup, List.map_map]
  refine congrArg List.sum (List.map_congr_left fun r hr => ?_)
  simp only [Function.comp_apply, revenueRecord_amount hr]

/-- The total is small enough for its floating-point sum to be exact. -/
theorem syncRevenue_sum_lt
    (hlimit : (settledEvents B account deliveries tenantId).card ≤ input.limit) :
    ((syncRevenue (receiptsAfter B account deliveries) tenantId input).map
        fun r => r.amount.getD 0).sum < 2 ^ 53 := by
  rw [syncRevenue_sum hlimit]
  have hle (id : String) : (account.event id).object.amountPaid.getD 0 ≤ 10 ^ 8 := by
    cases h : (account.event id).object.amountPaid with
    | none => simp
    | some amount => exact (account.eightDigits id amount h).le
  calc ∑ id ∈ settledEvents B account deliveries tenantId,
        (account.event id).object.amountPaid.getD 0
      ≤ (settledEvents B account deliveries tenantId).card * 10 ^ 8 :=
        Finset.sum_le_card_nsmul _ _ _ fun id _ => hle id
    _ ≤ 500 * 10 ^ 8 := Nat.mul_le_mul_right _ (hlimit.trans input.le)
    _ < 2 ^ 53 := by norm_num

/-- Two settled events are about one invoice when the invoices they name are one. -/
theorem oneEventPerInvoice_iff : OneEventPerInvoice B account deliveries tenantId ↔
    Set.InjOn (fun id =>
      ((account.event id).object.id, (account.event id).object.amountPaid.getD 0))
      (settledEvents B account deliveries tenantId) := by
  refine ⟨fun h i hi j hj heq => h i hi j hj (Prod.ext_iff.1 heq).1,
    fun h i hi j hj heq => h hi hj ?_⟩
  have hsettled {id : String} (hid : id ∈ settledEvents B account deliveries tenantId) :
      (account.event id).eventType ∈ settledTypes := by
    have hsettles := (Finset.mem_filter.1 hid).2
    rw [settles, Bool.and_eq_true, decide_eq_true_eq] at hsettles
    exact hsettles.1
  exact Prod.ext heq (congrArg (·.getD 0) (account.consistent i j (hsettled hi) (hsettled hj) heq))

/-- Revenue is counted once per invoice exactly when no two settled events are about one. -/
theorem countedOncePerInvoice_iff
    (hlimit : (settledEvents B account deliveries tenantId).card ≤ input.limit) :
    CountedOncePerInvoice B account deliveries tenantId input ↔
      OneEventPerInvoice B account deliveries tenantId := by
  have hlength : (syncRevenue (receiptsAfter B account deliveries) tenantId input).length =
      (settledEvents B account deliveries tenantId).card := by
    rw [(syncRevenue_perm hlimit).length_eq, List.length_map, settledReceipts_length]
  have hvalid : validateRecords (syncRevenue (receiptsAfter B account deliveries) tenantId input) =
      .ok (syncRevenue (receiptsAfter B account deliveries) tenantId input) := by
    rw [validateRecords, if_pos (by have := input.le; omega)]
  rw [oneEventPerInvoice_iff, ← Finset.card_image_iff]
  constructor
  · rintro ⟨package, drafts, -, hdrafts, -, hcard⟩
    rw [prepareInvoiceDrafts, hvalid] at hdrafts
    cases hdrafts
    rw [List.length_map, hlength] at hcard
    exact hcard.symm
  · intro hcard
    refine ⟨_, _, by rw [prepareReconciliation, hvalid]; rfl,
      by rw [prepareInvoiceDrafts, hvalid]; rfl, ?_, ?_⟩
    · rw [settledInvoices, Finset.sum_image (Finset.card_image_iff.1 hcard)]
      exact syncRevenue_sum hlimit
    · rw [List.length_map, hlength]
      exact hcard.symm

end Revenue

section Notifications

def paidInvoice : StripeObject where
  id := "in_1"
  customer := some "cus_1"
  amountPaid := some 4900
  amountDue := some 4900
  currency := some "usd"
  status := some "paid"
  created := some 0
  periodStart := some 0
  periodEnd := some 0
  metadataTenantId := some "acme"
  subscriptionTenantId := none

/-- The two notifications of one payment, and events of no payment. -/
def notification (eventId : String) : StripeEvent :=
  ⟨if eventId = "evt_1" then "invoice.paid"
    else if eventId = "evt_2" then "invoice.payment_succeeded" else "ping", paidInvoice⟩

def sampleAccount : StripeAccount where
  event := notification
  consistent _ _ _ _ _ := rfl
  eightDigits i amount h := by
    have hamount : 4900 = amount := Option.some.inj h
    omega

def sampleBackend : Backend := ⟨some, ["acme"], fun _ => .done "ignored" none none⟩

def sampleInput : FinanceRevenueSyncInput := ⟨100, by decide, by decide⟩

/-- One notification, delivered twice. -/
theorem redelivered_counted :
    CountedOncePerInvoice sampleBackend sampleAccount [⟨"evt_1", 0⟩, ⟨"evt_1", 1⟩] "acme"
        sampleInput ↔
      OneEventPerInvoice sampleBackend sampleAccount [⟨"evt_1", 0⟩, ⟨"evt_1", 1⟩] "acme" :=
  countedOncePerInvoice_iff (by decide +kernel)

/-- Both notifications of one payment are counted. -/
theorem both_notifications_miscounted :
    ¬CountedOncePerInvoice sampleBackend sampleAccount [⟨"evt_1", 0⟩, ⟨"evt_2", 1⟩] "acme"
      sampleInput := by
  rintro ⟨package, drafts, -, hdrafts, -, hcard⟩
  have hlength : drafts.length = 2 := by
    cases hdrafts
    decide +kernel
  have hinvoices : (settledInvoices sampleBackend sampleAccount [⟨"evt_1", 0⟩, ⟨"evt_2", 1⟩]
      "acme").card = 1 := by decide +kernel
  omega

end Notifications

end Ajenda.StripeRevenue
