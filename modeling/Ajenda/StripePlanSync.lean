import Ajenda.JsonValue
import Ajenda.TransitionSystem
import Mathlib.Logic.Function.Basic
import Mathlib.Tactic

/-!
# Stripe webhooks and the tenant's plan

`handle_webhook` inserts a receipt under the event's id, dispatches on the event's type and
writes the tenant's plan: the plan of the price the event resolves to, or free for a deleted
subscription. Whatever raises rolls the receipt back with the rest. The events' creation
times are not read, so the plan is the one named last in the order of arrival.
-/
namespace Ajenda.StripeSync
open JsonValue TransitionSystem

/-- What of the interpreter the handler's texts and identifiers need: `str` of a value that
is no string, `repr` of a string, and `uuid.UUID` both ways. -/
structure Python where
  str : Json → String
  repr : String → String
  uuid : String → Option ℕ
  uuidText : ℕ → String

/-- `STRIPE_PRICE_STARTER` and `STRIPE_PRICE_PRO`, and the interpreter's recursion limit. -/
structure Settings where
  starter : String
  pro : String
  recursionLimit : ℕ

inductive Raised
  | processing (message : String) (retryable : Bool)
  /-- An `AttributeError`, `TypeError`, `KeyError` or `RecursionError`. -/
  | python
  deriving DecidableEq, Repr

structure Tenant where
  status : String
  plan : String
  stripeCustomerId : Option String
  deletedAt : Option ℕ
  deriving DecidableEq, Repr

def Tenant.isSuspended (t : Tenant) : Bool := t.status = "suspended"

def Tenant.isDeleted (t : Tenant) : Bool := t.deletedAt.isSome

structure Receipt where
  eventType : String
  outcome : String
  tenantId : Option ℕ
  detail : Option String
  payloadJson : Option Fields
  deriving DecidableEq

structure GovernanceEvent where
  tenantId : ℕ
  eventType : String
  actor : String
  decision : String
  oldPlan : String
  newPlan : String
  deriving DecidableEq, Repr

structure World where
  tenants : ℕ → Option Tenant
  receipts : String → Option Receipt
  governance : List GovernanceEvent

/-- A verified event, its object as the dictionary `_normalize_stripe_object` returns. -/
structure StripeEvent where
  id : String
  type : String
  object : Fields
  deriving DecidableEq

structure StripeWebhookResult where
  eventId : String
  eventType : String
  outcome : String
  detail : Option String
  deriving DecidableEq, Repr

/-- What a branch of `_dispatch_event` returns. -/
abbrev Dispatched := String × Option String × Option ℕ

section Payload
variable (py : Python)

/-- `value.get(key)`, an `AttributeError` when the value is no dictionary. -/
def pyGet (value : Json) (key : String) : Except Raised (Option Json) :=
  match value with
  | .obj fs => .ok (Fields.get fs key)
  | _ => .error .python

/-- `value or default`. -/
def orElse (value : Option Json) (default : Json) : Json :=
  match value with
  | some v => if v.truthy then v else default
  | none => default

/-- `str(value) if value else None`. -/
def strIf (value : Option Json) : Option String :=
  match value with
  | some (.str s) => if s = "" then none else some s
  | some v => if v.truthy then some (py.str v) else none
  | none => none

/-- `data[0].get("price")` of a `data` that is true. -/
def firstPrice (data : Json) : Except Raised (Option Json) :=
  match data with
  | .arr (item :: _) => pyGet item "price"
  | _ => .error .python

def priceFromSubscriptionObject (subscription : Fields) : Except Raised (Option String) :=
  match orElse (subscription.get "items") (.obj []) with
  | .obj items =>
    let data := orElse (Fields.get items "data") (.arr [])
    if data.truthy = false then .ok none
    else
      match firstPrice data with
      | .error e => .error e
      | .ok (some (.obj price)) => .ok (strIf py (Fields.get price "id"))
      | .ok (some (.str price)) => .ok (some price)
      | .ok _ => .ok none
  | _ => .ok none

/-- The price named by `line_items`, when there is one. -/
def priceFromLineItems (obj : Fields) : Except Raised (Option String) :=
  match obj.get "line_items" with
  | some (.obj lineItems) =>
    let data := orElse (Fields.get lineItems "data") (.arr [])
    if data.truthy = false then .ok none
    else
      match firstPrice data with
      | .error e => .error e
      | .ok (some (.obj price)) => .ok (strIf py (Fields.get price "id"))
      | .ok (some (.str price)) => .ok (some price)
      | .ok _ => .ok none
  | _ => .ok none

/-- `_resolve_price_id`, with the number of calls the recursion limit still allows and
`stripe.Subscription.retrieve`, whose error is the text of the `StripeError` it raises. -/
def resolvePriceId (retrieve : String → Except String Fields) :
    ℕ → Fields → Except Raised (Option String)
  | 0, _ => .error .python
  | limit + 1, obj =>
    match if (obj.get "items").isSome then priceFromSubscriptionObject py obj else .ok none with
    | .error e => .error e
    | .ok priceId =>
      match priceId.filter (· ≠ "") with
      | some p => .ok (some p)
      | none =>
        match priceFromLineItems py obj with
        | .error e => .error e
        | .ok (some p) => .ok (some p)
        | .ok none =>
          match obj.get "subscription" with
          | some (.obj subscription) => resolvePriceId retrieve limit subscription
          | some (.str subscription) =>
            match retrieve subscription with
            | .error exc =>
              .error (.processing ("Failed to retrieve Stripe subscription "
                ++ py.repr subscription ++ ": " ++ exc) true)
            | .ok retrieved => resolvePriceId retrieve limit retrieved
          | _ => .ok none

def resolveTenantIdFromMetadata (obj : Fields) : Except Raised (Option String) := do
  let tenantId ← pyGet (orElse (obj.get "metadata") (.obj [])) "tenant_id"
  match strIf py tenantId with
  | some s => .ok (some s)
  | none =>
    let subMetadata ← pyGet (orElse (obj.get "subscription_data") (.obj [])) "metadata"
    let nested ← pyGet (orElse subMetadata (.obj [])) "tenant_id"
    .ok (strIf py nested)

def extractCustomerId (obj : Fields) : Option String :=
  match obj.get "customer" with
  | some (.str customer) => some customer
  | some (.obj customer) => strIf py (Fields.get customer "id")
  | _ => none

/-- The receipt's payload of a settled invoice. -/
def revenuePayload (eventType : String) (obj : Fields) : Option Fields :=
  if eventType ∈ ["invoice.paid", "invoice.payment_succeeded"] then
    let metadata : Fields :=
      match obj.get "metadata" with
      | some (.obj m) => m
      | _ => []
    let objectId :=
      match obj.get "id" with
      | none => ""
      | some (.str s) => s
      | some v => py.str v
    let copied := ["amount_paid", "amount_due", "currency", "status", "created",
      "period_start", "period_end"].map fun k => (k, (obj.get k).getD .null)
    some ([("event_type", .str eventType), ("object_id", .str objectId),
      ("customer_id", (obj.get "customer").getD .null)] ++ copied
      ++ [("tenant_id", (Fields.get metadata "tenant_id").getD .null)])
  else none

end Payload

section Handler
variable (py : Python) (cfg : Settings)

def priceIdToPlan (priceId : String) : Option String :=
  -- The reverse dictionary keeps the plan inserted last under a price.
  if cfg.pro ≠ "" ∧ cfg.pro = priceId then some "pro"
  else if cfg.starter ≠ "" ∧ cfg.starter = priceId then some "starter"
  else none

/-- `TenantLifecycleService.upgrade_plan`. -/
def upgradePlan (w : World) (tenantId : ℕ) (tenant : Tenant) (newPlan actor : String) : World where
  tenants := Function.update w.tenants tenantId (some { tenant with plan := newPlan })
  receipts := w.receipts
  governance := w.governance ++ [{
    tenantId, actor, newPlan
    eventType := "tenant_plan_changed"
    decision := "Plan changed from " ++ py.repr tenant.plan ++ " to " ++ py.repr newPlan
    oldPlan := tenant.plan }]

/-- The checks `_sync_subscription` and `_handle_subscription_deleted` share, in their
order: the tenant of the metadata, its status by `inactive`, and the customer it is bound to. -/
def onBoundTenant (inactive : Tenant → Option String) (w : World) (obj : Fields)
    (apply : ℕ → Tenant → Except Raised (Dispatched × World)) :
    Except Raised (Dispatched × World) :=
  match resolveTenantIdFromMetadata py obj with
  | .error e => .error e
  | .ok tenantIdStr =>
    match tenantIdStr.filter (· ≠ "") with
    | none => .ok (("skipped", some "missing tenant_id in metadata", none), w)
    | some text =>
      match py.uuid text with
      | none => .ok (("skipped", some ("invalid tenant_id " ++ py.repr text), none), w)
      | some tenantId =>
        match w.tenants tenantId with
        | none =>
          .ok (("skipped", some ("unknown tenant " ++ py.uuidText tenantId), some tenantId), w)
        | some tenant =>
          match inactive tenant with
          | some detail => .ok (("skipped", some detail, some tenantId), w)
          | none =>
            match tenant.stripeCustomerId.filter (· ≠ ""),
                (extractCustomerId py obj).filter (· ≠ "") with
            | some expected, some got =>
              if expected ≠ got then
                .ok (("skipped", some "stripe customer mismatch", some tenantId), w)
              else apply tenantId tenant
            | _, _ => apply tenantId tenant

def syncSubscription (retrieve : String → Except String Fields) (w : World) (obj : Fields) :
    Except Raised (Dispatched × World) :=
  let inactive (t : Tenant) : Option String :=
    if t.isDeleted then some "tenant deleted"
    else if t.isSuspended then some "tenant suspended" else none
  onBoundTenant py inactive w obj fun tenantId tenant =>
    match resolvePriceId py retrieve cfg.recursionLimit obj with
    | .error e => .error e
    | .ok priceId =>
      match priceId.filter (· ≠ "") with
      | none => .error (.processing "Could not resolve Stripe price ID from event payload" true)
      | some price =>
        match priceIdToPlan cfg price with
        | none => .ok (("skipped", some ("unknown price " ++ price), some tenantId), w)
        | some newPlan =>
          if tenant.plan = newPlan then
            .ok (("skipped", some ("plan already " ++ newPlan), some tenantId), w)
          else
            .ok (("applied", some ("plan changed to " ++ newPlan), some tenantId),
              upgradePlan py w tenantId tenant newPlan "stripe-webhook")

def handleSubscriptionDeleted (w : World) (obj : Fields) : Except Raised (Dispatched × World) :=
  let inactive (t : Tenant) : Option String :=
    if t.isDeleted || t.isSuspended then some ("tenant " ++ t.status) else none
  onBoundTenant py inactive w obj fun tenantId tenant =>
    if tenant.plan = "free" then .ok (("skipped", some "plan already free", some tenantId), w)
    else
      .ok (("applied", some "plan downgraded to free", some tenantId),
        upgradePlan py w tenantId tenant "free" "stripe-webhook")

def resolveInvoiceTenant (w : World) (obj : Fields) : Except Raised Dispatched :=
  match resolveTenantIdFromMetadata py obj with
  | .error e => .error e
  | .ok tenantIdStr =>
    match tenantIdStr.filter (· ≠ "") with
    | none => .ok ("skipped", some "invoice missing tenant_id in metadata", none)
    | some text =>
      match py.uuid text with
      | none => .ok ("skipped", some "invoice has invalid tenant_id", none)
      | some tenantId =>
        match w.tenants tenantId with
        | none => .ok ("skipped", some "invoice references unknown tenant", some tenantId)
        | some _ => .ok ("applied", some "settled invoice receipt recorded", some tenantId)

def dispatchEvent (retrieve : String → Except String Fields) (w : World) (eventType : String)
    (obj : Fields) : Except Raised (Dispatched × World) :=
  if eventType ∈ ["checkout.session.completed", "customer.subscription.updated"] then
    syncSubscription py cfg retrieve w obj
  else if eventType = "customer.subscription.deleted" then handleSubscriptionDeleted py w obj
  else if eventType ∈ ["invoice.paid", "invoice.payment_succeeded"] then
    (resolveInvoiceTenant py w obj).map (·, w)
  else if eventType = "invoice.payment_failed" then
    .ok (("ignored", some "payment failure logged", none), w)
  else .ok (("ignored", some ("unhandled event type " ++ eventType), none), w)

def World.setReceipt (w : World) (eventId : String) (receipt : Receipt) : World :=
  { w with receipts := Function.update w.receipts eventId (some receipt) }

def processingReceipt (event : StripeEvent) : Receipt where
  eventType := event.type
  outcome := "processing"
  tenantId := none
  detail := none
  payloadJson := revenuePayload py event.type event.object

/-- `try_record_event`: the receipt, unless the event has one. -/
def tryRecordEvent (w : World) (event : StripeEvent) : Option World :=
  match w.receipts event.id with
  | some _ => none
  | none => some (w.setReceipt event.id (processingReceipt py event))

def finalizeOutcome (w : World) (eventId : String) (d : Dispatched) : World :=
  match w.receipts eventId with
  | none => w
  | some receipt =>
    w.setReceipt eventId { receipt with outcome := d.1, detail := d.2.1, tenantId := d.2.2 }

def handleWebhook (retrieve : String → Except String Fields) (w : World) (event : StripeEvent) :
    Except Raised (StripeWebhookResult × World) :=
  match tryRecordEvent py w event with
  | none => .ok (⟨event.id, event.type, "duplicate", some "event already processed"⟩, w)
  | some recorded =>
    match dispatchEvent py cfg retrieve recorded event.type event.object with
    | .error e => .error e
    | .ok (d, applied) =>
      .ok (⟨event.id, event.type, d.1, d.2.1⟩, finalizeOutcome applied event.id d)

/-- One arrival of an event at the webhook, with what Stripe answers to `retrieve` then. -/
structure Delivery where
  event : StripeEvent
  retrieve : String → Except String Fields

/-- The request's transaction: what raises is rolled back. -/
def deliver (w : World) (d : Delivery) : World :=
  match handleWebhook py cfg d.retrieve w d.event with
  | .ok (_, w') => w'
  | .error _ => w

end Handler

section Sync
variable (py : Python) (cfg : Settings)

def Delivery.syncs (d : Delivery) : Bool :=
  d.event.type ∈ ["checkout.session.completed", "customer.subscription.updated"]

/-- The plan an event names: that of its price, or free for a deletion. -/
def Delivery.namedPlan (d : Delivery) : Option String :=
  if d.syncs then
    match resolvePriceId py d.retrieve cfg.recursionLimit d.event.object with
    | .ok (some price) => priceIdToPlan cfg price
    | _ => none
  else if d.event.type = "customer.subscription.deleted" then some "free"
  else none

/-- The price an event names cannot be resolved, so that the request fails. -/
def Delivery.unresolved (d : Delivery) : Bool :=
  d.syncs &&
    match resolvePriceId py d.retrieve cfg.recursionLimit d.event.object with
    | .ok (some price) => price = ""
    | _ => true

/-- The deliveries that find no receipt of their event and leave one. -/
def firstHandled (seen : String → Bool) : List Delivery → List Delivery
  | [] => []
  | d :: ds =>
    if seen d.event.id || d.unresolved py cfg then firstHandled seen ds
    else d :: firstHandled (fun k => k = d.event.id || seen k) ds

/-- The plan named last in the order of arrival. -/
def lastNamed (plan : String) (ds : List Delivery) : String :=
  ds.foldl (fun plan d => (d.namedPlan py cfg).getD plan) plan

/-- An event of the tenant's own subscriptions: its metadata names the tenant and its
customer is the one the tenant is bound to, where both are known. -/
def StripeEvent.BoundTo (e : StripeEvent) (tenantId : ℕ) (customer : Option String) : Prop :=
  (∃ text, resolveTenantIdFromMetadata py e.object = .ok (some text) ∧ text ≠ "" ∧
    py.uuid text = some tenantId) ∧
  ∀ expected got, customer = some expected → extractCustomerId py e.object = some got →
    expected = "" ∨ got = "" ∨ expected = got

section Steps
variable {py cfg} {w : World} {e : StripeEvent} {d : Delivery} {t : ℕ} {tenant : Tenant}

theorem onBoundTenant_bound {inactive : Tenant → Option String}
    {apply : ℕ → Tenant → Except Raised (Dispatched × World)}
    (hbound : e.BoundTo py t tenant.stripeCustomerId) (htenant : w.tenants t = some tenant)
    (hactive : inactive tenant = none) :
    onBoundTenant py inactive w e.object apply = apply t tenant := by
  obtain ⟨⟨text, htext, hne, huuid⟩, hcustomer⟩ := hbound
  unfold onBoundTenant
  simp only [htext, Option.filter_some, hne, ne_eq, not_false_eq_true, decide_true, if_true,
    huuid, htenant, hactive]
  cases hexpected : tenant.stripeCustomerId.filter (· ≠ "") with
  | none => rfl
  | some expected =>
    cases hgot : (extractCustomerId py e.object).filter (· ≠ "") with
    | none => rfl
    | some got =>
      rw [Option.filter_eq_some_iff] at hexpected hgot
      have hsame := hcustomer expected got hexpected.1 hgot.1
      have : expected = got := by
        simpa [of_decide_eq_true hexpected.2, of_decide_eq_true hgot.2] using hsame
      simp [this]

@[simp] theorem upgradePlan_tenant (w : World) (t : ℕ) (tenant : Tenant) (plan actor : String) :
    (upgradePlan py w t tenant plan actor).tenants t = some { tenant with plan } := by
  simp [upgradePlan]

@[simp] theorem setReceipt_tenants (w : World) (id : String) (r : Receipt) :
    (w.setReceipt id r).tenants = w.tenants := rfl

theorem setReceipt_receipts (w : World) (id : String) (r : Receipt) (k : String) :
    ((w.setReceipt id r).receipts k).isSome = (decide (k = id) || (w.receipts k).isSome) := by
  by_cases hk : k = id
  · subst hk
    simp [World.setReceipt]
  · simp [World.setReceipt, hk]

@[simp] theorem finalizeOutcome_tenants (w : World) (id : String) (o : Dispatched) :
    (finalizeOutcome w id o).tenants = w.tenants := by
  unfold finalizeOutcome
  split <;> rfl

theorem finalizeOutcome_receipts (w : World) (id : String) (o : Dispatched) (k : String) :
    ((finalizeOutcome w id o).receipts k).isSome = (w.receipts k).isSome := by
  unfold finalizeOutcome
  split
  next => rfl
  next receipt hreceipt =>
    rw [setReceipt_receipts]
    by_cases hk : k = id
    · subst hk
      simp [hreceipt]
    · simp [hk]

/-- The dispatch of an event of an active tenant writes the plan the event names. -/
theorem dispatchEvent_bound (hbound : d.event.BoundTo py t tenant.stripeCustomerId)
    (htenant : w.tenants t = some tenant) (hdeleted : tenant.isDeleted = false)
    (hsuspended : tenant.isSuspended = false) (hresolved : d.unresolved py cfg = false) :
    ∃ o w', dispatchEvent py cfg d.retrieve w d.event.type d.event.object = .ok (o, w') ∧
      w'.receipts = w.receipts ∧
      w'.tenants t = some { tenant with plan := (d.namedPlan py cfg).getD tenant.plan } := by
  unfold dispatchEvent
  by_cases hsync : d.syncs = true
  · have htype : d.event.type ∈ ["checkout.session.completed", "customer.subscription.updated"] :=
      of_decide_eq_true hsync
    rw [if_pos htype]
    unfold syncSubscription
    rw [onBoundTenant_bound hbound htenant (by simp [hdeleted, hsuspended])]
    unfold Delivery.unresolved at hresolved
    unfold Delivery.namedPlan
    simp only [hsync, Bool.true_and, if_true] at hresolved ⊢
    split at hresolved
    next price hprice =>
      have hne : price ≠ "" := of_decide_eq_false hresolved
      simp only [hprice, Option.filter_some, hne, ne_eq, not_false_eq_true, decide_true, if_true]
      cases hplan : priceIdToPlan cfg price with
      | none => exact ⟨_, w, rfl, rfl, htenant⟩
      | some plan =>
        by_cases hsame : tenant.plan = plan
        · simp only [hsame, if_true, Option.getD_some]
          exact ⟨_, w, rfl, rfl, by rw [htenant, ← hsame]⟩
        · simp only [hsame, if_false, Option.getD_some]
          exact ⟨_, _, rfl, rfl, upgradePlan_tenant w t tenant plan _⟩
    next => cases hresolved
  · have htype : d.event.type ∉ ["checkout.session.completed", "customer.subscription.updated"] :=
      fun h => hsync (decide_eq_true h)
    rw [if_neg htype]
    unfold Delivery.namedPlan
    simp only [hsync, Bool.false_eq_true, if_false]
    by_cases hdel : d.event.type = "customer.subscription.deleted"
    · rw [if_pos hdel, if_pos hdel]
      unfold handleSubscriptionDeleted
      rw [onBoundTenant_bound hbound htenant (by simp [hdeleted, hsuspended])]
      by_cases hfree : tenant.plan = "free"
      · rw [if_pos hfree]
        exact ⟨_, w, rfl, rfl, by rw [htenant, Option.getD_some, ← hfree]⟩
      · rw [if_neg hfree]
        exact ⟨_, _, rfl, rfl, upgradePlan_tenant w t tenant "free" _⟩
    · rw [if_neg hdel, if_neg hdel]
      split
      · obtain ⟨⟨text, htext, hne, huuid⟩, -⟩ := hbound
        have hinvoice : resolveInvoiceTenant py w d.event.object =
            .ok ("applied", some "settled invoice receipt recorded", some t) := by
          simp [resolveInvoiceTenant, htext, hne, huuid, htenant, Option.filter_some]
        rw [hinvoice]
        exact ⟨_, w, rfl, rfl, htenant⟩
      · split
        · exact ⟨_, w, rfl, rfl, htenant⟩
        · exact ⟨_, w, rfl, rfl, htenant⟩

/-- An event that has its receipt is answered as a duplicate, whatever it carries. -/
theorem deliver_duplicate (h : (w.receipts d.event.id).isSome = true) :
    deliver py cfg w d = w := by
  obtain ⟨receipt, hreceipt⟩ := Option.isSome_iff_exists.1 h
  simp [deliver, handleWebhook, tryRecordEvent, hreceipt]

theorem dispatchEvent_unresolved (hbound : d.event.BoundTo py t tenant.stripeCustomerId)
    (htenant : w.tenants t = some tenant) (hdeleted : tenant.isDeleted = false)
    (hsuspended : tenant.isSuspended = false) (hraises : d.unresolved py cfg = true) :
    ∃ e, dispatchEvent py cfg d.retrieve w d.event.type d.event.object = .error e := by
  unfold Delivery.unresolved at hraises
  obtain ⟨hsync, hprice⟩ := Bool.and_eq_true_iff.1 hraises
  have htype : d.event.type ∈ ["checkout.session.completed", "customer.subscription.updated"] :=
    of_decide_eq_true hsync
  unfold dispatchEvent
  rw [if_pos htype]
  unfold syncSubscription
  rw [onBoundTenant_bound hbound htenant (by simp [hdeleted, hsuspended])]
  cases hresolved : resolvePriceId py d.retrieve cfg.recursionLimit d.event.object with
  | error e => exact ⟨e, rfl⟩
  | ok price =>
    cases price with
    | none => exact ⟨_, rfl⟩
    | some p =>
      have hempty : p = "" := by simpa [hresolved] using hprice
      subst hempty
      exact ⟨_, rfl⟩

theorem deliver_unresolved (hbound : d.event.BoundTo py t tenant.stripeCustomerId)
    (htenant : w.tenants t = some tenant) (hdeleted : tenant.isDeleted = false)
    (hsuspended : tenant.isSuspended = false) (hraises : d.unresolved py cfg = true) :
    deliver py cfg w d = w := by
  unfold deliver handleWebhook tryRecordEvent
  cases hreceipt : w.receipts d.event.id with
  | some r => rfl
  | none =>
    dsimp only
    have htenant' := (setReceipt_tenants w d.event.id (processingReceipt py d.event)).symm ▸ htenant
    obtain ⟨e, he⟩ := dispatchEvent_unresolved hbound htenant' hdeleted hsuspended hraises
    rw [he]

theorem deliver_handled (hbound : d.event.BoundTo py t tenant.stripeCustomerId)
    (htenant : w.tenants t = some tenant) (hdeleted : tenant.isDeleted = false)
    (hsuspended : tenant.isSuspended = false) (hnew : w.receipts d.event.id = none)
    (hresolved : d.unresolved py cfg = false) :
    (deliver py cfg w d).tenants t =
        some { tenant with plan := (d.namedPlan py cfg).getD tenant.plan } ∧
      ∀ k, ((deliver py cfg w d).receipts k).isSome =
        (decide (k = d.event.id) || (w.receipts k).isSome) := by
  unfold deliver handleWebhook tryRecordEvent
  simp only [hnew]
  have htenant' := (setReceipt_tenants w d.event.id (processingReceipt py d.event)).symm ▸ htenant
  obtain ⟨o, w', hw', hreceipts, hplan⟩ :=
    dispatchEvent_bound hbound htenant' hdeleted hsuspended hresolved
  rw [hw']
  refine ⟨by simpa using hplan, fun k => ?_⟩
  dsimp only
  rw [finalizeOutcome_receipts, hreceipts, setReceipt_receipts]

/-- After any run of the tenant's own events the plan is the one named last, and the events
handled so far have their receipts. -/
theorem exec_plan {ds : List Delivery} {seen : String → Bool}
    (hbound : ∀ d ∈ ds, d.event.BoundTo py t tenant.stripeCustomerId)
    (htenant : w.tenants t = some tenant) (hdeleted : tenant.isDeleted = false)
    (hsuspended : tenant.isSuspended = false)
    (hseen : ∀ k, (w.receipts k).isSome = seen k) :
    (exec (deliver py cfg) w ds).tenants t =
        some { tenant with plan := lastNamed py cfg tenant.plan (firstHandled py cfg seen ds) } ∧
      ∀ k, ((exec (deliver py cfg) w ds).receipts k).isSome = true ↔
        seen k = true ∨ ∃ d ∈ firstHandled py cfg seen ds, d.event.id = k := by
  induction ds generalizing w tenant seen with
  | nil => exact ⟨htenant, fun k => by simp [firstHandled, hseen]⟩
  | cons d ds ih =>
    have hhead := hbound d List.mem_cons_self
    have htail : ∀ d' ∈ ds, d'.event.BoundTo py t tenant.stripeCustomerId :=
      fun d' hd' => hbound d' (List.mem_cons_of_mem _ hd')
    rw [exec_cons]
    by_cases hskip : (seen d.event.id || d.unresolved py cfg) = true
    · have hsame : deliver py cfg w d = w := by
        rcases Bool.or_eq_true_iff.1 hskip with hdup | hraises
        · exact deliver_duplicate (by rw [hseen, hdup])
        · exact deliver_unresolved hhead htenant hdeleted hsuspended hraises
      rw [hsame, firstHandled, if_pos hskip]
      exact ih htail htenant hdeleted hsuspended hseen
    · obtain ⟨hnew, hresolved⟩ := Bool.or_eq_false_iff.1 (Bool.eq_false_iff.2 hskip)
      have hnone : w.receipts d.event.id = none := by
        rw [← Option.not_isSome_iff_eq_none, hseen, hnew]
        exact Bool.false_ne_true
      obtain ⟨hplan, hreceipts⟩ :=
        deliver_handled hhead htenant hdeleted hsuspended hnone hresolved
      have hseen' : ∀ k, ((deliver py cfg w d).receipts k).isSome =
          (decide (k = d.event.id) || seen k) := fun k => by rw [hreceipts, hseen]
      let synced : Tenant := { tenant with plan := (d.namedPlan py cfg).getD tenant.plan }
      have hbound' : ∀ d' ∈ ds, d'.event.BoundTo py t synced.stripeCustomerId := htail
      obtain ⟨hfinal, hall⟩ := ih hbound' hplan hdeleted hsuspended hseen'
      rw [firstHandled, if_neg hskip]
      refine ⟨hfinal, fun k => ?_⟩
      rw [hall]
      simp only [Bool.or_eq_true, decide_eq_true_eq, List.mem_cons, exists_eq_or_imp,
        eq_comm (a := k), or_assoc]
      exact or_left_comm

end Steps

/-! ## The history at Stripe -/

inductive Change
  | created (subscription price : String)
  | updated (subscription price : String)
  | deleted (subscription : String)
  deriving DecidableEq, Repr

/-- A tenant's subscriptions: the ids ever created, and those that are live with their price. -/
structure Subscriptions where
  created : List String
  live : List (String × String)
  deriving DecidableEq, Repr

def Subscriptions.step (s : Subscriptions) : Change → Subscriptions
  | .created subscription price =>
      ⟨subscription :: s.created, (subscription, price) :: s.live⟩
  | .updated subscription price =>
      { s with live := s.live.map fun x => if x.1 = subscription then (subscription, price) else x }
  | .deleted subscription => { s with live := s.live.filter (·.1 ≠ subscription) }

/-- Subscription ids are never reused, only live ones change, and to a configured price. -/
def Change.Admissible (s : Subscriptions) : Change → Prop
  | .created subscription price =>
      subscription ∉ s.created ∧ (priceIdToPlan cfg price).isSome = true
  | .updated subscription price =>
      subscription ∈ s.live.map Prod.fst ∧ (subscription, price) ∉ s.live ∧
        (priceIdToPlan cfg price).isSome = true
  | .deleted subscription => subscription ∈ s.live.map Prod.fst

instance (s : Subscriptions) (c : Change) : Decidable (c.Admissible cfg s) := by
  cases c <;> unfold Change.Admissible <;> infer_instance

def subscriptions (changes : List Change) : Subscriptions :=
  exec Subscriptions.step ⟨[], []⟩ changes

/-- The plan of the live subscription, free if there is none. -/
def livePlan (changes : List Change) : Option String :=
  match (subscriptions changes).live with
  | [] => some "free"
  | [(_, price)] => priceIdToPlan cfg price
  | _ => none

/-- A subscription object as the events and `retrieve` carry it. -/
def Priced (obj : Fields) (price : String) : Prop :=
  (Fields.get obj "items").isSome = true ∧ priceFromSubscriptionObject py obj = .ok (some price)

instance (obj : Fields) (price : String) : Decidable (Priced py obj price) :=
  inferInstanceAs (Decidable (_ ∧ _))

/-- The events of a change. A checkout session carries its subscription's id and neither its
items nor, in a webhook, its line items. -/
def Change.Emits : Change → List StripeEvent → Prop
  | .created subscription price, [e, checkout] =>
      (e.type = "customer.subscription.created" ∧
        Fields.get e.object "id" = some (.str subscription) ∧ Priced py e.object price) ∧
      checkout.type = "checkout.session.completed" ∧
      Fields.get checkout.object "items" = none ∧
      Fields.get checkout.object "line_items" = none ∧
      Fields.get checkout.object "subscription" = some (.str subscription)
  | .updated subscription price, [e] =>
      e.type = "customer.subscription.updated" ∧
      Fields.get e.object "id" = some (.str subscription) ∧ Priced py e.object price
  | .deleted subscription, [e] =>
      e.type = "customer.subscription.deleted" ∧
      Fields.get e.object "id" = some (.str subscription)
  | _, _ => False

/-- A price the subscription has at some time of the history. -/
def HasPrice (changes : List Change) (subscription price : String) : Prop :=
  .created subscription price ∈ changes ∨ .updated subscription price ∈ changes

/-- An active tenant on the free plan, a history of its subscriptions from the first on, the
events Stripe emits for it and their arrivals at the webhook: in any order, any number of
times, each until it is handled. -/
structure Episode where
  tenantId : ℕ
  tenant : Tenant
  start : World
  changes : List Change
  emitted : List (List StripeEvent)
  deliveries : List Delivery
  known : start.tenants tenantId = some tenant
  notDeleted : tenant.isDeleted = false
  notSuspended : tenant.isSuspended = false
  free : tenant.plan = "free"
  admissible : Guarded Subscriptions.step (fun s c => c.Admissible cfg s) ⟨[], []⟩ changes
  oneLive : (subscriptions changes).live.length ≤ 1
  emits : List.Forall₂ (Change.Emits py) changes emitted
  ids : (emitted.flatten.map StripeEvent.id).Nodup
  fresh : ∀ e ∈ emitted.flatten, start.receipts e.id = none
  bound : ∀ e ∈ emitted.flatten, e.BoundTo py tenantId tenant.stripeCustomerId
  sent : ∀ d ∈ deliveries, d.event ∈ emitted.flatten
  answers : ∀ d ∈ deliveries, ∀ subscription obj, d.retrieve subscription = .ok obj →
    ∃ price, HasPrice changes subscription price ∧ Priced py obj price
  handled : ∀ e ∈ emitted.flatten,
    ∃ d ∈ firstHandled py cfg (fun k => (start.receipts k).isSome) deliveries, d.event = e

namespace Episode
variable {py cfg} (ep : Episode py cfg)

def final : World := exec (deliver py cfg) ep.start ep.deliveries

def finalPlan : Option String := (ep.final.tenants ep.tenantId).map Tenant.plan

/-- The deliveries that are handled, duplicates and failed attempts left out. -/
def arrivals : List Delivery :=
  firstHandled py cfg (fun k => (ep.start.receipts k).isSome) ep.deliveries

/-- The last arrival that names a plan names that of the live subscription. -/
def LastNamesLive : Prop := some (lastNamed py cfg "free" ep.arrivals) = livePlan cfg ep.changes

theorem final_plan : ep.finalPlan = some (lastNamed py cfg "free" ep.arrivals) := by
  obtain ⟨hplan, -⟩ := exec_plan (fun d hd => ep.bound d.event (ep.sent d hd)) ep.known
    ep.notDeleted ep.notSuspended fun _ => rfl
  unfold finalPlan final arrivals
  rw [hplan, ep.free]
  rfl

/-- A further delivery of an event handled after the first deliveries `ds` of the episode
changes nothing then, whatever Stripe answers. -/
theorem redelivered {ds rest : List Delivery} (hds : ep.deliveries = ds ++ rest) {d d' : Delivery}
    (hd : d ∈ firstHandled py cfg (fun k => (ep.start.receipts k).isSome) ds)
    (hid : d'.event.id = d.event.id) :
    deliver py cfg (exec (deliver py cfg) ep.start ds) d' =
      exec (deliver py cfg) ep.start ds := by
  have hbound : ∀ d ∈ ds, d.event.BoundTo py ep.tenantId ep.tenant.stripeCustomerId := by
    intro d hd
    apply ep.bound d.event
    apply ep.sent
    rw [hds]
    exact List.mem_append_left _ hd
  obtain ⟨-, hreceipts⟩ :=
    exec_plan hbound ep.known ep.notDeleted ep.notSuspended fun _ => rfl
  apply deliver_duplicate
  rw [hid, hreceipts]
  exact .inr ⟨d, hd, rfl⟩

end Episode

/-- The final plan is that of the live subscription just when the last arrival that names a
plan names it, and a further delivery of a handled event never changes anything. -/
theorem plan_synced (ep : Episode py cfg) :
    (ep.finalPlan = livePlan cfg ep.changes ↔ ep.LastNamesLive) ∧
    ∀ ds rest, ep.deliveries = ds ++ rest →
      ∀ d ∈ firstHandled py cfg (fun k => (ep.start.receipts k).isSome) ds,
        ∀ d' : Delivery, d'.event.id = d.event.id →
          deliver py cfg (exec (deliver py cfg) ep.start ds) d' =
            exec (deliver py cfg) ep.start ds :=
  ⟨by rw [ep.final_plan, Episode.LastNamesLive],
    fun _ _ hds _ hd _ hid => ep.redelivered hds hd hid⟩

end Sync

namespace Superseded

def host : Python where
  str _ := ""
  repr s := "'" ++ s ++ "'"
  uuid s := if s = "00000000-0000-0000-0000-000000000001" then some 1 else none
  uuidText _ := "00000000-0000-0000-0000-000000000001"

def settings : Settings := ⟨"price_starter", "price_pro", 1000⟩

def metadata : Fields :=
  [("metadata", .obj [("tenant_id", .str "00000000-0000-0000-0000-000000000001")])]

def subscription (id price : String) : Fields :=
  [("id", .str id),
   ("items", .obj [("data", .arr [.obj [("price", .obj [("id", .str price)])]])])] ++ metadata

def checkout (id : String) : Fields := ("subscription", .str id) :: metadata

def retrieve (id : String) : Except String Fields :=
  if id = "sub_a" then .ok (subscription "sub_a" "price_starter")
  else if id = "sub_b" then .ok (subscription "sub_b" "price_pro")
  else .error "No such subscription"

def tenant : Tenant := ⟨"active", "free", none, none⟩

def start : World := ⟨fun t => if t = 1 then some tenant else none, fun _ => none, []⟩

def changes : List Change :=
  [.created "sub_a" "price_starter", .created "sub_b" "price_pro", .deleted "sub_a"]

def emitted : List (List StripeEvent) :=
  [[⟨"evt_1", "customer.subscription.created", subscription "sub_a" "price_starter"⟩,
    ⟨"evt_2", "checkout.session.completed", checkout "sub_a"⟩],
   [⟨"evt_3", "customer.subscription.created", subscription "sub_b" "price_pro"⟩,
    ⟨"evt_4", "checkout.session.completed", checkout "sub_b"⟩],
   [⟨"evt_5", "customer.subscription.deleted", subscription "sub_a" "price_starter"⟩]]

theorem retrieve_priced {id : String} {obj : Fields} (h : retrieve id = .ok obj) :
    ∃ price, HasPrice changes id price ∧ Priced host obj price := by
  unfold retrieve at h
  split_ifs at h with ha hb
  · cases h
    subst ha
    exact ⟨"price_starter", .inl (by decide), by decide⟩
  · cases h
    subst hb
    exact ⟨"price_pro", .inl (by decide), by decide⟩

theorem emitted_bound : ∀ e ∈ emitted.flatten, e.BoundTo host 1 none := by
  intro e he
  refine ⟨⟨"00000000-0000-0000-0000-000000000001", ?_, by decide, by decide⟩, by simp⟩
  revert e
  decide

/-- A tenant moves from one subscription to another: the starter subscription, the pro
subscription beside it, and the deletion of the first, each event delivered once and in
order. -/
def episode : Episode host settings where
  tenantId := 1
  tenant := tenant
  start := start
  changes := changes
  emitted := emitted
  deliveries := emitted.flatten.map (⟨·, retrieve⟩)
  known := rfl
  notDeleted := rfl
  notSuspended := rfl
  free := rfl
  admissible := by decide
  oneLive := by decide
  emits := by
    refine .cons ?_ (.cons ?_ (.cons ?_ .nil)) <;> unfold Change.Emits <;> decide
  ids := by decide
  fresh _ _ := rfl
  bound := emitted_bound
  sent := by
    intro d hd
    obtain ⟨e, he, rfl⟩ := List.mem_map.1 hd
    exact he
  answers := by
    intro d hd subscription obj hobj
    obtain ⟨e, -, rfl⟩ := List.mem_map.1 hd
    exact retrieve_priced hobj
  handled := by decide +kernel

end Superseded

/-- The deletion of the superseded subscription leaves the tenant of the live pro
subscription on the free plan. -/
theorem superseded_deletion_downgrades :
    Superseded.episode.finalPlan = some "free" ∧
      livePlan Superseded.settings Superseded.episode.changes = some "pro" ∧
      ¬ ∀ ep : Episode Superseded.host Superseded.settings,
        ep.finalPlan = livePlan Superseded.settings ep.changes := by
  have hfinal : Superseded.episode.finalPlan = some "free" := by decide +kernel
  have hlive : livePlan Superseded.settings Superseded.episode.changes = some "pro" := by decide +kernel
  refine ⟨hfinal, hlive, fun h => ?_⟩
  have hsame := h Superseded.episode
  rw [hfinal, hlive] at hsame
  exact absurd hsame (by decide)

end Ajenda.StripeSync
