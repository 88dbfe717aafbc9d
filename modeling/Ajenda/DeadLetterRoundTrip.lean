import Ajenda.RedisQueueClaims

/-!
# The round trip of a dead-lettered message

A message is published, dead-lettered on one of three ways, published again from the
dead-letter store and claimed. Python writes and reads the message at the two ends and cjson
decodes and encodes it twice in between. A number of the payload is its exact Python value:
the literal `json.dumps` writes for a float reads as that same double, so the document may
carry the double itself.
-/
namespace Ajenda.RedisQueue
open JsonValue FiniteTable LuaCjson TransitionSystem

/-- `json.loads` of a text cjson has printed. It prints an integer below `10 ^ 14` as one,
and that is a double; Python reads every other number it prints as a float. -/
def loadPrinted : Payload → Payload
  | .json doc => .json (readValue doc)
  | raw => raw

/-- The ways to the dead-letter store: the owner fails the task, or the task is moved there
from pending, or from processing when its lease key has expired. -/
inductive DeadLetterRoute
  | failed (workerId reason failedAt : String)
  | movedPending (reason movedAt : String)
  | movedProcessing (workerId reason movedAt : String)

def DeadLetterRoute.ops (t : String) (raw : Payload) : DeadLetterRoute → List Op
  | .failed w reason failedAt =>
      [.enqueue t raw, .claimNext w, .fail t w reason failedAt, .retryDeadLetter t]
  | .movedPending reason movedAt =>
      [.enqueue t raw, .deadLetter t "" reason movedAt, .retryDeadLetter t]
  | .movedProcessing w reason movedAt =>
      [.enqueue t raw, .claimNext w, .leaseExpires t, .deadLetter t "" reason movedAt,
        .retryDeadLetter t]

/-- Every call of the run succeeds. -/
def allSucceed (cfg : Config) : Store → List Op → Bool
  | _, [] => true
  | s, op :: ops => succeeds cfg s op && allSucceed cfg (step cfg s op) ops

/-- The message a claim after the run yields, if every call of the run succeeds. -/
def claimAfter (cfg : Config) (s : Store) (ops : List Op) (w : String) : Option QueueMessage :=
  if allSucceed cfg s ops then
    match (claimNextTaskScript (exec (step cfg) s ops) w cfg.heartbeatTtlSeconds).1 with
    | .ok raw => decodeMessage (loadPrinted raw)
    | _ => none
  else none

/-- The message that comes back after the round trip. -/
def roundTrip (cfg : Config) (s : Store) (m : QueueMessage) (route : DeadLetterRoute)
    (w : String) : Option QueueMessage :=
  claimAfter cfg s (route.ops m.taskId (encodeMessage m)) w

theorem claimAfter_cons {cfg : Config} {s : Store} {op : Op} (h : succeeds cfg s op = true)
    (ops : List Op) (w : String) :
    claimAfter cfg s (op :: ops) w = claimAfter cfg (step cfg s op) ops w := by
  simp [claimAfter, allSucceed, h]

theorem claimAfter_refused {cfg : Config} {s : Store} {op : Op} (h : succeeds cfg s op = false)
    (ops : List Op) (w : String) : claimAfter cfg s (op :: ops) w = none := by
  simp [claimAfter, allSucceed, h]

section Places
variable {s : Store} {cfg : Config} {t w : String} {raw : Payload}

/-- Nothing is pending, and the task `t` is nowhere but possibly in the dead-letter store. -/
structure Idle (s : Store) (t : String) : Prop where
  order : ∀ u, s.pendingOrder.get u = none
  pending : s.pendingPayloads.get t = none
  processing : s.processingPayloads.get t = none
  lease : s.leases.get t = none

/-- The task `t` alone is pending. -/
structure Queued (s : Store) (t : String) (raw : Payload) : Prop where
  order : ∀ u, (s.pendingOrder.get u).isSome = decide (u = t)
  pending : s.pendingPayloads.get t = some raw
  processing : s.processingPayloads.get t = none
  lease : s.leases.get t = none

/-- The task `t` is processing and nothing is pending. -/
structure Held (s : Store) (t : String) (raw : Payload) (owner : Option String) : Prop where
  order : ∀ u, s.pendingOrder.get u = none
  pending : s.pendingPayloads.get t = none
  processing : s.processingPayloads.get t = some raw
  lease : s.leases.get t = owner

/-- The task `t` is in the dead-letter store and nothing is pending. -/
structure DeadLettered (s : Store) (t : String) (raw : Payload) : Prop where
  idle : Idle s t
  dead : s.deadPayloads.get t = some raw

theorem Idle.pushPending (h : Idle s t) (raw : Payload) : Queued (s.pushPending t raw) t raw where
  order u := by
    by_cases hu : u = t
    · simp [Store.pushPending, hu]
    · simp [Store.pushPending, Table.get_put, hu, h.order u]
  pending := by simp [Store.pushPending]
  processing := h.processing
  lease := h.lease

variable (cfg) in
theorem Idle.enqueue (h : Idle s t) (raw : Payload) :
    succeeds cfg s (.enqueue t raw) = true ∧ Queued (step cfg s (.enqueue t raw)) t raw := by
  have hscript : enqueueScript s t raw = (.ok "published", s.pushPending t raw) := by
    simp [enqueueScript, Table.has, h.pending, h.processing]
  constructor
  · simp [succeeds, hscript, Reply.isOk]
  · rw [step, hscript]
    exact h.pushPending raw

theorem Queued.first (h : Queued s t raw) : s.pendingOrder.first = some t := by
  have hself : (s.pendingOrder.get t).isSome = true := by simp [h.order]
  obtain ⟨r, hr⟩ := Option.isSome_iff_exists.mp hself
  obtain ⟨k, hk⟩ := RankedSet.first_exists hr
  obtain ⟨q, hq⟩ := RankedSet.get_of_first hk
  have hkt : k = t := by
    have hsome := h.order k
    rw [hq] at hsome
    simpa using hsome.symm
  rw [hk, hkt]

/-- The next claim yields the task that alone is pending. -/
theorem Queued.claim (h : Queued s t raw) (w : String) (httl : 0 < cfg.heartbeatTtlSeconds) :
    claimNextTaskScript s w cfg.heartbeatTtlSeconds = (.ok raw, s.claimed t raw w) := by
  simp [claimNextTaskScript, h.first, h.pending, Table.has, h.lease, httl, Store.claimed]

theorem Queued.held (h : Queued s t raw) (w : String) (httl : 0 < cfg.heartbeatTtlSeconds) :
    succeeds cfg s (.claimNext w) = true ∧
      Held (step cfg s (.claimNext w)) t raw (some w) := by
  have hclaim := h.claim w httl
  constructor
  · simp [succeeds, hclaim, Reply.isOk]
  · rw [step, hclaim]
    constructor
    · intro u
      have hu := h.order u
      by_cases hut : u = t
      · simp [Store.claimed, Store.moveToProcessing, Store.dropPending, hut]
      · simpa [Store.claimed, Store.moveToProcessing, Store.dropPending, Table.get_del, hut]
          using hu
    · simp [Store.claimed, Store.moveToProcessing, Store.dropPending]
    · simp [Store.claimed, Store.moveToProcessing, Store.dropPending]
    · simp [leases_claimed]

variable (cfg) in
theorem Held.expires {owner : Option String} (h : Held s t raw owner) :
    Held (step cfg s (.leaseExpires t)) t raw none :=
  ⟨h.order, h.pending, h.processing, by simp [step, Store.dropLease]⟩

variable (cfg) in
/-- The retry of a dead-letter entry succeeds exactly when cjson can print its payload. -/
theorem DeadLettered.retry (h : DeadLettered s t raw) :
    match (retryPayload cfg.tenantId t raw).toOption.bind encode with
    | none => succeeds cfg s (.retryDeadLetter t) = false
    | some printed => succeeds cfg s (.retryDeadLetter t) = true ∧
        Queued (step cfg s (.retryDeadLetter t)) t printed := by
  have hguards : s.pendingPayloads.has t = false ∧ s.processingPayloads.has t = false := by
    simp [Table.has, h.idle.pending, h.idle.processing]
  cases hpayload : retryPayload cfg.tenantId t raw with
  | error reason =>
    simp [Except.toOption, succeeds, retryDeadLetterScript, hguards, h.dead, hpayload, Reply.isOk]
  | ok payload =>
    cases hencode : encode payload with
    | none =>
      simp [Except.toOption, hencode, succeeds, retryDeadLetterScript, hguards, h.dead, hpayload,
        Reply.isOk]
    | some printed =>
      have hscript : retryDeadLetterScript s cfg.tenantId t =
          (.ok "ok", (s.dropDead t).pushPending t printed) := by
        simp [retryDeadLetterScript, hguards, h.dead, hpayload, hencode]
      have hidle : Idle (s.dropDead t) t :=
        ⟨h.idle.order, h.idle.pending, h.idle.processing, h.idle.lease⟩
      simp only [Except.toOption, Option.bind_some, hencode]
      constructor
      · simp [succeeds, hscript, Reply.isOk]
      · rw [step, hscript]
        exact hidle.pushPending printed

/-- A failure by the owner succeeds exactly when cjson can print the envelope. -/
theorem Held.fail (h : Held s t raw (some w)) (reason failedAt : String) :
    match (decodeTable raw).bind (encode ∘ failEnvelope t w reason failedAt) with
    | none => succeeds cfg s (.fail t w reason failedAt) = false
    | some envelope => succeeds cfg s (.fail t w reason failedAt) = true ∧
        DeadLettered (step cfg s (.fail t w reason failedAt)) t envelope := by
  cases hdecode : decodeTable raw with
  | none => simp [succeeds, failOwnerScript, h.lease, h.processing, hdecode, Reply.isOk]
  | some payload =>
    cases hencode : encode (failEnvelope t w reason failedAt payload) with
    | none =>
      simp [hencode, succeeds, failOwnerScript, h.lease, h.processing, hdecode, Reply.isOk]
    | some envelope =>
      have hscript : failOwnerScript s t w reason failedAt =
          (.ok "ok", ((s.dropProcessing t).pushDead t envelope).dropLease t) := by
        simp [failOwnerScript, h.lease, h.processing, hdecode, hencode]
      simp only [Option.bind_some, Function.comp_apply, hencode]
      constructor
      · simp [succeeds, hscript, Reply.isOk]
      · rw [step, hscript]
        exact ⟨⟨h.order, h.pending, by simp [Store.dropProcessing, Store.pushDead, Store.dropLease],
          by simp [Store.dropLease]⟩, by simp [Store.pushDead, Store.dropLease]⟩

/-- A task without a lease key that is in one of the two queues is dead-lettered exactly when
cjson can print the envelope. -/
theorem deadLetter_unowned (hlease : s.leases.get t = none)
    (horder : ∀ u, u ≠ t → s.pendingOrder.get u = none)
    (hplace : (s.processingPayloads.get t = some raw ∧ s.pendingPayloads.get t = none) ∨
      (s.processingPayloads.get t = none ∧ s.pendingPayloads.get t = some raw))
    (reason movedAt : String) :
    match (decodeTable raw).bind (encode ∘ deadLetterEnvelope t "" reason movedAt) with
    | none => succeeds cfg s (.deadLetter t "" reason movedAt) = false
    | some envelope => succeeds cfg s (.deadLetter t "" reason movedAt) = true ∧
        DeadLettered (step cfg s (.deadLetter t "" reason movedAt)) t envelope := by
  have hdenied : deadLetterDenied s t "" = none := by simp [deadLetterDenied, hlease]
  have hpayload : deadLetterPayload cfg.tenantId t (s.processingPayloads.get t)
      (s.pendingPayloads.get t) =
        (decodeTable raw).elim (.error "queue payload is corrupt") .ok := by
    rcases hplace with ⟨hq, hp⟩ | ⟨hq, hp⟩ <;>
      · rw [hq, hp]
        cases hdecode : decodeTable raw <;> simp [deadLetterPayload, hdecode]
  cases hdecode : decodeTable raw with
  | none =>
    rw [hdecode, Option.elim_none] at hpayload
    simp [succeeds, deadLetterScript, hdenied, hpayload, Reply.isOk]
  | some payload =>
    rw [hdecode, Option.elim_some] at hpayload
    cases hencode : encode (deadLetterEnvelope t "" reason movedAt payload) with
    | none => simp [hencode, succeeds, deadLetterScript, hdenied, hpayload, Reply.isOk]
    | some envelope =>
      have hscript : deadLetterScript s cfg.tenantId t "" reason movedAt = (.ok "ok",
          (((s.dropProcessing t).dropPending t).pushDead t envelope).dropLease t) := by
        simp [deadLetterScript, hdenied, hpayload, hencode]
      simp only [Option.bind_some, Function.comp_apply, hencode]
      constructor
      · simp [succeeds, hscript, Reply.isOk]
      · rw [step, hscript]
        refine ⟨⟨fun u => ?_, ?_, ?_, ?_⟩, ?_⟩
        · by_cases hu : u = t
          · simp [Store.pushDead, Store.dropPending, Store.dropProcessing, Store.dropLease, hu]
          · simp [Store.pushDead, Store.dropPending, Store.dropProcessing, Store.dropLease,
              Table.get_del, hu, horder u hu]
        · simp [Store.pushDead, Store.dropPending, Store.dropLease]
        · simp [Store.pushDead, Store.dropPending, Store.dropProcessing, Store.dropLease]
        · simp [Store.dropLease]
        · simp [Store.pushDead, Store.dropLease]

end Places

section Messages
variable {m : QueueMessage}

def messageFields (m : QueueMessage) : Fields :=
  [("branch_id", optionalText m.branchId), ("enqueued_at", .str m.enqueuedAt),
    ("fleet_id", optionalText m.fleetId), ("mission_id", .str m.missionId),
    ("payload", .obj m.payload), ("task_id", .str m.taskId), ("tenant_id", .str m.tenantId)]

/-- The document of a message. -/
def messageDoc (m : QueueMessage) : Json := .obj (messageFields m)

def QueueMessage.withPayload (m : QueueMessage) (payload : Fields) : QueueMessage :=
  { m with payload }

/-- The identifiers are texts of UUIDs, so none is empty. -/
def QueueMessage.Identified (m : QueueMessage) : Prop :=
  m.fleetId ≠ some "" ∧ m.branchId ≠ some ""

theorem encodeMessage_eq (m : QueueMessage) : encodeMessage m = .json (messageDoc m) := rfl

theorem readValue_optionalText (text : Option String) :
    readValue (optionalText text) = optionalText text := by
  cases text <;> rfl

theorem printValue_optionalText (text : Option String) :
    printValue (optionalText text) = optionalText text := by
  cases text <;> rfl

theorem readValue_messageDoc (m : QueueMessage) :
    readValue (messageDoc m) = messageDoc (m.withPayload (readFields m.payload)) := by
  simp [messageDoc, messageFields, readValue, readFields, readValue_optionalText, QueueMessage.withPayload]

theorem printValue_messageDoc (m : QueueMessage) :
    printValue (messageDoc m) = messageDoc (m.withPayload (printFields m.payload)) := by
  simp [messageDoc, messageFields, printValue, printFields, printValue_optionalText, QueueMessage.withPayload]

theorem reprint_messageDoc (m : QueueMessage) : reprint (messageDoc m) =
    messageDoc (m.withPayload (printFields (readFields m.payload))) := by
  rw [reprint, readValue_messageDoc, printValue_messageDoc]
  rfl

theorem finite_optionalText (text : Option String) : finite (optionalText text) = true := by
  cases text <;> rfl

theorem finite_messageDoc (m : QueueMessage) :
    finite (messageDoc m) = finiteFields m.payload := by
  simp [messageDoc, messageFields, finite, finiteFields, finite_optionalText]

theorem depth_messageDoc (m : QueueMessage) :
    (messageDoc m).depth = (Json.obj m.payload).depth + 1 := by
  have htext : ∀ text : Option String, (optionalText text).depth = 0 := by
    intro text
    cases text <;> rfl
  simp [messageDoc, messageFields, Json.depth, Json.depthFields, htext]

theorem optionalTextField_eq {fs : Fields} {k : String} {text : Option String}
    (htext : text ≠ some "") (hget : fs.get k = some (optionalText text)) :
    optionalTextField fs k = some text := by
  cases text with
  | none => simp [optionalTextField, hget, optionalText, Json.truthy]
  | some s =>
    have hs : s ≠ "" := fun hs => htext (congrArg some hs)
    simp [optionalTextField, hget, optionalText, Json.truthy, hs]

theorem decodeMessage_messageDoc (h : m.Identified) :
    decodeMessage (.json (messageDoc m)) = some m := by
  have hfleet : optionalTextField (messageFields m) "fleet_id" = some m.fleetId :=
    optionalTextField_eq h.1 (by simp [messageFields, Fields.get_cons])
  have hbranch : optionalTextField (messageFields m) "branch_id" = some m.branchId :=
    optionalTextField_eq h.2 (by simp [messageFields, Fields.get_cons])
  simp only [messageDoc, decodeMessage, hfleet, hbranch]
  simp [textField, messageFields, Fields.get_cons]

/-- An envelope of either script around a document. -/
structure Envelope (envelope : Json → Json) : Prop where
  obj : ∀ doc, ∃ fs, envelope doc = .obj fs ∧ Fields.get fs "payload" = some doc
  print : ∀ doc, printValue (envelope doc) = envelope (printValue doc)
  finite : ∀ doc, finite (envelope doc) = finite doc
  depth : ∀ doc, (envelope doc).depth = doc.depth + 1

theorem envelope_fail (t w reason failedAt : String) :
    Envelope (failEnvelope t w reason failedAt) where
  obj doc := ⟨_, rfl, by simp [Fields.get_cons]⟩
  print doc := rfl
  finite doc := by simp [failEnvelope, LuaCjson.finite, finiteFields]
  depth doc := failEnvelope_depth

theorem envelope_deadLetter (t owner reason movedAt : String) :
    Envelope (deadLetterEnvelope t owner reason movedAt) where
  obj doc := ⟨_, rfl, by simp [Fields.get_cons]⟩
  print doc := by
    unfold deadLetterEnvelope
    split_ifs <;> rfl
  finite doc := by
    unfold deadLetterEnvelope
    split_ifs <;> simp [LuaCjson.finite, finiteFields]
  depth doc := deadLetterEnvelope_depth

/-- What the scripts make of a message from its envelope to its next claim. -/
def passEnvelope (tenantId : String) (m : QueueMessage) (envelope : Json → Json) :
    Option QueueMessage :=
  (decodeTable (encodeMessage m)).bind (encode ∘ envelope) |>.bind fun raw =>
    (retryPayload tenantId m.taskId raw).toOption.bind encode |>.bind fun printed =>
      decodeMessage (loadPrinted printed)

section Envelopes
variable {tenantId : String} {envelope : Json → Json} (he : Envelope envelope)
include he

theorem encode_envelope {doc : Json} (hdepth : doc.depth + 1 ≤ maxDepth)
    (hfinite : LuaCjson.finite doc = true) :
    encode (envelope doc) = some (.json (envelope (printValue doc))) := by
  have hle : (envelope doc).depth ≤ maxDepth := by
    rw [he.depth]
    exact hdepth
  rw [encode, if_pos ⟨hle, by rw [he.finite, hfinite]⟩, he.print]

/-- The retry script takes the message back out of the envelope. -/
theorem retryPayload_messageDoc {m : QueueMessage} (htenant : m.tenantId = tenantId)
    (hdepth : (messageDoc m).depth + 1 ≤ maxDepth) :
    retryPayload tenantId m.taskId (.json (envelope (messageDoc m))) =
      .ok (readValue (messageDoc m)) := by
  obtain ⟨fs, hobj, hget⟩ := he.obj (messageDoc m)
  have hle : (Json.obj fs).depth ≤ maxDepth := by
    rw [← hobj, he.depth]
    exact hdepth
  rw [hobj]
  exact retryPayload_envelope (encodeMessage_eq m) htenant rfl hget hle

/-- A message comes out of its envelope unchanged exactly when its payload is carried and the
envelope is not nested too deep. -/
theorem passEnvelope_iff {m : QueueMessage} (htenant : m.tenantId = tenantId)
    (hid : m.Identified) : passEnvelope tenantId m envelope = some m ↔
      Carried (.obj m.payload) ∧ (Json.obj m.payload).depth + 2 ≤ maxDepth := by
  have hcarried : Carried (.obj m.payload) ↔ _ := carriedFields_iff m.payload
  have hdoc : (messageDoc m).depth = (Json.obj m.payload).depth + 1 := depth_messageDoc m
  rw [hcarried, passEnvelope, encodeMessage_eq]
  by_cases hdepth : (Json.obj m.payload).depth + 2 ≤ maxDepth
  · have hfirst : LuaCjson.finite (readValue (messageDoc m)) =
        finiteFields (readFields m.payload) := by
      rw [readValue_messageDoc, finite_messageDoc]
      rfl
    have hsecond : LuaCjson.finite (readValue (reprint (messageDoc m))) =
        finiteFields (readFields (printFields (readFields m.payload))) := by
      rw [reprint_messageDoc, readValue_messageDoc, finite_messageDoc]
      rfl
    rw [decodeTable_json rfl (by omega), Option.bind_some, Function.comp_apply]
    cases hfinite : finiteFields (readFields m.payload) with
    | false =>
      have hnone : encode (envelope (readValue (messageDoc m))) = none := by
        rw [encode, he.finite, hfirst, hfinite]
        simp
      simp [hnone]
    | true =>
      have hprinted : encode (envelope (readValue (messageDoc m))) =
          some (.json (envelope (reprint (messageDoc m)))) :=
        encode_envelope he (by rw [readValue_depth]; omega) (by rw [hfirst, hfinite])
      have hretry : retryPayload tenantId m.taskId (.json (envelope (reprint (messageDoc m)))) =
          .ok (readValue (reprint (messageDoc m))) := by
        have hle : (reprint (messageDoc m)).depth + 1 ≤ maxDepth := by
          rw [reprint_depth]
          omega
        rw [reprint_messageDoc] at hle ⊢
        exact retryPayload_messageDoc he htenant hle
      simp only [hprinted, Option.bind_some, hretry, Except.toOption]
      cases hagain : finiteFields (readFields (printFields (readFields m.payload))) with
      | false =>
        have hnone : encode (readValue (reprint (messageDoc m))) = none := by
          rw [encode, hsecond, hagain]
          simp
        simp [hnone]
      | true =>
        have hreprinted : encode (readValue (reprint (messageDoc m))) =
            some (.json (reprint (reprint (messageDoc m)))) := by
          have hle : (readValue (reprint (messageDoc m))).depth ≤ maxDepth := by
            rw [readValue_depth, reprint_depth]
            omega
          rw [encode, if_pos ⟨hle, by rw [hsecond, hagain]⟩]
          rfl
        have hloaded : decodeMessage (loadPrinted (.json (reprint (reprint (messageDoc m))))) =
            some (m.withPayload (readFields (printFields (readFields (printFields
              (readFields m.payload)))))) := by
          simp only [loadPrinted, reprint_messageDoc, readValue_messageDoc]
          exact decodeMessage_messageDoc hid
        rw [hreprinted, Option.bind_some, hloaded]
        cases m
        simp [QueueMessage.withPayload, hdepth]
  · have hnone : ((decodeTable (.json (messageDoc m))).bind (encode ∘ envelope)) = none := by
      by_cases hle : (messageDoc m).depth ≤ maxDepth
      · have hdeep : ¬ (messageDoc m).depth + 1 ≤ maxDepth := by omega
        rw [decodeTable_json rfl hle, Option.bind_some, Function.comp_apply, encode, he.depth,
          readValue_depth, if_neg fun h => hdeep h.1]
      · simp [decodeTable, decode, hle]
    rw [hnone]
    simp [hdepth]

end Envelopes

end Messages

section Routes
variable {cfg : Config} {s : Store} {m : QueueMessage}

/-- The envelope a route puts a message into. -/
def DeadLetterRoute.envelope (t : String) : DeadLetterRoute → Json → Json
  | .failed w reason failedAt => failEnvelope t w reason failedAt
  | .movedPending reason movedAt | .movedProcessing _ reason movedAt =>
      deadLetterEnvelope t "" reason movedAt

theorem DeadLetterRoute.envelope_spec (t : String) (route : DeadLetterRoute) :
    Envelope (route.envelope t) := by
  cases route with
  | failed w reason failedAt => exact envelope_fail t w reason failedAt
  | movedPending reason movedAt | movedProcessing w reason movedAt =>
    exact envelope_deadLetter t "" reason movedAt

/-- The retry and the last claim. -/
theorem claimAfter_retry {t : String} {raw : Payload} (w : String)
    (httl : 0 < cfg.heartbeatTtlSeconds) (h : DeadLettered s t raw) :
    claimAfter cfg s [.retryDeadLetter t] w =
      ((retryPayload cfg.tenantId t raw).toOption.bind encode).bind fun printed =>
        decodeMessage (loadPrinted printed) := by
  have hretry := h.retry cfg
  cases hprinted : (retryPayload cfg.tenantId t raw).toOption.bind encode with
  | none =>
    rw [hprinted] at hretry
    exact claimAfter_refused hretry [] w
  | some printed =>
    rw [hprinted] at hretry
    have hclaim := hretry.2.claim w httl
    rw [claimAfter_cons hretry.1]
    simp [claimAfter, allSucceed, hclaim]

/-- A call that dead-letters the message, and what follows it. -/
theorem claimAfter_deadLettered {op : Op} {t w : String} (httl : 0 < cfg.heartbeatTtlSeconds)
    (envelope : Option Payload) (h : match envelope with
      | none => succeeds cfg s op = false
      | some raw => succeeds cfg s op = true ∧ DeadLettered (step cfg s op) t raw) :
    claimAfter cfg s [op, .retryDeadLetter t] w = envelope.bind fun raw =>
      ((retryPayload cfg.tenantId t raw).toOption.bind encode).bind fun printed =>
        decodeMessage (loadPrinted printed) := by
  cases envelope with
  | none => exact claimAfter_refused h _ w
  | some raw =>
    rw [claimAfter_cons h.1, claimAfter_retry w httl h.2]
    rfl

/-- Every route passes the message through its envelope. -/
theorem roundTrip_eq (hidle : Idle s m.taskId) (httl : 0 < cfg.heartbeatTtlSeconds)
    (route : DeadLetterRoute) (w : String) :
    roundTrip cfg s m route w = passEnvelope cfg.tenantId m (route.envelope m.taskId) := by
  obtain ⟨hok, hqueued⟩ := hidle.enqueue cfg (encodeMessage m)
  cases route with
  | failed v reason failedAt =>
    obtain ⟨hclaimed, hheld⟩ := hqueued.held v httl
    rw [roundTrip, DeadLetterRoute.ops, claimAfter_cons hok, claimAfter_cons hclaimed]
    exact claimAfter_deadLettered httl _ (hheld.fail reason failedAt)
  | movedPending reason movedAt =>
    have horder : ∀ u, u ≠ m.taskId → (step cfg s
        (.enqueue m.taskId (encodeMessage m))).pendingOrder.get u = none := by
      intro u hu
      simpa [hu] using hqueued.order u
    rw [roundTrip, DeadLetterRoute.ops, claimAfter_cons hok]
    exact claimAfter_deadLettered httl _ (deadLetter_unowned hqueued.lease horder
      (.inr ⟨hqueued.processing, hqueued.pending⟩) reason movedAt)
  | movedProcessing v reason movedAt =>
    obtain ⟨hclaimed, hheld⟩ := hqueued.held v httl
    have hexpired := hheld.expires cfg
    rw [roundTrip, DeadLetterRoute.ops, claimAfter_cons hok, claimAfter_cons hclaimed,
      claimAfter_cons rfl]
    exact claimAfter_deadLettered httl _ (deadLetter_unowned hexpired.lease
      (fun u _ => hexpired.order u) (.inl ⟨hexpired.processing, hexpired.pending⟩) reason movedAt)

/-- On every route, a message comes back as it was published exactly when its payload has no
empty list and no number that cjson changes, and is not nested too deep. -/
theorem dead_letter_round_trip_iff (cfg : Config) (s : Store) (m : QueueMessage)
    (route : DeadLetterRoute) (w : String) (httl : 0 < cfg.heartbeatTtlSeconds)
    (hidle : Idle s m.taskId) (htenant : m.tenantId = cfg.tenantId) (hid : m.Identified) :
    roundTrip cfg s m route w = some m ↔
      Carried (.obj m.payload) ∧ (Json.obj m.payload).depth + 2 ≤ maxDepth := by
  rw [roundTrip_eq hidle httl route w]
  exact passEnvelope_iff (route.envelope_spec m.taskId) htenant hid

theorem idle_empty (t : String) : Idle .empty t := by
  constructor <;> simp [Store.empty]

theorem dead_letter_round_trip_plain :
    roundTrip ⟨"tenant", 30⟩ .empty plainMessage (.failed "w" "r" "now") "other" =
        some plainMessage ↔
      Carried (.obj plainMessage.payload) ∧
        (Json.obj plainMessage.payload).depth + 2 ≤ maxDepth :=
  dead_letter_round_trip_iff ⟨"tenant", 30⟩ .empty plainMessage (.failed "w" "r" "now") "other"
    (by decide) (idle_empty _) rfl ⟨by decide, by decide⟩

example : roundTrip ⟨"tenant", 30⟩ .empty plainMessage (.failed "w" "r" "now") "other" =
    some plainMessage := by decide +kernel

/-- A message with an empty list and an integer beyond `2 ^ 53`. -/
def listMessage : QueueMessage :=
  plainMessage.withPayload [("tags", .arr []), ("n", .num (.finite 9007199254740993))]

/-- The list comes back as an empty object and the integer rounded. -/
theorem dead_letter_round_trip_changes :
    roundTrip ⟨"tenant", 30⟩ .empty listMessage (.failed "w" "r" "now") "other" ≠
        some listMessage ∧
      roundTrip ⟨"tenant", 30⟩ .empty listMessage (.failed "w" "r" "now") "other" =
        some (plainMessage.withPayload
          [("tags", .obj []), ("n", .num (.finite 9007199254741000))]) := by
  decide +kernel

end Routes

end Ajenda.RedisQueue
