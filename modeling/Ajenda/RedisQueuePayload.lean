import Ajenda.RedisQueueInvariant

/-!
# The payload of one task

A slot is what the queue stores for one task. `SlotStep` lists everything an operation can
do to a slot, and what happens to a task's message is read off it.
-/
namespace Ajenda.RedisQueue
open JsonValue FiniteTable LuaCjson TransitionSystem

structure Slot where
  pending : Option Payload
  processing : Option Payload
  dead : Option Payload

def Store.slot (s : Store) (t : String) : Slot :=
  ⟨s.pendingPayloads.get t, s.processingPayloads.get t, s.deadPayloads.get t⟩

/-- The changes the operations make to the slot of the task `t`. -/
inductive SlotStep (tenantId t : String) : Op → Slot → Slot → Prop
  | unchanged (op : Op) (b : Slot) : SlotStep tenantId t op b b
  | enqueued (raw : Payload) (dead : Option Payload) :
      SlotStep tenantId t (.enqueue t raw) ⟨none, none, dead⟩ ⟨some raw, none, dead⟩
  | enqueuedOnce (key : String) (raw : Payload) (dead : Option Payload) :
      SlotStep tenantId t (.enqueueIdempotent key t raw) ⟨none, none, dead⟩ ⟨some raw, none, dead⟩
  | cancelled (pending dead : Option Payload) :
      SlotStep tenantId t (.cancel t) ⟨pending, none, dead⟩ ⟨none, none, dead⟩
  | claimed {op : Op} {w : String} (raw : Payload) (processing dead : Option Payload)
      (hop : op = .claimNext w ∨ op = .claimExisting t w) :
      SlotStep tenantId t op ⟨some raw, processing, dead⟩ ⟨none, some raw, dead⟩
  | completed (w : String) (raw : Payload) (pending dead : Option Payload) :
      SlotStep tenantId t (.complete t w) ⟨pending, some raw, dead⟩ ⟨pending, none, dead⟩
  | failed {w reason failedAt : String} {raw envelope : Payload} {payload : Json}
      (pending dead : Option Payload) (hdecode : decodeTable raw = some payload)
      (hencode : encode (failEnvelope t w reason failedAt payload) = some envelope) :
      SlotStep tenantId t (.fail t w reason failedAt) ⟨pending, some raw, dead⟩
        ⟨pending, none, some envelope⟩
  | requeued {op : Op} {w : String} (raw : Payload) (pending dead : Option Payload)
      (hop : op = .release t w ∨ op = .recover t w) :
      SlotStep tenantId t op ⟨pending, some raw, dead⟩ ⟨some raw, none, dead⟩
  | deadLettered {owner reason movedAt : String} {pending processing : Option Payload}
      {payload : Json} (dead : Option Payload)
      (hpayload : deadLetterPayload tenantId t processing pending = .ok payload) :
      SlotStep tenantId t (.deadLetter t owner reason movedAt) ⟨pending, processing, dead⟩
        ⟨none, none, (encode (deadLetterEnvelope t owner reason movedAt payload)).or dead⟩
  | retried {raw : Payload} {payload : Json} (hpayload : retryPayload tenantId t raw = .ok payload) :
      SlotStep tenantId t (.retryDeadLetter t) ⟨none, none, some raw⟩
        ⟨encode payload, none, none⟩

section Frame
variable (s : Store) {t u : String} (h : t ≠ u) (p : Payload)
include h

theorem slot_pushPending_ne : (s.pushPending u p).slot t = s.slot t := by
  simp [Store.slot, Store.pushPending, Table.get_put_ne _ _ h]

theorem slot_pushDead_ne : (s.pushDead u p).slot t = s.slot t := by
  simp [Store.slot, Store.pushDead, Table.get_put_ne _ _ h]

theorem slot_dropPending_ne : (s.dropPending u).slot t = s.slot t := by
  simp [Store.slot, Store.dropPending, Table.get_del_ne _ h]

theorem slot_dropDead_ne : (s.dropDead u).slot t = s.slot t := by
  simp [Store.slot, Store.dropDead, Table.get_del_ne _ h]

theorem slot_dropProcessing_ne : (s.dropProcessing u).slot t = s.slot t := by
  simp [Store.slot, Store.dropProcessing, Table.get_del_ne _ h]

theorem slot_moveToProcessing_ne : (s.moveToProcessing u p).slot t = s.slot t := by
  simp [Store.slot, Store.moveToProcessing, Store.dropPending, Table.get_del_ne _ h,
    Table.get_put_ne _ _ h]

end Frame

section Scripts
variable (s : Store) (tenantId t u : String)

theorem slot_dropLease : (s.dropLease u).slot t = s.slot t := rfl

theorem slot_expireLease (ttl : ℤ) : (s.expireLease u ttl).slot t = s.slot t := by
  unfold Store.expireLease
  split_ifs <;> rfl

theorem slot_moveToProcessing {p : Payload} :
    (s.moveToProcessing t p).slot t = ⟨none, some p, s.deadPayloads.get t⟩ := by
  simp [Store.slot, Store.moveToProcessing, Store.dropPending]

theorem slot_enqueueScript (p : Payload) :
    SlotStep tenantId t (.enqueue u p) (s.slot t) ((enqueueScript s u p).2.slot t) := by
  unfold enqueueScript
  split_ifs with hq hp
  · exact .unchanged ..
  · exact .unchanged ..
  · by_cases h : t = u
    · subst u
      rw [Bool.not_eq_true, Table.has_eq_false] at hq hp
      simpa [Store.slot, Store.pushPending, hq, hp] using SlotStep.enqueued p _
    · rw [slot_pushPending_ne s h]
      exact .unchanged ..

theorem slot_idempotentEnqueueScript (k : String) (p : Payload) :
    SlotStep tenantId t (.enqueueIdempotent k u p) (s.slot t)
      ((idempotentEnqueueScript s k u p).2.slot t) := by
  unfold idempotentEnqueueScript
  split_ifs with hk hq hp
  · exact .unchanged ..
  · exact .unchanged ..
  · exact .unchanged ..
  · change SlotStep tenantId t _ _ ((s.pushPending u p).slot t)
    by_cases h : t = u
    · subst u
      rw [Bool.not_eq_true, Table.has_eq_false] at hq hp
      simpa [Store.slot, Store.pushPending, hq, hp] using SlotStep.enqueuedOnce k p _
    · rw [slot_pushPending_ne s h]
      exact .unchanged ..

theorem slot_cancelPendingTaskScript :
    SlotStep tenantId t (.cancel u) (s.slot t) ((cancelPendingTaskScript s u).2.slot t) := by
  unfold cancelPendingTaskScript
  split_ifs with hq
  · exact .unchanged ..
  · by_cases h : t = u
    · subst u
      rw [Bool.not_eq_true, Table.has_eq_false] at hq
      simpa [Store.slot, Store.dropPending, hq] using SlotStep.cancelled _ _
    · rw [slot_dropPending_ne s h]
      exact .unchanged ..

/-- A claim of the task `u` on the slot of `t`. -/
theorem slot_claim {op : Op} {w : String} {p : Payload} (hp : s.pendingPayloads.get u = some p)
    (hop : op = .claimNext w ∨ op = .claimExisting u w) :
    SlotStep tenantId t op (s.slot t) ((s.moveToProcessing u p).slot t) := by
  by_cases h : t = u
  · subst u
    rw [slot_moveToProcessing]
    simpa only [Store.slot, hp] using SlotStep.claimed p _ _ hop
  · rw [slot_moveToProcessing_ne s h]
    exact .unchanged ..

theorem slot_claimNextTaskScript (w : String) (ttl : ℤ) :
    SlotStep tenantId t (.claimNext w) (s.slot t) ((claimNextTaskScript s w ttl).2.slot t) := by
  unfold claimNextTaskScript
  split
  · exact .unchanged ..
  next u _ =>
    split
    · exact .unchanged ..
    next p hp =>
      split_ifs
      · exact .unchanged ..
      · exact slot_claim s tenantId t u hp (.inl rfl)
      · exact slot_claim s tenantId t u hp (.inl rfl)

theorem slot_claimExistingTaskScript (w : String) (ttl : ℤ) :
    SlotStep tenantId t (.claimExisting u w) (s.slot t)
      ((claimExistingTaskScript s u w ttl).2.slot t) := by
  unfold claimExistingTaskScript
  split
  · split
    · exact .unchanged ..
    · split_ifs
      · exact .unchanged ..
      · rw [slot_expireLease]
        exact .unchanged ..
  · split
    · exact .unchanged ..
    next p hp =>
      split_ifs
      · exact .unchanged ..
      · exact slot_claim s tenantId t u hp (.inr rfl)
      · exact slot_claim s tenantId t u hp (.inr rfl)

theorem slot_heartbeatOwnerScript (w : String) (ttl : ℤ) :
    (heartbeatOwnerScript s u w ttl).2.slot t = s.slot t := by
  unfold heartbeatOwnerScript
  split
  · rfl
  · split_ifs
    · rfl
    · exact slot_expireLease s t u ttl

theorem slot_completeOwnerScript (w : String) :
    SlotStep tenantId t (.complete u w) (s.slot t) ((completeOwnerScript s u w).2.slot t) := by
  unfold completeOwnerScript
  split
  · exact .unchanged ..
  · split_ifs with _ hq
    · exact .unchanged ..
    · rw [slot_dropLease]
      by_cases h : t = u
      · subst u
        obtain ⟨p, hp⟩ := Table.has_iff.mp hq
        simpa [Store.slot, Store.dropProcessing, hp] using SlotStep.completed w p _ _
      · rw [slot_dropProcessing_ne s h]
        exact .unchanged ..
    · exact .unchanged ..

theorem slot_failOwnerScript (w reason failedAt : String) :
    SlotStep tenantId t (.fail u w reason failedAt) (s.slot t)
      ((failOwnerScript s u w reason failedAt).2.slot t) := by
  unfold failOwnerScript
  split
  · exact .unchanged ..
  · split_ifs
    · exact .unchanged ..
    · split
      · exact .unchanged ..
      next raw hraw =>
        split
        · exact .unchanged ..
        next payload hdecode =>
          split
          · exact .unchanged ..
          next envelope hencode =>
            rw [slot_dropLease]
            by_cases h : t = u
            · subst u
              simpa [Store.slot, Store.dropProcessing, Store.pushDead, hraw] using
                SlotStep.failed _ _ hdecode hencode
            · rw [slot_pushDead_ne _ h, slot_dropProcessing_ne s h]
              exact .unchanged ..

/-- The payload `p` of the task `u` goes back to pending. -/
theorem slot_requeue (w : String) {p : Payload} {op : Op} (hq : s.processingPayloads.get u = some p)
    (hop : op = .release u w ∨ op = .recover u w) :
    SlotStep tenantId t op (s.slot t)
      ((((s.dropProcessing u).pushPending u p).dropLease u).slot t) := by
  rw [slot_dropLease]
  by_cases h : t = u
  · subst u
    simpa [Store.slot, Store.dropProcessing, Store.pushPending, hq] using
      SlotStep.requeued p _ _ hop
  · rw [slot_pushPending_ne _ h, slot_dropProcessing_ne s h]
    exact .unchanged ..

theorem slot_releaseOwnerScript (w : String) :
    SlotStep tenantId t (.release u w) (s.slot t) ((releaseOwnerScript s u w).2.slot t) := by
  unfold releaseOwnerScript
  split
  · exact .unchanged ..
  · split_ifs
    · exact .unchanged ..
    · split
      · exact .unchanged ..
      next p hp => exact slot_requeue s tenantId t u w hp (.inl rfl)

theorem slot_recoverOwnerScript (w : String) :
    SlotStep tenantId t (.recover u w) (s.slot t) ((recoverOwnerScript s u w).2.slot t) := by
  unfold recoverOwnerScript
  split_ifs
  · exact .unchanged ..
  · split
    · exact .unchanged ..
    · exact .unchanged ..
    next p hq _ => exact slot_requeue s tenantId t u w hq (.inr rfl)
    next p hq hp =>
      -- the payload is pushed again from pending, with a new score
      rw [slot_dropLease]
      by_cases h : t = u
      · subst u
        have hslot : ((s.dropProcessing t).pushPending t p).slot t = s.slot t := by
          simp [Store.slot, Store.dropProcessing, Store.pushPending, hp, hq]
        rw [hslot]
        exact .unchanged ..
      · rw [slot_pushPending_ne _ h, slot_dropProcessing_ne s h]
        exact .unchanged ..

theorem slot_deadLetterScript (owner reason movedAt : String) :
    SlotStep tenantId t (.deadLetter u owner reason movedAt) (s.slot t)
      ((deadLetterScript s tenantId u owner reason movedAt).2.slot t) := by
  unfold deadLetterScript
  split
  · exact .unchanged ..
  · split
    · exact .unchanged ..
    next payload hpayload =>
      by_cases h : t = u
      · subst u
        have hstep : SlotStep tenantId t (.deadLetter t owner reason movedAt) (s.slot t) _ :=
          .deadLettered (s.deadPayloads.get t) hpayload
        split <;> rename_i he <;> rw [he] at hstep <;>
          simpa [Store.slot, Store.dropProcessing, Store.dropPending, Store.dropLease,
            Store.pushDead] using hstep
      · have hframe : ((s.dropProcessing u).dropPending u).slot t = s.slot t := by
          rw [slot_dropPending_ne _ h, slot_dropProcessing_ne s h]
        split
        · change SlotStep tenantId t _ _ (((s.dropProcessing u).dropPending u).slot t)
          rw [hframe]
          exact .unchanged ..
        · rw [slot_dropLease, slot_pushDead_ne _ h, hframe]
          exact .unchanged ..

theorem slot_retryDeadLetterScript :
    SlotStep tenantId t (.retryDeadLetter u) (s.slot t)
      ((retryDeadLetterScript s tenantId u).2.slot t) := by
  unfold retryDeadLetterScript
  split_ifs with hp hq
  · exact .unchanged ..
  · exact .unchanged ..
  · split
    · exact .unchanged ..
    next raw hraw =>
      split
      · exact .unchanged ..
      next payload hpayload =>
        by_cases h : t = u
        · subst u
          rw [Bool.not_eq_true, Table.has_eq_false] at hp hq
          have hstep := SlotStep.retried hpayload
          split <;> rename_i he <;> rw [he] at hstep <;>
            simpa [Store.slot, Store.dropDead, Store.pushPending, hp, hq, hraw] using hstep
        · split
          · change SlotStep tenantId t _ _ ((s.dropDead u).slot t)
            rw [slot_dropDead_ne s h]
            exact .unchanged ..
          · rw [slot_pushPending_ne _ h, slot_dropDead_ne s h]
            exact .unchanged ..

theorem slot_step (cfg : Config) (op : Op) :
    SlotStep cfg.tenantId t op (s.slot t) ((step cfg s op).slot t) := by
  cases op with
  | enqueue u p => exact slot_enqueueScript s _ t u p
  | enqueueIdempotent k u p => exact slot_idempotentEnqueueScript s _ t u k p
  | cancel u => exact slot_cancelPendingTaskScript s _ t u
  | claimNext w => exact slot_claimNextTaskScript s _ t w _
  | claimExisting u w => exact slot_claimExistingTaskScript s _ t u w _
  | heartbeat u w =>
    rw [step, slot_heartbeatOwnerScript]
    exact .unchanged ..
  | complete u w => exact slot_completeOwnerScript s _ t u w
  | fail u w reason failedAt => exact slot_failOwnerScript s _ t u w reason failedAt
  | release u w => exact slot_releaseOwnerScript s _ t u w
  | recover u w => exact slot_recoverOwnerScript s _ t u w
  | deadLetter u owner reason movedAt => exact slot_deadLetterScript s _ t u owner reason movedAt
  | retryDeadLetter u => exact slot_retryDeadLetterScript s _ t u
  | leaseExpires u => exact .unchanged ..

end Scripts

section Envelopes
variable {tenantId t : String} {m : QueueMessage} {doc : Json}

theorem decodeTable_json {v : Json} (h : isTable v = true) (hdepth : v.depth ≤ maxDepth) :
    decodeTable (.json v) = some (readValue v) := by
  cases v with
  | arr xs | obj fs => simp [decodeTable, decode, hdepth, readValue, isTable]
  | null | bool _ | num _ | str _ => simp [isTable] at h

/-- An envelope around a message is accepted by the retry script. -/
theorem retryPayload_envelope {fs : Fields} (hm : encodeMessage m = .json doc)
    (htenant : m.tenantId = tenantId) (htask : m.taskId = t)
    (hpayload : Fields.get fs "payload" = some doc) (hdepth : (Json.obj fs).depth ≤ maxDepth) :
    retryPayload tenantId t (.json (.obj fs)) = .ok (readValue doc) := by
  obtain rfl := Payload.json.inj hm
  subst htenant htask
  have hmessage : ((readValue (.obj fs)).field "payload").filter isTable =
      some (readValue (.obj [("branch_id", optionalText m.branchId),
        ("enqueued_at", .str m.enqueuedAt), ("fleet_id", optionalText m.fleetId),
        ("mission_id", .str m.missionId), ("payload", .obj m.payload),
        ("task_id", .str m.taskId), ("tenant_id", .str m.tenantId)])) := by
    simp [readValue, Json.field, hpayload, isTable]
  simp only [retryPayload, decodeTable_json (v := .obj fs) rfl hdepth, hmessage]
  simp [readValue, readFields, Json.field, Fields.get_cons, tostring, isTable]

theorem failEnvelope_faithful (t w reason failedAt : String) (h : Faithful doc) :
    Faithful (failEnvelope t w reason failedAt doc) := by
  simp [failEnvelope, Faithful, FaithfulFields, h]

theorem deadLetterEnvelope_faithful {owner reason movedAt : String} (h : Faithful doc) :
    Faithful (deadLetterEnvelope t owner reason movedAt doc) := by
  unfold deadLetterEnvelope
  split_ifs <;> simp [Faithful, FaithfulFields, h]

theorem failEnvelope_depth {w reason failedAt : String} :
    (failEnvelope t w reason failedAt doc).depth = doc.depth + 1 := by
  simp [failEnvelope, Json.depth, Json.depthFields]

theorem deadLetterEnvelope_depth {owner reason movedAt : String} :
    (deadLetterEnvelope t owner reason movedAt doc).depth = doc.depth + 1 := by
  unfold deadLetterEnvelope
  split_ifs <;> simp [Json.depth, Json.depthFields]

theorem deadLetterEnvelope_field {owner reason movedAt : String} :
    (deadLetterEnvelope t owner reason movedAt doc).field "payload" = some doc := by
  unfold deadLetterEnvelope
  split_ifs <;> simp [Json.field, Fields.get_cons]

theorem failEnvelope_read {w reason failedAt : String} :
    failEnvelope t w reason failedAt (readValue doc) =
      readValue (failEnvelope t w reason failedAt doc) := rfl

theorem deadLetterEnvelope_read {owner reason movedAt : String} :
    deadLetterEnvelope t owner reason movedAt (readValue doc) =
      readValue (deadLetterEnvelope t owner reason movedAt doc) := by
  unfold deadLetterEnvelope
  split_ifs <;> rfl

end Envelopes

/-- The task is not in both queues. -/
def Slot.Single (b : Slot) : Prop := b.pending = none ∨ b.processing = none

/-- A claim, or the retry of the dead-letter entry, gives the message back. -/
def Slot.Holds (tenantId t : String) (m : QueueMessage) (b : Slot) : Prop :=
  b.pending = some (encodeMessage m) ∨ b.processing = some (encodeMessage m) ∨
    (b.pending = none ∧ b.processing = none ∧ ∃ raw payload, b.dead = some raw ∧
      retryPayload tenantId t raw = .ok payload ∧ encode payload = some (encodeMessage m))

/-- The store holds the message `m` of the task `t`. -/
structure Stored (cfg : Config) (t : String) (m : QueueMessage) (s : Store) : Prop where
  tenant : m.tenantId = cfg.tenantId
  task : m.taskId = t
  holds : (s.slot t).Holds cfg.tenantId t m

/-- Nobody completes or cancels the task, and a new publication repeats the message. -/
def Undisturbed (t : String) (m : QueueMessage) (s : Store) : Op → Prop
  | .complete u w => u = t → (completeOwnerScript s u w).1 ≠ .ok "ok"
  | .cancel u => u = t → (cancelPendingTaskScript s u).1 ≠ .ok "cancelled"
  | .enqueue u raw | .enqueueIdempotent _ u raw => u = t → raw = encodeMessage m
  | _ => True

/-- A dead-letter call that is not denied finds a message in a queue, and what it or a
failure puts into an envelope comes out of cjson as it went in. -/
def FindsPlainMessage (t : String) (s : Store) : Op → Prop
  | .fail u w _ _ => u = t → s.leases.get u = some w →
      ∀ raw, s.processingPayloads.get u = some raw → Plain raw
  | .deadLetter u owner _ _ => u = t → deadLetterDenied s u owner = none →
      ∃ raw, (s.processingPayloads.get u = some raw ∨ s.pendingPayloads.get u = some raw) ∧
        Plain raw
  | _ => True

theorem SlotStep.single {tenantId t : String} {op : Op} {b b' : Slot}
    (h : SlotStep tenantId t op b b') (hb : b.Single) : b'.Single := by
  cases h with
  | unchanged => exact hb
  | cancelled | claimed | deadLettered => exact .inl rfl
  | enqueued | enqueuedOnce | completed | failed | requeued | retried => exact .inr rfl

theorem single_of_run (cfg : Config) (ops : List Op) (t : String) :
    ((exec (step cfg) .empty ops).slot t).Single :=
  exec_preserves (I := fun s => (s.slot t).Single)
    (fun s op hs => (slot_step s t cfg op).single hs) (.inl rfl) ops

theorem completeOwnerScript_refused {s : Store} {t w : String}
    (h : (completeOwnerScript s t w).1 ≠ .ok "ok") : (completeOwnerScript s t w).2 = s := by
  unfold completeOwnerScript at h ⊢
  split at h
  · rfl
  · split_ifs at h ⊢
    · rfl
    · exact absurd rfl h
    · rfl

theorem cancelPendingTaskScript_refused {s : Store} {t : String}
    (h : (cancelPendingTaskScript s t).1 ≠ .ok "cancelled") :
    (cancelPendingTaskScript s t).2 = s := by
  unfold cancelPendingTaskScript at h ⊢
  split_ifs at h ⊢
  · rfl
  · exact absurd rfl h

theorem failOwnerScript_notOwner {s : Store} {t w reason failedAt : String}
    (h : s.leases.get t ≠ some w) : (failOwnerScript s t w reason failedAt).2 = s := by
  unfold failOwnerScript
  split
  · rfl
  next owner howner =>
    rw [if_pos]
    rintro rfl
    exact h howner

theorem deadLetterScript_denied {s : Store} {tenantId t owner reason movedAt : String}
    (h : deadLetterDenied s t owner ≠ none) :
    (deadLetterScript s tenantId t owner reason movedAt).2 = s := by
  unfold deadLetterScript
  split
  · rfl
  next hnone => exact absurd hnone h

section Envelopes
variable {tenantId t : String} {m : QueueMessage}

/-- An envelope of either script around a plain message holds the message. -/
theorem holds_of_envelope {envelope doc : Json} (dead : Option Payload)
    (htenant : m.tenantId = tenantId) (htask : m.taskId = t) (hm : encodeMessage m = .json doc)
    (hdoc : Faithful doc) (hlt : doc.depth < maxDepth)
    (hpayload : envelope.field "payload" = some doc) (henvelope : Faithful envelope)
    (hdepth : envelope.depth = doc.depth + 1) :
    Slot.Holds tenantId t m ⟨none, none, (encode (readValue envelope)).or dead⟩ := by
  have hle : envelope.depth ≤ maxDepth := by omega
  cases envelope with
  | obj fs =>
    refine .inr (.inr ⟨rfl, rfl, .json (.obj fs), readValue doc, ?_, ?_, ?_⟩)
    · simp [encode_readValue henvelope hle]
    · exact retryPayload_envelope hm htenant htask hpayload hle
    · rw [hm, encode_readValue hdoc hlt.le]
  | null | bool _ | num _ | str _ | arr _ => simp [Json.field] at hpayload

theorem decodeTable_message {doc : Json} (hm : encodeMessage m = .json doc)
    (hlt : doc.depth < maxDepth) : decodeTable (encodeMessage m) = some (readValue doc) := by
  rw [hm]
  refine decodeTable_json ?_ hlt.le
  obtain rfl := Payload.json.inj hm
  rfl

/-- The dead-letter script takes the held message out of the queue it is in. -/
theorem deadLetterPayload_message {b : Slot} {doc : Json} (hsingle : b.Single)
    (hb : b.Holds tenantId t m)
    (hfound : b.processing = some (.json doc) ∨ b.pending = some (.json doc))
    (hlt : doc.depth < maxDepth) :
    encodeMessage m = .json doc ∧
      deadLetterPayload tenantId t b.processing b.pending = .ok (readValue doc) := by
  have hother : (b.processing = some (.json doc) ∧ b.pending = none) ∨
      (b.processing = none ∧ b.pending = some (.json doc)) := by
    rcases hfound with hf | hf <;> rcases hsingle with hs | hs <;> simp_all
  have hm : encodeMessage m = .json doc := by
    rcases hother with ⟨hq, hp⟩ | ⟨hq, hp⟩ <;> simp_all [Slot.Holds, eq_comm]
  refine ⟨hm, ?_⟩
  have hdecode := decodeTable_message hm hlt
  rw [hm] at hdecode
  rcases hother with ⟨hq, hp⟩ | ⟨hq, hp⟩ <;> simp [deadLetterPayload, hq, hp, hdecode]

end Envelopes

theorem Stored.afterStep {cfg : Config} {t : String} {m : QueueMessage} {s : Store} {op : Op}
    (h : Stored cfg t m s) (hsingle : (s.slot t).Single) (hu : Undisturbed t m s op)
    (hg : FindsPlainMessage t s op) : Stored cfg t m (step cfg s op) := by
  refine ⟨h.tenant, h.task, ?_⟩
  have hb := h.holds
  have hstep := slot_step s t cfg op
  have hpending : s.pendingPayloads.get t = (s.slot t).pending := rfl
  have hprocessing : s.processingPayloads.get t = (s.slot t).processing := rfl
  generalize hslot : s.slot t = b at hb hstep hsingle hpending hprocessing
  generalize hslot' : (step cfg s op).slot t = b' at hstep ⊢
  cases hstep with
  | unchanged => exact hb
  | enqueued raw dead => exact .inl (congrArg some (hu rfl))
  | enqueuedOnce key raw dead => exact .inl (congrArg some (hu rfl))
  | cancelled pending dead =>
    have hs : step cfg s (.cancel t) = s := cancelPendingTaskScript_refused (hu rfl)
    rw [hs, hslot] at hslot'
    rwa [← hslot']
  | claimed raw processing dead hop =>
    rcases hsingle with hnone | rfl
    · simp at hnone
    rcases hb with hraw | hraw | ⟨hnone, -⟩
    · exact .inr (.inl hraw)
    · simp at hraw
    · simp at hnone
  | completed w raw pending dead =>
    have hs : step cfg s (.complete t w) = s := completeOwnerScript_refused (hu rfl)
    rw [hs, hslot] at hslot'
    rwa [← hslot']
  | @failed w reason failedAt raw envelope payload pending dead hdecode hencode =>
    by_cases howner : s.leases.get t = some w
    · obtain ⟨doc, rfl, hfaithful, hlt⟩ := hg rfl howner raw hprocessing
      obtain rfl : pending = none := hsingle.resolve_right (by simp)
      have hraw : encodeMessage m = .json doc := by
        simpa [Slot.Holds, eq_comm] using hb
      rw [← hraw, decodeTable_message hraw hlt] at hdecode
      obtain rfl := Option.some.inj hdecode
      rw [failEnvelope_read] at hencode
      simpa [hencode] using holds_of_envelope dead h.tenant h.task hraw hfaithful hlt
        rfl (failEnvelope_faithful t w reason failedAt hfaithful) failEnvelope_depth
    · have hs : step cfg s (.fail t w reason failedAt) = s := failOwnerScript_notOwner howner
      rw [hs, hslot] at hslot'
      rwa [← hslot']
  | requeued raw pending dead hop =>
    obtain rfl : pending = none := hsingle.resolve_right (by simp)
    rcases hb with hraw | hraw | ⟨-, hnone, -⟩
    · simp at hraw
    · exact .inl hraw
    · simp at hnone
  | @deadLettered owner reason movedAt pending processing payload dead hpayload =>
    by_cases hdenied : deadLetterDenied s t owner = none
    · obtain ⟨raw, hfound, doc, rfl, hfaithful, hlt⟩ := hg rfl hdenied
      rw [hprocessing, hpending] at hfound
      have hraw := deadLetterPayload_message hsingle hb hfound hlt
      obtain rfl := Except.ok.inj (hpayload.symm.trans hraw.2)
      rw [deadLetterEnvelope_read]
      exact holds_of_envelope dead h.tenant h.task hraw.1 hfaithful hlt
        deadLetterEnvelope_field (deadLetterEnvelope_faithful hfaithful) deadLetterEnvelope_depth
    · have hs : step cfg s (.deadLetter t owner reason movedAt) = s :=
        deadLetterScript_denied hdenied
      rw [hs, hslot] at hslot'
      rwa [← hslot']
  | @retried raw payload hpayload =>
    rcases hb with hraw | hraw | ⟨-, -, raw', payload', hraw, hretry, hencode⟩
    · simp at hraw
    · simp at hraw
    · obtain rfl : raw = raw' := Option.some.inj hraw
      obtain rfl : payload = payload' := Except.ok.inj (hpayload.symm.trans hretry)
      exact .inl hencode

/-- From any reachable store, a message stays recoverable through every run in which nobody
completes or cancels its task and every dead-letter call finds it in a queue. -/
theorem message_survives_dead_lettering (cfg : Config) (before ops : List Op) (t : String)
    (m : QueueMessage) (hstored : Stored cfg t m (exec (step cfg) .empty before))
    (hundisturbed : Guarded (step cfg) (Undisturbed t m) (exec (step cfg) .empty before) ops)
    (hfinds : Guarded (step cfg) (FindsPlainMessage t) (exec (step cfg) .empty before) ops) :
    Stored cfg t m (exec (step cfg) .empty (before ++ ops)) := by
  rw [exec_append]
  refine (Guarded.preserves (I := fun s => (s.slot t).Single ∧ Stored cfg t m s) ?_
    ⟨single_of_run cfg before t, hstored⟩ (hundisturbed.and hfinds)).2
  intro s op hs hg
  exact ⟨(slot_step s t cfg op).single hs.1, hs.2.afterStep hs.1 hg.1 hg.2⟩

def plainMessage : QueueMessage :=
  ⟨"tenant", "task", "mission", none, some "branch", [("k", .str "v")], "2024-01-01T00:00:00+00:00"⟩

/-- The message is published and claimed. -/
def claimedRun : List Op := [.enqueue "task" (encodeMessage plainMessage), .claimNext "w"]

/-- Fail, retry, claim and dead-letter by the owner. -/
theorem message_survives_dead_lettering_cycle :
    Stored ⟨"tenant", 30⟩ "task" plainMessage (exec (step ⟨"tenant", 30⟩) .empty
      (claimedRun ++ [.fail "task" "w" "r" "now", .retryDeadLetter "task", .claimNext "w",
        .deadLetter "task" "w" "r" "now"])) := by
  have hplain : Plain (encodeMessage plainMessage) :=
    ⟨_, rfl, by simp [Faithful, FaithfulFields, optionalText, plainMessage], by decide⟩
  refine message_survives_dead_lettering _ _ _ _ _ ⟨rfl, rfl, .inr (.inl (by decide +kernel))⟩ ?_ ?_
  · simp [Guarded, Undisturbed]
  · refine ⟨fun _ _ raw hraw => ?_, trivial, trivial, fun _ _ => ⟨_, .inl ?_, hplain⟩, trivial⟩
    · have hmessage : (exec (step ⟨"tenant", 30⟩) .empty claimedRun).processingPayloads.get "task" =
          some (encodeMessage plainMessage) := by decide +kernel
      rwa [Option.some.inj (hraw.symm.trans hmessage)]
    · decide +kernel

/-- The failed task is dead-lettered once more. -/
def failedTwiceRun : List Op :=
  claimedRun ++ [.fail "task" "w" "r" "now", .deadLetter "task" "" "operator" "later"]

theorem message_destroyed_by_second_dead_letter :
    Stored ⟨"tenant", 30⟩ "task" plainMessage (exec (step ⟨"tenant", 30⟩) .empty claimedRun) ∧
    ¬ Stored ⟨"tenant", 30⟩ "task" plainMessage
      (exec (step ⟨"tenant", 30⟩) .empty failedTwiceRun) ∧
    (retryDeadLetterScript (exec (step ⟨"tenant", 30⟩) .empty failedTwiceRun) "tenant" "task").1 =
      .refused "dead-letter payload is corrupt: missing mission_id" := by
  refine ⟨⟨rfl, rfl, .inr (.inl (by decide +kernel))⟩, fun h => ?_, by decide +kernel⟩
  have hrefused : ((exec (step ⟨"tenant", 30⟩) .empty failedTwiceRun).slot "task").dead.map
      (fun raw => (retryPayload "tenant" "task" raw).isOk) = some false := by decide +kernel
  rcases h.holds with hp | hq | ⟨-, -, raw, payload, hraw, hretry, -⟩
  · exact absurd hp (by decide +kernel)
  · exact absurd hq (by decide +kernel)
  · rw [hraw] at hrefused
    simp [hretry, Except.isOk, Except.toBool] at hrefused

end Ajenda.RedisQueue
