import Ajenda.QueueAdapters
import Ajenda.QueueDelivery

/-!
# Runs of the two queue adapters

Each call of the interface is followed on both sides. A run of calls on which the adapters
obey the same rules gives the same answers and leaves the same tasks in the same places.
-/
namespace Ajenda.QueueAdapters
open JsonValue FiniteTable LuaCjson TransitionSystem
open RedisQueue (QueueMessage Store encodeMessage decodeMessage Reply)
open LocalAdapter (LocalQueue)

/-- Both adapters answer alike, and what they leave belongs together. -/
structure Follows (tenantId : String) (l : LocalQueue) (r : Bool × LocalQueue) (ok : Bool)
    (s : Store) : Prop where
  answer : r.1 = ok
  tracks : Tracks tenantId l r.2 s

section Calls
variable {tenantId t : String} {l : LocalQueue} {s : Store}
  (h : Simulates tenantId (view l tenantId) s) (w reason now : String)
include h

theorem Follows.refused : Follows tenantId l (false, l) false s := ⟨rfl, .refl h⟩

theorem follows_cancelTask (t : String) : Follows tenantId l (LocalAdapter.cancelTask l tenantId t)
    (RedisQueue.cancelPendingTaskScript s t).1.isOk
    (RedisQueue.cancelPendingTaskScript s t).2 := by
  unfold LocalAdapter.cancelTask RedisQueue.cancelPendingTaskScript
  rw [has_claims]
  cases hclaim : (view l tenantId).claim t with
  | none =>
    have hprocessing := (h.of_not_claim hclaim).2
    simp only [Table.has, hprocessing, Option.isSome_none, Bool.false_eq_true, if_false]
    exact ⟨rfl, (Tracks.refl h).withoutPending t⟩
  | some claim =>
    obtain ⟨-, raw, hraw, -⟩ := h.of_claim hclaim
    simp only [Table.has, hraw, Option.isSome_some, if_true]
    exact .refused h

theorem follows_heartbeat (t : String) {ttl : ℤ} (httl : 0 < ttl) :
    Follows tenantId l (LocalAdapter.heartbeat l tenantId t w)
      (RedisQueue.heartbeatOwnerScript s t w ttl).1.isOk
      (RedisQueue.heartbeatOwnerScript s t w ttl).2 := by
  unfold LocalAdapter.heartbeat RedisQueue.heartbeatOwnerScript
  rw [owner_eq, ← h.lease t]
  cases hlease : s.leases.get t with
  | none => exact ⟨by simp [Reply.isOk], .refl h⟩
  | some owner =>
    by_cases howner : owner = w
    · simp only [howner, ne_eq, not_true_eq_false, if_false, Store.expireLease, httl, if_true]
      exact ⟨by simp [Reply.isOk], .refl h⟩
    · simp only [howner, ne_eq, not_false_eq_true, if_true]
      exact ⟨by simp [howner, Reply.isOk], .refl h⟩

theorem follows_completeTask (t : String) :
    Follows tenantId l (LocalAdapter.completeTask l tenantId t w)
      (RedisQueue.completeOwnerScript s t w).1.isOk (RedisQueue.completeOwnerScript s t w).2 := by
  unfold LocalAdapter.completeTask RedisQueue.completeOwnerScript
  rw [owner_eq]
  cases hclaim : (view l tenantId).claim t with
  | none =>
    have hlease := (h.of_not_claim hclaim).1
    simp only [hlease, Option.map_none, ne_eq, reduceCtorEq, not_false_eq_true, if_true]
    exact .refused h
  | some claim =>
    obtain ⟨owner, m⟩ := claim
    obtain ⟨hlease, raw, hraw, -⟩ := h.of_claim hclaim
    by_cases howner : owner = w
    · simp only [hlease, howner, Option.map_some, ne_eq, not_true_eq_false, if_false, Table.has,
        hraw, Option.isSome_some, if_true]
      exact ⟨rfl, (Tracks.refl h).popClaim t⟩
    · simp only [hlease, howner, Option.map_some, Option.some.injEq, ne_eq, not_false_eq_true,
        if_true]
      exact .refused h

theorem follows_releaseLease (t : String) :
    Follows tenantId l (LocalAdapter.releaseLease l tenantId t w)
      (RedisQueue.releaseOwnerScript s t w).1.isOk (RedisQueue.releaseOwnerScript s t w).2 := by
  unfold LocalAdapter.releaseLease RedisQueue.releaseOwnerScript
  cases hclaim : (view l tenantId).claim t with
  | none =>
    have hlease := (h.of_not_claim hclaim).1
    have hnone : l.claims.get (tenantId, t) = none := hclaim
    simp only [hlease, hnone]
    exact .refused h
  | some claim =>
    obtain ⟨owner, m⟩ := claim
    obtain ⟨hlease, raw, hraw, hcopy⟩ := h.of_claim hclaim
    have hsome : l.claims.get (tenantId, t) = some (owner, m) := hclaim
    by_cases howner : owner = w
    · obtain ⟨hfind, hfree⟩ := find_popClaim h (t := t) (by rw [hclaim]; rfl)
      simp only [hlease, hsome, howner, ne_eq, not_true_eq_false, if_false, hraw]
      exact ⟨rfl, ((Tracks.refl h).popClaim t).append hcopy hfind hfree⟩
    · simp only [hlease, hsome, howner, ne_eq, not_false_eq_true, if_true]
      exact .refused h

theorem follows_failTask (t : String)
    (hprintable : l.owner tenantId t = some w →
      (s.processingPayloads.get t).all printable = true) :
    Follows tenantId l (LocalAdapter.failTask l tenantId t w reason now)
      (RedisQueue.failOwnerScript s t w reason now).1.isOk
      (RedisQueue.failOwnerScript s t w reason now).2 := by
  unfold LocalAdapter.failTask RedisQueue.failOwnerScript
  cases hclaim : (view l tenantId).claim t with
  | none =>
    have hlease := (h.of_not_claim hclaim).1
    have hnone : l.claims.get (tenantId, t) = none := hclaim
    simp only [hlease, hnone]
    exact .refused h
  | some claim =>
    obtain ⟨owner, m⟩ := claim
    obtain ⟨hlease, raw, hraw, hcopy⟩ := h.of_claim hclaim
    have hsome : l.claims.get (tenantId, t) = some (owner, m) := hclaim
    by_cases howner : owner = w
    · have hprint : printable raw = true := by
        have hall := hprintable (by rw [owner_eq, hclaim, Option.map_some, howner])
        simpa [hraw] using hall
      obtain ⟨doc, sealed, m', hdecode, hseal, hretry, hcopied⟩ :=
        hcopy.envelope (RedisQueue.envelope_fail t w reason now) hprint
      simp only [hlease, hsome, howner, ne_eq, not_true_eq_false, if_false, hraw, hdecode, hseal]
      refine ⟨rfl, ((Tracks.refl h).popClaim t).bury (isFor_message hcopy) (.inl ⟨m, m', ?_⟩)⟩
      exact ⟨messageFromPayload_message hcopy.identified, hretry, hcopied⟩
    · simp only [hlease, hsome, howner, ne_eq, not_false_eq_true, if_true]
      exact .refused h

/-- A task that nobody has claimed goes to the end of the queue, if it is there. -/
theorem follows_recover_unclaimed (t : String) (hclaim : (view l tenantId).claim t = none) :
    Follows tenantId l (LocalAdapter.recoverTaskForRetry l tenantId t w)
      (RedisQueue.recoverOwnerScript s t w).1.isOk (RedisQueue.recoverOwnerScript s t w).2 := by
  unfold LocalAdapter.recoverTaskForRetry RedisQueue.recoverOwnerScript
  simp only [List.head?_filter, find_view]
  obtain ⟨hlease, hprocessing⟩ := h.of_not_claim hclaim
  have hnone : l.claims.get (tenantId, t) = none := hclaim
  simp only [hnone, hlease, hprocessing, Option.map_none, Option.any_none, Bool.false_eq_true,
    if_false, reduceCtorEq, false_and, exists_false]
  have hpopped := (Tracks.refl h).popClaim t
  cases hfind : (view l tenantId).find t with
  | none =>
    have hpending := h.of_not_find hfind
    rw [hpending]
    refine ⟨rfl, ?_, fun x hx => ?_⟩
    · have hleft := (hpopped.withoutAbsent (t := t)
        (by rw [view_popClaim, if_pos rfl]; exact hfind)).1
      refine hleft.congr (fun _ => rfl) rfl (fun _ => rfl) (fun u => ?_) (fun u => ?_)
        fun _ => rfl
      · simp only [Store.dropLease, Store.dropProcessing, Table.get_del]
        split_ifs with hu
        · rw [hu, hprocessing]
        · rfl
      · simp only [Store.dropLease, Store.dropProcessing, Table.get_del]
        split_ifs with hu
        · rw [hu, hlease]
        · rfl
    · rw [view_withoutPending, if_neg hx, view_popClaim, if_neg hx]
  | some m =>
    obtain ⟨raw, hraw, hcopy⟩ := h.of_find hfind
    rw [hraw]
    have hleft := hpopped.withoutPending t
    obtain ⟨hfree, hkept⟩ := find_withoutPending (l.popClaim tenantId t) tenantId t
    have hunclaimed : (view (l.popClaim tenantId t) tenantId).claim t = none := by
      rw [view_popClaim, if_pos rfl]
      simp [View.disown]
    have hpushed := hleft.append hcopy hfree (hkept.trans hunclaimed)
    refine ⟨rfl, ?_, hpushed.2⟩
    refine hpushed.1.congr (fun u => ?_) rfl (fun u => ?_) (fun _ => rfl) (fun _ => rfl)
      fun _ => rfl
    · simp only [Store.pushPending, Store.dropPending, Store.dropLease, Store.dropProcessing,
        Table.get_put, Table.get_del]
      split_ifs <;> rfl
    · simp only [Store.pushPending, Store.dropPending, Store.dropLease, Store.dropProcessing,
        Table.get_put, Table.get_del]
      split_ifs <;> rfl

/-- A claimed task goes back to the queue for its owner alone. -/
theorem follows_recover_claimed (t : String) {owner : String} {m : QueueMessage}
    (hclaim : (view l tenantId).claim t = some (owner, m)) :
    Follows tenantId l (LocalAdapter.recoverTaskForRetry l tenantId t w)
      (RedisQueue.recoverOwnerScript s t w).1.isOk (RedisQueue.recoverOwnerScript s t w).2 := by
  unfold LocalAdapter.recoverTaskForRetry RedisQueue.recoverOwnerScript
  simp only [List.head?_filter, find_view]
  obtain ⟨hlease, raw, hraw, hcopy⟩ := h.of_claim hclaim
  have hsome : l.claims.get (tenantId, t) = some (owner, m) := hclaim
  have hfind := h.not_find_of_claim (t := t) (by rw [hclaim]; rfl)
  by_cases howner : owner = w
  · subst howner
    simp only [hsome, hlease, hfind, Option.map_some, Option.any_some, ne_eq, not_true_eq_false,
      decide_false, Bool.false_eq_true, if_false, Option.some.injEq, exists_eq_left', hraw,
      h.of_not_find hfind]
    obtain ⟨hpopped, hfree⟩ := find_popClaim h (t := t) (by rw [hclaim]; rfl)
    have hleft := ((Tracks.refl h).popClaim t).withoutAbsent hpopped
    obtain ⟨hgone, hkept⟩ := find_withoutPending (l.popClaim tenantId t) tenantId t
    exact ⟨rfl, hleft.append hcopy hgone (hkept.trans hfree)⟩
  · simp only [hsome, hlease, Option.map_some, Option.any_some, ne_eq, howner, not_false_eq_true,
      decide_true, if_true, Option.some.injEq, exists_eq_left']
    exact .refused h

theorem follows_recoverTaskForRetry (t : String) :
    Follows tenantId l (LocalAdapter.recoverTaskForRetry l tenantId t w)
      (RedisQueue.recoverOwnerScript s t w).1.isOk (RedisQueue.recoverOwnerScript s t w).2 := by
  cases hclaim : (view l tenantId).claim t with
  | none => exact follows_recover_unclaimed h w t hclaim
  | some claim => exact follows_recover_claimed h w t hclaim

/-- A task that nobody has claimed is dead-lettered by either of the two methods. -/
theorem follows_unclaimed (t owner : String) (workerId : Option String)
    (hclaim : (view l tenantId).claim t = none)
    (hprintable : (s.pendingPayloads.get t).all printable = true) :
    Follows tenantId l
      (true, (l.withoutPending tenantId t).bury (LocalAdapter.deadLetterEnvelope tenantId t reason
        now workerId ((view l tenantId).find t)))
      (RedisQueue.deadLetterScript s tenantId t owner reason now).1.isOk
      (RedisQueue.deadLetterScript s tenantId t owner reason now).2 := by
  obtain ⟨hlease, hprocessing⟩ := h.of_not_claim hclaim
  have hdenied : RedisQueue.deadLetterDenied s t owner = none := by
    simp [RedisQueue.deadLetterDenied, hlease]
  have henvelope := RedisQueue.envelope_deadLetter t owner reason now
  -- the envelope `sealed` replaces the pending payload
  have hmoved : ∀ sealed e, e.isFor tenantId t = true → Buried tenantId t sealed e →
      Tracks tenantId l ((l.withoutPending tenantId t).bury e)
        ((((s.dropProcessing t).dropPending t).pushDead t sealed).dropLease t) := by
    intro sealed e he hburied
    have htracks := ((Tracks.refl h).withoutPending t).bury he hburied
    refine ⟨htracks.1.congr (fun _ => rfl) rfl (fun _ => rfl) (fun u => ?_) (fun u => ?_)
      fun _ => rfl, htracks.2⟩
    · simp only [Store.pushDead, Store.dropPending, Store.dropLease, Store.dropProcessing,
        Table.get_del]
      split_ifs with hu
      · rw [hu, hprocessing]
      · rfl
    · simp only [Store.pushDead, Store.dropPending, Store.dropLease, Store.dropProcessing,
        Table.get_del]
      split_ifs with hu
      · rw [hu, hlease]
      · rfl
  unfold RedisQueue.deadLetterScript
  simp only [hdenied, hprocessing]
  cases hfind : (view l tenantId).find t with
  | none =>
    have hdepth : (RedisQueue.syntheticPayload tenantId t).depth + 1 ≤ maxDepth := by
      simp [RedisQueue.syntheticPayload, Json.depth, Json.depthFields, maxDepth]
    have hfinite : finite (RedisQueue.syntheticPayload tenantId t) = true := by
      simp [RedisQueue.syntheticPayload, finite, finiteFields]
    have hseal := RedisQueue.encode_envelope henvelope hdepth hfinite
    simp only [h.of_not_find hfind, RedisQueue.deadLetterPayload, hseal]
    refine ⟨rfl, hmoved _ _ (isFor_synthetic ..) (.inr ⟨?_, ?_⟩)⟩
    · simp [LocalAdapter.messageFromPayload, LocalAdapter.deadLetterEnvelope, decodeMessage,
        RedisQueue.textField, Fields.get_cons]
    · exact retryPayload_synthetic henvelope tenantId t
  | some m =>
    obtain ⟨raw, hraw, hcopy⟩ := h.of_find hfind
    have hprint : printable raw = true := by simpa [hraw] using hprintable
    obtain ⟨doc, sealed, m', hdecode, hseal, hretry, hcopied⟩ := hcopy.envelope henvelope hprint
    simp only [hraw, RedisQueue.deadLetterPayload, hdecode, hseal]
    exact ⟨rfl, hmoved _ _ (isFor_message hcopy)
      (.inl ⟨m, m', messageFromPayload_message hcopy.identified, hretry, hcopied⟩)⟩

theorem follows_moveToDeadLetter (t : String)
    (hprintable : (view l tenantId).claim t = none →
      (s.pendingPayloads.get t).all printable = true) :
    Follows tenantId l (LocalAdapter.moveToDeadLetter l tenantId t reason now)
      (RedisQueue.deadLetterScript s tenantId t "" reason now).1.isOk
      (RedisQueue.deadLetterScript s tenantId t "" reason now).2 := by
  unfold LocalAdapter.moveToDeadLetter
  rw [has_claims, find_view]
  cases hclaim : (view l tenantId).claim t with
  | none =>
    simp only [Option.isSome_none, Bool.false_eq_true, if_false]
    exact follows_unclaimed h reason now t "" none hclaim (hprintable hclaim)
  | some claim =>
    have hlease := (h.of_claim hclaim).1
    simp only [Option.isSome_some, if_true, RedisQueue.deadLetterScript,
      RedisQueue.deadLetterDenied, hlease]
    exact .refused h

theorem follows_moveOwnedToDeadLetter (t : String)
    (hpending : (view l tenantId).claim t = none →
      (s.pendingPayloads.get t).all printable = true)
    (hprocessing : l.owner tenantId t = some w →
      w ≠ "" ∧ (s.processingPayloads.get t).all printable = true) :
    Follows tenantId l (LocalAdapter.moveOwnedToDeadLetter l tenantId t w reason now)
      (RedisQueue.deadLetterScript s tenantId t w reason now).1.isOk
      (RedisQueue.deadLetterScript s tenantId t w reason now).2 := by
  unfold LocalAdapter.moveOwnedToDeadLetter
  rw [find_view]
  cases hclaim : (view l tenantId).claim t with
  | none =>
    have hnone : l.claims.get (tenantId, t) = none := hclaim
    simp only [hnone]
    exact follows_unclaimed h reason now t w (some w) hclaim (hpending hclaim)
  | some claim =>
    obtain ⟨owner, m⟩ := claim
    obtain ⟨hlease, raw, hraw, hcopy⟩ := h.of_claim hclaim
    have hsome : l.claims.get (tenantId, t) = some (owner, m) := hclaim
    have hfind := h.of_not_find (h.not_find_of_claim (t := t) (by rw [hclaim]; rfl))
    by_cases howner : owner = w
    · subst howner
      obtain ⟨hnamed, hall⟩ := hprocessing (by rw [owner_eq, hclaim, Option.map_some])
      have hprint : printable raw = true := by simpa [hraw] using hall
      obtain ⟨doc, sealed, m', hdecode, hseal, hretry, hcopied⟩ :=
        hcopy.envelope (RedisQueue.envelope_deadLetter t owner reason now) hprint
      simp only [hsome, ne_eq, not_true_eq_false, if_false, RedisQueue.deadLetterScript,
        RedisQueue.deadLetterDenied, hlease, hnamed, hraw, hfind, RedisQueue.deadLetterPayload,
        hdecode, hseal]
      have hfor : (LocalAdapter.deadLetterEnvelope tenantId t reason now (some owner)
          (some m)).isFor tenantId t = true := isFor_message hcopy
      have htracks := ((Tracks.refl h).popClaim t).bury hfor
        (.inl ⟨m, m', messageFromPayload_message hcopy.identified, hretry, hcopied⟩)
      refine ⟨rfl, htracks.1.congr (fun u => ?_) rfl (fun u => ?_) (fun _ => rfl) (fun _ => rfl)
        fun _ => rfl, htracks.2⟩
      · simp only [Store.pushDead, Store.dropPending, Store.dropLease, Store.dropProcessing,
          Table.get_del]
        split_ifs with hu
        · rw [hu, h.not_ordered (by rw [hclaim]; rfl)]
        · rfl
      · simp only [Store.pushDead, Store.dropPending, Store.dropLease, Store.dropProcessing,
          Table.get_del]
        split_ifs with hu
        · rw [hu, hfind]
        · rfl
    · simp only [hsome, howner, ne_eq, not_false_eq_true, if_true, RedisQueue.deadLetterScript,
        RedisQueue.deadLetterDenied, hlease]
      split_ifs <;> exact .refused h

theorem follows_enqueueTask {m : QueueMessage} (hm : m.Identified) (htenant : m.tenantId = tenantId)
    (hpending : s.pendingPayloads.has m.taskId = false)
    (hprocessing : s.processingPayloads.has m.taskId = false) :
    Tracks tenantId l (l.append m) (s.pushPending m.taskId (encodeMessage m)) := by
  have hfind : (view l tenantId).find m.taskId = none := by
    cases hfind : (view l tenantId).find m.taskId with
    | none => rfl
    | some m' =>
      obtain ⟨raw, hraw, -⟩ := h.of_find hfind
      simp [Table.has, hraw] at hpending
  have hclaim : (view l tenantId).claim m.taskId = none := by
    cases hclaim : (view l tenantId).claim m.taskId with
    | none => rfl
    | some claim =>
      obtain ⟨-, raw, hraw, -⟩ := h.of_claim (w := claim.1) (m := claim.2) hclaim
      simp [Table.has, hraw] at hprocessing
  exact (Tracks.refl h).append ⟨htenant, rfl, hm, m, rfl, htenant, rfl, hm⟩ hfind hclaim

theorem follows_retryDeadLetter (t : String)
    (hready : s.pendingPayloads.has t = false → s.processingPayloads.has t = false →
      ((view l tenantId).dead t).length ≤ 1 ∧ ∀ raw payload, s.deadPayloads.get t = some raw →
        RedisQueue.retryPayload tenantId t raw = .ok payload → (encode payload).isSome = true) :
    Follows tenantId l (LocalAdapter.retryDeadLetter l tenantId t)
      (RedisQueue.retryDeadLetterScript s tenantId t).1.isOk
      (RedisQueue.retryDeadLetterScript s tenantId t).2 := by
  unfold LocalAdapter.retryDeadLetter RedisQueue.retryDeadLetterScript
  rw [queue_any, has_claims, find_dead]
  cases hfind : (view l tenantId).find t with
  | some m =>
    obtain ⟨raw, hraw, -⟩ := h.of_find hfind
    simp only [Table.has, hraw, Option.isSome_some, if_true]
    exact .refused h
  | none =>
    have hpending := h.of_not_find hfind
    cases hclaim : (view l tenantId).claim t with
    | some claim =>
      obtain ⟨-, raw, hraw, -⟩ := h.of_claim hclaim
      simp only [Table.has, hpending, hraw, Option.isSome_none, Option.isSome_some, if_true,
        Bool.false_eq_true, if_false]
      exact .refused h
    | none =>
      have hprocessing := (h.of_not_claim hclaim).2
      obtain ⟨hsingle, hencode⟩ := hready (by simp [Table.has, hpending])
        (by simp [Table.has, hprocessing])
      simp only [Table.has, hpending, hprocessing, Option.isSome_none, Bool.false_eq_true, if_false]
      cases hdead : (view l tenantId).dead t with
      | nil =>
        simp only [List.head?_nil, h.of_not_dead hdead]
        exact .refused h
      | cons e rest =>
        rw [hdead, List.length_cons] at hsingle
        have hrest : rest = [] := List.eq_nil_of_length_eq_zero (by omega)
        subst hrest
        obtain ⟨raw, hraw, hburied⟩ := h.of_dead hdead
        simp only [List.head?_cons, hraw]
        rcases hburied with ⟨m, m', hread, hretry, hcopy⟩ | ⟨hread, refusal, hretry⟩
        · simp only [hread, hretry]
          have hsome := hencode raw _ hraw hretry
          obtain ⟨again, hagain⟩ := Option.isSome_iff_exists.mp hsome
          have hkept : Copy tenantId t again m := hcopy.reprint hagain
          simp only [hagain]
          have hleft := (Tracks.refl h).unbury hdead
          exact ⟨rfl, hleft.append hkept hfind hclaim⟩
        · simp only [hread, hretry]
          exact .refused h

theorem follows_claimExistingTask (t : String) {ttl : ℤ} (httl : 0 < ttl) :
    Follows tenantId l (LocalAdapter.claimExistingTask l tenantId t w)
      (RedisQueue.claimExistingTaskScript s t w ttl).1.isOk
      (RedisQueue.claimExistingTaskScript s t w ttl).2 := by
  unfold LocalAdapter.claimExistingTask RedisQueue.claimExistingTaskScript
  rw [find_view]
  cases hclaim : (view l tenantId).claim t with
  | some claim =>
    obtain ⟨owner, m⟩ := claim
    obtain ⟨hlease, raw, hraw, -⟩ := h.of_claim hclaim
    have hsome : l.claims.get (tenantId, t) = some (owner, m) := hclaim
    by_cases howner : owner = w
    · simp only [hsome, hraw, hlease, howner, ne_eq, not_true_eq_false, if_false, decide_true,
        Store.expireLease, httl, if_true]
      exact ⟨rfl, .refl h⟩
    · simp only [hsome, hraw, hlease, howner, ne_eq, not_false_eq_true, if_true, decide_false]
      exact .refused h
  | none =>
    obtain ⟨hlease, hprocessing⟩ := h.of_not_claim hclaim
    have hnone : l.claims.get (tenantId, t) = none := hclaim
    simp only [hnone, hprocessing]
    cases hfind : (view l tenantId).find t with
    | none =>
      simp only [h.of_not_find hfind]
      exact .refused h
    | some m =>
      obtain ⟨raw, hraw, hcopy⟩ := h.of_find hfind
      simp only [hraw, hlease, reduceCtorEq, false_and, exists_false, if_false, httl, if_true]
      exact ⟨rfl, Tracks.claim h hcopy w (filter_erased h.order.nodup t)⟩

omit h in
theorem claimAnswer_encodeMessage {m : QueueMessage} (hid : m.Identified) :
    claimAnswer (.ok (encodeMessage m)) = .claimed (some m.taskId) := by
  have hdecode : decodeMessage (encodeMessage m) = some m := RedisQueue.decodeMessage_messageDoc hid
  simp only [claimAnswer, hdecode]

/-- The script takes the message the loop finds. -/
theorem follows_claimTask {ttl : ℤ} (httl : 0 < ttl)
    (hstraight : straightQueue l.queue tenantId = true) :
    Tracks tenantId l (LocalAdapter.claimTask l tenantId w).2
        (RedisQueue.claimNextTaskScript s w ttl).2 ∧
      claimAnswer (RedisQueue.claimNextTaskScript s w ttl).1 =
        .claimed ((LocalAdapter.claimTask l tenantId w).1.map QueueMessage.taskId) := by
  have hfree : ∀ m ∈ l.queue, m.tenantId = tenantId →
      l.claims.has (tenantId, m.taskId) = false := by
    intro m hm htenant
    rw [has_claims, Bool.eq_false_iff]
    intro hclaimed
    refine h.apart m.taskId hclaimed (List.mem_map.mpr ⟨m, ?_, rfl⟩)
    exact List.mem_filter.mpr ⟨hm, by simpa using htenant⟩
  unfold LocalAdapter.claimTask
  rw [claimLoop_eq l tenantId hfree]
  cases hrest : l.queue.dropWhile fun m => decide (m.tenantId ≠ tenantId) with
  | nil =>
    have hpending := pending_of_nil hrest
    have hempty : (view l tenantId).ids = [] := by rw [View.ids, hpending, List.map_nil]
    have hfirst : s.pendingOrder.first = none := by
      have horder := h.order
      rw [hempty] at horder
      exact horder.first_nil
    simp only [RedisQueue.claimNextTaskScript, hfirst, List.nil_append]
    exact ⟨.refl h, rfl⟩
  | cons m behind =>
    obtain ⟨hpending, hrotated⟩ := filter_rotated hstraight hrest
    have hids : (view l tenantId).ids = m.taskId :: ((behind.filter fun m =>
        m.tenantId = tenantId).map QueueMessage.taskId) := by
      rw [View.ids, hpending, List.map_cons]
    have hfirst : s.pendingOrder.first = some m.taskId := by
      have horder := h.order
      rw [hids] at horder
      exact horder.first_cons
    have hfind : (view l tenantId).find m.taskId = some m := by
      rw [View.find, hpending]
      simp
    obtain ⟨raw, hraw, hcopy⟩ := h.of_find hfind
    have hclaim : (view l tenantId).claim m.taskId = none := by
      have hmem : m ∈ (view l tenantId).pending := by simp [hpending]
      obtain ⟨hqueued, htenant⟩ := List.mem_filter.mp hmem
      have hfalse := hfree m hqueued (of_decide_eq_true htenant)
      rwa [has_claims, Option.isSome_eq_false_iff, Option.isNone_iff_eq_none] at hfalse
    obtain ⟨hlease, -⟩ := h.of_not_claim hclaim
    simp only [RedisQueue.claimNextTaskScript, hfirst, hraw, Table.has, hlease, Option.isSome_none,
      Bool.false_eq_true, if_false, httl, if_true, List.nil_append]
    refine ⟨Tracks.claim h hcopy w fun x => ?_, ?_⟩
    · rw [hrotated]
      split_ifs with hx
      · rw [hx, View.take_cons h.order.nodup hpending]
      · rfl
    · obtain ⟨m', rfl, -, htask, hid⟩ := hcopy.stored
      rw [claimAnswer_encodeMessage hid, htask]
      rfl

end Calls

/-- Only the idempotent enqueue remembers a key. -/
def Call.keyed : Call → Bool
  | .enqueueTaskIdempotent _ _ => true
  | _ => false

theorem keys_localCall (l : LocalQueue) {call : Call} (h : call.keyed = false) :
    (localCall l call).2.dispatchKeys = l.dispatchKeys := by
  cases call with
  | enqueueTaskIdempotent m k => simp [Call.keyed] at h
  | enqueueTask m => rfl
  | cancelTask tenantId t =>
    simp only [localCall, answered, LocalAdapter.cancelTask]
    split <;> rfl
  | claimTask tenantId w =>
    simp only [localCall, LocalAdapter.claimTask]
    split <;> rfl
  | claimExistingTask tenantId t w =>
    simp only [localCall, answered, LocalAdapter.claimExistingTask]
    split
    · rfl
    · split <;> rfl
  | heartbeat tenantId t w => rfl
  | completeTask tenantId t w =>
    simp only [localCall, answered, LocalAdapter.completeTask]
    split <;> rfl
  | failTask tenantId t w reason now =>
    simp only [localCall, answered, LocalAdapter.failTask]
    split
    · rfl
    · split <;> rfl
  | releaseLease tenantId t w =>
    simp only [localCall, answered, LocalAdapter.releaseLease]
    split
    · rfl
    · split <;> rfl
  | recoverTaskForRetry tenantId t w =>
    simp only [localCall, answered, LocalAdapter.recoverTaskForRetry]
    split
    · rfl
    · split <;> rfl
  | moveToDeadLetter tenantId t reason now =>
    simp only [localCall, answered, LocalAdapter.moveToDeadLetter]
    split <;> rfl
  | moveOwnedToDeadLetter tenantId t w reason now =>
    simp only [localCall, answered, LocalAdapter.moveOwnedToDeadLetter]
    split
    · split <;> rfl
    · rfl
  | retryDeadLetter tenantId t =>
    simp only [localCall, answered, LocalAdapter.retryDeadLetter]
    repeat' split
    all_goals rfl

/-- The script a call of the Redis adapter runs on the keys of its tenant. -/
def Call.op : Call → RedisQueue.Op
  | .enqueueTask m => .enqueue m.message.taskId (encodeMessage m.message)
  | .enqueueTaskIdempotent m k => .enqueueIdempotent k m.message.taskId (encodeMessage m.message)
  | .cancelTask _ t => .cancel t
  | .claimTask _ w => .claimNext w
  | .claimExistingTask _ t w => .claimExisting t w
  | .heartbeat _ t w => .heartbeat t w
  | .completeTask _ t w => .complete t w
  | .failTask _ t w reason now => .fail t w reason now
  | .releaseLease _ t w => .release t w
  | .recoverTaskForRetry _ t w => .recover t w
  | .moveToDeadLetter _ t reason now => .deadLetter t "" reason now
  | .moveOwnedToDeadLetter _ t w reason now => .deadLetter t w reason now
  | .retryDeadLetter _ t => .retryDeadLetter t

/-- The store a call leaves for its tenant. -/
def Call.left (call : Call) (ttl : ℤ) (q : RedisQueues) : Store :=
  RedisQueue.step ⟨call.tenantId, ttl⟩ (q call.tenantId) call.op

theorem redisScript_update (ttl : ℤ) (q : RedisQueues) (call : Call) :
    (redisScript ttl q call).2 = Function.update q call.tenantId (call.left ttl q) := by
  cases call <;> rfl

/-- The stores hold what the local adapter holds, and it knows every idempotency key. -/
structure Alike (l : LocalQueue) (q : RedisQueues) : Prop where
  simulates : ∀ x, Simulates x (view l x) (q x)
  keys : ∀ x k, (q x).dispatchKeys.has k = true → l.dispatchKeys.has k = true

theorem Alike.empty : Alike .empty fun _ => .empty where
  simulates x :=
    { order := by
        have hids : (view .empty x).ids = [] := rfl
        rw [hids]
        exact .empty
      bound := fun t r hr => by simp [Store.empty] at hr
      pending := fun t => .none
      processing := fun t => .none
      lease := fun t => rfl
      apart := fun t ht => by simp [view, LocalQueue.empty] at ht
      dead := fun t => .none }
  keys x k hk := by simp [Store.empty] at hk

theorem Alike.update {l l' : LocalQueue} {q : RedisQueues} (h : Alike l q) {tenantId : String}
    {s : Store} (htracks : Tracks tenantId l l' s)
    (hkept : ∀ k, l.dispatchKeys.has k = true → l'.dispatchKeys.has k = true)
    (hkeys : ∀ k, s.dispatchKeys.has k = true → l'.dispatchKeys.has k = true) :
    Alike l' (Function.update q tenantId s) where
  simulates x := by
    by_cases hx : x = tenantId
    · subst hx
      rw [Function.update_self]
      exact htracks.1
    · rw [Function.update_of_ne hx, htracks.2 x hx]
      exact h.simulates x
  keys x k hk := by
    by_cases hx : x = tenantId
    · subst hx
      rw [Function.update_self] at hk
      exact hkeys k hk
    · rw [Function.update_of_ne hx] at hk
      exact hkept k (h.keys x k hk)

theorem isSome_of_rel {α β : Type*} {R : α → β → Prop} {x : Option α} {y : Option β}
    (h : Option.Rel R x y) : x.isSome = y.isSome := by
  cases h <;> rfl

/-- The stores hold a task exactly where the local adapter does. -/
theorem Alike.places {l : LocalQueue} {q : RedisQueues} (h : Alike l q) (tenantId t : String) :
    localPlaces l tenantId t = redisPlaces q tenantId t := by
  have hsim := h.simulates tenantId
  have hpending : l.queue.any (LocalAdapter.matchesTask tenantId t) =
      (q tenantId).pendingOrder.has t := by
    rw [Bool.eq_iff_iff, hsim.order.members, queue_any]
    have hnone := View.find_eq_none (v := view l tenantId) (t := t)
    rw [← not_iff_not, Bool.not_eq_true, Option.isSome_eq_false_iff, Option.isNone_iff_eq_none,
      hnone]
  have hprocessing : l.claims.has (tenantId, t) = (q tenantId).processingPayloads.has t := by
    rw [has_claims]
    cases hclaim : (view l tenantId).claim t with
    | none => simp [Table.has, (hsim.of_not_claim hclaim).2]
    | some claim =>
      obtain ⟨-, raw, hraw, -⟩ := hsim.of_claim (w := claim.1) (m := claim.2) hclaim
      simp [Table.has, hraw]
  have hdead : l.deadLetter.any (LocalAdapter.DeadLetter.isFor tenantId t) =
      (q tenantId).deadPayloads.has t := by
    have hrel := hsim.dead t
    have hany : l.deadLetter.any (LocalAdapter.DeadLetter.isFor tenantId t) =
        ((view l tenantId).dead t).getLast?.isSome := by
      rw [Bool.eq_iff_iff, List.getLast?_isSome, List.any_eq_true]
      constructor
      · rintro ⟨e, he, hfor⟩
        exact List.ne_nil_of_mem (List.mem_filter.mpr ⟨he, hfor⟩)
      · intro hne
        obtain ⟨e, he⟩ := List.exists_mem_of_ne_nil _ hne
        exact ⟨e, List.mem_filter.mp he⟩
    rw [hany, Table.has, isSome_of_rel hrel]
  simp only [localPlaces, redisPlaces, hpending, hprocessing, hdead]

theorem of_not_present {q : RedisQueues} {tenantId t : String}
    (h : present q tenantId t = false) : (q tenantId).pendingPayloads.has t = false ∧
      (q tenantId).processingPayloads.has t = false := by
  simpa [present] using h

/-- A call without an idempotency key that the store of its tenant follows. -/
theorem Alike.call {ttl : ℤ} {l : LocalQueue} {q : RedisQueues} (h : Alike l q) {call : Call}
    (hkeyed : call.keyed = false)
    (htracks : Tracks call.tenantId l (localCall l call).2 (call.left ttl q)) :
    Alike (localCall l call).2 (redisScript ttl q call).2 := by
  have hop : ∀ key t p, call.op ≠ .enqueueIdempotent key t p := by
    cases call <;> simp [Call.keyed, Call.op] at hkeyed ⊢
  have hstore := RedisQueue.dispatchKeys_step ⟨call.tenantId, ttl⟩ (s := q call.tenantId) hop
  have hlocal := keys_localCall l hkeyed
  rw [redisScript_update]
  refine h.update htracks (fun k hk => ?_) fun k hk => ?_
  · rwa [hlocal]
  · rw [Call.left, hstore] at hk
    rw [hlocal]
    exact h.keys call.tenantId k hk

theorem Alike.idempotent {ttl : ℤ} {a : Adapters} (h : Alike a.here a.redis) (m : Message)
    (k : String) (hcall : a.uniform (.enqueueTaskIdempotent m k) = true) :
    (localCall a.here (.enqueueTaskIdempotent m k)).1 =
        (redisScript ttl a.redis (.enqueueTaskIdempotent m k)).1 ∧
      Alike (localCall a.here (.enqueueTaskIdempotent m k)).2
        (redisScript ttl a.redis (.enqueueTaskIdempotent m k)).2 := by
  have hsim := h.simulates m.message.tenantId
  simp only [Adapters.uniform] at hcall
  simp only [localCall, redisScript, answered, replied, LocalAdapter.enqueueTaskIdempotent,
    RedisQueue.idempotentEnqueueScript]
  by_cases hused : a.here.dispatchKeys.has k = true
  · rw [if_pos hused] at hcall ⊢
    rw [if_pos hcall]
    exact ⟨rfl, h.update (.refl hsim) (fun _ hk => hk) (h.keys _)⟩
  · rw [if_neg hused] at hcall ⊢
    have hfresh : (a.redis m.message.tenantId).dispatchKeys.has k = false := by
      rw [Bool.eq_false_iff]
      exact fun hk => hused (h.keys _ k hk)
    obtain ⟨hpending, hprocessing⟩ := of_not_present (by simpa using hcall)
    rw [hfresh, hprocessing, hpending]
    simp only [Bool.false_eq_true, if_false]
    have htracks := follows_enqueueTask hsim m.identified rfl hpending hprocessing
    refine ⟨rfl, h.update ⟨htracks.1.congr (fun _ => rfl) rfl (fun _ => rfl) (fun _ => rfl)
      (fun _ => rfl) fun _ => rfl, htracks.2⟩ (fun key hk => ?_) fun key hk => ?_⟩
    · simp [Table.has_put, hk]
    · rw [Table.has_put, Bool.or_eq_true] at hk ⊢
      exact hk.imp_right (h.keys _ key)

theorem printableTask_processing {a : Adapters} {tenantId t : String}
    (h : printableTask a tenantId t = true) :
    ((a.redis tenantId).processingPayloads.get t).all printable = true := by
  unfold printableTask at h
  cases hraw : (a.redis tenantId).processingPayloads.get t with
  | none => rfl
  | some raw => simpa [hraw] using h

theorem printableTask_pending {a : Adapters} {tenantId t : String}
    (h : printableTask a tenantId t = true)
    (hprocessing : (a.redis tenantId).processingPayloads.get t = none) :
    ((a.redis tenantId).pendingPayloads.get t).all printable = true := by
  simpa [printableTask, hprocessing] using h

/-- A message of a task that no queue holds is published on both sides. -/
theorem follows_message {q : RedisQueues} {l : LocalQueue} (m : Message)
    (hsim : Simulates m.message.tenantId (view l m.message.tenantId) (q m.message.tenantId))
    (habsent : present q m.message.tenantId m.message.taskId = false) :
    Follows m.message.tenantId l (LocalAdapter.enqueueTask l m.message)
      (RedisQueue.enqueueScript (q m.message.tenantId) m.message.taskId
        (encodeMessage m.message)).1.isOk
      (RedisQueue.enqueueScript (q m.message.tenantId) m.message.taskId
        (encodeMessage m.message)).2 := by
  obtain ⟨hpending, hprocessing⟩ := of_not_present habsent
  have hscript : RedisQueue.enqueueScript (q m.message.tenantId) m.message.taskId
      (encodeMessage m.message) = (.ok "published", (q m.message.tenantId).pushPending
        m.message.taskId (encodeMessage m.message)) := by
    simp [RedisQueue.enqueueScript, hpending, hprocessing]
  rw [hscript]
  exact ⟨rfl, follows_enqueueTask hsim m.identified rfl hpending hprocessing⟩

/-- A uniform call gets the same answer on both sides, which stay alike. -/
theorem follows_call {ttl : ℤ} (httl : 0 < ttl) {a : Adapters} (h : Alike a.here a.redis)
    {call : Call} (hcall : a.uniform call = true) :
    (localCall a.here call).1 = (redisScript ttl a.redis call).1 ∧
      Alike (localCall a.here call).2 (redisScript ttl a.redis call).2 := by
  -- a method whose answer is the `ok` of its script
  have hresult : ∀ {r ok}, call.keyed = false → (localCall a.here call) = answered r →
      (redisScript ttl a.redis call).1 = .result ok →
      Follows call.tenantId a.here r ok (call.left ttl a.redis) →
        (localCall a.here call).1 = (redisScript ttl a.redis call).1 ∧
          Alike (localCall a.here call).2 (redisScript ttl a.redis call).2 := by
    intro r ok hkeyed hlocal hredis hfollows
    refine ⟨?_, h.call hkeyed ?_⟩
    · rw [hlocal, hredis, answered, hfollows.answer]
    · rw [hlocal]
      exact hfollows.tracks
  have hsim := h.simulates
  cases call with
  | enqueueTaskIdempotent m k => exact h.idempotent m k hcall
  | enqueueTask m =>
    have hfollows := follows_message m (hsim m.message.tenantId) (by
      simpa [Adapters.uniform] using hcall)
    exact hresult rfl rfl rfl hfollows
  | claimTask tenantId w =>
    obtain ⟨htracks, hanswer⟩ := follows_claimTask (hsim tenantId) w httl hcall
    exact ⟨hanswer.symm, h.call rfl htracks⟩
  | cancelTask tenantId t => exact hresult rfl rfl rfl (follows_cancelTask (hsim tenantId) t)
  | claimExistingTask tenantId t w =>
    exact hresult rfl rfl rfl (follows_claimExistingTask (hsim tenantId) w t httl)
  | heartbeat tenantId t w => exact hresult rfl rfl rfl (follows_heartbeat (hsim tenantId) w t httl)
  | completeTask tenantId t w => exact hresult rfl rfl rfl (follows_completeTask (hsim tenantId) w t)
  | releaseLease tenantId t w => exact hresult rfl rfl rfl (follows_releaseLease (hsim tenantId) w t)
  | recoverTaskForRetry tenantId t w =>
    exact hresult rfl rfl rfl (follows_recoverTaskForRetry (hsim tenantId) w t)
  | failTask tenantId t w reason now =>
    refine hresult rfl rfl rfl (follows_failTask (hsim tenantId) w reason now t fun howner => ?_)
    have hprint : printableTask a tenantId t = true := by
      simpa [Adapters.uniform, howner] using hcall
    exact printableTask_processing hprint
  | moveToDeadLetter tenantId t reason now =>
    refine hresult rfl rfl rfl
      (follows_moveToDeadLetter (hsim tenantId) reason now t fun hclaim => ?_)
    have hprint : printableTask a tenantId t = true := by
      simpa [Adapters.uniform, has_claims, hclaim] using hcall
    exact printableTask_pending hprint ((hsim tenantId).of_not_claim hclaim).2
  | moveOwnedToDeadLetter tenantId t w reason now =>
    refine hresult rfl rfl rfl (follows_moveOwnedToDeadLetter (hsim tenantId) w reason now t
      (fun hclaim => ?_) fun howner => ?_)
    · have hprint : printableTask a tenantId t = true := by
        simpa [Adapters.uniform, owner_eq, hclaim] using hcall
      exact printableTask_pending hprint ((hsim tenantId).of_not_claim hclaim).2
    · have howned : w ≠ "" ∧ printableTask a tenantId t = true := by
        simpa [Adapters.uniform, howner] using hcall
      exact ⟨howned.1, printableTask_processing howned.2⟩
  | retryDeadLetter tenantId t =>
    refine hresult rfl rfl rfl
      (follows_retryDeadLetter (hsim tenantId) t fun hpending hprocessing => ?_)
    have habsent : present a.redis tenantId t = false := by
      simp [present, hpending, hprocessing]
    simp only [Adapters.uniform, habsent, Bool.false_or, Bool.and_eq_true, decide_eq_true_eq]
      at hcall
    refine ⟨hcall.1, fun raw payload hraw hretry => ?_⟩
    simpa [hraw, hretry] using hcall.2

/-- Both adapters gave equal answers so far and hold the same. -/
structure Adapters.Consistent (a : Adapters) : Prop where
  answers : ∀ answer ∈ a.answers, answer.1 = answer.2
  alike : Alike a.here a.redis

theorem Adapters.Consistent.step {levels : ℕ} {ttl : ℤ} (httl : 0 < ttl) {a : Adapters}
    (h : a.Consistent) {call : Call} (hcall : a.regular levels call = true) :
    (a.step levels ttl call).Consistent := by
  simp only [Adapters.regular, Bool.and_eq_true] at hcall
  have hredis : redisCall ttl a.redis levels call = redisScript ttl a.redis call :=
    if_pos hcall.1.1
  obtain ⟨hanswer, halike⟩ := follows_call httl h.alike hcall.2
  refine ⟨fun answer hmem => ?_, ?_⟩
  · simp only [Adapters.step, hredis] at hmem
    rcases List.mem_cons.mp hmem with rfl | hmem
    · exact hanswer
    · exact h.answers answer hmem
  · simpa only [Adapters.step, hredis] using halike

/-- In a run of regular calls the two adapters agree. -/
theorem uniform_calls_agree (levels : ℕ) {ttl : ℤ} (httl : 0 < ttl) (calls : List Call)
    (h : Guarded (Adapters.step levels ttl) (fun a call => a.regular levels call = true)
      .empty calls) : Agree (exec (Adapters.step levels ttl) .empty calls) := by
  have hempty : Adapters.empty.Consistent := ⟨by simp [Adapters.empty], .empty⟩
  have hleft := h.preserves (I := Adapters.Consistent) (fun a call ha hg => ha.step httl hg) hempty
  exact ⟨hleft.answers, hleft.alike.places⟩

def sampleMessage (tenantId taskId : String) : Message where
  message := ⟨tenantId, taskId, "mission", none, none, [("k", .str "v")],
    "2024-01-01T00:00:00+00:00"⟩
  identified := ⟨nofun, nofun⟩

/-- The payload holds an `int` of 5001 digits. -/
def longMessage : Message where
  message := ⟨"a", "t", "mission", none, none, [("n", .num (.finite (10 ^ 5000)))],
    "2024-01-01T00:00:00+00:00"⟩
  identified := ⟨nofun, nofun⟩

/-- Publish, claim, fail, retry and claim again, while another tenant publishes. -/
def sampleCalls : List Call :=
  [.enqueueTaskIdempotent (sampleMessage "a" "t") "k", .claimTask "a" "w",
    .enqueueTask (sampleMessage "b" "u"), .failTask "a" "t" "w" "r" "now",
    .retryDeadLetter "a" "t", .claimTask "a" "v"]

theorem uniform_calls_agree_sample :
    (∀ answer ∈ (exec (Adapters.step 500 300) .empty sampleCalls).answers, answer.1 = answer.2) ∧
      ∀ tenantId t, localPlaces (exec (Adapters.step 500 300) .empty sampleCalls).here tenantId t =
        redisPlaces (exec (Adapters.step 500 300) .empty sampleCalls).redis tenantId t :=
  uniform_calls_agree 500 (by decide) sampleCalls (by decide +kernel)

/-- The adapters part on a task enqueued twice, on an idempotency key of two tenants, on
interleaved tenants, on a task dead-lettered twice and on an `int` of 5001 digits. -/
theorem adapters_disagree :
    (exec (Adapters.step 500 300) .empty [.enqueueTask (sampleMessage "a" "t"),
        .enqueueTask (sampleMessage "a" "t")]).answers.head? =
      some (.result true, .result false) ∧
    localPlaces (exec (Adapters.step 500 300) .empty
        [.enqueueTaskIdempotent (sampleMessage "a" "t") "k",
          .enqueueTaskIdempotent (sampleMessage "b" "u") "k"]).here "b" "u" ≠
      redisPlaces (exec (Adapters.step 500 300) .empty
        [.enqueueTaskIdempotent (sampleMessage "a" "t") "k",
          .enqueueTaskIdempotent (sampleMessage "b" "u") "k"]).redis "b" "u" ∧
    (exec (Adapters.step 500 300) .empty [.enqueueTask (sampleMessage "a" "t"),
        .enqueueTask (sampleMessage "b" "u"), .enqueueTask (sampleMessage "a" "t2"),
        .claimTask "b" "w", .claimTask "a" "w"]).answers.head? =
      some (.claimed (some "t2"), .claimed (some "t")) ∧
    (exec (Adapters.step 500 300) .empty [.enqueueTask (sampleMessage "a" "t"),
        .moveToDeadLetter "a" "t" "r" "now", .moveToDeadLetter "a" "t" "r" "now",
        .retryDeadLetter "a" "t"]).answers.head? = some (.result true, .result false) ∧
    (exec (Adapters.step 500 300) .empty [.enqueueTask longMessage]).answers.head? =
      some (.result true, .result false) ∧
    ¬ ∀ calls, Agree (exec (Adapters.step 500 300) .empty calls) := by
  refine ⟨by decide +kernel, by decide +kernel, by decide +kernel, by decide +kernel,
    by decide +kernel, ?_⟩
  intro hall
  have hagree := (hall [.enqueueTask (sampleMessage "a" "t"),
    .enqueueTask (sampleMessage "a" "t")]).1 (.result true, .result false) (by decide +kernel)
  simp at hagree

end Ajenda.QueueAdapters
