import Ajenda.QueueAdapterRuns

/-!
# What the local queue shows one tenant of another

All tenants share the deque and the idempotency keys of `LocalQueueAdapter`. A call of one
tenant changes what another observes in two ways: a claim that rotates the other's messages
out of their order, and an idempotent enqueue that uses a key up.
-/
namespace Ajenda.QueueAdapters
open FiniteTable TransitionSystem
open RedisQueue (QueueMessage)
open LocalAdapter (LocalQueue DeadLetter matchesTask)

section Words
variable {α : Type*}

/-- The word `w`, `n` times. -/
def repeated (w : List α) (n : ℕ) : List α := (List.replicate n w).flatten

theorem repeated_add (w : List α) (m n : ℕ) :
    repeated w (m + n) = repeated w m ++ repeated w n := by
  rw [repeated, List.replicate_add, List.flatten_append]
  rfl

/-- Two words read the same in both orders exactly when they repeat one word. -/
theorem append_comm_iff {xs ys : List α} : xs ++ ys = ys ++ xs ↔
    ∃ w m n, xs = repeated w m ∧ ys = repeated w n := by
  constructor
  · induction hn : xs.length + ys.length using Nat.strong_induction_on generalizing xs ys with
    | _ n ih =>
      intro h
      wlog hle : xs.length ≤ ys.length generalizing xs ys
      · obtain ⟨w, k, l, hy, hx⟩ := this (by omega) h.symm (by omega)
        exact ⟨w, l, k, hx, hy⟩
      obtain ⟨zs, rfl⟩ : xs <+: ys := by
        refine List.prefix_of_prefix_length_le ?_ (List.prefix_append ys xs) hle
        rw [← h]
        exact List.prefix_append xs ys
      cases xs with
      | nil => exact ⟨zs, 0, 1, by simp [repeated], by simp [repeated]⟩
      | cons x xs =>
        rw [List.append_assoc, List.append_cancel_left_eq] at h
        obtain ⟨w, k, l, hx, hz⟩ := ih _ (by simp at hn ⊢; omega) rfl h
        exact ⟨w, k, k + l, hx, by rw [repeated_add, ← hx, ← hz]⟩
  · rintro ⟨w, m, n, rfl, rfl⟩
    rw [← repeated_add, ← repeated_add, Nat.add_comm]

end Words

section Observation

/-- What a tenant can observe: its pending messages in the order they are served, its claims
with their owners, its dead letters, and the keys under which an enqueue publishes. -/
@[ext] structure Observed where
  pending : List QueueMessage
  claim : String → Option (String × QueueMessage)
  deadLetter : List DeadLetter
  publishes : String → Bool

def DeadLetter.ofTenant (tenantId : String) (e : DeadLetter) : Bool :=
  RedisQueue.textField e.payload "tenant_id" = some tenantId

def observed (l : LocalQueue) (tenantId : String) : Observed where
  pending := l.queue.filter fun m => m.tenantId = tenantId
  claim t := l.claims.get (tenantId, t)
  deadLetter := l.deadLetter.filter (DeadLetter.ofTenant tenantId)
  publishes k := !l.dispatchKeys.has k

def localStep (l : LocalQueue) (call : Call) : LocalQueue := (localCall l call).2

/-- The message is one `claim_task` of the tenant takes. -/
def claimable (l : LocalQueue) (tenantId : String) (m : QueueMessage) : Bool :=
  m.tenantId = tenantId && !l.claims.has (tenantId, m.taskId)

/-- The messages of `other` that a claim of the tenant rotates to the end. -/
def rotatedOf (l : LocalQueue) (tenantId other : String) : List QueueMessage :=
  (l.queue.takeWhile fun m => !claimable l tenantId m).filter fun m => m.tenantId = other

/-- The messages of `other` behind the message that a claim of the tenant takes. -/
def behindOf (l : LocalQueue) (tenantId other : String) : List QueueMessage :=
  (l.queue.dropWhile fun m => !claimable l tenantId m).filter fun m => m.tenantId = other

/-- The call leaves the order and the keys of `other` alone: an idempotent enqueue comes with a
key already used, and the messages that a claim rotates and those it leaves in front of them
are repetitions of one run of messages, as they are when there are none of one kind. -/
def Apart (other : String) (l : LocalQueue) : Call → Prop
  | .enqueueTaskIdempotent _ k => l.dispatchKeys.has k = true
  | .claimTask tenantId _ => ∃ w m n, rotatedOf l tenantId other = repeated w m ∧
      behindOf l tenantId other = repeated w n
  | _ => True

end Observation

section Calls
variable {l : LocalQueue} {tenantId other : String}

/-- A claim is on a message of its tenant. -/
def Owned (l : LocalQueue) : Prop :=
  ∀ x t w m, l.claims.get (x, t) = some (w, m) → m.tenantId = x

theorem claimLoop_split (l : LocalQueue) (tenantId : String) (rest rotated : List QueueMessage) :
    LocalAdapter.claimLoop l tenantId rest rotated =
      match rest.dropWhile fun m => !claimable l tenantId m with
      | [] => (none, rotated ++ rest)
      | m :: behind =>
          (some m, behind ++ (rotated ++ rest.takeWhile fun m => !claimable l tenantId m)) := by
  induction rest generalizing rotated with
  | nil => simp [LocalAdapter.claimLoop]
  | cons m rest ih =>
    by_cases htenant : m.tenantId = tenantId
    · by_cases hclaimed : l.claims.has (tenantId, m.taskId) = true
      · simp [LocalAdapter.claimLoop, claimable, htenant, hclaimed, ih]
      · simp [LocalAdapter.claimLoop, claimable, htenant, hclaimed]
    · simp [LocalAdapter.claimLoop, claimable, htenant, ih]

/-- The messages of the tenant in the deque and in its own claims stay apart from `other`. -/
theorem observed_append {m : QueueMessage} (hm : m.tenantId ≠ other) :
    observed (l.append m) other = observed l other := by
  simp [observed, LocalQueue.append, hm]

theorem observed_popClaim (hne : tenantId ≠ other) (t : String) :
    observed (l.popClaim tenantId t) other = observed l other := by
  refine Observed.ext rfl (funext fun u => ?_) rfl rfl
  exact Table.get_del_ne _ fun heq => hne (Prod.mk.inj heq).1.symm

theorem observed_putClaim (hne : tenantId ≠ other) (t : String) (c : String × QueueMessage) :
    observed { l with claims := l.claims.put (tenantId, t) c } other = observed l other := by
  refine Observed.ext rfl (funext fun u => ?_) rfl rfl
  exact Table.get_put_ne _ _ fun heq => hne (Prod.mk.inj heq).1.symm

theorem observed_bury {e : DeadLetter} (he : DeadLetter.ofTenant other e = false) :
    observed (l.bury e) other = observed l other := by
  simp [observed, LocalQueue.bury, he]

theorem observed_withoutPending (hne : tenantId ≠ other) (t : String) :
    observed (l.withoutPending tenantId t) other = observed l other := by
  refine Observed.ext ?_ rfl rfl rfl
  simp only [observed, LocalQueue.withoutPending, List.filter_filter]
  apply List.filter_congr
  intro m _
  by_cases hm : m.tenantId = other
  · have hother : m.tenantId ≠ tenantId := fun heq => hne (heq.symm.trans hm)
    simp [matchesTask, hother]
  · simp [hm]

theorem observed_erasePending (hne : tenantId ≠ other) (t : String) :
    observed { l with queue := l.queue.eraseP (matchesTask tenantId t) } other =
      observed l other := by
  refine Observed.ext (filter_eraseP fun m _ hm => ?_) rfl rfl rfl
  simp only [matchesTask, Bool.and_eq_true, decide_eq_true_eq] at hm
  simp [hm.1, hne]

theorem observed_eraseDead (hne : tenantId ≠ other) (t : String) :
    observed { l with deadLetter := l.deadLetter.eraseP (DeadLetter.isFor tenantId t) } other =
      observed l other := by
  refine Observed.ext rfl rfl (filter_eraseP fun e _ he => ?_) rfl
  simp [DeadLetter.ofTenant, (isFor_iff.mp he).2, hne]

theorem envelope_ofTenant (hne : tenantId ≠ other) {message : Option QueueMessage}
    (hm : ∀ m ∈ message, m.tenantId = tenantId) (t reason now : String) (w : Option String) :
    DeadLetter.ofTenant other
      (LocalAdapter.deadLetterEnvelope tenantId t reason now w message) = false := by
  cases message with
  | none => simp [DeadLetter.ofTenant, LocalAdapter.deadLetterEnvelope, RedisQueue.textField,
      JsonValue.Fields.get_cons, hne]
  | some m =>
    have htenant := hm m rfl
    simp [DeadLetter.ofTenant, LocalAdapter.deadLetterEnvelope, RedisQueue.textField,
      RedisQueue.messageFields, JsonValue.Fields.get_cons, htenant, hne]

theorem observed_deadLettered (hne : tenantId ≠ other) {message : Option QueueMessage}
    (hm : ∀ m ∈ message, m.tenantId = tenantId) (t reason now : String) (w : Option String) :
    observed (l.bury (LocalAdapter.deadLetterEnvelope tenantId t reason now w message)) other =
      observed l other :=
  observed_bury (envelope_ofTenant hne hm t reason now w)

theorem find_tenant {t : String} {m : QueueMessage}
    (h : m ∈ l.queue.find? (matchesTask tenantId t)) : m.tenantId = tenantId := by
  have hmatch := List.find?_some h
  simp only [matchesTask, Bool.and_eq_true, decide_eq_true_eq] at hmatch
  exact hmatch.1

theorem tenant_of_payload {payload : JsonValue.Fields} {m : QueueMessage}
    (h : LocalAdapter.messageFromPayload payload = some m) :
    RedisQueue.textField payload "tenant_id" = some m.tenantId := by
  simp only [LocalAdapter.messageFromPayload, RedisQueue.decodeMessage, Option.bind_eq_bind,
    Option.bind_eq_some_iff] at h
  obtain ⟨x, hx, _, -, _, -, _, -, _, -, h⟩ := h
  rw [hx]
  split at h
  · obtain ⟨_, -, h⟩ := Option.bind_eq_some_iff.mp h
    obtain ⟨_, -, h⟩ := Option.bind_eq_some_iff.mp h
    rw [← Option.some.inj h]
  · obtain ⟨_, -, h⟩ := Option.bind_eq_some_iff.mp h
    obtain ⟨_, -, h⟩ := Option.bind_eq_some_iff.mp h
    rw [← Option.some.inj h]
  · cases h

/-- A claim leaves the claims and the keys of `other`, and rotates its messages. -/
theorem observed_claimTask (hne : tenantId ≠ other) (w : String) :
    observed (LocalAdapter.claimTask l tenantId w).2 other =
      { observed l other with
        pending := behindOf l tenantId other ++ rotatedOf l tenantId other } := by
  have hsplit := List.takeWhile_append_dropWhile (p := fun m => !claimable l tenantId m)
    (l := l.queue)
  simp only [LocalAdapter.claimTask, claimLoop_split, List.nil_append]
  cases hbehind : l.queue.dropWhile fun m => !claimable l tenantId m with
  | nil =>
    rw [hbehind, List.append_nil] at hsplit
    simp [observed, behindOf, rotatedOf, hbehind, hsplit]
  | cons m behind =>
    have hmine : m.tenantId = tenantId := by
      have hclaimable := List.head_dropWhile_not (p := fun m => !claimable l tenantId m)
        (l := l.queue) (by rw [hbehind]; exact List.cons_ne_nil _ _)
      simp only [hbehind, List.head_cons] at hclaimable
      simp only [claimable, Bool.not_eq_false', Bool.and_eq_true, decide_eq_true_eq] at hclaimable
      exact hclaimable.1
    have hother : m.tenantId ≠ other := fun heq => hne (hmine.symm.trans heq)
    refine (observed_putClaim (l := { l with queue := _ }) hne _ _).trans ?_
    simp [observed, behindOf, rotatedOf, hbehind, hother]

theorem observed_pending (l : LocalQueue) (tenantId other : String) :
    (observed l other).pending = rotatedOf l tenantId other ++ behindOf l tenantId other := by
  rw [rotatedOf, behindOf, ← List.filter_append, List.takeWhile_append_dropWhile]
  rfl

/-- One call of another tenant leaves what `other` observes exactly when it is apart. -/
theorem observed_localStep (howned : Owned l) {call : Call} (hne : call.tenantId ≠ other) :
    observed (localStep l call) other = observed l other ↔ Apart other l call := by
  cases call with
  | enqueueTask m => exact iff_of_true (observed_append hne) trivial
  | enqueueTaskIdempotent m k =>
    simp only [localStep, localCall, answered, LocalAdapter.enqueueTaskIdempotent, Apart]
    by_cases hk : l.dispatchKeys.has k = true
    · simp [hk]
    · rw [if_neg hk]
      refine iff_of_false (fun heq => ?_) hk
      have hpublishes := congrArg (fun o => Observed.publishes o k) heq
      simp [observed, LocalQueue.append, Table.has_put, hk] at hpublishes
  | cancelTask x t =>
    refine iff_of_true ?_ trivial
    simp only [localStep, localCall, answered, LocalAdapter.cancelTask]
    split
    · rfl
    · exact observed_withoutPending hne t
  | claimTask x w =>
    have hafter := observed_claimTask (l := l) hne w
    have hbefore := observed_pending l x other
    rw [Apart, ← append_comm_iff]
    constructor
    · intro heq
      have hpending := congrArg Observed.pending (hafter.symm.trans heq)
      exact (hbefore.symm.trans hpending.symm)
    · intro hcomm
      refine hafter.trans (Observed.ext ?_ rfl rfl rfl)
      exact hcomm.symm.trans hbefore.symm
  | claimExistingTask x t w =>
    refine iff_of_true ?_ trivial
    simp only [localStep, localCall, answered, LocalAdapter.claimExistingTask]
    split
    · rfl
    · split
      · rfl
      · refine (observed_putClaim (l := { l with queue := _ }) hne _ _).trans ?_
        exact observed_erasePending hne t
  | heartbeat x t w => exact iff_of_true rfl trivial
  | completeTask x t w =>
    refine iff_of_true ?_ trivial
    simp only [localStep, localCall, answered, LocalAdapter.completeTask]
    split
    · rfl
    · exact observed_popClaim hne t
  | failTask x t w reason now =>
    refine iff_of_true ?_ trivial
    simp only [localStep, localCall, answered, LocalAdapter.failTask]
    split
    · rfl
    · rename_i owner m hget
      split
      · rfl
      · have hm : ∀ n ∈ some m, n.tenantId = x := fun n hn => by
          rw [← Option.some.inj hn]
          exact howned _ _ _ _ hget
        exact (observed_deadLettered hne hm t reason now (some w)).trans (observed_popClaim hne t)
  | releaseLease x t w =>
    refine iff_of_true ?_ trivial
    simp only [localStep, localCall, answered, LocalAdapter.releaseLease]
    split
    · rfl
    · rename_i owner m hget
      split
      · rfl
      · rw [observed_append (by rw [howned _ _ _ _ hget]; exact hne)]
        exact observed_popClaim hne t
  | recoverTaskForRetry x t w =>
    refine iff_of_true ?_ trivial
    have hleft := (observed_withoutPending (l := l.popClaim x t) hne t).trans
      (observed_popClaim hne t)
    simp only [localStep, localCall, answered, LocalAdapter.recoverTaskForRetry]
    split
    · rfl
    · split
      · rename_i m hhead
        rw [observed_append]
        · exact hleft
        · have hm : m ∈ l.queue.filter (matchesTask x t) := List.mem_of_head? hhead
          simp only [List.mem_filter, matchesTask, Bool.and_eq_true, decide_eq_true_eq] at hm
          rw [hm.2.1]
          exact hne
      · rename_i owner m hhead hget
        rw [observed_append (by rw [howned _ _ _ _ hget]; exact hne)]
        exact hleft
      · exact hleft
  | moveToDeadLetter x t reason now =>
    refine iff_of_true ?_ trivial
    simp only [localStep, localCall, answered, LocalAdapter.moveToDeadLetter]
    split
    · rfl
    · exact (observed_deadLettered hne (fun m hm => find_tenant hm) t reason now none).trans
        (observed_withoutPending hne t)
  | moveOwnedToDeadLetter x t w reason now =>
    refine iff_of_true ?_ trivial
    simp only [localStep, localCall, answered, LocalAdapter.moveOwnedToDeadLetter]
    split
    · rename_i owner m hget
      split
      · rfl
      · have hm : ∀ n ∈ some m, n.tenantId = x := fun n hn => by
          rw [← Option.some.inj hn]
          exact howned _ _ _ _ hget
        exact (observed_deadLettered hne hm t reason now (some w)).trans (observed_popClaim hne t)
    · exact (observed_deadLettered hne (fun m hm => find_tenant hm) t reason now (some w)).trans
        (observed_withoutPending hne t)
  | retryDeadLetter x t =>
    refine iff_of_true ?_ trivial
    simp only [localStep, localCall, answered, LocalAdapter.retryDeadLetter]
    split
    · rfl
    split
    · rfl
    split
    · rfl
    · rename_i e hfind
      split
      · rfl
      · rename_i m hpayload
        have hfor := (isFor_iff.mp (List.find?_some hfind)).2
        rw [tenant_of_payload hpayload, Option.some.injEq] at hfor
        refine (observed_eraseDead (l := l.append m) hne t).trans ?_
        exact observed_append (by rw [hfor]; exact hne)

end Calls

section Runs
variable {l l' : LocalQueue}

theorem Owned.same (h : Owned l) (hclaims : l'.claims = l.claims) : Owned l' := by
  intro y u v n hget
  rw [hclaims] at hget
  exact h y u v n hget

theorem Owned.put (h : Owned l) {x t w : String} {m : QueueMessage} (hm : m.tenantId = x)
    (hclaims : l'.claims = l.claims.put (x, t) (w, m)) : Owned l' := by
  intro y u v n hget
  rw [hclaims, Table.get_put] at hget
  split_ifs at hget with hkey
  · obtain ⟨rfl, rfl⟩ := Prod.mk.inj (Option.some.inj hget)
    rw [hm, (Prod.mk.inj hkey).1]
  · exact h y u v n hget

theorem Owned.del (h : Owned l) {x t : String} (hclaims : l'.claims = l.claims.del (x, t)) :
    Owned l' := by
  intro y u v n hget
  rw [hclaims, Table.get_del] at hget
  split_ifs at hget
  exact h y u v n hget

theorem Owned.step (h : Owned l) (call : Call) : Owned (localStep l call) := by
  cases call with
  | enqueueTask m => exact h.same rfl
  | enqueueTaskIdempotent m k =>
    simp only [localStep, localCall, answered, LocalAdapter.enqueueTaskIdempotent]
    split <;> exact h.same rfl
  | cancelTask x t =>
    simp only [localStep, localCall, answered, LocalAdapter.cancelTask]
    split <;> exact h.same rfl
  | claimTask x w =>
    simp only [localStep, localCall, LocalAdapter.claimTask, claimLoop_split]
    cases hbehind : l.queue.dropWhile fun m => !claimable l x m with
    | nil => exact h.same rfl
    | cons m behind =>
      have hclaimable := List.head_dropWhile_not (p := fun m => !claimable l x m)
        (l := l.queue) (by rw [hbehind]; exact List.cons_ne_nil _ _)
      simp only [hbehind, List.head_cons] at hclaimable
      simp only [claimable, Bool.not_eq_false', Bool.and_eq_true, decide_eq_true_eq] at hclaimable
      exact h.put hclaimable.1 rfl
  | claimExistingTask x t w =>
    simp only [localStep, localCall, answered, LocalAdapter.claimExistingTask]
    split
    · exact h
    · split
      · exact h
      · rename_i m hfind
        exact h.put (find_tenant hfind) rfl
  | heartbeat x t w => exact h
  | completeTask x t w =>
    simp only [localStep, localCall, answered, LocalAdapter.completeTask]
    split
    · exact h
    · exact h.del rfl
  | failTask x t w reason now =>
    simp only [localStep, localCall, answered, LocalAdapter.failTask]
    split
    · exact h
    · split
      · exact h
      · exact h.del rfl
  | releaseLease x t w =>
    simp only [localStep, localCall, answered, LocalAdapter.releaseLease]
    split
    · exact h
    · split
      · exact h
      · exact h.del rfl
  | recoverTaskForRetry x t w =>
    simp only [localStep, localCall, answered, LocalAdapter.recoverTaskForRetry]
    split
    · exact h
    · split <;> exact h.del rfl
  | moveToDeadLetter x t reason now =>
    simp only [localStep, localCall, answered, LocalAdapter.moveToDeadLetter]
    split <;> exact h.same rfl
  | moveOwnedToDeadLetter x t w reason now =>
    simp only [localStep, localCall, answered, LocalAdapter.moveOwnedToDeadLetter]
    split
    · split
      · exact h
      · exact h.del rfl
    · exact h.same rfl
  | retryDeadLetter x t =>
    simp only [localStep, localCall, answered, LocalAdapter.retryDeadLetter]
    repeat' split
    all_goals exact h.same rfl

theorem owned_reachable (calls : List Call) : Owned (exec localStep .empty calls) := by
  have hempty : Owned .empty := by
    intro x t w m hget
    cases hget
  have hstep : ∀ l call, Owned l → Owned (localStep l call) := fun _ call h => h.step call
  exact exec_preserves hstep hempty calls

/-- From any reachable state, calls of other tenants leave what a tenant observes unchanged all
along exactly when each of them is apart. -/
theorem tenant_isolated_iff (before calls : List Call) (tenantId : String)
    (hothers : ∀ call ∈ calls, call.tenantId ≠ tenantId) :
    (∀ n, observed (exec localStep (exec localStep .empty before) (calls.take n)) tenantId =
        observed (exec localStep .empty before) tenantId) ↔
      Guarded localStep (Apart tenantId) (exec localStep .empty before) calls := by
  have howned := owned_reachable before
  generalize exec localStep .empty before = start at howned ⊢
  induction calls generalizing start with
  | nil => simp [Guarded]
  | cons call calls ih =>
    have hcall := hothers call List.mem_cons_self
    have hrest := ih (fun c hc => hothers c (List.mem_cons_of_mem _ hc)) _ (howned.step call)
    constructor
    · intro h
      have hone : observed (localStep start call) tenantId = observed start tenantId := by
        simpa using h 1
      refine ⟨(observed_localStep howned hcall).mp hone, hrest.mp fun n => ?_⟩
      rw [hone]
      simpa using h (n + 1)
    · rintro ⟨hapart, hguarded⟩ n
      have hone := (observed_localStep howned hcall).mpr hapart
      cases n with
      | zero => rfl
      | succ n =>
        rw [List.take_succ_cons, exec_cons, ← hone]
        exact hrest.mpr hguarded n

theorem tenant_isolated_iff_sample :
    let start := exec localStep .empty [.enqueueTask (sampleMessage "b" "u"),
      .enqueueTask (sampleMessage "a" "t")]
    Guarded localStep (Apart "b") start [.claimTask "a" "w", .completeTask "a" "t" "w"] ∧
      ∀ n, observed (exec localStep start
        (List.take n [.claimTask "a" "w", .completeTask "a" "t" "w"])) "b" = observed start "b" := by
  have hapart : Guarded localStep (Apart "b") (exec localStep .empty
      [.enqueueTask (sampleMessage "b" "u"), .enqueueTask (sampleMessage "a" "t")])
      [.claimTask "a" "w", .completeTask "a" "t" "w"] := by
    refine ⟨⟨[(sampleMessage "b" "u").message], 1, 0, ?_, ?_⟩, trivial, trivial⟩
    · decide +kernel
    · decide +kernel
  exact ⟨hapart, (tenant_isolated_iff [.enqueueTask (sampleMessage "b" "u"),
    .enqueueTask (sampleMessage "a" "t")] [.claimTask "a" "w", .completeTask "a" "t" "w"] "b"
    (by decide)).mpr hapart⟩

/-- A claim of one tenant turns the order of another around, and an idempotent enqueue of one
tenant swallows the other's enqueue under the same key. -/
theorem tenants_interfere :
    ((observed (exec localStep .empty [.enqueueTask (sampleMessage "b" "u"),
        .enqueueTask (sampleMessage "a" "t"), .enqueueTask (sampleMessage "b" "v")]) "b").pending.map
          QueueMessage.taskId = ["u", "v"] ∧
      (observed (exec localStep .empty [.enqueueTask (sampleMessage "b" "u"),
        .enqueueTask (sampleMessage "a" "t"), .enqueueTask (sampleMessage "b" "v"),
        .claimTask "a" "w"]) "b").pending.map QueueMessage.taskId = ["v", "u"]) ∧
    ((observed .empty "b").publishes "k" = true ∧
      (observed (exec localStep .empty [.enqueueTaskIdempotent (sampleMessage "a" "t") "k"])
        "b").publishes "k" = false) ∧
    ¬ ∀ before call tenantId, call.tenantId ≠ tenantId →
      observed (localStep (exec localStep .empty before) call) tenantId =
        observed (exec localStep .empty before) tenantId := by
  refine ⟨⟨by decide +kernel, by decide +kernel⟩, ⟨by decide +kernel, by decide +kernel⟩, ?_⟩
  intro hall
  have hpublishes := congrArg (fun o => Observed.publishes o "k")
    (hall [] (.enqueueTaskIdempotent (sampleMessage "a" "t") "k") "b" (by decide))
  have hdiffers : (observed (localStep (exec localStep .empty [])
      (.enqueueTaskIdempotent (sampleMessage "a" "t") "k")) "b").publishes "k" ≠
        (observed (exec localStep .empty []) "b").publishes "k" := by decide +kernel
  exact hdiffers hpublishes

end Runs

end Ajenda.QueueAdapters
