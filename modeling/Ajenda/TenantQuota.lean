import Ajenda.LockedRows
import Ajenda.TransitionSystem
import Mathlib.Tactic

/-!
# The monthly task quota

`QuotaEnforcementService.check_and_record_task_creation` in any number of transactions under
READ COMMITTED. Each statement on `tenant_usage` is a step of its own: the idempotent insert
and the read of the check, then the insert and the `UPDATE` of `increment_usage`.
-/
namespace Ajenda.TenantQuota
open LockedRows TransitionSystem

/-- `max_tasks_per_month` of a tenant's plan; an unknown plan sets no quota. -/
abbrev Plans := String → Option ℤ

def unlimited : ℤ := -1

/-- A tenant and a billing period. -/
abbrev UsageKey := String × String

structure Recording where
  key : UsageKey
  count : ℤ

/-- Where a call stands: after its first insert, after its check, after its second insert. -/
inductive Phase
  | idle
  | ensured (key : UsageKey) (count : ℤ)
  | checked (key : UsageKey) (count current : ℤ)
  | ensuredAgain (checkedKey key : UsageKey) (count current : ℤ)
  deriving DecidableEq

/-- The counters with the phase of each transaction, what its calls that returned normally
recorded, and what those of committed transactions did. -/
structure World where
  usage : Database ℕ UsageKey ℤ
  phase : ℕ → Phase
  returned : ℕ → List Recording
  committed : List Recording

def World.start : World := ⟨.empty, fun _ => .idle, fun _ => [], []⟩

/-- The date is read once for the check and once more for the increment. -/
inductive Action
  | call (transaction : ℕ) (tenantId period : String) (count : ℤ)
  | check (transaction : ℕ)
  | ensure (transaction : ℕ) (period : String)
  | update (transaction : ℕ)
  | commit (transaction : ℕ)
  | rollback (transaction : ℕ)

section Steps
variable (plans : Plans) (w : World) (t : ℕ)

def World.enter (phase : Phase) : World := { w with phase := Function.update w.phase t phase }

/-- `INSERT … ON CONFLICT DO NOTHING`; another transaction's uncommitted row makes it wait. -/
def World.insertUsage (key : UsageKey) (next : Phase) : World :=
  if (w.usage.read t key).isSome then w.enter t next
  else if w.usage.free t key then ({ w with usage := w.usage.write t key 0 }).enter t next
  else w

def World.call (tenantId period : String) (count : ℤ) : World :=
  if count < 1 ∨ w.phase t ≠ .idle then w
  else
    match plans tenantId with
    | none => w
    | some _ => w.insertUsage t (tenantId, period) (.ensured (tenantId, period) count)

/-- `limit != -1 and usage.tasks_created + count > limit` raises. -/
def admits (limit current count : ℤ) : Bool := limit = unlimited || current + count ≤ limit

def World.check : World :=
  match w.phase t with
  | .ensured key count =>
    match w.usage.read t key, plans key.1 with
    | some current, some limit =>
      if admits limit current count then w.enter t (.checked key count current)
      else w.enter t .idle
    | _, _ => w.enter t .idle
  | _ => w

def World.ensure (period : String) : World :=
  match w.phase t with
  | .checked key count current =>
    w.insertUsage t (key.1, period) (.ensuredAgain key (key.1, period) count current)
  | _ => w

/-- `SET tasks_created = tasks_created + :amount`, once the row lock is free. -/
def World.update : World :=
  match w.phase t with
  | .ensuredAgain _ key count _ =>
    if w.usage.free t key then
      match w.usage.read t key with
      | some counter =>
        ({ w with
          usage := w.usage.write t key (counter + count)
          returned := Function.update w.returned t (⟨key, count⟩ :: w.returned t) }).enter t .idle
      | none => { w.enter t .idle with
          returned := Function.update w.returned t (⟨key, count⟩ :: w.returned t) }
    else w
  | _ => w

def World.commit : World :=
  if w.phase t = .idle then
    { w with
      usage := w.usage.commit t
      returned := Function.update w.returned t []
      committed := w.returned t ++ w.committed }
  else w

def World.rollback : World :=
  { w.enter t .idle with
    usage := w.usage.rollback t
    returned := Function.update w.returned t [] }

def World.step : Action → World
  | .call t tenantId period count => w.call plans t tenantId period count
  | .check t => w.check plans t
  | .ensure t period => w.ensure t period
  | .update t => w.update t
  | .commit t => w.commit t
  | .rollback t => w.rollback t

end Steps

/-- The tasks recorded for a tenant and period. -/
def recorded (key : UsageKey) (recordings : List Recording) : ℤ :=
  ((recordings.filter (·.key = key)).map Recording.count).sum

/-- An `UPDATE` of the tenant finds the counter its own check read, in the same period. -/
def World.undisturbed (tenantId : String) (w : World) : Action → Bool
  | .update t =>
    match w.phase t with
    | .ensuredAgain checkedKey key _ current =>
      key.1 ≠ tenantId || (key = checkedKey && w.usage.read t key = some current)
    | _ => true
  | _ => true

section Recordings
variable (key : UsageKey)

theorem recorded_append (rs qs : List Recording) :
    recorded key (rs ++ qs) = recorded key rs + recorded key qs := by
  simp [recorded]

theorem recorded_cons (r : Recording) (rs : List Recording) :
    recorded key (r :: rs) = (if r.key = key then r.count else 0) + recorded key rs := by
  by_cases hr : r.key = key <;> simp [recorded, hr]

theorem recorded_of_absent {rs : List Recording} (h : ∀ r ∈ rs, r.key ≠ key) :
    recorded key rs = 0 := by
  have hnil : rs.filter (·.key = key) = [] := by
    rw [List.filter_eq_nil_iff]
    intro r hr
    simpa using h r hr
  simp [recorded, hnil]

/-- Where each call counts one task, the tasks are as many as the calls. -/
theorem recorded_of_ones {rs : List Recording} (h : ∀ r ∈ rs, r.count = 1) :
    recorded key rs = (rs.filter (·.key = key)).length := by
  induction rs with
  | nil => rfl
  | cons r rs ih =>
    have hrest := ih fun q hq => h q (List.mem_cons_of_mem r hq)
    have hr := h r List.mem_cons_self
    rw [recorded_cons, hrest]
    by_cases hk : r.key = key
    · simp [hk, hr]
      omega
    · simp [hk]

end Recordings

/-- The counters are what was recorded: the committed ones by the committed calls, the
uncommitted ones by the calls of their transactions as well. -/
structure World.Balanced (w : World) : Prop where
  committed : ∀ k, (w.usage.committed k).getD 0 = recorded k w.committed
  own : ∀ t k v, w.usage.pending k = some (t, v) →
    v = recorded k w.committed + recorded k (w.returned t)
  locked : ∀ t, ∀ r ∈ w.returned t, ∃ v, w.usage.pending r.key = some (t, v)
  present : ∀ t c k n current, w.phase t = .ensuredAgain c k n current →
    (w.usage.read t k).isSome = true

section Balance
variable {plans : Plans} {w : World} {t : ℕ}

theorem World.Balanced.enter (h : w.Balanced) (t : ℕ) {phase : Phase}
    (hphase : ∀ c k n current, phase = .ensuredAgain c k n current →
      (w.usage.read t k).isSome = true) : (w.enter t phase).Balanced where
  committed := h.committed
  own := h.own
  locked := h.locked
  present u c k n current hu := by
    by_cases hut : u = t
    · subst hut
      exact hphase c k n current (by simpa [World.enter] using hu)
    · exact h.present u c k n current (by simpa [World.enter, hut] using hu)

/-- A row that is not locked has no recording under way. -/
theorem World.Balanced.recorded_unlocked (h : w.Balanced) {key : UsageKey}
    (hfree : w.usage.pending key = none) (t : ℕ) : recorded key (w.returned t) = 0 := by
  refine recorded_of_absent key fun r hr heq => ?_
  obtain ⟨v, hv⟩ := h.locked t r hr
  rw [heq, hfree] at hv
  cases hv

/-- What a transaction reads of a free row. -/
theorem World.Balanced.read (h : w.Balanced) {key : UsageKey} (hfree : w.usage.free t key = true) :
    (w.usage.read t key).getD 0 = recorded key w.committed + recorded key (w.returned t) := by
  rcases Database.free_cases hfree with hnone | ⟨v, hv⟩
  · rw [Database.read_of_unlocked hnone, h.committed, h.recorded_unlocked hnone, add_zero]
  · rw [Database.read_of_own hv, Option.getD_some, h.own t key v hv]

/-- A transaction writes a free row and records the difference. -/
theorem World.Balanced.write (h : w.Balanced) {key : UsageKey} (v : ℤ) (rs : List Recording)
    (hfree : w.usage.free t key = true) (hrs : ∀ r ∈ rs, r.key = key)
    (hv : v = recorded key w.committed + recorded key (rs ++ w.returned t)) :
    ({ w with
      usage := w.usage.write t key v
      returned := Function.update w.returned t (rs ++ w.returned t) } : World).Balanced where
  committed := h.committed
  own u k v' hp := by
    dsimp only at hp ⊢
    rw [Database.pending_write] at hp
    split_ifs at hp with hk
    · obtain ⟨rfl, rfl⟩ := Prod.mk.inj (Option.some.inj hp)
      rw [hk, Function.update_self, hv]
    · by_cases hu : u = t
      · subst hu
        have habsent : recorded k rs = 0 :=
          recorded_of_absent k fun r hr heq => hk (heq.symm.trans (hrs r hr))
        rw [Function.update_self, recorded_append, habsent, zero_add]
        exact h.own u k v' hp
      · rw [Function.update_of_ne hu]
        exact h.own u k v' hp
  locked u r hr := by
    dsimp only at hr ⊢
    rw [Database.pending_write]
    by_cases hu : u = t
    · subst hu
      rw [Function.update_self, List.mem_append] at hr
      split_ifs with hk
      · exact ⟨v, rfl⟩
      · rcases hr with hr | hr
        · exact absurd (hrs r hr) hk
        · exact h.locked u r hr
    · rw [Function.update_of_ne hu] at hr
      obtain ⟨v', hv'⟩ := h.locked u r hr
      split_ifs with hk
      · rw [hk] at hv'
        rcases Database.free_cases hfree with hnone | ⟨v'', hown⟩
        · rw [hnone] at hv'
          cases hv'
        · rw [hown] at hv'
          exact absurd (Prod.mk.inj (Option.some.inj hv')).1.symm hu
      · exact ⟨v', hv'⟩
  present u c k n current hu := by
    have hpresent := h.present u c k n current hu
    by_cases hut : u = t
    · subst hut
      by_cases hk : k = key
      · subst hk
        rw [Database.read_write_self]
        rfl
      · have hsame : (w.usage.write u key v).read u k = w.usage.read u k := by
          simp only [Database.read, Database.own, Database.pending_write, if_neg hk]
          rfl
        rw [hsame]
        exact hpresent
    · rw [Database.read_write_other hfree hut]
      exact hpresent

theorem World.Balanced.insertUsage (h : w.Balanced) (t : ℕ) (key : UsageKey) {next : Phase}
    (hnext : ∀ c k n current, next = .ensuredAgain c k n current → k = key) :
    (w.insertUsage t key next).Balanced := by
  unfold World.insertUsage
  split_ifs with hvisible hfree
  · refine h.enter t fun c k n current hphase => ?_
    rw [hnext c k n current hphase]
    exact hvisible
  · have hunseen : w.usage.read t key = none := by simpa using hvisible
    have hread := h.read hfree
    rw [hunseen, Option.getD_none] at hread
    have hwritten := h.write 0 [] hfree (by simp) hread
    simp only [List.nil_append, Function.update_eq_self] at hwritten
    refine hwritten.enter t fun c k n current hphase => ?_
    rw [hnext c k n current hphase, Database.read_write_self]
    rfl
  · exact h

theorem World.Balanced.update (h : w.Balanced) (t : ℕ) : (w.update t).Balanced := by
  unfold World.update
  split
  next c key count current hphase =>
    split_ifs with hfree
    · have hpresent := h.present t c key count current hphase
      have hread := h.read hfree
      split
      next counter hcounter =>
        rw [hcounter, Option.getD_some] at hread
        have hwritten := h.write (counter + count) [⟨key, count⟩] hfree (by simp) (by
          rw [List.singleton_append, recorded_cons, if_pos rfl, hread]
          ring)
        exact hwritten.enter t fun c k n current hidle => by cases hidle
      next hcounter =>
        rw [hcounter] at hpresent
        cases hpresent
    · exact h
  next => exact h

theorem World.Balanced.commit (h : w.Balanced) (t : ℕ) : (w.commit t).Balanced := by
  unfold World.commit
  split_ifs with hidle
  · have hown : ∀ k, (w.usage.read t k).getD 0 =
        recorded k (w.returned t) + recorded k w.committed := by
      intro k
      cases hp : w.usage.pending k with
      | none =>
        rw [Database.read_of_unlocked hp, h.committed, h.recorded_unlocked hp, zero_add]
      | some version =>
        obtain ⟨u, v⟩ := version
        by_cases hu : u = t
        · subst hu
          rw [Database.read_of_own hp, Option.getD_some, h.own u k v hp, add_comm]
        · rw [Database.read_of_other hp hu, h.committed]
          have habsent : recorded k (w.returned t) = 0 := by
            refine recorded_of_absent k fun r hr heq => ?_
            obtain ⟨v', hv'⟩ := h.locked t r hr
            rw [heq, hp] at hv'
            exact hu (Prod.mk.inj (Option.some.inj hv')).1
          rw [habsent, zero_add]
    refine ⟨fun k => ?_, fun u k v hp => ?_, fun u r hr => ?_, fun u c k n current hu => ?_⟩
    · rw [recorded_append]
      exact hown k
    · obtain ⟨hp, hu⟩ := Database.pending_filter.mp hp
      have habsent : recorded k (w.returned t) = 0 := by
        refine recorded_of_absent k fun r hr heq => ?_
        obtain ⟨v', hv'⟩ := h.locked t r hr
        rw [heq, hp] at hv'
        exact hu (Prod.mk.inj (Option.some.inj hv')).1
      simp only [Function.update_of_ne hu, recorded_append, habsent, zero_add]
      exact h.own u k v hp
    · dsimp only at hr ⊢
      by_cases hu : u = t
      · simp [hu] at hr
      · rw [Function.update_of_ne hu] at hr
        obtain ⟨v, hv⟩ := h.locked u r hr
        exact ⟨v, Database.pending_filter.mpr ⟨hv, hu⟩⟩
    · have hne : u ≠ t := by
        rintro rfl
        have hphase : w.phase u = .ensuredAgain c k n current := hu
        rw [hidle] at hphase
        cases hphase
      exact Database.read_commit_isSome hne (h.present u c k n current hu)
  · exact h

theorem World.Balanced.rollback (h : w.Balanced) (t : ℕ) : (w.rollback t).Balanced where
  committed := h.committed
  own u k v hp := by
    obtain ⟨hp, hu⟩ := Database.pending_filter.mp hp
    have hreturned : (w.rollback t).returned u = w.returned u := Function.update_of_ne hu ..
    rw [hreturned]
    exact h.own u k v hp
  locked u r hr := by
    by_cases hu : u = t
    · simp [World.rollback, hu] at hr
    · have hold : r ∈ w.returned u := by simpa [World.rollback, hu] using hr
      obtain ⟨v, hv⟩ := h.locked u r hold
      exact ⟨v, Database.pending_filter.mpr ⟨hv, hu⟩⟩
  present u c k n current hu := by
    by_cases hut : u = t
    · simp [World.rollback, World.enter, hut] at hu
    · have hold := h.present u c k n current (by simpa [World.rollback, World.enter, hut] using hu)
      have hread : (w.rollback t).usage.read u k = w.usage.read u k :=
        Database.read_rollback_other hut
      rwa [hread]

theorem World.Balanced.step (h : w.Balanced) (action : Action) :
    (w.step plans action).Balanced := by
  cases action with
  | call t tenantId period count =>
    simp only [World.step, World.call]
    split_ifs
    · exact h
    · split
      · exact h
      · exact h.insertUsage t _ fun c k n current hphase => by cases hphase
  | check t =>
    simp only [World.step, World.check]
    split
    · split
      · split_ifs
        · exact h.enter t fun c k n current hphase => by cases hphase
        · exact h.enter t fun c k n current hphase => by cases hphase
      · exact h.enter t fun c k n current hphase => by cases hphase
    · exact h
  | ensure t period =>
    simp only [World.step, World.ensure]
    split
    · refine h.insertUsage t _ fun c k n current hphase => ?_
      cases hphase
      rfl
    · exact h
  | update t => exact h.update t
  | commit t => exact h.commit t
  | rollback t => exact h.rollback t

theorem World.Balanced.start : World.start.Balanced where
  committed k := rfl
  own t k v hp := by cases hp
  locked t r hr := by simp [World.start] at hr
  present t c k n current hu := by cases hu

end Balance

/-- No version of a counter of the tenant is above the limit, and no admitted call will put it
there. -/
structure World.Within (tenantId : String) (limit : ℤ) (w : World) : Prop where
  committed : ∀ p v, w.usage.committed (tenantId, p) = some v → v ≤ limit
  pending : ∀ p t v, w.usage.pending (tenantId, p) = some (t, v) → v ≤ limit
  checked : ∀ t k n current, w.phase t = .checked k n current → k.1 = tenantId →
    current + n ≤ limit
  admitted : ∀ t c k n current, w.phase t = .ensuredAgain c k n current → k.1 = tenantId →
    current + n ≤ limit

section Limits
variable {plans : Plans} {tenantId : String} {limit : ℤ} {w : World} {t : ℕ}

theorem World.Within.enter (h : w.Within tenantId limit) (t : ℕ) {phase : Phase}
    (hchecked : ∀ k n current, phase = .checked k n current → k.1 = tenantId →
      current + n ≤ limit)
    (hadmitted : ∀ c k n current, phase = .ensuredAgain c k n current → k.1 = tenantId →
      current + n ≤ limit) : (w.enter t phase).Within tenantId limit where
  committed := h.committed
  pending := h.pending
  checked u k n current hu hk := by
    by_cases hut : u = t
    · exact hchecked k n current (by simpa [World.enter, hut] using hu) hk
    · exact h.checked u k n current (by simpa [World.enter, hut] using hu) hk
  admitted u c k n current hu hk := by
    by_cases hut : u = t
    · exact hadmitted c k n current (by simpa [World.enter, hut] using hu) hk
    · exact h.admitted u c k n current (by simpa [World.enter, hut] using hu) hk

theorem World.Within.write (h : w.Within tenantId limit) (t : ℕ) (key : UsageKey) {v : ℤ}
    (hv : key.1 = tenantId → v ≤ limit) (returned : ℕ → List Recording) :
    ({ w with usage := w.usage.write t key v, returned } : World).Within tenantId limit where
  committed := h.committed
  pending p u v' hp := by
    rw [Database.pending_write] at hp
    split_ifs at hp with hk
    · obtain ⟨rfl, rfl⟩ := Prod.mk.inj (Option.some.inj hp)
      exact hv (by rw [← hk])
    · exact h.pending p u v' hp
  checked := h.checked
  admitted := h.admitted

/-- What a transaction can read of the tenant's counters is within the limit. -/
theorem World.Within.read (h : w.Within tenantId limit) {p : String} {v : ℤ}
    (hv : w.usage.read t (tenantId, p) = some v) : v ≤ limit := by
  rw [Database.read] at hv
  cases hown : w.usage.own t (tenantId, p) with
  | none =>
    rw [hown, Option.none_or] at hv
    exact h.committed p v hv
  | some v' =>
    rw [hown, Option.some_or] at hv
    obtain rfl := Option.some.inj hv
    exact h.pending p t v' (Database.own_eq_some.mp hown)

theorem World.Within.insertUsage (h : w.Within tenantId limit) (hlimit : 0 ≤ limit) (t : ℕ)
    (key : UsageKey) {next : Phase}
    (hchecked : ∀ k n current, next = .checked k n current → k.1 = tenantId →
      current + n ≤ limit)
    (hadmitted : ∀ c k n current, next = .ensuredAgain c k n current → k.1 = tenantId →
      current + n ≤ limit) : (w.insertUsage t key next).Within tenantId limit := by
  unfold World.insertUsage
  split_ifs
  · exact h.enter t hchecked hadmitted
  · have hwritten := h.write t key (fun _ => hlimit) w.returned
    exact hwritten.enter t hchecked hadmitted
  · exact h

theorem World.Within.idle (h : w.Within tenantId limit) (t : ℕ) :
    (w.enter t .idle).Within tenantId limit :=
  h.enter t (fun k n current hphase => by cases hphase) fun c k n current hphase => by cases hphase

theorem World.Within.check (h : w.Within tenantId limit) (hplan : plans tenantId = some limit)
    (hfinite : limit ≠ unlimited) (t : ℕ) : (w.check plans t).Within tenantId limit := by
  unfold World.check
  split
  · split
    next key count current limit' hread hlimit =>
      split_ifs with hadmits
      · refine h.enter t (fun k n current' hphase hk => ?_) fun c k n current hphase => by
          cases hphase
        obtain ⟨rfl, rfl, rfl⟩ := Phase.checked.inj hphase
        rw [hk, hplan] at hlimit
        obtain rfl := Option.some.inj hlimit
        simpa [admits, hfinite] using hadmits
      · exact h.idle t
    next => exact h.idle t
  · exact h

theorem World.Within.update (h : w.Within tenantId limit) (t : ℕ)
    (hundisturbed : w.undisturbed tenantId (.update t) = true) :
    (w.update t).Within tenantId limit := by
  unfold World.update
  split
  next c key count current hphase =>
    simp only [World.undisturbed, hphase] at hundisturbed
    split_ifs
    · split
      next counter hcounter =>
        refine World.Within.idle (h.write t key (fun hkey => ?_) _) t
        have hsame : key = c ∧ counter = current := by
          simpa [hkey, hcounter] using hundisturbed
        have hadmitted := h.admitted t c key count current hphase hkey
        omega
      next => exact ⟨(h.idle t).committed, (h.idle t).pending, (h.idle t).checked,
          (h.idle t).admitted⟩
    · exact h
  next => exact h

theorem World.Within.commit (h : w.Within tenantId limit) (t : ℕ) :
    (w.commit t).Within tenantId limit := by
  unfold World.commit
  split_ifs
  · refine ⟨fun p v hv => h.read hv, fun p u v hp => ?_, h.checked, h.admitted⟩
    exact h.pending p u v (Database.pending_filter.mp hp).1
  · exact h

theorem World.Within.step (h : w.Within tenantId limit) (hplan : plans tenantId = some limit)
    (hlimit : 0 ≤ limit) {action : Action} (hundisturbed : w.undisturbed tenantId action = true) :
    (w.step plans action).Within tenantId limit := by
  have hfinite : limit ≠ unlimited := by
    rw [unlimited]
    omega
  cases action with
  | call t x period count =>
    simp only [World.step, World.call]
    split_ifs
    · exact h
    · split
      · exact h
      · exact h.insertUsage hlimit t _ (fun k n current hphase => by cases hphase)
          fun c k n current hphase => by cases hphase
  | check t => exact h.check hplan hfinite t
  | ensure t period =>
    simp only [World.step, World.ensure]
    split
    next key count current hphase =>
      refine h.insertUsage hlimit t _ (fun k n current hnext => by cases hnext)
        fun c k n current' hnext hk => ?_
      obtain ⟨rfl, rfl, rfl, rfl⟩ := Phase.ensuredAgain.inj hnext
      exact h.checked t _ _ _ hphase hk
    next => exact h
  | update t => exact h.update t hundisturbed
  | commit t => exact h.commit t
  | rollback t =>
    refine ⟨h.committed, fun p u v hp => ?_, (h.idle t).checked, (h.idle t).admitted⟩
    exact h.pending p u v (Database.pending_filter.mp hp).1

theorem World.Within.start (tenantId : String) (limit : ℤ) : World.start.Within tenantId limit where
  committed p v hv := by cases hv
  pending p t v hp := by cases hp
  checked t k n current hu := by cases hu
  admitted t c k n current hu := by cases hu

end Limits

/-- The committed counter is what the calls of committed transactions recorded, and it stays
within the limit where every update finds the counter its check read. -/
theorem task_quota_kept (plans : Plans) (tenantId : String) (limit : ℤ)
    (hplan : plans tenantId = some limit) (hlimit : 0 ≤ limit) (actions : List Action)
    (period : String) :
    ((exec (World.step plans) .start actions).usage.committed (tenantId, period)).getD 0 =
        recorded (tenantId, period) (exec (World.step plans) .start actions).committed ∧
    ((∀ r ∈ (exec (World.step plans) .start actions).committed, r.count = 1) →
      ((exec (World.step plans) .start actions).usage.committed (tenantId, period)).getD 0 =
        ((exec (World.step plans) .start actions).committed.filter
          (·.key = (tenantId, period))).length) ∧
    (Guarded (World.step plans) (fun w action => w.undisturbed tenantId action = true) .start
        actions →
      ((exec (World.step plans) .start actions).usage.committed (tenantId, period)).getD 0 ≤
        limit) := by
  have hbalanced : (exec (World.step plans) .start actions).Balanced :=
    exec_preserves (fun w action h => h.step action) .start actions
  refine ⟨hbalanced.committed _, fun hones => ?_, fun hguarded => ?_⟩
  · rw [hbalanced.committed, recorded_of_ones _ hones]
  · have hwithin := hguarded.preserves (I := World.Within tenantId limit)
      (fun w action h hundisturbed => h.step hplan hlimit hundisturbed) (.start tenantId limit)
    cases hcommitted : (exec (World.step plans) .start actions).usage.committed
        (tenantId, period) with
    | none => exact hlimit
    | some v => exact hwithin.committed period v hcommitted

/-- The statements of one call. -/
def callOf (t : ℕ) (count : ℤ) : List Action :=
  [.call t "x" "2026-01" count, .check t, .ensure t "2026-01", .update t]

/-- Two transactions with one call each, one after the other. -/
def serialRun : List Action := callOf 1 1 ++ [.commit 1] ++ callOf 2 1 ++ [.commit 2]

theorem task_quota_kept_serial :
    ((exec (World.step fun _ => some 2) .start serialRun).usage.committed ("x", "2026-01")).getD 0 =
        recorded ("x", "2026-01") (exec (World.step fun _ => some 2) .start serialRun).committed ∧
      ((exec (World.step fun _ => some 2) .start serialRun).usage.committed
        ("x", "2026-01")).getD 0 ≤ 2 := by
  have hkept := task_quota_kept (fun _ => some 2) "x" 2 rfl (by decide) serialRun "2026-01"
  exact ⟨hkept.1, hkept.2.2 (by decide +kernel)⟩

/-- After one committed call two transactions check before either updates. -/
def racingRun : List Action :=
  callOf 1 1 ++ [.commit 1] ++
    [.call 2 "x" "2026-01" 1, .check 2, .call 3 "x" "2026-01" 1, .check 3,
      .ensure 2 "2026-01", .update 2, .commit 2, .ensure 3 "2026-01", .update 3, .commit 3]

theorem task_quota_exceeded :
    (exec (World.step fun _ => some 2) .start racingRun).usage.committed ("x", "2026-01") =
      some 3 ∧
    ¬ ∀ actions, ((exec (World.step fun _ => some 2) .start actions).usage.committed
      ("x", "2026-01")).getD 0 ≤ 2 := by
  have hthree : (exec (World.step fun _ => some 2) .start racingRun).usage.committed
      ("x", "2026-01") = some 3 := by decide +kernel
  refine ⟨hthree, fun hall => ?_⟩
  have hle := hall racingRun
  rw [hthree, Option.getD_some] at hle
  omega

end Ajenda.TenantQuota
