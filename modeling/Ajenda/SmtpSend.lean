import Ajenda.EmailSendIdempotency
import Ajenda.TransitionSystem

/-!
# Claim-before-send for SMTP

Any number of calls of `claim_smtp_send`, `complete_smtp_send` and `release_smtp_send` in any
number of processes, each transaction at its own moment and with whatever time the process
reads. A call may fail and a process may crash between any two steps. The log records what the
calls returned and what their transactions made durable, the latest first.
-/
namespace Ajenda.EmailSend
open JsonValue TransitionSystem
open Ajenda.Runtime (strip)

/-- Where a call stands; `claimed` and `fenced` are the two commits of a claim. -/
inductive Call
  | claimed (process : String) (key : ReceiptKey) (ownerToken : String)
  | fenced (process : String) (key : ReceiptKey) (ownerToken : String)
  | completing (process : String) (key : ReceiptKey) (ownerToken : String)
      (resultPayload : Fields)
  | releasing (process : String) (key : ReceiptKey) (ownerToken : String)
      (errorDetail : Option String)
  | finalized (process : String) (key : ReceiptKey)
  deriving DecidableEq

def Call.process : Call → String
  | .claimed process .. | .fenced process .. | .completing process .. | .releasing process ..
  | .finalized process _ => process

inductive Event
  | fenced (call : String) (key : ReceiptKey) (ownerToken : String)
  | stored (key : ReceiptKey) (ownerToken : String) (resultPayload : Fields)
  | returned (call : String) (key : ReceiptKey) (answer : ClaimStatus)
  deriving DecidableEq

/-- `liveOwners` is the `_live_owners` map of each process. -/
structure World where
  rows : Receipts
  liveOwners : String → ReceiptKey → Option String
  calls : String → Option Call
  log : List Event

def World.start : World := ⟨fun _ => none, fun _ _ => none, fun _ => none, []⟩

inductive Action
  | claim (call process tenantId action idempotencyKey ownerToken : String) (now : ℤ)
  | fence (call : String)
  | remember (call : String)
  | complete (call process : String) (key : ReceiptKey) (resultPayload : Fields)
  | release (call process : String) (key : ReceiptKey) (errorDetail : Option String)
  | finalize (call : String)
  | forget (call : String)
  | fail (call : String)
  | crash (process : String)

section Steps
variable (iso : IsoFormat) (w : World)

def World.setCall (call : String) (state : Option Call) : World :=
  { w with calls := Function.update w.calls call state }

def World.record (event : Event) : World := { w with log := event :: w.log }

/-- The claim transaction of `claim_smtp_send`; a blank key is rejected before it. -/
def World.claim (call process tenantId action idempotencyKey ownerToken : String) (now : ℤ) :
    World :=
  let key : ReceiptKey := ⟨tenantId, action, strip idempotencyKey⟩
  if strip idempotencyKey = "" ∨ (w.calls call).isSome then w
  else
    match tryClaimSmtp iso w.rows key ownerToken now 300 with
    | (.newlyClaimed, rows) =>
      ({ w with rows }).setCall call (some (.claimed process key ownerToken))
    | (answer, _) => w.record (.returned call key answer)

/-- The fence transaction of a claim. -/
def World.fence (call : String) : World :=
  match w.calls call with
  | some (.claimed process key ownerToken) =>
    match fenceSmtpSend w.rows key ownerToken with
    | (true, rows) => (({ w with rows }).setCall call
        (some (.fenced process key ownerToken))).record (.fenced call key ownerToken)
    | (false, _) => (w.setCall call none).record (.returned call key .inFlight)
  | _ => w

def World.setOwner (process : String) (key : ReceiptKey) (ownerToken : Option String) : World :=
  let owners := Function.update (w.liveOwners process) key ownerToken
  { w with liveOwners := Function.update w.liveOwners process owners }

/-- The end of a claim that has crossed the fence. -/
def World.remember (call : String) : World :=
  match w.calls call with
  | some (.fenced process key ownerToken) =>
    ((w.setOwner process key (some ownerToken)).setCall call none).record
      (.returned call key .newlyClaimed)
  | _ => w

/-- `complete_smtp_send` and `release_smtp_send` look up the live owner; without one they raise
or return. -/
def World.open (call process : String) (key : ReceiptKey) (state : String → Call) : World :=
  match w.calls call, w.liveOwners process key with
  | none, some ownerToken => w.setCall call (some (state ownerToken))
  | _, _ => w

/-- The transaction of a completion or a release; a refusal raises. -/
def World.finalize (call : String) : World :=
  match w.calls call with
  | some (.completing process key ownerToken resultPayload) =>
    match completeSmtpOwned w.rows key ownerToken resultPayload with
    | (true, rows) => (({ w with rows }).setCall call (some (.finalized process key))).record
        (.stored key ownerToken resultPayload)
    | (false, _) => w.setCall call none
  | some (.releasing process key ownerToken errorDetail) =>
    match releaseSmtpOwned w.rows key ownerToken errorDetail with
    | (true, rows) => ({ w with rows }).setCall call (some (.finalized process key))
    | (false, _) => w.setCall call none
  | _ => w

def World.forget (call : String) : World :=
  match w.calls call with
  | some (.finalized process key) => (w.setOwner process key none).setCall call none
  | _ => w

/-- The process loses its owner tokens and its calls. -/
def World.crash (process : String) : World :=
  { w with
    liveOwners := Function.update w.liveOwners process fun _ => none
    calls := fun call => (w.calls call).filter (·.process ≠ process) }

def World.step : Action → World
  | .claim call process tenantId action idempotencyKey ownerToken now =>
    w.claim iso call process tenantId action idempotencyKey ownerToken now
  | .fence call => w.fence call
  | .remember call => w.remember call
  | .complete call process key resultPayload =>
    w.open call process key (.completing process key · resultPayload)
  | .release call process key errorDetail =>
    w.open call process key (.releasing process key · errorDetail)
  | .finalize call => w.finalize call
  | .forget call => w.forget call
  | .fail call => w.setCall call none
  | .crash process => w.crash process

end Steps

/-- The calls that were allowed to send under the key. -/
def senders (key : ReceiptKey) (log : List Event) : ℕ :=
  log.countP fun
    | .returned _ k .newlyClaimed => k = key
    | _ => false

def Crossed (log : List Event) (key : ReceiptKey) (call ownerToken : String) : Prop :=
  Event.fenced call key ownerToken ∈ log

/-- The answer of a claim that comes after the fence was crossed by `owner`. -/
def AnswersAfter (owner ownerToken call : String) (key : ReceiptKey) (answer : ClaimStatus)
    (earlier : List Event) : Prop :=
  (answer = .newlyClaimed ∧ call = owner) ∨ answer = .inFlight ∨
    ∃ resultPayload, answer = .replayed resultPayload ∧
      Event.stored key ownerToken resultPayload ∈ earlier

/-- Every answer after a fence is that of its owner, in flight, or what the owner stored. -/
def Answered : List Event → Prop
  | [] => True
  | .returned call key answer :: earlier =>
    (∀ owner ownerToken, Crossed earlier key owner ownerToken →
      AnswersAfter owner ownerToken call key answer earlier) ∧ Answered earlier
  | _ :: earlier => Answered earlier

/-- What the receipt of a key says about the past of the key. -/
structure Recorded (iso : IsoFormat) (log : List Event) (key : ReceiptKey)
    (row : Option EmailSendIdempotencyReceipt) : Prop where
  crossed : ∀ call ownerToken, Crossed log key call ownerToken →
    ∃ r, row = some r ∧ r.status ≠ .claiming ∧
      (r.status ≠ .completed → claimOwner r = some ownerToken)
  unique : ∀ call ownerToken call' ownerToken', Crossed log key call ownerToken →
    Crossed log key call' ownerToken' → call = call' ∧ ownerToken = ownerToken'
  claiming : ∀ r, row = some r → r.status = .claiming →
    ∃ ownerToken expiresAt, r.resultPayload = some (claimMetadata iso ownerToken expiresAt)
  past : ∀ r, row = some r → r.status ≠ .claiming → ∃ call ownerToken, Crossed log key call ownerToken
  stored : ∀ ownerToken resultPayload, Event.stored key ownerToken resultPayload ∈ log →
    ∃ r, row = some r ∧ r.status = .completed
  completed : ∀ r, row = some r → r.status = .completed →
    ∃ call ownerToken resultPayload, Crossed log key call ownerToken ∧
      r.resultPayload = some resultPayload ∧ Event.stored key ownerToken resultPayload ∈ log

/-- What a call that has not returned knows. -/
def CallSound (log : List Event) (call : String) : Call → Prop
  | .fenced _ key ownerToken => Crossed log key call ownerToken ∧ senders key log = 0
  | .completing _ key ownerToken _ | .releasing _ key ownerToken _ =>
    ∃ owner, Crossed log key owner ownerToken
  | .claimed .. | .finalized .. => True

/-- The invariant of every run. -/
structure World.Sound (iso : IsoFormat) (w : World) : Prop where
  rows : ∀ key, Recorded iso w.log key (w.rows key)
  owners : ∀ process key ownerToken, w.liveOwners process key = some ownerToken →
    ∃ call, Crossed w.log key call ownerToken
  calls : ∀ call state, w.calls call = some state → CallSound w.log call state
  senders : ∀ key, senders key w.log ≤ 1 ∧
    (senders key w.log ≠ 0 → ∃ call ownerToken, Crossed w.log key call ownerToken)
  answered : Answered w.log

section Logs
variable {iso : IsoFormat} {log : List Event} {key k : ReceiptKey} {call c ownerToken t : String}
  {answer : ClaimStatus} {row : Option EmailSendIdempotencyReceipt}

@[simp] theorem crossed_returned : Crossed (.returned c k answer :: log) key call ownerToken ↔
    Crossed log key call ownerToken := by
  simp [Crossed]

@[simp] theorem crossed_stored {resultPayload : Fields} :
    Crossed (.stored k t resultPayload :: log) key call ownerToken ↔
      Crossed log key call ownerToken := by
  simp [Crossed]

theorem crossed_fenced : Crossed (.fenced c k t :: log) key call ownerToken ↔
    (call = c ∧ key = k ∧ ownerToken = t) ∨ Crossed log key call ownerToken := by
  simp [Crossed]

@[simp] theorem senders_returned (h : answer ≠ .newlyClaimed) :
    senders key (.returned c k answer :: log) = senders key log := by
  cases answer <;> simp_all [senders]

@[simp] theorem senders_stored {resultPayload : Fields} :
    senders key (.stored k t resultPayload :: log) = senders key log := by
  simp [senders]

@[simp] theorem senders_fenced : senders key (.fenced c k t :: log) = senders key log := by
  simp [senders]

theorem senders_newlyClaimed : senders key (.returned c k .newlyClaimed :: log) =
    senders key log + if k = key then 1 else 0 := by
  simp [senders, List.countP_cons]

/-- Events that neither fence nor store leave a receipt recorded. -/
theorem Recorded.returned (h : Recorded iso log key row) (c : String) (k : ReceiptKey)
    (answer : ClaimStatus) : Recorded iso (.returned c k answer :: log) key row := by
  obtain ⟨hcrossed, hunique, hclaiming, hpast, hstored, hcompleted⟩ := h
  constructor
  · simpa using hcrossed
  · simpa using hunique
  · exact hclaiming
  · simpa using hpast
  · simpa using hstored
  · simpa using hcompleted

/-- A receipt that is claimed has no fence in its past. -/
theorem Recorded.not_crossed (h : Recorded iso log key row)
    (hrow : ∀ r, row = some r → r.status = .claiming) : ¬Crossed log key call ownerToken := by
  intro hcrossed
  obtain ⟨r, hr, hstatus, -⟩ := h.crossed call ownerToken hcrossed
  exact hstatus (hrow r hr)

end Logs

section Soundness
variable {iso : IsoFormat} {w : World} {call : String} {key : ReceiptKey}

theorem World.Sound.start : World.start.Sound iso := by
  constructor
  · intro key
    constructor <;> simp [World.start, Crossed]
  · simp [World.start]
  · simp [World.start]
  · simp [World.start, EmailSend.senders]
  · trivial

theorem World.Sound.setCall (h : w.Sound iso) {state : Option Call}
    (hstate : ∀ c, state = some c → CallSound w.log call c) : (w.setCall call state).Sound iso := by
  refine ⟨h.rows, h.owners, fun c s hs => ?_, h.senders, h.answered⟩
  simp only [World.setCall, Function.update_apply] at hs
  split_ifs at hs with hc
  · rw [hc]
    exact hstate s hs
  · exact h.calls c s hs

theorem World.Sound.setOwner (h : w.Sound iso) (process : String) {owner : Option String}
    (howner : ∀ ownerToken, owner = some ownerToken → ∃ c, Crossed w.log key c ownerToken) :
    (w.setOwner process key owner).Sound iso := by
  refine ⟨h.rows, fun p k t ht => ?_, h.calls, h.senders, h.answered⟩
  simp only [World.setOwner, Function.update_apply] at ht
  split_ifs at ht with hp
  · rw [Function.update_apply] at ht
    split_ifs at ht with hk
    · rw [hk]
      exact howner t ht
    · exact h.owners p k t (hp ▸ ht)
  · exact h.owners p k t ht

theorem CallSound.returned {log : List Event} {c : String} {state : Call}
    (h : CallSound log c state) {answer : ClaimStatus} (hanswer : answer ≠ .newlyClaimed) :
    CallSound (.returned call key answer :: log) c state := by
  cases state <;> simp_all [CallSound]

/-- An answer other than that of the owner. -/
theorem World.Sound.answer (h : w.Sound iso) {answer : ClaimStatus}
    (hanswer : answer ≠ .newlyClaimed)
    (hanswers : ∀ owner ownerToken, Crossed w.log key owner ownerToken →
      AnswersAfter owner ownerToken call key answer w.log) :
    (w.record (.returned call key answer)).Sound iso := by
  constructor
  · intro k
    exact (h.rows k).returned call key answer
  · intro p k t ht
    obtain ⟨c, hc⟩ := h.owners p k t ht
    exact ⟨c, crossed_returned.2 hc⟩
  · intro c state hs
    exact (h.calls c state hs).returned hanswer
  · intro k
    simpa [World.record, hanswer] using h.senders k
  · exact ⟨hanswers, h.answered⟩

/-- What `try_claim_smtp` answers and writes. -/
theorem tryClaimSmtp_cases (iso : IsoFormat) (rows : Receipts) (key : ReceiptKey)
    (ownerToken : String) (now leaseSeconds : ℤ) :
    let result := tryClaimSmtp iso rows key ownerToken now leaseSeconds
    (result.1 = .newlyClaimed ∧ (∀ r, rows key = some r → r.status = .claiming) ∧
        ∃ expiresAt errorDetail, result.2 = setRow rows key
          (some ⟨.claiming, some (claimMetadata iso ownerToken expiresAt), errorDetail⟩)) ∨
      result.1 = .inFlight ∨
      ∃ r, rows key = some r ∧ r.status = .completed ∧
        result.1 = .replayed (r.resultPayload.getD []) := by
  unfold tryClaimSmtp
  dsimp only
  split
  next hnone =>
    refine Or.inl ⟨rfl, ?_, _, none, rfl⟩
    intro r hr
    rw [hnone] at hr
    cases hr
  next existing hrow =>
    split_ifs with hcompleted hclaiming
    · exact Or.inr (Or.inr ⟨existing, hrow, hcompleted, rfl⟩)
    · exact Or.inr (Or.inl rfl)
    · rw [not_not] at hclaiming
      split
      · exact Or.inr (Or.inl rfl)
      · split_ifs
        · exact Or.inr (Or.inl rfl)
        · refine Or.inl ⟨rfl, ?_, now + timedelta (max 1 leaseSeconds), none, ?_⟩
          · intro r hr
            obtain rfl := Option.some_inj.1 (hrow.symm.trans hr)
            exact hclaiming
          · rw [hclaiming]

/-- A new claim of a key that no one has fenced. -/
theorem Recorded.claim {log : List Event} {row : Option EmailSendIdempotencyReceipt}
    (h : Recorded iso log key row) (hrow : ∀ r, row = some r → r.status = .claiming)
    (ownerToken : String) (expiresAt : ℤ) (errorDetail : Option String) :
    Recorded iso log key
      (some ⟨.claiming, some (claimMetadata iso ownerToken expiresAt), errorDetail⟩) := by
  constructor
  · intro c t hc
    exact absurd hc (h.not_crossed hrow)
  · exact h.unique
  · intro r hr _
    obtain rfl := Option.some_inj.1 hr
    exact ⟨ownerToken, expiresAt, rfl⟩
  · intro r hr hstatus
    obtain rfl := Option.some_inj.1 hr
    exact absurd rfl hstatus
  · intro t payload hstored
    obtain ⟨r, hr, hstatus⟩ := h.stored t payload hstored
    rw [hrow r hr] at hstatus
    cases hstatus
  · intro r hr hstatus
    obtain rfl := Option.some_inj.1 hr
    cases hstatus

theorem World.Sound.setRow (h : w.Sound iso) {row : Option EmailSendIdempotencyReceipt}
    (hrow : Recorded iso w.log key row) :
    ({ w with rows := setRow w.rows key row } : World).Sound iso := by
  refine ⟨fun k => ?_, h.owners, h.calls, h.senders, h.answered⟩
  simp only [EmailSend.setRow, Function.update_apply]
  split_ifs with hk
  · rw [hk]
    exact hrow
  · exact h.rows k

theorem World.Sound.claim (h : w.Sound iso)
    (call process tenantId action idempotencyKey ownerToken : String) (now : ℤ) :
    (w.claim iso call process tenantId action idempotencyKey ownerToken now).Sound iso := by
  unfold World.claim
  dsimp only
  split_ifs
  · exact h
  · set key : ReceiptKey := ⟨tenantId, action, strip idempotencyKey⟩
    have hcases := tryClaimSmtp_cases iso w.rows key ownerToken now 300
    dsimp only at hcases
    rcases hcases with ⟨hclaimed, hrow, expiresAt, errorDetail, hrows⟩ | hflight |
      ⟨r, hr, hstatus, hreplayed⟩
    · rw [show tryClaimSmtp iso w.rows key ownerToken now 300 = (.newlyClaimed, _) from
        Prod.ext hclaimed hrows]
      apply (h.setRow ((h.rows key).claim hrow ownerToken expiresAt errorDetail)).setCall
      intro c hc
      obtain rfl := Option.some_inj.1 hc
      trivial
    · rw [show tryClaimSmtp iso w.rows key ownerToken now 300 = (.inFlight, _) from
        Prod.ext hflight rfl]
      exact h.answer (by simp) fun _ _ _ => Or.inr (Or.inl rfl)
    · rw [show tryClaimSmtp iso w.rows key ownerToken now 300 =
        (.replayed (r.resultPayload.getD []), _) from Prod.ext hreplayed rfl]
      apply h.answer (by simp)
      intro owner token hcrossed
      obtain ⟨c, t, payload, hc, hpayload, hstored⟩ := (h.rows key).completed r hr hstatus
      obtain ⟨rfl, rfl⟩ := (h.rows key).unique _ _ _ _ hc hcrossed
      rw [hpayload]
      exact Or.inr (Or.inr ⟨payload, rfl, hstored⟩)

/-- What `fence_smtp_send` requires and writes. -/
theorem fenceSmtpSend_eq_true {rows rows' : Receipts} {ownerToken : String}
    (h : fenceSmtpSend rows key ownerToken = (true, rows')) :
    ∃ row, rows key = some row ∧ row.status = .claiming ∧ claimOwner row = some ownerToken ∧
      rows' = setRow rows key (some { row with status := .sending }) := by
  unfold fenceSmtpSend at h
  split at h
  · cases h
  next row hrow =>
    split_ifs at h with hstatus howner
    · cases h
    · cases h
    · rw [not_not] at hstatus howner
      exact ⟨row, hrow, hstatus, howner, (Prod.mk.inj h).2.symm⟩

/-- The fence of a key that no one has fenced. -/
theorem Recorded.fence {log : List Event} {row : EmailSendIdempotencyReceipt}
    (h : Recorded iso log key (some row)) (hstatus : row.status = .claiming) {ownerToken : String}
    (howner : claimOwner row = some ownerToken) (call : String) :
    Recorded iso (.fenced call key ownerToken :: log) key
      (some { row with status := .sending }) := by
  have hclaiming : ∀ r, some row = some r → r.status = .claiming := by
    intro r hr
    rw [← Option.some_inj.1 hr, hstatus]
  have honly : ∀ c t, Crossed (.fenced call key ownerToken :: log) key c t →
      c = call ∧ t = ownerToken := by
    intro c t hc
    rcases crossed_fenced.1 hc with ⟨hcall, -, htoken⟩ | hc
    · exact ⟨hcall, htoken⟩
    · exact absurd hc (h.not_crossed hclaiming)
  constructor
  · intro c t hc
    obtain ⟨-, rfl⟩ := honly c t hc
    refine ⟨_, rfl, by simp, fun _ => howner⟩
  · intro c t c' t' hc hc'
    obtain ⟨rfl, rfl⟩ := honly c t hc
    obtain ⟨rfl, rfl⟩ := honly c' t' hc'
    exact ⟨rfl, rfl⟩
  · intro r hr hclaim
    obtain rfl := Option.some_inj.1 hr
    cases hclaim
  · intro r _ _
    exact ⟨call, ownerToken, crossed_fenced.2 (Or.inl ⟨rfl, rfl, rfl⟩)⟩
  · intro t payload hstored
    obtain ⟨r, hr, hcompleted⟩ := h.stored t payload (by simpa using hstored)
    rw [hclaiming r hr] at hcompleted
    cases hcompleted
  · intro r hr hcompleted
    obtain rfl := Option.some_inj.1 hr
    cases hcompleted

/-- Fences of another key leave a receipt recorded. -/
theorem Recorded.fence_other {log : List Event} {row : Option EmailSendIdempotencyReceipt}
    {other : ReceiptKey} (h : Recorded iso log other row) (hne : other ≠ key)
    (call ownerToken : String) : Recorded iso (.fenced call key ownerToken :: log) other row := by
  have hsame : ∀ c t, Crossed (.fenced call key ownerToken :: log) other c t ↔
      Crossed log other c t := by
    intro c t
    simp [crossed_fenced, hne]
  obtain ⟨hcrossed, hunique, hclaiming, hpast, hstored, hcompleted⟩ := h
  constructor
  · simpa only [hsame] using hcrossed
  · simpa only [hsame] using hunique
  · exact hclaiming
  · simpa only [hsame] using hpast
  · simpa using hstored
  · simpa [hsame] using hcompleted

theorem CallSound.mono {log : List Event} {event : Event} {c : String} {state : Call}
    (h : CallSound log c state) (hsenders : ∀ k, senders k (event :: log) = senders k log) :
    CallSound (event :: log) c state := by
  cases state with
  | fenced process k t => exact ⟨List.mem_cons_of_mem _ h.1, (hsenders k).trans h.2⟩
  | completing process k t payload =>
    obtain ⟨owner, howner⟩ := h
    exact ⟨owner, List.mem_cons_of_mem _ howner⟩
  | releasing process k t detail =>
    obtain ⟨owner, howner⟩ := h
    exact ⟨owner, List.mem_cons_of_mem _ howner⟩
  | claimed | finalized => trivial

theorem World.Sound.fence (h : w.Sound iso) (call : String) : (w.fence call).Sound iso := by
  unfold World.fence
  split
  next process key ownerToken hcall =>
    split
    next rows hfence =>
      obtain ⟨row, hrow, hstatus, howner, rfl⟩ := fenceSmtpSend_eq_true hfence
      have hrecorded := h.rows key
      rw [hrow] at hrecorded
      have hzero : EmailSend.senders key w.log = 0 := by
        by_contra hne
        obtain ⟨c, t, hc⟩ := (h.senders key).2 hne
        refine absurd hc (hrecorded.not_crossed ?_)
        intro r hr
        rw [← Option.some_inj.1 hr, hstatus]
      constructor
      · intro k
        simp only [World.setCall, World.record, EmailSend.setRow, Function.update_apply]
        split_ifs with hk
        · rw [hk]
          exact hrecorded.fence hstatus howner call
        · exact (h.rows k).fence_other hk call ownerToken
      · intro p k t ht
        obtain ⟨c, hc⟩ := h.owners p k t ht
        exact ⟨c, List.mem_cons_of_mem _ hc⟩
      · intro c state hs
        simp only [World.setCall, World.record, Function.update_apply] at hs
        split_ifs at hs with hc
        · obtain rfl := Option.some_inj.1 hs
          rw [hc]
          exact ⟨crossed_fenced.2 (Or.inl ⟨rfl, rfl, rfl⟩), senders_fenced.trans hzero⟩
        · exact (h.calls c state hs).mono fun _ => senders_fenced
      · intro k
        obtain ⟨hle, hpast⟩ := h.senders k
        refine ⟨senders_fenced.le.trans hle, fun hne => ?_⟩
        obtain ⟨c, t, hc⟩ := hpast (fun hsame => hne (senders_fenced.trans hsame))
        exact ⟨c, t, List.mem_cons_of_mem _ hc⟩
      · exact h.answered
    · apply (h.setCall (by simp)).answer (by simp)
      intro _ _ _
      exact Or.inr (Or.inl rfl)
  · exact h

theorem World.Sound.remember (h : w.Sound iso) (call : String) : (w.remember call).Sound iso := by
  unfold World.remember
  split
  next process key ownerToken hcall =>
    obtain ⟨hcrossed, hzero⟩ := h.calls call _ hcall
    have hset : ((w.setOwner process key (some ownerToken)).setCall call none).Sound iso := by
      apply World.Sound.setCall
      · apply h.setOwner
        intro t ht
        obtain rfl := Option.some_inj.1 ht
        exact ⟨call, hcrossed⟩
      · simp
    constructor
    · intro k
      exact (h.rows k).returned call key .newlyClaimed
    · intro p k t ht
      obtain ⟨c, hc⟩ := hset.owners p k t ht
      exact ⟨c, List.mem_cons_of_mem _ hc⟩
    · intro c state hs
      have hold := hset.calls c state hs
      simp only [World.record, World.setCall, Function.update_apply] at hs
      split_ifs at hs with hc
      cases state with
      | fenced p k t =>
        refine ⟨List.mem_cons_of_mem _ hold.1, ?_⟩
        change EmailSend.senders k (.returned call key .newlyClaimed :: w.log) = 0
        rw [senders_newlyClaimed, if_neg]
        · exact hold.2
        · intro hkey
          rw [← hkey] at hold
          exact hc ((h.rows key).unique _ _ _ _ hold.1 hcrossed).1
      | completing p k t payload =>
        obtain ⟨owner, howner⟩ := hold
        exact ⟨owner, List.mem_cons_of_mem _ howner⟩
      | releasing p k t detail =>
        obtain ⟨owner, howner⟩ := hold
        exact ⟨owner, List.mem_cons_of_mem _ howner⟩
      | claimed | finalized => trivial
    · intro k
      change EmailSend.senders k (.returned call key .newlyClaimed :: w.log) ≤ 1 ∧
        (EmailSend.senders k (.returned call key .newlyClaimed :: w.log) ≠ 0 → _)
      rw [senders_newlyClaimed]
      split_ifs with hk
      · rw [← hk, hzero]
        exact ⟨le_rfl, fun _ => ⟨call, ownerToken, List.mem_cons_of_mem _ hcrossed⟩⟩
      · obtain ⟨hle, hpast⟩ := h.senders k
        refine ⟨hle, fun hne => ?_⟩
        obtain ⟨c, t, hc⟩ := hpast hne
        exact ⟨c, t, List.mem_cons_of_mem _ hc⟩
    · refine ⟨fun owner token howner => Or.inl ⟨rfl, ?_⟩, h.answered⟩
      exact ((h.rows key).unique _ _ _ _ hcrossed howner).1
  · exact h

theorem World.Sound.open (h : w.Sound iso) (call process : String) (key : ReceiptKey)
    {state : String → Call}
    (hstate : ∀ ownerToken, (∃ owner, Crossed w.log key owner ownerToken) →
      CallSound w.log call (state ownerToken)) : (w.open call process key state).Sound iso := by
  unfold World.open
  split
  next ownerToken _ howner =>
    apply h.setCall
    intro c hc
    obtain rfl := Option.some_inj.1 hc
    exact hstate ownerToken (h.owners process key ownerToken howner)
  · exact h

theorem completeSmtpOwned_eq_true {rows rows' : Receipts} {ownerToken : String}
    {resultPayload : Fields}
    (h : completeSmtpOwned rows key ownerToken resultPayload = (true, rows')) :
    ∃ row, rows key = some row ∧ row.status = .sending ∧ claimOwner row = some ownerToken ∧
      rows' = setRow rows key (some ⟨.completed, some resultPayload, none⟩) := by
  unfold completeSmtpOwned at h
  split at h
  · cases h
  next row hrow =>
    split_ifs at h with hstatus howner
    · cases h
    · cases h
    · rw [not_not] at hstatus howner
      exact ⟨row, hrow, hstatus, howner, (Prod.mk.inj h).2.symm⟩

theorem releaseSmtpOwned_eq_true {rows rows' : Receipts} {ownerToken : String}
    {errorDetail : Option String}
    (h : releaseSmtpOwned rows key ownerToken errorDetail = (true, rows')) :
    ∃ row, rows key = some row ∧ claimOwner row = some ownerToken ∧
      (row.status = .claiming ∧ rows' = setRow rows key none ∨ row.status = .sending ∧
        rows' = setRow rows key (some { row with status := .uncertain, errorDetail })) := by
  unfold releaseSmtpOwned at h
  split at h
  · cases h
  next row hrow =>
    split_ifs at h with howner hclaiming hsending
    · cases h
    · rw [not_not] at howner
      exact ⟨row, hrow, howner, Or.inl ⟨hclaiming, (Prod.mk.inj h).2.symm⟩⟩
    · rw [not_not] at howner
      exact ⟨row, hrow, howner, Or.inr ⟨hsending, (Prod.mk.inj h).2.symm⟩⟩
    · cases h

/-- The result that the owner of a fenced receipt stores. -/
theorem Recorded.store {log : List Event} {row : EmailSendIdempotencyReceipt}
    (h : Recorded iso log key (some row)) (hstatus : row.status = .sending) {ownerToken : String}
    (howner : claimOwner row = some ownerToken) (resultPayload : Fields) :
    Recorded iso (.stored key ownerToken resultPayload :: log) key
      (some ⟨.completed, some resultPayload, none⟩) := by
  obtain ⟨c, t, hc⟩ := h.past row rfl (by simp [hstatus])
  obtain ⟨r, hr, -, hclaimed⟩ := h.crossed c t hc
  obtain rfl := Option.some_inj.1 hr
  obtain rfl : ownerToken = t :=
    Option.some_inj.1 (howner.symm.trans (hclaimed (by simp [hstatus])))
  constructor
  · intro c' t' hc'
    exact ⟨_, rfl, by simp, by simp⟩
  · simpa using h.unique
  · intro r hr hclaiming
    obtain rfl := Option.some_inj.1 hr
    cases hclaiming
  · intro r _ _
    exact ⟨c, ownerToken, crossed_stored.2 hc⟩
  · intro t' payload _
    exact ⟨_, rfl, rfl⟩
  · intro r hr _
    obtain rfl := Option.some_inj.1 hr
    exact ⟨c, ownerToken, resultPayload, crossed_stored.2 hc, rfl, List.mem_cons_self⟩

theorem Recorded.store_other {log : List Event} {row : Option EmailSendIdempotencyReceipt}
    {other : ReceiptKey} (h : Recorded iso log other row) (hne : other ≠ key)
    (ownerToken : String) (resultPayload : Fields) :
    Recorded iso (.stored key ownerToken resultPayload :: log) other row := by
  obtain ⟨hcrossed, hunique, hclaiming, hpast, hstored, hcompleted⟩ := h
  constructor
  · simpa using hcrossed
  · simpa using hunique
  · exact hclaiming
  · simpa using hpast
  · simpa [hne] using hstored
  · simpa [hne] using hcompleted

/-- A fenced receipt that its owner gives up. -/
theorem Recorded.giveUp {log : List Event} {row : EmailSendIdempotencyReceipt}
    (h : Recorded iso log key (some row)) (hstatus : row.status = .sending)
    (errorDetail : Option String) :
    Recorded iso log key (some { row with status := .uncertain, errorDetail }) := by
  constructor
  · intro c t hc
    obtain ⟨r, hr, -, hclaimed⟩ := h.crossed c t hc
    obtain rfl := Option.some_inj.1 hr
    exact ⟨_, rfl, by simp, fun _ => hclaimed (by simp [hstatus])⟩
  · exact h.unique
  · intro r hr hclaiming
    obtain rfl := Option.some_inj.1 hr
    cases hclaiming
  · intro r _ _
    exact h.past row rfl (by simp [hstatus])
  · intro t payload hstored
    obtain ⟨r, hr, hcompleted⟩ := h.stored t payload hstored
    obtain rfl := Option.some_inj.1 hr
    rw [hstatus] at hcompleted
    cases hcompleted
  · intro r hr hcompleted
    obtain rfl := Option.some_inj.1 hr
    cases hcompleted

theorem World.Sound.finalize (h : w.Sound iso) (call : String) : (w.finalize call).Sound iso := by
  unfold World.finalize
  split
  next process key ownerToken resultPayload hcall =>
    split
    next rows hcomplete =>
      obtain ⟨row, hrow, hstatus, howner, rfl⟩ := completeSmtpOwned_eq_true hcomplete
      have hrecorded := h.rows key
      rw [hrow] at hrecorded
      have hset : (w.setCall call (some (.finalized process key))).Sound iso := by
        apply h.setCall
        intro c hc
        obtain rfl := Option.some_inj.1 hc
        trivial
      constructor
      · intro k
        simp only [World.setCall, World.record, EmailSend.setRow, Function.update_apply]
        split_ifs with hk
        · rw [hk]
          exact hrecorded.store hstatus howner resultPayload
        · exact (h.rows k).store_other hk ownerToken resultPayload
      · intro p k t ht
        obtain ⟨c, hc⟩ := h.owners p k t ht
        exact ⟨c, crossed_stored.2 hc⟩
      · intro c state hs
        exact (hset.calls c state hs).mono fun _ => senders_stored
      · intro k
        obtain ⟨hle, hpast⟩ := h.senders k
        refine ⟨senders_stored.le.trans hle, fun hne => ?_⟩
        obtain ⟨c, t, hc⟩ := hpast (fun hsame => hne (senders_stored.trans hsame))
        exact ⟨c, t, crossed_stored.2 hc⟩
      · exact h.answered
    · exact h.setCall (by simp)
  next process key ownerToken errorDetail hcall =>
    split
    next rows hrelease =>
      obtain ⟨owner, hcrossed⟩ := h.calls call _ hcall
      obtain ⟨row, hrow, howner, ⟨hstatus, rfl⟩ | ⟨hstatus, rfl⟩⟩ :=
        releaseSmtpOwned_eq_true hrelease
      · obtain ⟨r, hr, hnot, -⟩ := (h.rows key).crossed owner ownerToken hcrossed
        obtain rfl := Option.some_inj.1 (hr.symm.trans hrow)
        exact absurd hstatus hnot
      · have hrecorded := h.rows key
        rw [hrow] at hrecorded
        apply (h.setRow (hrecorded.giveUp hstatus errorDetail)).setCall
        intro c hc
        obtain rfl := Option.some_inj.1 hc
        trivial
    · exact h.setCall (by simp)
  · exact h

theorem World.Sound.forget (h : w.Sound iso) (call : String) : (w.forget call).Sound iso := by
  unfold World.forget
  split
  · exact (h.setOwner _ (by simp)).setCall (by simp)
  · exact h

theorem World.Sound.crash (h : w.Sound iso) (process : String) : (w.crash process).Sound iso := by
  refine ⟨h.rows, fun p k t ht => ?_, fun c state hs => ?_, h.senders, h.answered⟩
  · by_cases hp : p = process
    · simp [World.crash, hp] at ht
    · simp only [World.crash] at ht
      rw [Function.update_of_ne hp] at ht
      exact h.owners p k t ht
  · exact h.calls c state (Option.filter_eq_some_iff.1 hs).1

theorem World.Sound.step (h : w.Sound iso) (a : Action) : (w.step iso a).Sound iso := by
  cases a with
  | claim call process tenantId action idempotencyKey ownerToken now =>
    exact h.claim call process tenantId action idempotencyKey ownerToken now
  | fence call => exact h.fence call
  | remember call => exact h.remember call
  | complete call process key resultPayload => exact h.open call process key fun _ ht => ht
  | release call process key errorDetail => exact h.open call process key fun _ ht => ht
  | finalize call => exact h.finalize call
  | forget call => exact h.forget call
  | fail call => exact h.setCall (by simp)
  | crash process => exact h.crash process

theorem sound_of_run (iso : IsoFormat) (as : List Action) :
    (exec (World.step iso) World.start as).Sound iso :=
  exec_preserves (fun _ a h => h.step a) .start as

/-- The log only grows. -/
theorem mem_log_of_step {event : Event} (h : event ∈ w.log) (a : Action) :
    event ∈ (w.step iso a).log := by
  cases a with
  | claim call process tenantId action idempotencyKey ownerToken now =>
    simp only [World.step, World.claim]
    split_ifs
    · exact h
    · split
      · exact h
      · exact List.mem_cons_of_mem _ h
  | fence call =>
    simp only [World.step, World.fence]
    split
    · split
      · exact List.mem_cons_of_mem _ h
      · exact List.mem_cons_of_mem _ h
    · exact h
  | remember call =>
    simp only [World.step, World.remember]
    split
    · exact List.mem_cons_of_mem _ h
    · exact h
  | complete call process key resultPayload | release call process key errorDetail =>
    simp only [World.step, World.open]
    split
    · exact h
    · exact h
  | finalize call =>
    simp only [World.step, World.finalize]
    split
    · split
      · exact List.mem_cons_of_mem _ h
      · exact h
    · split
      · exact h
      · exact h
    · exact h
  | forget call =>
    simp only [World.step, World.forget]
    split
    · exact h
    · exact h
  | fail call | crash process => exact h

theorem mem_log_of_exec {event : Event} (h : event ∈ w.log) (as : List Action) :
    event ∈ (exec (World.step iso) w as).log :=
  exec_preserves (I := fun w : World => event ∈ w.log) (fun _ a hw => mem_log_of_step hw a) h as

/-- A receipt that has left `claiming` is never deleted and never claimed again. -/
theorem World.Sound.stays (h : w.Sound iso) {row : EmailSendIdempotencyReceipt}
    (hrow : w.rows key = some row) (hstatus : row.status ≠ .claiming) (as : List Action) :
    ∃ row', (exec (World.step iso) w as).rows key = some row' ∧ row'.status ≠ .claiming := by
  obtain ⟨call, ownerToken, hcrossed⟩ := (h.rows key).past row hrow hstatus
  have hsound : (exec (World.step iso) w as).Sound iso :=
    exec_preserves (fun _ a hw => hw.step a) h as
  obtain ⟨row', hrow', hstatus', -⟩ :=
    (hsound.rows key).crossed call ownerToken (mem_log_of_exec hcrossed as)
  exact ⟨row', hrow', hstatus'⟩

/-- The token under which a completion or a release works. -/
def Call.finalizes : Call → Option (ReceiptKey × String)
  | .completing _ key ownerToken _ | .releasing _ key ownerToken _ => some (key, ownerToken)
  | _ => none

/-- A completion or release writes its own key only, for the token that crossed the fence. -/
theorem World.Sound.finalize_owner (h : w.Sound iso)
    (hchanged : (w.finalize call).rows key ≠ w.rows key) :
    ∃ state ownerToken, w.calls call = some state ∧ state.finalizes = some (key, ownerToken) ∧
      ∃ owner, ∀ c t, Crossed w.log key c t ↔ c = owner ∧ t = ownerToken := by
  have honly : ∀ {k owner t}, Crossed w.log k owner t →
      ∃ o, ∀ c t', Crossed w.log k c t' ↔ c = o ∧ t' = t := by
    intro k owner t hcrossed
    refine ⟨owner, fun c t' => ⟨fun hc => (h.rows k).unique _ _ _ _ hc hcrossed, ?_⟩⟩
    rintro ⟨rfl, rfl⟩
    exact hcrossed
  have hother : ∀ {k row}, EmailSend.setRow w.rows k row key ≠ w.rows key → k = key := by
    intro k row hne
    by_contra hk
    exact hne (Function.update_of_ne (Ne.symm hk) _ _)
  unfold World.finalize at hchanged
  split at hchanged
  next process k t payload hcall =>
    obtain ⟨owner, hcrossed⟩ := h.calls call _ hcall
    split at hchanged
    next rows hcomplete =>
      obtain ⟨row, -, -, -, rfl⟩ := completeSmtpOwned_eq_true hcomplete
      obtain rfl := hother hchanged
      exact ⟨_, t, hcall, rfl, honly hcrossed⟩
    · exact absurd rfl hchanged
  next process k t detail hcall =>
    obtain ⟨owner, hcrossed⟩ := h.calls call _ hcall
    split at hchanged
    next rows hrelease =>
      obtain ⟨row, -, -, ⟨-, rfl⟩ | ⟨-, rfl⟩⟩ := releaseSmtpOwned_eq_true hrelease
      · obtain rfl := hother hchanged
        exact ⟨_, t, hcall, rfl, honly hcrossed⟩
      · obtain rfl := hother hchanged
        exact ⟨_, t, hcall, rfl, honly hcrossed⟩
    · exact absurd rfl hchanged
  · exact absurd rfl hchanged

/-- The steps of one claim that no one disturbs. -/
def claimSteps (call process tenantId action idempotencyKey ownerToken : String) (now : ℤ) :
    List Action :=
  [.claim call process tenantId action idempotencyKey ownerToken now, .fence call, .remember call]

/-- A claim that the receipt lets through may send. -/
theorem World.claims {call process tenantId action idempotencyKey ownerToken : String} {now : ℤ}
    (hblank : strip idempotencyKey ≠ "") (htoken : ownerToken ≠ "") (hcall : w.calls call = none)
    (hclaim : tryClaimSmtp iso w.rows ⟨tenantId, action, strip idempotencyKey⟩ ownerToken now 300 =
      (.newlyClaimed, EmailSend.setRow w.rows ⟨tenantId, action, strip idempotencyKey⟩
        (some ⟨.claiming, some (claimMetadata iso ownerToken (now + timedelta 300)), none⟩))) :
    Event.returned call ⟨tenantId, action, strip idempotencyKey⟩ .newlyClaimed ∈
      (exec (World.step iso) w
        (claimSteps call process tenantId action idempotencyKey ownerToken now)).log := by
  simp [claimSteps, World.step, World.claim, World.fence, World.remember, World.setCall,
    World.record, World.setOwner, hblank, hcall, hclaim, fenceSmtpSend, EmailSend.setRow, htoken]

/-- A key without a receipt is newly claimed. -/
theorem World.claims_fresh {call process tenantId action idempotencyKey ownerToken : String}
    {now : ℤ} (hfresh : w.rows ⟨tenantId, action, strip idempotencyKey⟩ = none)
    (hblank : strip idempotencyKey ≠ "") (htoken : ownerToken ≠ "")
    (hcall : w.calls call = none) :
    Event.returned call ⟨tenantId, action, strip idempotencyKey⟩ .newlyClaimed ∈
      (exec (World.step iso) w
        (claimSteps call process tenantId action idempotencyKey ownerToken now)).log :=
  World.claims hblank htoken hcall (by simp [tryClaimSmtp, hfresh])

example : Event.returned "call" ⟨"acme", "send", strip "key"⟩ .newlyClaimed ∈
    (exec (World.step strokeFormat) World.start
      (claimSteps "call" "process" "acme" "send" "key" "owner" 0)).log :=
  World.claims_fresh rfl (by decide) (by decide) rfl

/-- A claim that never crossed the fence is taken over once its lease has expired. -/
theorem World.Sound.takeOver (h : w.Sound iso) {row : EmailSendIdempotencyReceipt}
    (hrow : w.rows key = some row) (hstatus : row.status = .claiming) :
    ∃ expiresAt, claimExpiry iso row = some expiresAt ∧
      ∀ call process tenantId action idempotencyKey ownerToken now,
        key = ⟨tenantId, action, strip idempotencyKey⟩ → strip idempotencyKey ≠ "" →
        ownerToken ≠ "" → w.calls call = none → expiresAt ≤ now →
          Event.returned call key .newlyClaimed ∈ (exec (World.step iso) w
            (claimSteps call process tenantId action idempotencyKey ownerToken now)).log := by
  obtain ⟨t, expiresAt, hpayload⟩ := (h.rows key).claiming row hrow hstatus
  obtain ⟨status, payload, detail⟩ := row
  obtain rfl : payload = some (claimMetadata iso t expiresAt) := hpayload
  obtain rfl : status = .claiming := hstatus
  refine ⟨expiresAt, claimExpiry_claimMetadata .., ?_⟩
  rintro call process tenantId action idempotencyKey ownerToken now rfl hblank htoken hcall hnow
  exact World.claims hblank htoken hcall (by simp [tryClaimSmtp, hrow, not_lt.2 hnow])

end Soundness

/-- The guarantees of claim-before-send in every run. -/
theorem smtp_send_at_most_once (iso : IsoFormat) (as : List Action) :
    let w := exec (World.step iso) World.start as
    (∀ key, senders key w.log ≤ 1) ∧ Answered w.log ∧
      (∀ key row, w.rows key = some row → row.status ≠ .claiming → ∀ bs, ∃ row',
        (exec (World.step iso) w bs).rows key = some row' ∧ row'.status ≠ .claiming) ∧
      (∀ call key, (w.step iso (.finalize call)).rows key ≠ w.rows key →
        ∃ state ownerToken, w.calls call = some state ∧
          state.finalizes = some (key, ownerToken) ∧
          ∃ owner, ∀ c t, Crossed w.log key c t ↔ c = owner ∧ t = ownerToken) ∧
      ∀ key row, w.rows key = some row → row.status = .claiming →
        ∃ expiresAt, claimExpiry iso row = some expiresAt ∧
          ∀ call process tenantId action idempotencyKey ownerToken now,
            key = ⟨tenantId, action, strip idempotencyKey⟩ → strip idempotencyKey ≠ "" →
            ownerToken ≠ "" → w.calls call = none → expiresAt ≤ now →
              Event.returned call key .newlyClaimed ∈ (exec (World.step iso) w
                (claimSteps call process tenantId action idempotencyKey ownerToken now)).log := by
  intro w
  have hsound : w.Sound iso := sound_of_run iso as
  refine ⟨fun key => (hsound.senders key).1, hsound.answered, ?_, ?_, ?_⟩
  · intro key row hrow hstatus bs
    exact hsound.stays hrow hstatus bs
  · intro call key hchanged
    exact hsound.finalize_owner hchanged
  · intro key row hrow hstatus
    exact hsound.takeOver hrow hstatus

end Ajenda.EmailSend
