import Ajenda.NeedTransactions
import Ajenda.RevisionChains

/-!
# Need revisions form one chain

Every transaction sees a chain, and no two transactions have uncommitted revisions of one need: the
row that was read is still the last one of its need when the key after it is free.
-/
namespace Ajenda.NeedTransactions
open NeedRecognition (Text NeedValues)
open RevisionChains TransitionSystem

section Invariant
variable {τ : Type}

def needLayout : Layout BusinessNeedRevision Text ℕ :=
  ⟨(·.needId), (·.revision), (·.id), (·.previousRevisionId)⟩

/-- What a transaction sees with this work, now or at a savepoint. -/
structure WorkOk (needs : List BusinessNeedRevision) (work : Work) : Prop where
  chain : Chain needLayout (needs ++ work.needs)
  evaluated : ∀ e ∈ work.evaluated, ∃ row ∈ needs ++ work.needs,
    row.id = e.2 ∧ row.impactOf = some e.1

/-- The call is for the revision that its pairing names. -/
def PairedOk (pairings : List BusinessMeasurementPairing) (a : Append) : Prop :=
  ∀ pairingId, a.impactOf = some pairingId → ∃ p, pairings[pairingId]? = some p ∧
    a.needId = p.needId ∧ a.expectedRevision = p.needRevision

/-- The row records the impact of a pairing of the revision before it. -/
def ImpactOk (pairings : List BusinessMeasurementPairing) (row : BusinessNeedRevision) : Prop :=
  ∀ pairingId, row.impactOf = some pairingId → ∃ p, pairings[pairingId]? = some p ∧
    row.needId = p.needId ∧ row.revision = p.needRevision + 1

/-- What a transaction knows where it stands. -/
def StageOk (needs : List BusinessNeedRevision) (pairings : List BusinessMeasurementPairing)
    (tx : Transaction) : Prop :=
  match tx.stage with
  | .idle => True
  | .called a => a.before = tx.work.needs ∧ PairedOk pairings a
  | .selected a latest | .locked a latest => a.before = tx.work.needs ∧ PairedOk pairings a ∧
      ∀ row, latest = some row → row ∈ needs ++ tx.work.needs ∧ row.needId = a.needId
  | .refused a => a.before = tx.work.needs ∧ PairedOk pairings a ∧
      ∃ q ∈ needs ++ tx.work.needs, q.needId = a.needId
  | .appended pairingId row => row ∈ tx.work.needs ∧ row.impactOf = some pairingId

/-- A returned call has a row of the next revision, which is committed, pending or undone; one that
raised found a conflict and wrote nothing. -/
def ReturnedOk (w : World τ) (c : Returned τ) : Prop :=
  match c.result with
  | .ok row => row.needId = c.append.needId ∧ row.revision = c.append.expectedRevision + 1 ∧
      (row ∈ w.needs ∨ row ∈ w.own c.transaction ∨ row.id ∈ w.undone)
  | .error e => (∃ current, e = .conflict c.append.expectedRevision current) ∧
      c.after = c.append.before

def Returned.rowId (c : Returned τ) : Option ℕ :=
  match c.result with
  | .ok row => some row.id
  | .error _ => none

structure World.Sound (w : World τ) : Prop where
  works : ∀ t, ∀ work ∈ (w.transactions t).work :: (w.transactions t).savepoints,
    WorkOk w.needs work
  stack : ∀ t, ((w.transactions t).work :: (w.transactions t).savepoints).Pairwise
    fun a b => b.needs <+: a.needs
  apart : ∀ t t', t ≠ t' → ∀ r ∈ w.own t, ∀ q ∈ w.own t', r.needId ≠ q.needId
  stages : ∀ t, StageOk w.needs w.pairings (w.transactions t)
  impacts : ∀ t, ∀ row ∈ w.visible t, ImpactOk w.pairings row
  bound : ∀ pairingId p, w.pairings[pairingId]? = some p → ∀ rowId, p.impactRevisionId = some rowId →
    ∃ row ∈ w.needs, row.id = rowId ∧ row.impactOf = some pairingId
  returned : ∀ c ∈ w.returned, ReturnedOk w c
  ordered : (w.returned.filterMap Returned.rowId).Pairwise (· < ·)
  below : ∀ id ∈ w.returned.filterMap Returned.rowId, id < w.next

theorem ReturnedOk.mono {w w' : World τ} {c : Returned τ} (h : ReturnedOk w c)
    (hkept : ∀ row : BusinessNeedRevision,
      row ∈ w.needs ∨ row ∈ w.own c.transaction ∨ row.id ∈ w.undone →
        row ∈ w'.needs ∨ row ∈ w'.own c.transaction ∨ row.id ∈ w'.undone) : ReturnedOk w' c := by
  unfold ReturnedOk at h ⊢
  split
  next row hresult =>
    rw [hresult] at h
    exact ⟨h.1, h.2.1, hkept row h.2.2⟩
  next e hresult =>
    rw [hresult] at h
    exact h

theorem World.Sound.start : (World.start τ).Sound where
  works _ work hwork := by
    obtain rfl : work = ⟨[], [], []⟩ := by simpa [World.start, Transaction.fresh] using hwork
    exact ⟨Chain.nil, fun _ h => absurd h List.not_mem_nil⟩
  stack _ := List.pairwise_singleton _ _
  apart _ _ _ r hr := by simp [World.own, World.start, Transaction.fresh] at hr
  stages _ := trivial
  impacts _ r hr := by simp [World.visible, World.own, World.start, Transaction.fresh] at hr
  bound _ _ h := by simp [World.start] at h
  returned _ h := absurd h List.not_mem_nil
  ordered := List.Pairwise.nil
  below _ h := absurd h List.not_mem_nil

end Invariant

section Updates
variable {τ : Type} [DecidableEq τ] {w : World τ} {t : τ} {tx : Transaction}

theorem transactions_set (t' : τ) :
    (w.set t tx).transactions t' = if t' = t then tx else w.transactions t' := by
  simp [World.set, Function.update_apply]

theorem own_set (t' : τ) : (w.set t tx).own t' = if t' = t then tx.work.needs else w.own t' := by
  rw [World.own, transactions_set]
  split_ifs
  · rfl
  · rfl

/-- Another state of one transaction. -/
theorem World.Sound.set (h : w.Sound)
    (hworks : ∀ work ∈ tx.work :: tx.savepoints, WorkOk w.needs work)
    (hstack : (tx.work :: tx.savepoints).Pairwise fun a b => b.needs <+: a.needs)
    (hapart : ∀ t', t' ≠ t → ∀ r ∈ tx.work.needs, ∀ q ∈ w.own t', r.needId ≠ q.needId)
    (hstage : StageOk w.needs w.pairings tx) (himpacts : ∀ row ∈ tx.work.needs, ImpactOk w.pairings row)
    (hkept : ∀ row ∈ w.own t, row ∈ tx.work.needs ∨ row.id ∈ w.undone) : (w.set t tx).Sound where
  works t' := by
    rw [transactions_set]
    split_ifs
    · exact hworks
    · exact h.works t'
  stack t' := by
    rw [transactions_set]
    split_ifs
    · exact hstack
    · exact h.stack t'
  apart t₁ t₂ hne r hr q hq := by
    rw [own_set] at hr hq
    split_ifs at hr hq with h₁ h₂ h₂
    · exact absurd (h₁.trans h₂.symm) hne
    · exact hapart t₂ h₂ r hr q hq
    · exact (hapart t₁ h₁ q hq r hr).symm
    · exact h.apart t₁ t₂ hne r hr q hq
  stages t' := by
    rw [transactions_set]
    split_ifs
    · exact hstage
    · exact h.stages t'
  impacts t' row hrow := by
    rw [World.visible, own_set] at hrow
    rcases List.mem_append.1 hrow with hrow | hrow
    · exact h.impacts t' row (List.mem_append_left _ hrow)
    · split_ifs at hrow
      · exact himpacts row hrow
      · exact h.impacts t' row (List.mem_append_right _ hrow)
  bound := h.bound
  returned c hc := by
    refine (h.returned c hc).mono fun row hplace => ?_
    rcases hplace with hplace | hplace | hplace
    · exact .inl hplace
    · rw [own_set]
      split_ifs with ht
      · rw [ht] at hplace
        exact .inr (hkept row hplace)
      · exact .inr (.inl hplace)
    · exact .inr (.inr hplace)
  ordered := h.ordered
  below := h.below

/-- A new stage alone. -/
theorem World.Sound.enter (h : w.Sound) {stage : Stage}
    (hstage : StageOk w.needs w.pairings { w.transactions t with stage := stage }) :
    (w.enter t stage).Sound :=
  h.set (h.works t) (h.stack t) (fun t' hne => h.apart t t' hne.symm) hstage
    (fun row hrow => h.impacts t row (List.mem_append_right _ hrow)) fun _ hrow => .inl hrow

omit [DecidableEq τ] in
theorem World.Sound.undo (h : w.Sound) (rows : List BusinessNeedRevision) : (w.undo rows).Sound where
  works := h.works
  stack := h.stack
  apart := h.apart
  stages := h.stages
  impacts := h.impacts
  bound := h.bound
  returned c hc := (h.returned c hc).mono fun _ hplace =>
    hplace.imp_right fun hplace => hplace.imp_right fun hplace => List.mem_append_left _ hplace
  ordered := h.ordered
  below := h.below

omit [DecidableEq τ] in
/-- A call returns or raises. -/
theorem World.Sound.returns (h : w.Sound) {c : Returned τ} (hc : ReturnedOk w c)
    (hid : ∀ id, c.rowId = some id →
      (∀ i ∈ w.returned.filterMap Returned.rowId, i < id) ∧ id < w.next) :
    ({ w with returned := w.returned ++ [c] } : World τ).Sound where
  works := h.works
  stack := h.stack
  apart := h.apart
  stages := h.stages
  impacts := h.impacts
  bound := h.bound
  returned c' hc' := by
    rcases List.mem_append.1 hc' with hc' | hc'
    · exact h.returned c' hc'
    · obtain rfl := List.mem_singleton.1 hc'
      exact hc
  ordered := by
    rw [List.filterMap_append, List.pairwise_append]
    refine ⟨h.ordered, ?_, fun i hi j hj => ?_⟩
    · cases hrow : c.rowId <;> simp [hrow]
    · have hj' : c.rowId = some j := by simpa using hj
      exact (hid j hj').1 i hi
  below id hmem := by
    rw [List.filterMap_append, List.mem_append] at hmem
    rcases hmem with hmem | hmem
    · exact h.below id hmem
    · exact (hid id (by simpa using hmem)).2

theorem World.Sound.takeLock (h : w.Sound) {resource : Resource} {stage : Stage}
    (hstage : StageOk w.needs w.pairings { w.transactions t with stage := stage }) :
    (w.takeLock t resource stage).Sound := by
  have hworks := h.works t
  have hstack := h.stack t
  refine h.set (fun work hwork => ?_) ?_ (fun t' hne => h.apart t t' hne.symm) ?_
    (fun row hrow => h.impacts t row (List.mem_append_right _ hrow)) fun _ hrow => .inl hrow
  · rcases List.mem_cons.1 hwork with rfl | hwork
    · have hown := hworks _ List.mem_cons_self
      exact ⟨hown.chain, hown.evaluated⟩
    · exact hworks work (List.mem_cons_of_mem _ hwork)
  · rw [List.pairwise_cons] at hstack ⊢
    exact hstack
  · unfold StageOk at hstage ⊢
    exact hstage

theorem World.Sound.rollbackTo (h : w.Sound) : (w.rollbackTo t).Sound := by
  unfold World.rollbackTo
  split
  next => exact h
  next saved rest hsaved =>
    have hworks := h.works t
    have hstack := h.stack t
    rw [hsaved] at hworks hstack
    rw [List.pairwise_cons] at hstack
    have hinitial : saved.needs <+: w.own t := hstack.1 saved List.mem_cons_self
    refine (h.undo _).set ?_ hstack.2 (fun t' hne r hr => ?_) trivial (fun row hrow => ?_)
      fun row hrow => ?_
    · exact fun work hwork => hworks work (List.mem_cons_of_mem _ hwork)
    · exact h.apart t t' hne.symm r (hinitial.subset hr)
    · exact h.impacts t row (List.mem_append_right _ (hinitial.subset hrow))
    · obtain ⟨later, hlater⟩ := hinitial
      have hrow' : row ∈ w.own t := hrow
      rw [← hlater, List.mem_append] at hrow'
      refine hrow'.imp_right fun hdropped => List.mem_append_right _ ?_
      rw [← hlater, List.drop_left]
      exact List.mem_map_of_mem hdropped

theorem World.Sound.release (h : w.Sound) : (w.release t).Sound := by
  have hworks := h.works t
  have hstack := h.stack t
  rw [List.pairwise_cons] at hstack
  refine h.set (fun work hwork => ?_) ?_ (fun t' hne => h.apart t t' hne.symm) trivial
    (fun row hrow => h.impacts t row (List.mem_append_right _ hrow)) fun _ hrow => .inl hrow
  · rcases List.mem_cons.1 hwork with rfl | hwork
    · exact hworks _ List.mem_cons_self
    · exact hworks work (List.mem_cons_of_mem _ (List.mem_of_mem_tail hwork))
  · exact List.pairwise_cons.2 ⟨fun work hwork => hstack.1 work (List.mem_of_mem_tail hwork),
      hstack.2.tail⟩

theorem World.Sound.savepoint (h : w.Sound) {stage : Stage}
    (hstage : StageOk w.needs w.pairings { w.transactions t with stage := stage }) :
    (w.savepoint t stage).Sound := by
  have hworks := h.works t
  have hstack := h.stack t
  refine h.set (fun work hwork => ?_) ?_ (fun t' hne => h.apart t t' hne.symm) ?_
    (fun row hrow => h.impacts t row (List.mem_append_right _ hrow)) fun _ hrow => .inl hrow
  · rcases List.mem_cons.1 hwork with rfl | hwork
    · exact hworks _ List.mem_cons_self
    · exact hworks work hwork
  · refine List.pairwise_cons.2 ⟨fun work hwork => ?_, hstack⟩
    rcases List.mem_cons.1 hwork with rfl | hwork
    · exact List.prefix_refl _
    · exact (List.pairwise_cons.1 hstack).1 work hwork
  · unfold StageOk at hstage ⊢
    exact hstage

/-- A call that raises a conflict. -/
theorem World.Sound.raises (h : w.Sound) {a : Append} {current : ℕ} (hbefore : a.before = w.own t) :
    (w.finish t a (.error (.conflict a.expectedRevision current))).Sound := by
  have hreturned := h.returns
    (c := ⟨t, a, w.own t, .error (.conflict a.expectedRevision current)⟩)
    ⟨⟨current, rfl⟩, hbefore.symm⟩ (fun id hid => by cases hid)
  unfold World.finish
  cases a.impactOf with
  | none => exact hreturned.enter trivial
  | some pairingId => exact hreturned.rollbackTo

end Updates

section Ends
variable {τ : Type} [DecidableEq τ] {w : World τ} {t : τ}

theorem evaluatePairings_get (evaluated : List (ℕ × ℕ))
    (pairings : List BusinessMeasurementPairing) (pairingId : ℕ) :
    (evaluatePairings evaluated pairings)[pairingId]? = (pairings[pairingId]?).map fun p =>
      { p with impactRevisionId :=
        ((evaluated.reverse.find? (·.1 = pairingId)).map (·.2)).or p.impactRevisionId } := by
  induction evaluated generalizing pairings with
  | nil => simp [evaluatePairings]
  | cons e evaluated ih =>
    have hstep : evaluatePairings (e :: evaluated) pairings = evaluatePairings evaluated
        (pairings.modify e.1 fun p => { p with impactRevisionId := some e.2 }) := rfl
    rw [hstep, ih, List.getElem?_modify, List.reverse_cons, List.find?_append]
    cases pairings[pairingId]? with
    | none => simp
    | some p =>
      by_cases he : e.1 = pairingId
      · cases evaluated.reverse.find? (·.1 = pairingId) <;> simp [he]
      · cases evaluated.reverse.find? (·.1 = pairingId) <;> simp [he]

/-- The pairings keep what they are for. -/
def SamePairings (pairings pairings' : List BusinessMeasurementPairing) : Prop :=
  ∀ (pairingId : ℕ) (p : BusinessMeasurementPairing), pairings[pairingId]? = some p →
    ∃ p' : BusinessMeasurementPairing, pairings'[pairingId]? = some p' ∧
      p'.needId = p.needId ∧ p'.needRevision = p.needRevision

theorem evaluatePairings_same (evaluated : List (ℕ × ℕ))
    (pairings : List BusinessMeasurementPairing) :
    SamePairings pairings (evaluatePairings evaluated pairings) := by
  intro pairingId p hp
  rw [evaluatePairings_get, hp]
  exact ⟨_, rfl, rfl, rfl⟩

section Same
variable {pairings pairings' : List BusinessMeasurementPairing}
  {needs needs' : List BusinessNeedRevision}

theorem ImpactOk.mono {row : BusinessNeedRevision} (h : ImpactOk pairings row)
    (hsame : SamePairings pairings pairings') : ImpactOk pairings' row := by
  intro pairingId hid
  obtain ⟨p, hp, hneed, hrevision⟩ := h pairingId hid
  obtain ⟨p', hp', hneed', hrevision'⟩ := hsame pairingId p hp
  exact ⟨p', hp', hneed.trans hneed'.symm, by omega⟩

theorem PairedOk.mono {a : Append} (h : PairedOk pairings a)
    (hsame : SamePairings pairings pairings') : PairedOk pairings' a := by
  intro pairingId hid
  obtain ⟨p, hp, hneed, hrevision⟩ := h pairingId hid
  obtain ⟨p', hp', hneed', hrevision'⟩ := hsame pairingId p hp
  exact ⟨p', hp', hneed.trans hneed'.symm, hrevision.trans hrevision'.symm⟩

theorem StageOk.mono {tx : Transaction} (h : StageOk needs pairings tx)
    (hneeds : needs ⊆ needs') (hsame : SamePairings pairings pairings') :
    StageOk needs' pairings' tx := by
  have hvisible : ∀ row ∈ needs ++ tx.work.needs, row ∈ needs' ++ tx.work.needs := by
    intro row hrow
    rw [List.mem_append] at hrow ⊢
    exact hrow.imp_left fun hrow => hneeds hrow
  unfold StageOk at h ⊢
  split
  next => trivial
  next a hstage =>
    rw [hstage] at h
    exact ⟨h.1, h.2.mono hsame⟩
  next a latest hstage =>
    rw [hstage] at h
    exact ⟨h.1, h.2.1.mono hsame, fun row hrow =>
      ⟨hvisible row (h.2.2 row hrow).1, (h.2.2 row hrow).2⟩⟩
  next a latest hstage =>
    rw [hstage] at h
    exact ⟨h.1, h.2.1.mono hsame, fun row hrow =>
      ⟨hvisible row (h.2.2 row hrow).1, (h.2.2 row hrow).2⟩⟩
  next a hstage =>
    rw [hstage] at h
    obtain ⟨hbefore, hpaired, q, hq, hneed⟩ := h
    exact ⟨hbefore, hpaired.mono hsame, q, hvisible q hq, hneed⟩
  next pairingId row hstage =>
    rw [hstage] at h
    exact h

end Same

omit [DecidableEq τ] in
theorem World.Sound.accept (h : w.Sound) (needId : Text) (needRevision needRevisionId : ℕ) :
    ({ w with pairings := w.pairings ++ [⟨needId, needRevision, needRevisionId, none⟩] } :
      World τ).Sound := by
  have hsame : SamePairings w.pairings
      (w.pairings ++ [⟨needId, needRevision, needRevisionId, none⟩]) := by
    intro pairingId p hp
    have hlt : pairingId < w.pairings.length := (List.getElem?_eq_some_iff.1 hp).1
    exact ⟨p, by rwa [List.getElem?_append_left hlt], rfl, rfl⟩
  refine ⟨h.works, h.stack, h.apart, fun t => (h.stages t).mono (List.Subset.refl _) hsame,
    fun t row hrow => (h.impacts t row hrow).mono hsame, fun pairingId p hp rowId hid => ?_,
    h.returned, h.ordered, h.below⟩
  rcases lt_or_ge pairingId w.pairings.length with hlt | hge
  · rw [List.getElem?_append_left hlt] at hp
    exact h.bound pairingId p hp rowId hid
  · rw [List.getElem?_append_right hge] at hp
    have hmem := List.mem_of_getElem? hp
    obtain rfl := List.mem_singleton.1 hmem
    cases hid

theorem World.Sound.rollback (h : w.Sound) : (w.rollback t).Sound := by
  have hwork := h.works t _ List.mem_cons_self
  refine (h.undo _).set (fun work hmem => ?_) (List.pairwise_singleton _ _)
    (fun _ _ r hr => absurd hr List.not_mem_nil) trivial (fun r hr => absurd hr List.not_mem_nil)
    fun row hrow => .inr (List.mem_append_right _ (List.mem_map_of_mem hrow))
  obtain rfl : work = ⟨[], [], []⟩ := by simpa [Transaction.fresh] using hmem
  refine ⟨hwork.chain.of_prefix ?_, fun _ hmem => absurd hmem List.not_mem_nil⟩
  rw [List.append_nil]
  exact List.prefix_append _ _

/-- The rows of a transaction become committed rows. -/
theorem World.Sound.commit (h : w.Sound) : (w.commit t).Sound := by
  have hown := h.works t _ List.mem_cons_self
  have hsame := evaluatePairings_same (w.transactions t).work.evaluated w.pairings
  have hsubset : w.needs ⊆ w.needs ++ w.own t := List.subset_append_left _ _
  have htransactions : ∀ t', (w.commit t).transactions t' =
      if t' = t then .fresh else w.transactions t' := fun t' => transactions_set t'
  have howns : ∀ t', (w.commit t).own t' = if t' = t then [] else w.own t' := fun t' => own_set t'
  refine ⟨fun t' work hwork => ?_, fun t' => ?_, fun t₁ t₂ hne r hr q hq => ?_, fun t' => ?_,
    fun t' row hrow => ?_, fun pairingId p hp rowId hid => ?_, fun c hc => ?_, h.ordered, h.below⟩
  · rw [htransactions] at hwork
    split_ifs at hwork with ht
    · obtain rfl : work = ⟨[], [], []⟩ := by simpa [Transaction.fresh] using hwork
      refine ⟨?_, fun _ hmem => absurd hmem List.not_mem_nil⟩
      rw [List.append_nil]
      exact hown.chain
    · have hwork' := h.works t' work hwork
      have hinitial : work.needs <+: w.own t' := by
        have hstack := List.pairwise_cons.1 (h.stack t')
        rcases List.mem_cons.1 hwork with rfl | hsaved
        · exact List.prefix_refl _
        · exact hstack.1 work hsaved
      refine ⟨hown.chain.merge hwork'.chain fun r hr q hq => ?_, fun e he => ?_⟩
      · exact h.apart t t' (Ne.symm ht) r hr q (hinitial.subset hq)
      · obtain ⟨row, hrow, hrow'⟩ := hwork'.evaluated e he
        refine ⟨row, ?_, hrow'⟩
        rw [List.mem_append] at hrow ⊢
        exact hrow.imp_left fun hrow => hsubset hrow
  · rw [htransactions]
    split_ifs
    · exact List.pairwise_singleton _ _
    · exact h.stack t'
  · rw [howns] at hr hq
    split_ifs at hr hq
    · cases hr
    · cases hr
    · cases hq
    · exact h.apart t₁ t₂ hne r hr q hq
  · rw [htransactions]
    split_ifs
    · trivial
    · exact (h.stages t').mono hsubset hsame
  · have hplace : row ∈ w.visible t ∨ row ∈ w.visible t' := by
      rw [World.visible, howns] at hrow
      rcases List.mem_append.1 hrow with hrow | hrow
      · exact .inl hrow
      · split_ifs at hrow
        · cases hrow
        · exact .inr (List.mem_append_right _ hrow)
    rcases hplace with hplace | hplace
    · exact (h.impacts t row hplace).mono hsame
    · exact (h.impacts t' row hplace).mono hsame
  · have hget : (evaluatePairings (w.transactions t).work.evaluated w.pairings)[pairingId]? =
        some p := hp
    rw [evaluatePairings_get, Option.map_eq_some_iff] at hget
    obtain ⟨p₀, hp₀, rfl⟩ := hget
    cases hfind : (w.transactions t).work.evaluated.reverse.find? (·.1 = pairingId) with
    | none =>
      simp only [hfind, Option.map_none, Option.none_or] at hid
      obtain ⟨row, hrow, hrow'⟩ := h.bound pairingId p₀ hp₀ rowId hid
      exact ⟨row, hsubset hrow, hrow'⟩
    | some e =>
      simp only [hfind, Option.map_some, Option.some_or, Option.some_inj] at hid
      have hmem := List.mem_reverse.1 (List.mem_of_find?_eq_some hfind)
      have hkey : e.1 = pairingId := by simpa using List.find?_some hfind
      obtain ⟨row, hrow, hrowId, himpact⟩ := hown.evaluated e hmem
      exact ⟨row, hrow, hrowId.trans hid, by rw [himpact, hkey]⟩
  · refine (h.returned c hc).mono fun row hplace => ?_
    rcases hplace with hplace | hplace | hplace
    · exact .inl (hsubset hplace)
    · rw [howns]
      split_ifs with ht
      · rw [ht] at hplace
        exact .inl (List.mem_append_right _ hplace)
      · exact .inr (.inl hplace)
    · exact .inr (.inr hplace)

end Ends

section Calls
variable {τ : Type} [DecidableEq τ] {w : World τ} {t : τ}

theorem latest_some {rows : List BusinessNeedRevision} {needId : Text}
    {row : BusinessNeedRevision} (h : latest rows needId = some row) :
    row ∈ rows ∧ row.needId = needId := by
  have hmem := List.argmax_mem h
  simpa using hmem

theorem latest_none {rows : List BusinessNeedRevision} {needId : Text}
    (h : latest rows needId = none) : ∀ q ∈ rows, q.needId ≠ needId := by
  rw [latest, List.argmax_eq_none, List.filter_eq_nil_iff] at h
  intro q hq
  simpa using h q hq

theorem taken_iff {rows : List BusinessNeedRevision} {needId : Text} {revision : ℕ} :
    taken rows needId revision = true ↔
      ∃ q ∈ rows, q.needId = needId ∧ q.revision = revision := by
  simp [taken]

theorem World.Sound.select (h : w.Sound) : (w.select t).Sound := by
  have hstage := h.stages t
  unfold World.select
  split
  next a hcalled =>
    simp only [StageOk, hcalled] at hstage
    exact h.enter ⟨hstage.1, hstage.2, fun row hrow => latest_some hrow⟩
  next => exact h

variable [Fintype τ]

theorem World.Sound.lock (h : w.Sound) : (w.lock t).Sound := by
  have hstage := h.stages t
  unfold World.lock
  split
  next a hselected =>
    simp only [StageOk, hselected] at hstage
    exact h.enter hstage
  next a row hselected =>
    simp only [StageOk, hselected] at hstage
    split_ifs
    · exact h.takeLock hstage
    · exact h
  next => exact h

/-- The transaction after an insert and the return of its call. -/
def Transaction.inserted (tx : Transaction) (a : Append) (row : BusinessNeedRevision) :
    Transaction :=
  ⟨{ tx.work with needs := tx.work.needs ++ [row] }, tx.savepoints,
    (a.impactOf.map fun pairingId => Stage.appended pairingId row).getD .idle⟩

omit [Fintype τ] in
theorem insert_finish {a : Append} {row : BusinessNeedRevision} :
    (w.insert t row).finish t a (.ok row) =
      { w.set t ((w.transactions t).inserted a row) with
        next := w.next + 1
        returned := w.returned ++ [⟨t, a, w.own t ++ [row], .ok row⟩] } := by
  have hown : (w.insert t row).own t = w.own t ++ [row] := by
    simp [World.insert, World.own, World.set]
  unfold World.finish
  rw [hown]
  cases himpact : a.impactOf <;>
    simp [Transaction.inserted, World.insert, World.enter, World.set, himpact]

/-- The insert continues the chain of its transaction, and no other has rows of its need. -/
theorem inserted_chain (h : w.Sound) {a : Append} {latest : Option BusinessNeedRevision}
    (hlatest : ∀ row, latest = some row → row ∈ w.visible t ∧ row.needId = a.needId)
    (hawaited : w.awaited t (nextRow w.next a latest) = false)
    (htaken : taken (w.visible t) a.needId (nextRow w.next a latest).revision = false) :
    Chain needLayout (w.visible t ++ [nextRow w.next a latest]) ∧
      ∀ t', t' ≠ t → ∀ q ∈ w.own t', a.needId ≠ q.needId := by
  have hchain : ∀ t', Chain needLayout (w.visible t') := fun t' =>
    (h.works t' _ List.mem_cons_self).chain
  have hfree : ∀ q ∈ w.visible t, q.needId = a.needId →
      q.revision ≠ (nextRow w.next a latest).revision := by
    intro q hq hneed hrevision
    rw [← Bool.not_eq_true, taken_iff] at htaken
    exact htaken ⟨q, hq, hneed, hrevision⟩
  refine ⟨(hchain t).append_row (fun q hq hkey => hfree q hq hkey) ?_, fun t' hne q hq hneed => ?_⟩
  · cases latest with
    | none => exact .inl ⟨rfl, rfl⟩
    | some last =>
      obtain ⟨hmem, hneed⟩ := hlatest last rfl
      exact .inr ⟨last, hmem, hneed, rfl, rfl⟩
  -- another transaction with rows of the need has the very key, or it is committed
  · have hvisible : q ∈ w.visible t' := List.mem_append_right _ hq
    have hle : (nextRow w.next a latest).revision ≤ q.revision := by
      cases hl : latest with
      | none => exact (hchain t').number_pos hvisible
      | some last =>
        obtain ⟨hmem, hlast⟩ := hlatest last hl
        rcases List.mem_append.1 hmem with hmem | hmem
        · exact (hchain t').lt_of_append hmem hq (hneed.symm.trans hlast.symm)
        · exact absurd (hlast.trans hneed) (h.apart t t' hne.symm last hmem q hq)
    obtain ⟨q', hq', hkey, hnumber⟩ := (hchain t').exists_of_le hvisible (Nat.succ_pos _) hle
    have hneed' : q'.needId = a.needId := hkey.trans hneed.symm
    rcases List.mem_append.1 hq' with hq' | hq'
    · exact hfree q' (List.mem_append_left _ hq') hneed' hnumber
    · rw [World.awaited, decide_eq_false_iff_not] at hawaited
      exact hawaited ⟨t', hne, taken_iff.2 ⟨q', hq', hneed', hnumber⟩⟩

omit [Fintype τ] in
/-- A row that continues the chain is inserted. -/
theorem World.Sound.inserted (h : w.Sound) {a : Append} {row : BusinessNeedRevision}
    (hchain : Chain needLayout (w.visible t ++ [row]))
    (hapart : ∀ t', t' ≠ t → ∀ q ∈ w.own t', row.needId ≠ q.needId)
    (himpact : ImpactOk w.pairings row) (hsame : row.impactOf = a.impactOf) :
    (w.set t ((w.transactions t).inserted a row)).Sound := by
  have hworks := h.works t
  have hown := hworks _ List.mem_cons_self
  refine h.set (fun work hwork => ?_) ?_ (fun t' hne r hr q hq => ?_) ?_ (fun r hr => ?_)
    fun r hr => .inl (List.mem_append_left _ hr)
  · rcases List.mem_cons.1 hwork with rfl | hwork
    · refine ⟨?_, fun e he => ?_⟩
      · rw [Transaction.inserted, ← List.append_assoc]
        exact hchain
      · obtain ⟨r, hr, hr'⟩ := hown.evaluated e he
        refine ⟨r, ?_, hr'⟩
        rw [Transaction.inserted, ← List.append_assoc]
        exact List.mem_append_left _ hr
    · exact hworks work (List.mem_cons_of_mem _ hwork)
  · have hstack := List.pairwise_cons.1 (h.stack t)
    exact List.pairwise_cons.2 ⟨fun work hwork =>
      (hstack.1 work hwork).trans (List.prefix_append _ _), hstack.2⟩
  · rcases List.mem_append.1 hr with hr | hr
    · exact h.apart t t' hne.symm r hr q hq
    · rw [List.mem_singleton.1 hr]
      exact hapart t' hne q hq
  · unfold StageOk Transaction.inserted
    cases hid : a.impactOf with
    | none => trivial
    | some pairingId => exact ⟨List.mem_append_right _ List.mem_cons_self, hsame.trans hid⟩
  · rcases List.mem_append.1 hr with hr | hr
    · exact h.impacts t r (List.mem_append_right _ hr)
    · rw [List.mem_singleton.1 hr]
      exact himpact

theorem World.Sound.flush (h : w.Sound) : (w.flush t).Sound := by
  have hstage := h.stages t
  unfold World.flush
  split
  next a latest hlocked =>
    simp only [StageOk, hlocked] at hstage
    obtain ⟨hbefore, hpaired, hlatest⟩ := hstage
    simp only
    split_ifs with hcurrent hawaited htaken
    · exact h.raises hbefore
    · exact h
    · obtain ⟨q, hq, hneed, -⟩ := taken_iff.1 htaken
      exact h.enter ⟨hbefore, hpaired, q, hq, hneed⟩
    · rw [not_not] at hcurrent
      rw [Bool.not_eq_true] at hawaited htaken
      rw [insert_finish]
      obtain ⟨hchain, hapart⟩ := inserted_chain h hlatest hawaited htaken
      set row := nextRow w.next a latest with hrow
      have hrevision : row.revision = a.expectedRevision + 1 := by rw [← hcurrent]; rfl
      have himpact : ImpactOk w.pairings row := by
        intro pairingId hid
        obtain ⟨p, hp, hneed, hexpected⟩ := hpaired pairingId hid
        exact ⟨p, hp, hneed, by omega⟩
      have hset := h.inserted hchain hapart himpact (rfl : row.impactOf = a.impactOf)
      have hnext : ({ w.set t ((w.transactions t).inserted a row) with
          next := w.next + 1 } : World τ).Sound :=
        ⟨hset.works, hset.stack, hset.apart, hset.stages, hset.impacts, hset.bound, hset.returned,
          hset.ordered, fun id hid => Nat.lt_succ_of_lt (hset.below id hid)⟩
      have hmem : row ∈ (w.set t ((w.transactions t).inserted a row)).own t := by
        rw [own_set, if_pos rfl]
        exact List.mem_append_right _ List.mem_cons_self
      refine hnext.returns ⟨rfl, hrevision, .inr (.inl hmem)⟩ fun id hid => ?_
      obtain rfl : row.id = id := Option.some.inj hid
      exact ⟨fun i hi => h.below i hi, Nat.lt_succ_self _⟩
  next => exact h

omit [Fintype τ] in
theorem World.Sound.reread (h : w.Sound) : (w.reread t).Sound := by
  have hstage := h.stages t
  unfold World.reread
  split
  next a hrefused =>
    simp only [StageOk, hrefused] at hstage
    obtain ⟨hbefore, -, q, hq, hneed⟩ := hstage
    split
    next row _ => exact h.raises hbefore
    next hnone => exact absurd hneed (latest_none hnone q hq)
  next => exact h

omit [Fintype τ] in
theorem World.Sound.checkPairing (h : w.Sound) (pairingId expected : ℕ) (stale : Bool)
    (values : NeedRecognition.NeedValues) :
    (w.checkPairing t pairingId expected stale values).Sound := by
  unfold World.checkPairing
  split
  next p current hp hcurrent =>
    split_ifs with hchecks
    · rw [hp, Option.bind_some] at hcurrent
      have hfound := List.find?_some hcurrent
      simp only [decide_eq_true_eq] at hfound
      refine h.savepoint ⟨rfl, fun id hid => ?_⟩
      obtain rfl : pairingId = id := Option.some.inj hid
      exact ⟨p, hp, rfl, hfound.2.symm.trans hchecks.2.2.1.symm⟩
    · exact h
  next => exact h

omit [Fintype τ] in
theorem World.Sound.evaluate (h : w.Sound) : (w.evaluate t).Sound := by
  have hstage := h.stages t
  unfold World.evaluate
  split
  next pairingId row happended =>
    simp only [StageOk, happended] at hstage
    have hworks := h.works t
    have hown := hworks _ List.mem_cons_self
    have hset : (w.set t { w.transactions t with work := { (w.transactions t).work with
        evaluated := (w.transactions t).work.evaluated ++ [(pairingId, row.id)] } }).Sound := by
      refine h.set (fun work hwork => ?_) ?_ (fun t' hne => h.apart t t' hne.symm) ?_
        (fun r hr => h.impacts t r (List.mem_append_right _ hr)) fun _ hr => .inl hr
      · rcases List.mem_cons.1 hwork with rfl | hwork
        · refine ⟨hown.chain, fun e he => ?_⟩
          rcases List.mem_append.1 he with he | he
          · exact hown.evaluated e he
          · obtain rfl := List.mem_singleton.1 he
            exact ⟨row, List.mem_append_right _ hstage.1, rfl, hstage.2⟩
        · exact hworks work (List.mem_cons_of_mem _ hwork)
      · exact List.pairwise_cons.2 (List.pairwise_cons.1 (h.stack t))
      · simp only [StageOk, happended]
        exact hstage
    exact hset.release
  next => exact h

theorem World.Sound.step (h : w.Sound) (action : Action τ) : (w.step action).Sound := by
  cases action with
  | accept needId needRevision needRevisionId => exact h.accept needId needRevision needRevisionId
  | append t needId expected values =>
    simp only [World.step]
    split_ifs
    · exact h.enter ⟨rfl, fun _ hid => by cases hid⟩
    · exact h
  | select t => exact h.select
  | lock t => exact h.lock
  | flush t => exact h.flush
  | reread t => exact h.reread
  | lockPairing t pairingId =>
    simp only [World.step]
    split_ifs
    · exact h.takeLock trivial
    · exact h
  | checkPairing t pairingId expected stale values =>
    simp only [World.step]
    split_ifs
    · exact h.checkPairing pairingId expected stale values
    · exact h
  | evaluate t => exact h.evaluate
  | failImpact t =>
    simp only [World.step]
    split_ifs
    · exact h.rollbackTo
    · exact h
  | savepoint t =>
    simp only [World.step]
    split_ifs
    · exact h.savepoint trivial
    · exact h
  | rollbackTo t =>
    simp only [World.step]
    split_ifs
    · exact h.rollbackTo
    · exact h
  | release t =>
    simp only [World.step]
    split_ifs
    · exact h.release
    · exact h
  | commit t =>
    simp only [World.step]
    split_ifs
    · exact h.commit
    · exact h
  | rollback t => exact h.rollback

end Calls

section Runs
variable {τ : Type} [DecidableEq τ] {w : World τ}

/-- The row of a call that returned is committed or pending. -/
def Returned.Lives (w : World τ) (c : Returned τ) : Prop :=
  ∃ row, c.result = .ok row ∧ (row ∈ w.needs ∨ row ∈ w.own c.transaction)

/-- The committed revisions are chains, and each number of a need and each impact of a pairing was
appended by one call. -/
structure World.Chained (w : World τ) : Prop where
  numbered : ∀ needId, ∃ n,
    (w.needs.filter fun row => row.needId = needId).map (·.revision) = List.range' 1 n
  previous : ∀ row ∈ w.needs, (row.revision = 1 ∧ row.previousRevisionId = none) ∨
    ∃ q ∈ w.needs, q.needId = row.needId ∧ q.revision + 1 = row.revision ∧
      row.previousRevisionId = some q.id
  once : w.returned.Pairwise fun c d => c.append.needId = d.append.needId →
    c.append.expectedRevision = d.append.expectedRevision → ¬(c.Lives w ∧ d.Lives w)
  returned : ∀ c ∈ w.returned, ReturnedOk w c
  impact : ∀ row ∈ w.needs, ∀ q ∈ w.needs, ∀ pairingId, row.impactOf = some pairingId →
    q.impactOf = some pairingId → q = row
  bound : ∀ pairingId p, w.pairings[pairingId]? = some p → ∀ rowId,
    p.impactRevisionId = some rowId →
      ∃ row ∈ w.needs, row.id = rowId ∧ row.impactOf = some pairingId

omit [DecidableEq τ] in
/-- Two calls cannot both have a living row of one need and revision. -/
theorem World.Sound.once (h : w.Sound) : w.returned.Pairwise fun c d =>
    c.append.needId = d.append.needId → c.append.expectedRevision = d.append.expectedRevision →
      ¬(c.Lives w ∧ d.Lives w) := by
  have hordered := List.pairwise_filterMap.1 h.ordered
  refine hordered.imp_of_mem fun {c d} hc hd hlt hneed hexpected hlives => ?_
  obtain ⟨⟨row, hrow, hplace⟩, q, hq, hplace'⟩ := hlives
  have hcrow := h.returned c hc
  have hdrow := h.returned d hd
  simp only [ReturnedOk, hrow] at hcrow
  simp only [ReturnedOk, hq] at hdrow
  have hkey : q.needId = row.needId := by rw [hcrow.1, hdrow.1, hneed]
  have hrevision : q.revision = row.revision := by rw [hcrow.2.1, hdrow.2.1, hexpected]
  have hid : row.id < q.id := hlt row.id (by simp [Returned.rowId, hrow]) q.id
    (by simp [Returned.rowId, hq])
  have hchain : ∀ t, Chain needLayout (w.visible t) := fun t =>
    (h.works t _ List.mem_cons_self).chain
  -- both rows are seen by one transaction
  have hsame : ∃ t, row ∈ w.visible t ∧ q ∈ w.visible t := by
    rcases hplace with hplace | hplace
    · refine ⟨d.transaction, List.mem_append_left _ hplace, ?_⟩
      exact List.mem_append.2 hplace'
    · refine ⟨c.transaction, List.mem_append_right _ hplace, ?_⟩
      rcases hplace' with hplace' | hplace'
      · exact List.mem_append_left _ hplace'
      · by_cases ht : d.transaction = c.transaction
        · exact List.mem_append_right _ (ht ▸ hplace')
        · exact absurd hkey (h.apart _ _ ht q hplace' row hplace)
  obtain ⟨t, hrow', hq'⟩ := hsame
  have heq : q = row := (hchain t).unique hrow' hq' hkey hrevision
  rw [heq] at hid
  exact Nat.lt_irrefl _ hid

omit [DecidableEq τ] in
theorem World.Sound.chained (h : w.Sound) (hchain : Chain needLayout w.needs)
    (himpacts : ∀ row ∈ w.needs, ImpactOk w.pairings row) : w.Chained where
  numbered := hchain.numbered
  previous row hrow := by
    rcases Nat.lt_or_ge 1 row.revision with hlater | hfirst
    · exact .inr (hchain.prior_row hrow hlater)
    · have hpos : 0 < row.revision := hchain.number_pos hrow
      have hone : row.revision = 1 := by omega
      exact .inl ⟨hone, hchain.first row hrow hone⟩
  once := h.once
  returned := h.returned
  impact row hrow q hq pairingId hid hid' := by
    obtain ⟨p, hp, hneed, hrevision⟩ := himpacts row hrow pairingId hid
    obtain ⟨p', hp', hneed', hrevision'⟩ := himpacts q hq pairingId hid'
    obtain rfl : p = p' := Option.some.inj (hp.symm.trans hp')
    exact hchain.unique hrow hq (hneed'.trans hneed.symm) (hrevision'.trans hrevision.symm)
  bound := h.bound

/-- Without transactions nothing is committed. -/
theorem needs_of_isEmpty [Fintype τ] [IsEmpty τ] (actions : List (Action τ)) :
    (exec World.step (World.start τ) actions).needs = [] := by
  refine exec_preserves (I := fun w : World τ => w.needs = []) (fun w action h => ?_) rfl actions
  cases action with
  | accept needId needRevision needRevisionId => exact h
  | append t | select t | lock t | flush t | reread t | lockPairing t | checkPairing t | evaluate t
  | failImpact t | savepoint t | rollbackTo t | release t | commit t | rollback t =>
    exact isEmptyElim t

/-- In every run the revisions of every need form one chain. -/
theorem revisions_chained [Fintype τ] (actions : List (Action τ)) :
    (exec World.step (World.start τ) actions).Chained := by
  have h : (exec World.step (World.start τ) actions).Sound :=
    exec_preserves (I := World.Sound) (fun w action h => h.step action) World.Sound.start actions
  rcases isEmpty_or_nonempty τ with hempty | ⟨⟨t⟩⟩
  · have hneeds := needs_of_isEmpty actions
    refine h.chained ?_ ?_
    · rw [hneeds]
      exact Chain.nil
    · rw [hneeds]
      exact fun _ hrow => absurd hrow List.not_mem_nil
  · refine h.chained ((h.works t _ List.mem_cons_self).chain.of_prefix (List.prefix_append _ _)) ?_
    exact fun row hrow => h.impacts t row (List.mem_append_left _ hrow)

-- two first revisions at once, and the second revision after them
example :
    let need : Text := .plain "need"
    let values : NeedValues := ⟨.recognized, [], none, "", [], [], [], [], [], none, [], ""⟩
    let w := exec World.step (World.start Bool)
      [.append false need 0 values, .append true need 0 values, .select false, .select true,
        .lock false, .lock true, .flush false, .flush true, .commit false, .flush true, .reread true,
        .append false need 1 values, .select false, .lock false, .flush false, .commit false]
    (w.needs.map fun row => (row.revision, row.previousRevisionId),
      w.returned.map Returned.rowId) = ([(1, none), (2, some 0)], [some 0, none, some 1]) := by
  decide +kernel

end Runs

end Ajenda.NeedTransactions
