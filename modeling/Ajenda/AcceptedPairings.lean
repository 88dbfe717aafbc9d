import Ajenda.ImpactMaterialization

/-!
# Whether an accepted pairing is stranded

An acceptance finds the pairing of the same need, measurements and contract whatever revision it was
accepted on, while an impact is recorded only through a pairing of the latest revision. The recording
asks more of the need and of the observed measurement than the acceptance does: an objective, and an
observation later than all that supports the revision.
-/
namespace Ajenda.MeasurementImpact
open JsonValue GoalProgress NeedRecognition TransitionSystem

section Revisions
variable {S : Service} {w w' : World}

/-- The revisions of a need increase, and each pairing names a revision that is not superseded. -/
structure World.Chained (w : World) : Prop where
  numbered : w.store.needs.Pairwise fun a b => a.needId = b.needId → a.revision < b.revision
  bound : ∀ p ∈ w.pairings, revisionId w.store p.needId p.needRevision = some p.needRevisionId ∧
    ∃ row, w.store.needs[p.needRevisionId]? = some row ∧ row.status ≠ .superseded

/-- The needs stay, or a revision above the latest of its need is appended. -/
def NeedsStep (s s' : Store) : Prop :=
  s'.needs = s.needs ∨
    ∃ row, s'.needs = s.needs ++ [row] ∧ s.currentRevision row.needId < row.revision

theorem le_currentRevision {s : Store} {row : BusinessNeedRevision} (h : row ∈ s.needs) :
    row.revision ≤ s.currentRevision row.needId := by
  have hmem : row ∈ s.needs.filter fun r => decide (r.needId = row.needId) :=
    List.mem_filter.2 ⟨h, by simp⟩
  unfold Store.currentRevision Store.latest
  cases hmax : (s.needs.filter fun r => decide (r.needId = row.needId)).argmax
      fun r => r.revision with
  | none =>
    rw [List.argmax_eq_none.1 hmax] at hmem
    cases hmem
  | some latest => exact List.le_of_mem_argmax hmem hmax

theorem NeedsStep.numbered {s s' : Store} (h : NeedsStep s s')
    (hs : s.needs.Pairwise fun a b => a.needId = b.needId → a.revision < b.revision) :
    s'.needs.Pairwise fun a b => a.needId = b.needId → a.revision < b.revision := by
  rcases h with h | ⟨row, h, hlt⟩
  · rwa [h]
  · rw [h, List.pairwise_append]
    refine ⟨hs, List.pairwise_singleton _ _, fun a ha b hb hid => ?_⟩
    obtain rfl := List.mem_singleton.1 hb
    have hle := le_currentRevision ha
    rw [hid] at hle
    omega

theorem appended_needsStep {s s' : Store} {needId : Text} {expected : ℕ} {v : NeedValues}
    {row : BusinessNeedRevision} (h : appendNeedRevision s needId expected v = .ok (s', row)) :
    NeedsStep s s' := by
  obtain ⟨-, hcurrent, rfl, rfl⟩ := appendNeedRevision_ok.1 h
  refine .inr ⟨_, rfl, ?_⟩
  have hlt : s.currentRevision needId < expected + 1 := by omega
  exact hlt

/-- A recording appends a revision of its need, unless it finds the evaluation it made. -/
theorem World.recordImpact_store {r : ImpactRequest} {id : ℕ}
    (h : w.recordImpact S r = .ok (w', id)) : w'.store = w.store ∨
      ∃ v row, appendNeedRevision w.store r.needId r.expectedRevision v = .ok (w'.store, row) := by
  unfold World.recordImpact at h
  split at h
  next => cases h
  next src _ =>
    split at h
    next =>
      split_ifs at h
      obtain ⟨rfl, -⟩ := Prod.mk.inj (Except.ok.inj h)
      exact .inl rfl
    next =>
      split at h
      next => cases h
      next k _ =>
        split at h
        next => cases h
        next store row happend =>
          split_ifs at h
          obtain ⟨rfl, -⟩ := Prod.mk.inj (Except.ok.inj h)
          exact .inr ⟨_, row, happend⟩

/-- A stored pairing stays bound when rows are added. -/
theorem World.Chained.extend (h : w.Chained) (hext : w.Extends w')
    (hneeds : NeedsStep w.store w'.store)
    (hpairings : ∀ p ∈ w'.pairings, ∃ q ∈ w.pairings, p.needId = q.needId ∧
      p.needRevision = q.needRevision ∧ p.needRevisionId = q.needRevisionId) : w'.Chained where
  numbered := hneeds.numbered h.numbered
  bound p hp := by
    obtain ⟨q, hq, hid, hrevision, hrow⟩ := hpairings p hp
    obtain ⟨hfound, row, hget, hopen⟩ := h.bound q hq
    rw [hid, hrevision, hrow]
    exact ⟨findIdx?_extended hext.needs hfound, row, getElem?_extended hext.needs hget, hopen⟩

theorem World.Chained.acceptPairing {request : PairingRequest} {id : ℕ} (h : w.Chained)
    (hok : w.acceptPairing S request = .ok (w', id)) : w'.Chained := by
  simp only [World.acceptPairing, bind_ok, found_ok] at hok
  obtain ⟨baseline, -, later, -, hok⟩ := hok
  split at hok
  next =>
    obtain ⟨rfl, -⟩ := Prod.mk.inj (Except.ok.inj hok)
    exact h
  next =>
    simp only [bind_ok, found_ok, require_ok] at hok
    obtain ⟨currentId, hid, current, hcurrent, _, hchecks, hok⟩ := hok
    obtain ⟨rfl, -⟩ := Prod.mk.inj (Except.ok.inj hok)
    refine ⟨h.numbered, fun p hp => ?_⟩
    rcases List.mem_append.1 hp with hp | hp
    · exact h.bound p hp
    · obtain rfl := List.mem_singleton.1 hp
      obtain ⟨-, hrevision⟩ := revisionId_row hid hcurrent
      have hopen := hchecks _ (List.mem_append_left _ List.mem_cons_self)
      refine ⟨?_, current, hcurrent, by simpa using hopen⟩
      rw [hrevision]
      exact hid

theorem World.Chained.recordImpact {r : ImpactRequest} {id : ℕ} (h : w.Chained)
    (hok : w.recordImpact S r = .ok (w', id)) : w'.Chained := by
  have hext := World.recordImpact_extends hok
  have hneeds : NeedsStep w.store w'.store := by
    rcases World.recordImpact_store hok with hsame | ⟨v, row, happend⟩
    · exact .inl (congrArg Store.needs hsame)
    · exact appended_needsStep happend
  rcases World.recordImpact_cases hok with rfl | ⟨row, pairings, rfl, hpairings⟩
  · exact h
  refine h.extend hext hneeds fun p hp => ?_
  rcases hpairings with rfl | ⟨pairingId, q, e, -, -, rfl⟩
  · exact ⟨p, hp, rfl, rfl, rfl⟩
  · obtain ⟨i, hi⟩ := List.mem_iff_getElem?.1 hp
    rw [List.getElem?_modify, Option.map_eq_map, Option.map_eq_some_iff] at hi
    obtain ⟨old, hold, heq⟩ := hi
    refine ⟨old, List.mem_of_getElem? hold, ?_⟩
    split_ifs at heq
    · exact heq ▸ ⟨rfl, rfl, rfl⟩
    · exact heq ▸ ⟨rfl, rfl, rfl⟩

end Revisions

section Stranded
variable {S : Service} {w : World} {r : PairingRequest} {current : BusinessNeedRevision}
  {baseline later : BusinessMeasurement}

/-- The pair is comparable for the latest revision of the need. -/
structure Comparable (S : Service) (w : World) (r : PairingRequest)
    (current : BusinessNeedRevision) (baseline later : BusinessMeasurement) : Prop where
  latest : w.store.latest r.needId = some current
  revision : current.revision = r.expectedRevision
  measured : w.measurement r.baselineMeasurementId = some baseline ∧
    w.measurement r.observedMeasurementId = some later
  checked : ∀ check ∈ measurementPairChecks S current r.baselineMeasurementId
    r.observedMeasurementId baseline later, check.1 = false

/-- Canonical outcome evidence for the pair: of a known mission and the observed measurement's
goal, with the measured deltas and time, and with an evaluation that no pairing has. -/
structure EvidenceRecord.Matches (e : EvidenceRecord) (outcome : OutcomeEvaluation) (w : World)
    (evidenceId pairingId : ℕ) (baseline later : BusinessMeasurement) : Prop where
  action : e.actionName = some outcomeAction
  mission : e.missionId ∈ w.store.missions
  evaluated : e.outcome = some outcome
  names : outcome.acceptedMeasurementPairingId = some pairingId
  goal : outcome.goalId = some later.payload.goalId
  measured : ∀ check ∈ outcomeChecks outcome baseline later, check.1 = false
  fresh : ∀ p ∈ w.pairings, ∀ v ∈ p.evaluation, v.outcomeEvidenceId ≠ evidenceId ∧
    v.outcomeEvaluationId ≠ outcome.outcomeEvaluationId

/-- The impact request is for the pairing and its evidence matches. -/
structure ImpactRequest.Matches (i : ImpactRequest) (w : World) (r : PairingRequest)
    (pairingId : ℕ) (baseline later : BusinessMeasurement) : Prop where
  need : i.needId = r.needId
  revision : i.expectedRevision = r.expectedRevision
  compared : i.baselineMeasurementId = r.baselineMeasurementId ∧
    i.observedMeasurementId = r.observedMeasurementId
  pairing : i.acceptedMeasurementPairingId = some pairingId
  producer : Runtime.strip i.producer ≠ "" ∧ i.stored = true
  evidence : ∃ e outcome, w.evidence[i.outcomeEvidenceId]? = some e ∧
    e.Matches outcome w i.outcomeEvidenceId pairingId baseline later ∧
    ∀ mission ∈ i.missionReference, mission = e.missionId

/-- The latest revision is stored under its number. -/
theorem Comparable.current_row (h : Comparable S w r current baseline later) (hw : w.Chained) :
    ∃ id, revisionId w.store r.needId r.expectedRevision = some id ∧
      w.store.needs[id]? = some current := by
  obtain ⟨hmem, hneed⟩ := latest_mem h.latest
  cases hid : revisionId w.store r.needId r.expectedRevision with
  | none =>
    unfold revisionId at hid
    rw [List.findIdx?_eq_none_iff] at hid
    have hnone := hid current hmem
    simp [hneed, h.revision] at hnone
  | some id =>
    have hlt : id < w.store.needs.length := by
      unfold revisionId at hid
      rw [List.findIdx?_eq_some_iff_getElem] at hid
      exact hid.1
    have hget : w.store.needs[id]? = some w.store.needs[id] := List.getElem?_eq_getElem hlt
    obtain ⟨hneed', hrevision'⟩ := revisionId_row hid hget
    refine ⟨id, rfl, ?_⟩
    rw [hget, Option.some_inj]
    by_contra hne
    have hapart : w.store.needs.Pairwise fun a b => a.needId = b.needId → a.revision ≠ b.revision :=
      hw.numbered.imp fun hlt heq => (hlt heq).ne
    have : Std.Symm fun a b : BusinessNeedRevision =>
        a.needId = b.needId → a.revision ≠ b.revision :=
      ⟨fun a b hab heq => (hab heq.symm).symm⟩
    exact hapart.forall (List.getElem_mem hlt) hmem hne (hneed'.trans hneed.symm)
      (hrevision'.trans h.revision.symm)

/-- Worlds that differ in their pairings, their evidence and added missions. -/
structure World.Alike (w v : World) : Prop where
  observations : v.store.observations = w.store.observations
  measurements : v.store.measurements = w.store.measurements
  needs : v.store.needs = w.store.needs
  proposals : v.store.proposals = w.store.proposals
  missions : w.store.missions ⊆ v.store.missions
  intended : v.intended = w.intended

/-- The pairing of the pair is pending and accepted on the requested revision. -/
structure PendingAt (w : World) (r : PairingRequest) (p : BusinessMeasurementPairing) : Prop where
  paired : p.needId = r.needId ∧ p.baselineMeasurementId = r.baselineMeasurementId ∧
    p.observedMeasurementId = r.observedMeasurementId
  pending : p.evaluation = none
  revision : p.needRevision = r.expectedRevision
  bound : revisionId w.store r.needId r.expectedRevision = some p.needRevisionId

section Recording
variable {v : World} {i : ImpactRequest} {pairingId : ℕ} {p : BusinessMeasurementPairing}

theorem World.Alike.measurement (hv : w.Alike v) (id : ℕ) :
    v.measurement id = w.measurement id := by
  rw [World.measurement, hv.measurements, hv.intended]
  rfl

theorem World.Alike.latest (hv : w.Alike v) (needId : Text) :
    v.store.latest needId = w.store.latest needId := by
  rw [Store.latest, hv.needs]
  rfl

/-- A request that matches the pending pairing is admitted. -/
theorem Comparable.impactSources (h : Comparable S w r current baseline later) (hw : w.Chained)
    (hopen : current.status ≠ .superseded) (hv : w.Alike v)
    (hp : v.pairings[pairingId]? = some p) (hpending : PendingAt w r p)
    (hi : i.Matches v r pairingId baseline later) :
    ∃ src, v.impactSources S i = .ok src ∧ src.pairing = some p ∧ current = src.current ∧
      baseline = src.baseline ∧ later = src.later ∧
      src.evidence.Matches src.outcome v i.outcomeEvidenceId pairingId baseline later := by
  obtain ⟨currentId, hcurrentId, hcurrent⟩ := h.current_row hw
  obtain rfl : p.needRevisionId = currentId :=
    Option.some.inj (hpending.bound.symm.trans hcurrentId)
  obtain ⟨evidence, outcome, hevidence, hmatches, hmission⟩ := hi.evidence
  have hloaded : v.loadPairing i = .ok (some p) := by
    simp only [World.loadPairing, hi.pairing, bind_ok, found_ok, require_ok]
    refine ⟨p, hp, (), ?_, rfl⟩
    simp [hpending.paired, hi.need, hi.compared, hpending.pending]
  refine ⟨⟨some p, current, baseline, later, evidence, outcome⟩, ?_, rfl, rfl, rfl, rfl, hmatches⟩
  simp only [World.impactSources, bind_ok, found_ok, require_ok]
  refine ⟨some p, hloaded, p.needRevisionId, ?_, current, ?_, (), ?_, baseline, ?_, later, ?_, (),
    ?_, evidence, ?_, (), ?_, outcome, hmatches.evaluated, (), ?_, rfl⟩
  · rw [hi.need, hi.revision, revisionId, hv.needs]
    exact hpending.bound
  · rw [hv.needs]
    exact hcurrent
  · simp [hi.need, hv.latest, h.latest, hpending.revision, h.revision, hopen]
  · rw [hv.measurement, hi.compared.1]
    exact h.measured.1
  · rw [hv.measurement, hi.compared.2]
    exact h.measured.2
  · intro check hcheck
    rcases List.mem_append.1 hcheck with hcheck | hcheck
    · obtain rfl := List.mem_singleton.1 hcheck
      simp
    · rw [hi.compared.1, hi.compared.2] at hcheck
      exact h.checked check hcheck
  · exact Option.filter_eq_some_iff.2 ⟨hevidence, by simpa using hmatches.action⟩
  · have hnone : i.missionReference.any (· ≠ evidence.missionId) = false :=
      any_eq_false.2 fun m hm => by simpa using hmission m hm
    simpa using hnone
  · simp [hi.pairing, hmatches.names]

end Recording

end Stranded

section Samples

end Samples

end Ajenda.MeasurementImpact
