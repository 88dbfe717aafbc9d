import Ajenda.NeedRecognition

/-!
# What the need ledger keeps

An append passes its checks, so every stored revision refers to rows that exist; rows are
never removed, so it keeps doing so. The latest revision of a need and the lookup of an
active need are followed through one append.
-/
namespace Ajenda.NeedRecognition
open JsonValue GoalProgress TransitionSystem

theorem firstRefusal_eq_none {checks : List (Bool × String)} :
    firstRefusal checks = none ↔ ∀ check ∈ checks, check.1 = false := by
  simp [firstRefusal]

/-- What an append that is not a resolution is checked for. -/
structure Accepted (s : Store) (v : NeedValues) : Prop where
  summary : Runtime.strip v.conditionSummary ≠ ""
  producer : Runtime.strip v.producer ≠ ""
  objective : ∀ r ∈ v.objectiveReference,
    Runtime.strip r.objectiveKey ≠ "" ∧ ∀ c ∈ r.conditionKey, c.blank = false
  supported : v.observationIds ≠ []
  observed : ∀ id ∈ v.observationIds, id < s.observations.length
  resolved : ∀ id ∈ v.resolutionObservationIds, id < s.observations.length
  related : ∀ r ∈ v.relatedNeeds, r.needId ≠ .plain "" ∧
    ∃ row ∈ s.needs, row.needId = r.needId ∧ row.revision = r.revision
  proposals : ∀ id ∈ v.proposals, Runtime.strip id ≠ "" ∧ Runtime.strip id ∈ s.proposals
  missions : ∀ id ∈ v.missions, id ∈ s.missions
  responses : ∀ r ∈ v.candidateResponses,
    Runtime.strip r.responseKey ≠ "" ∧ r.grantsExecutionAuthority = false
  assessed : ∀ a ∈ v.impactAssessment, ∀ c ∈ a.conditionFingerprint,
    c = conditionFingerprint v.conditionSummary

section Checks
variable {s : Store} {needId : Text} {expected : ℕ} {v : NeedValues}

theorem revision_isNone {n : ℕ} : (s.revision needId n).isNone = false ↔
    ∃ row ∈ s.needs, row.needId = needId ∧ row.revision = n := by
  rw [← Bool.not_eq_true, Option.isNone_iff_eq_none, Store.revision, List.find?_eq_none]
  push Not
  simp

theorem any_eq_false {α : Type} {o : Option α} {p : α → Bool} :
    o.any p = false ↔ ∀ a ∈ o, p a = false := by
  cases o <;> simp

theorem needChecks_eq_none : firstRefusal (needChecks s needId expected v) = none ↔
    Accepted s v ∧ (v.status = .resolved →
      ∀ check ∈ resolutionChecks s needId expected v, check.1 = false) := by
  have hstatus : (∀ check ∈ (if v.status = .resolved then resolutionChecks s needId expected v
      else []), check.1 = false) ↔ (v.status = .resolved →
        ∀ check ∈ resolutionChecks s needId expected v, check.1 = false) := by
    split_ifs with h <;> simp [h]
  rw [firstRefusal_eq_none]
  simp only [needChecks, List.forall_mem_append, hstatus, List.forall_mem_flatMap,
    List.forall_mem_cons, List.not_mem_nil, false_imp_iff, implies_true, and_true,
    decide_eq_false_iff_not, any_eq_false,
    List.any_eq_false, List.isEmpty_eq_false_iff, Bool.or_eq_false_iff, revision_isNone,
    not_not, not_le, decide_eq_true_eq, Bool.or_eq_true, not_or, Bool.not_eq_true]
  constructor
  · rintro ⟨⟨⟨⟨⟨⟨⟨hsummary, hproducer, hobjective, hsupported, hobserved, hresolved⟩, hresolution⟩,
      hrelated⟩, hproposals⟩, hmissions⟩, hresponses⟩, hassessed⟩
    exact ⟨⟨hsummary, hproducer, hobjective, hsupported, hobserved, hresolved, hrelated,
      hproposals, hmissions, hresponses, hassessed⟩, hresolution⟩
  · rintro ⟨h, hresolution⟩
    exact ⟨⟨⟨⟨⟨⟨⟨h.summary, h.producer, h.objective, h.supported, h.observed, h.resolved⟩,
      hresolution⟩, h.related⟩, h.proposals⟩, h.missions⟩, h.responses⟩, h.assessed⟩

theorem appendNeedRevision_ok {s' : Store} {row : BusinessNeedRevision} :
    appendNeedRevision s needId expected v = .ok (s', row) ↔
      firstRefusal (needChecks s needId expected v) = none ∧
      s.currentRevision needId = expected ∧ row = v.row needId (expected + 1) ∧
      s' = { s with needs := s.needs ++ [row] } := by
  unfold appendNeedRevision
  split
  next h => simp [h]
  next h =>
    split_ifs with hcurrent
    · simp [hcurrent]
    · rw [not_not] at hcurrent
      rw [hcurrent]
      simp only [Except.ok.injEq, Prod.mk.injEq, h, true_and]
      constructor
      · rintro ⟨rfl, rfl⟩
        exact ⟨rfl, rfl⟩
      · rintro ⟨rfl, rfl⟩
        exact ⟨rfl, rfl⟩

theorem appendNeedRevision_conflict {e c : ℕ}
    (h : appendNeedRevision s needId expected v = .error (.conflict e c)) :
    s.currentRevision needId ≠ expected := by
  unfold appendNeedRevision at h
  split at h
  next => cases h
  next =>
    split_ifs at h with hcurrent
    exact hcurrent

end Checks

section Latest
variable {s : Store} {row : BusinessNeedRevision}

theorem latest_mem {needId : Text} (h : s.latest needId = some row) :
    row ∈ s.needs ∧ row.needId = needId := by
  have hmem := List.argmax_mem h
  simpa using hmem

theorem latest_append (h : s.currentRevision row.needId < row.revision) (needId : Text) :
    ({ s with needs := s.needs ++ [row] } : Store).latest needId =
      if needId = row.needId then some row else s.latest needId := by
  split_ifs with hid
  · subst hid
    simp only [Store.latest, List.filter_append, List.filter_cons_of_pos, List.filter_nil,
      decide_true]
    rw [List.argmax_concat]
    unfold Store.currentRevision Store.latest at h
    cases hlatest : List.argmax (fun row => row.revision)
        (s.needs.filter fun r => decide (r.needId = row.needId)) with
    | none => rfl
    | some old =>
      rw [hlatest] at h
      have hlt : old.revision < row.revision := h
      exact if_pos hlt
  · simp [Store.latest, List.filter_append, Ne.symm hid]

theorem currentRevision_eq_zero {needId : Text} (h : ∀ r ∈ s.needs, 0 < r.revision) :
    s.currentRevision needId = 0 ↔ ∀ r ∈ s.needs, r.needId ≠ needId := by
  unfold Store.currentRevision
  cases hlatest : s.latest needId with
  | none =>
    unfold Store.latest at hlatest
    rw [List.argmax_eq_none, List.filter_eq_nil_iff] at hlatest
    simpa using hlatest
  | some r =>
    obtain ⟨hmem, hid⟩ := latest_mem hlatest
    have hpos := h r hmem
    simp only [Option.map_some, Option.getD_some]
    exact ⟨fun hzero => absurd hzero hpos.ne', fun hall => absurd hid (hall r hmem)⟩

end Latest

section Lookup

theorem findSome_replaced {α β : Type} {ids : List α} {g g' : α → Option β} {i : α} {old new : β}
    (hfind : ids.findSome? g = some old) (hkey : ∀ j, g j = some old → j = i)
    (hsame : ∀ j, j ≠ i → g' j = g j) (hnew : g' i = some new) : ids.findSome? g' = some new := by
  induction ids with
  | nil => cases hfind
  | cons j ids ih =>
    rw [List.findSome?_cons] at hfind ⊢
    by_cases hj : j = i
    · rw [hj, hnew]
    · rw [hsame j hj]
      cases hg : g j with
      | some found =>
        rw [hg] at hfind
        obtain rfl : found = old := Option.some.inj hfind
        exact absurd (hkey j hg) hj
      | none =>
        rw [hg] at hfind
        exact ih hfind

theorem findSome_only {α β : Type} {ids : List α} {g : α → Option β} {i : α} {new : β}
    (hi : i ∈ ids) (hnew : g i = some new) (hnone : ∀ j ∈ ids, j ≠ i → g j = none) :
    ids.findSome? g = some new := by
  induction ids with
  | nil => cases hi
  | cons j ids ih =>
    rw [List.findSome?_cons]
    by_cases hj : j = i
    · rw [hj, hnew]
    · rw [hnone j List.mem_cons_self hj]
      apply ih
      · exact (List.mem_cons.1 hi).resolve_left (Ne.symm hj)
      · exact fun l hl => hnone l (List.mem_cons_of_mem _ hl)

variable {P : Platform} {s : Store} {row e : BusinessNeedRevision} {needId : Text}

theorem mem_needIds : needId ∈ s.needIds P ↔ ∃ r ∈ s.needs, r.needId = needId := by
  simp [Store.needIds, List.mem_insertionSort, List.mem_eraseDups]

theorem needIds_append (h : ∃ r ∈ s.needs, r.needId = row.needId) :
    ({ s with needs := s.needs ++ [row] } : Store).needIds P = s.needIds P := by
  have hmem : row.needId ∈ s.needs.map fun r => r.needId := by simpa using h
  have hrest : [row.needId].removeAll (s.needs.map fun r => r.needId) = [] := by
    simpa [List.removeAll] using h
  rw [Store.needIds, Store.needIds, List.map_append, List.map_singleton, List.eraseDups_append,
    hrest]
  simp

/-- The active need of an identity is a latest revision of it. -/
theorem findActive_some {objectiveKey : String} {conditionKey : Text} {subjects : List Json}
    (h : s.findActiveNeedForIdentity P objectiveKey conditionKey subjects = some e) :
    s.latest e.needId = some e ∧ ofIdentity P objectiveKey conditionKey subjects e = true := by
  obtain ⟨_, needId, _, _, hneed, -⟩ := List.findSome?_eq_some_iff.1 h
  rw [Option.filter_eq_some_iff] at hneed
  rw [(latest_mem hneed.1).2]
  exact hneed

theorem findActive_none {objectiveKey : String} {conditionKey : Text} {subjects : List Json} :
    s.findActiveNeedForIdentity P objectiveKey conditionKey subjects = none ↔
      ∀ needId row, s.latest needId = some row →
        ofIdentity P objectiveKey conditionKey subjects row = false := by
  rw [Store.findActiveNeedForIdentity, List.findSome?_eq_none_iff]
  constructor
  · intro h needId row hlatest
    have hmem := latest_mem hlatest
    have hnone := h needId (mem_needIds.2 ⟨row, hmem.1, hmem.2⟩)
    rw [hlatest] at hnone
    simpa using hnone
  · intro h needId _
    rw [Option.filter_eq_none_iff]
    intro row hrow
    simpa using h needId row hrow

/-- A new revision of the active need is found in its place; the first revision of a need is
found when no active need was. -/
theorem findActive_append {objectiveKey : String} {conditionKey : Text} {subjects : List Json}
    (hnew : ofIdentity P objectiveKey conditionKey subjects row = true)
    (hrevision : s.currentRevision row.needId < row.revision)
    (hold : ∀ e, s.findActiveNeedForIdentity P objectiveKey conditionKey subjects = some e →
      e.needId = row.needId) :
    ({ s with needs := s.needs ++ [row] } : Store).findActiveNeedForIdentity P objectiveKey
      conditionKey subjects = some row := by
  have hself : (({ s with needs := s.needs ++ [row] } : Store).latest row.needId).filter
      (ofIdentity P objectiveKey conditionKey subjects) = some row := by
    rw [latest_append hrevision, if_pos rfl, Option.filter_some, if_pos hnew]
  have hother : ∀ j, j ≠ row.needId →
      (({ s with needs := s.needs ++ [row] } : Store).latest j).filter
        (ofIdentity P objectiveKey conditionKey subjects) =
      (s.latest j).filter (ofIdentity P objectiveKey conditionKey subjects) := by
    intro j hj
    rw [latest_append hrevision, if_neg hj]
  cases hfind : s.findActiveNeedForIdentity P objectiveKey conditionKey subjects with
  | some e =>
    obtain ⟨hlatest, -⟩ := findActive_some hfind
    have hid := hold e hfind
    have hmem := latest_mem hlatest
    unfold Store.findActiveNeedForIdentity at hfind ⊢
    rw [needIds_append ⟨e, hmem.1, hid⟩]
    apply findSome_replaced hfind _ hother hself
    intro j hj
    rw [Option.filter_eq_some_iff] at hj
    rw [← (latest_mem hj.1).2, hid]
  | none =>
    rw [findActive_none] at hfind
    refine findSome_only (i := row.needId) ?_ hself ?_
    · exact mem_needIds.2 ⟨row, by simp, rfl⟩
    · intro j _ hne
      rw [hother j hne, Option.filter_eq_none_iff]
      intro r hr
      simpa using hfind j r hr

end Lookup

section Recorded
variable {α : Type} {p : α → Bool} {rows : List α} {row : α}

theorem findOrAdd_found (hrow : p row = true) :
    (findOrAdd p rows row).1.findIdx? p = some (findOrAdd p rows row).2 := by
  unfold findOrAdd
  cases hfind : rows.findIdx? p with
  | some i => exact hfind
  | none => simp [List.findIdx?_append, hfind, hrow]

/-- Recording a row again finds it. -/
theorem findOrAdd_again (hrow : p row = true) :
    findOrAdd p (findOrAdd p rows row).1 row = findOrAdd p rows row := by
  have hfound : (findOrAdd p rows row).1.findIdx? p = some (findOrAdd p rows row).2 :=
    findOrAdd_found hrow
  generalize findOrAdd p rows row = recorded at hfound ⊢
  unfold findOrAdd
  rw [hfound]

theorem findOrAdd_grows : rows.length ≤ (findOrAdd p rows row).1.length := by
  unfold findOrAdd
  split
  · exact le_rfl
  · simp

theorem findOrAdd_lt : (findOrAdd p rows row).2 < (findOrAdd p rows row).1.length := by
  unfold findOrAdd
  split
  next i hi =>
    rw [List.findIdx?_eq_some_iff_getElem] at hi
    exact hi.1
  next => simp

/-- The id of a row is one it had before, or the next one. -/
theorem findOrAdd_old (h : (findOrAdd p rows row).2 < rows.length) :
    rows.findIdx? p = some (findOrAdd p rows row).2 := by
  unfold findOrAdd at h ⊢
  cases hfind : rows.findIdx? p with
  | some i => rfl
  | none => simp [hfind] at h

end Recorded

section Measured

def Store.measurementId (s : Store) (m : MeasurementInput) : ℕ :=
  (findOrAdd (· = m.payload) s.measurements m.payload).2

/-- The store with the measurement. -/
def Store.measured (s : Store) (m : MeasurementInput) : Store :=
  { s with measurements := (findOrAdd (· = m.payload) s.measurements m.payload).1 }

def Store.observationId (s : Store) (m : MeasurementInput) : ℕ :=
  (findOrAdd (sameFingerprints (m.observation (s.measurementId m))) s.observations
    (m.observation (s.measurementId m))).2

/-- The store with the measurement and its observation. -/
def Store.recorded (s : Store) (m : MeasurementInput) : Store :=
  { s.measured m with
    observations := (findOrAdd (sameFingerprints (m.observation (s.measurementId m)))
      s.observations (m.observation (s.measurementId m))).1 }

/-- The observation stored for a measurement. -/
def Store.observationOf (s : Store) (m : MeasurementInput) : Option ℕ :=
  (s.measurements.findIdx? (· = m.payload)).bind fun id =>
    s.observations.findIdx? (sameFingerprints (m.observation id))

variable {P : Platform} {s : Store} {m : MeasurementInput} {k : ℕ}

theorem sameFingerprints_self (o : BusinessObservation) : sameFingerprints o o = true := by
  simp [sameFingerprints]

theorem recorded_found (needs : List BusinessNeedRevision) :
    ({ s.recorded m with needs := needs } : Store).observationOf m =
      some (s.observationId m) := by
  unfold Store.observationOf Store.recorded Store.measured
  rw [findOrAdd_found (by simp), Option.bind_some]
  exact findOrAdd_found (sameFingerprints_self _)

theorem measurement_again (rows : List MeasurementPayload) (payload : MeasurementPayload) :
    findOrAdd (fun x => decide (x = payload))
        (findOrAdd (fun x => decide (x = payload)) rows payload).1 payload =
      findOrAdd (fun x => decide (x = payload)) rows payload :=
  findOrAdd_again (by simp)

theorem observation_again (rows : List BusinessObservation) (o : BusinessObservation) :
    findOrAdd (sameFingerprints o) (findOrAdd (sameFingerprints o) rows o).1 o =
      findOrAdd (sameFingerprints o) rows o :=
  findOrAdd_again (sameFingerprints_self o)

theorem measured_again (needs : List BusinessNeedRevision) :
    ({ s.measured m with needs := needs } : Store).measured m =
      { s.measured m with needs := needs } := by
  simp only [Store.measured, measurement_again]

theorem recorded_again (needs : List BusinessNeedRevision) :
    ({ s.recorded m with needs := needs } : Store).recorded m =
        { s.recorded m with needs := needs } ∧
      ({ s.recorded m with needs := needs } : Store).observationId m = s.observationId m := by
  constructor
  · simp only [Store.recorded, Store.measured, Store.measurementId, measurement_again,
      observation_again]
  · simp only [Store.observationId, Store.recorded, Store.measured, Store.measurementId,
      measurement_again, observation_again]

theorem observationOf_eq (h : s.observationOf m = some k) : s.observationId m = k := by
  unfold Store.observationOf at h
  obtain ⟨id, hid, hk⟩ := Option.bind_eq_some_iff.1 h
  have hmeasurement : s.measurementId m = id := by
    unfold Store.measurementId findOrAdd
    rw [hid]
  unfold Store.observationId findOrAdd
  rw [hmeasurement, hk]

end Measured

end Ajenda.NeedRecognition
