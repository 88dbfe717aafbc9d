import Ajenda.CanonicalText
import Ajenda.NeedLedger
import Mathlib.Data.List.TakeWhile

/-!
# Whether a goal gap is recognised

A run records observations, appends need revisions as the route and the impact recorder do,
and ingests measurements; a call that fails leaves the store as it was. Every reachable
store refers only to rows it has. Over such a store a measurement is recognised exactly
when its identity has a need to append to, or no need was ever stored under its hashed id, and
the rows it adds go into their columns.
-/
namespace Ajenda.NeedRecognition
open JsonValue GoalProgress TransitionSystem

variable (P : Platform)

/-- The calls that write to the store. An impact record is an observation and an append. -/
inductive Op
  | recordObservation (sourceFingerprint : Text) (subjects : List Json) (observedAt : ℤ)
  | appendNeed (needId : Text) (expected : ℕ) (values : NeedValues)
  | ingest (measurement : MeasurementInput)
  | addProposal (proposalId : String)
  | addMission (missionId : String)

def step (s : Store) : Op → Store
  | .recordObservation source subjects observedAt =>
    { s with observations := s.observations ++ [⟨source, none, subjects, observedAt⟩] }
  | .appendNeed needId expected v =>
    match appendNeedRevision s needId expected v with
    | .ok (s', _) => s'
    | .error _ => s
  | .ingest m => s.ingest P m
  | .addProposal id => { s with proposals := s.proposals ++ [id] }
  | .addMission id => { s with missions := s.missions ++ [id] }

/-- What a stored revision refers to is stored, its texts are not blank and its assessment is for
its condition. -/
structure RowKept (s : Store) (row : BusinessNeedRevision) : Prop where
  summary : Runtime.strip row.conditionSummary ≠ ""
  objective : ∀ r ∈ row.objectiveReference,
    Runtime.strip r.objectiveKey ≠ "" ∧ ∀ c ∈ r.conditionKey, c.blank = false
  observed : ∀ id ∈ row.observationIds, id < s.observations.length
  resolved : ∀ id ∈ row.resolutionObservationIds, id < s.observations.length
  related : ∀ r ∈ row.relatedNeeds, r.needId ≠ .plain "" ∧
    ∃ old ∈ s.needs, old.needId = r.needId ∧ old.revision = r.revision
  proposals : ∀ id ∈ row.proposals, Runtime.strip id ≠ "" ∧ Runtime.strip id ∈ s.proposals
  missions : ∀ id ∈ row.missions, id ∈ s.missions
  responses : ∀ r ∈ row.candidateResponses,
    Runtime.strip r.responseKey ≠ "" ∧ r.grantsExecutionAuthority = false
  assessed : ∀ a ∈ row.impactAssessment, a.conditionFingerprint = some (.summary row.conditionSummary)
  numbered : 0 < row.revision

/-- Every need refers to stored rows, every recognised observation to a stored measurement. -/
structure Store.Kept (s : Store) : Prop where
  rows : ∀ row ∈ s.needs, RowKept s row
  linked : ∀ o ∈ s.observations, ∀ id goalId kpis,
    o.measurementFingerprint = some (.recognition id goalId kpis) → id < s.measurements.length

/-- Rows are only added. -/
structure Store.Extends (s s' : Store) : Prop where
  observations : s.observations.length ≤ s'.observations.length
  needs : s.needs ⊆ s'.needs
  proposals : s.proposals ⊆ s'.proposals
  missions : s.missions ⊆ s'.missions

variable {P} {s s' : Store} {row : BusinessNeedRevision} {m : MeasurementInput}

theorem RowKept.mono (h : RowKept s row) (hext : s.Extends s') : RowKept s' row where
  summary := h.summary
  objective := h.objective
  observed id hid := (h.observed id hid).trans_le hext.observations
  resolved id hid := (h.resolved id hid).trans_le hext.observations
  related r hr := by
    obtain ⟨hid, old, hold, heq⟩ := h.related r hr
    exact ⟨hid, old, hext.needs hold, heq⟩
  proposals id hid := ⟨(h.proposals id hid).1, hext.proposals (h.proposals id hid).2⟩
  missions id hid := hext.missions (h.missions id hid)
  responses := h.responses
  assessed := h.assessed
  numbered := h.numbered

theorem Store.Kept.append {needId : Text} {expected : ℕ} {v : NeedValues} (h : s.Kept)
    (hok : appendNeedRevision s needId expected v = .ok (s', row)) : s'.Kept := by
  rw [appendNeedRevision_ok] at hok
  obtain ⟨hchecks, -, rfl, rfl⟩ := hok
  have ha := (needChecks_eq_none.1 hchecks).1
  have hext : s.Extends { s with needs := s.needs ++ [v.row needId (expected + 1)] } :=
    ⟨le_rfl, List.subset_append_left _ _, List.Subset.refl _, List.Subset.refl _⟩
  refine ⟨fun r hr => ?_, h.linked⟩
  rcases List.mem_append.1 hr with hr | hr
  · exact (h.rows r hr).mono hext
  · obtain rfl := List.mem_singleton.1 hr
    refine ⟨?_, ha.objective, fun id hid => ?_, fun id hid => ?_, fun r hr => ?_, ha.proposals,
      ha.missions, ha.responses, fun a hassessed => ?_, Nat.succ_pos _⟩
    · rw [NeedValues.row, Experience.strip_strip]
      exact ha.summary
    · exact ha.observed id (List.mem_eraseDups.1 hid)
    · exact ha.resolved id (List.mem_eraseDups.1 hid)
    · obtain ⟨hid, old, hold, heq⟩ := ha.related r hr
      exact ⟨hid, old, hext.needs hold, heq⟩
    · simp only [NeedValues.row, Option.mem_map] at hassessed
      obtain ⟨b, -, rfl⟩ := hassessed
      rfl

theorem recorded_extends : s.Extends (s.recorded m) :=
  ⟨findOrAdd_grows, List.Subset.refl _, List.Subset.refl _, List.Subset.refl _⟩

theorem Store.Kept.measured (h : s.Kept) : (s.measured m).Kept where
  rows r hr := (h.rows r hr).mono ⟨le_rfl, List.Subset.refl _, List.Subset.refl _,
    List.Subset.refl _⟩
  linked o ho id goalId kpis heq := (h.linked o ho id goalId kpis heq).trans_le findOrAdd_grows

theorem findOrAdd_mem {α : Type} {p : α → Bool} {rows : List α} {row x : α}
    (h : x ∈ (findOrAdd p rows row).1) : x ∈ rows ∨ x = row := by
  unfold findOrAdd at h
  split at h
  next => exact .inl h
  next => simpa using h

theorem Store.Kept.recorded (h : s.Kept) : (s.recorded m).Kept where
  rows r hr := (h.rows r hr).mono recorded_extends
  linked o ho id goalId kpis heq := by
    rcases findOrAdd_mem ho with ho | rfl
    · exact (h.linked o ho id goalId kpis heq).trans_le findOrAdd_grows
    · obtain rfl : s.measurementId m = id := (Text.recognition.inj (Option.some.inj heq)).1
      exact findOrAdd_lt

/-- The row of the measurement is stored or can be, and so can what its recognition adds. -/
def Store.Storable (s : Store) (m : MeasurementInput) : Prop :=
  (m.payload ∈ s.measurements ∨ m.rowStored = true) ∧ m.notesStored = true

/-- The ways an ingestion succeeds. -/
inductive Ingested (P : Platform) (s : Store) (m : MeasurementInput) : Store → Prop
  | quiet (hquiet : (m.status P).isGap = false) (hnone : s.existing P m = none) :
      Ingested P s m (s.measured m)
  | known (row : BusinessNeedRevision) (hrow : s.existing P m = some row)
      (hknown : s.observationId m ∈ row.observationIds) : Ingested P s m (s.recorded m)
  | revised (e row : BusinessNeedRevision) (s' : Store) (he : s.existing P m = some e)
      (happend : appendNeedRevision (s.recorded m) e.needId e.revision
        (recognitionValues P m (some e) (s.observationId m)) = .ok (s', row))
      (hstored : s.Storable m) : Ingested P s m s'
  | opened (row : BusinessNeedRevision) (s' : Store) (hgap : (m.status P).isGap = true)
      (hnone : s.existing P m = none)
      (happend : appendNeedRevision (s.recorded m) (stableNeedId P m.goal m.kpis) 0
        (recognitionValues P m none (s.observationId m)) = .ok (s', row))
      (hstored : s.Storable m) : Ingested P s m s'
  | closed (row : BusinessNeedRevision) (expected current : ℕ)
      (hgap : (m.status P).isGap = true) (hnone : s.existing P m = none)
      (hconflict : appendNeedRevision (s.recorded m) (stableNeedId P m.goal m.kpis) 0
        (recognitionValues P m none (s.observationId m)) = .error (.conflict expected current))
      (hrow : s.latest (stableNeedId P m.goal m.kpis) = some row)
      (hknown : s.observationId m ∈ row.observationIds) : Ingested P s m (s.recorded m)

theorem appendRecognition_ok {needId : Text} {expected : ℕ} {v : NeedValues} :
    appendRecognition s m needId expected v = .ok (s', row) ↔
      appendNeedRevision s needId expected v = .ok (s', row) ∧ m.notesStored = true := by
  unfold appendRecognition
  split
  next h => simp [h]
  next result h =>
    rw [h]
    split_ifs with hnotes
    · simp [hnotes]
    · simp [hnotes]

theorem appendRecognition_conflict {needId : Text} {expected e c : ℕ} {v : NeedValues} :
    appendRecognition s m needId expected v = .error (.conflict e c) ↔
      appendNeedRevision s needId expected v = .error (.conflict e c) := by
  unfold appendRecognition
  split
  next h => rw [h]
  next result h =>
    rw [h]
    split_ifs <;> simp

theorem findIdx_payload : s.measurements.findIdx? (· = m.payload) = none ↔
    m.payload ∉ s.measurements := by
  rw [List.findIdx?_eq_none_iff]
  constructor
  · intro h hmem
    simpa using h _ hmem
  · intro h payload hpayload
    refine decide_eq_false ?_
    rintro rfl
    exact h hpayload

theorem row_of_taken
    (h : ¬(s.measurements.findIdx? (· = m.payload) = none ∧ m.rowStored = false)) :
    m.payload ∈ s.measurements ∨ m.rowStored = true := by
  rw [findIdx_payload] at h
  by_cases hmem : m.payload ∈ s.measurements
  · exact .inl hmem
  · exact .inr (by simpa [hmem] using h)

theorem ingestMeasurement_ok {r : Option BusinessNeedRevision}
    (h : ingestMeasurement P s m = .ok (s', r)) : Ingested P s m s' := by
  unfold ingestMeasurement at h
  split at h
  next => cases h
  next =>
    unfold recognizeGoalGap at h
    simp only at h
    split_ifs at h with hrow hquiet hproducer hnote
    · obtain rfl : s.measured m = s' := (Prod.mk.inj (Except.ok.inj h)).1
      exact .quiet hquiet.1 hquiet.2
    · split at h
      next e he =>
        split_ifs at h with hknown
        · obtain rfl : s.recorded m = s' := (Prod.mk.inj (Except.ok.inj h)).1
          exact .known e he hknown
        · split at h
          next s'' row happend =>
            obtain rfl : s'' = s' := (Prod.mk.inj (Except.ok.inj h)).1
            rw [appendRecognition_ok] at happend
            exact .revised e row _ he happend.1 ⟨row_of_taken hrow, happend.2⟩
          next => cases h
      next hnone =>
        have hgap : (m.status P).isGap = true := by
          by_contra hquiet'
          exact hquiet ⟨eq_false_of_ne_true hquiet', hnone⟩
        split at h
        next s'' row happend =>
          obtain rfl : s'' = s' := (Prod.mk.inj (Except.ok.inj h)).1
          rw [appendRecognition_ok] at happend
          exact .opened row _ hgap hnone happend.1 ⟨row_of_taken hrow, happend.2⟩
        next expected current hconflict =>
          rw [appendRecognition_conflict] at hconflict
          split at h
          next row hrow =>
            split_ifs at h with hknown
            obtain rfl : s.recorded m = s' := (Prod.mk.inj (Except.ok.inj h)).1
            exact .closed row expected current hgap hnone hconflict hrow hknown
          next => cases h
        next => cases h

/-- A conflict comes from the append. -/
theorem ingestMeasurement_conflict {a b : ℕ}
    (h : ingestMeasurement P s m = .error (.conflict a b)) :
    (∃ e, s.existing P m = some e ∧ appendNeedRevision (s.recorded m) e.needId e.revision
      (recognitionValues P m (some e) (s.observationId m)) = .error (.conflict a b)) ∨
    (s.existing P m = none ∧ (m.status P).isGap = true) := by
  unfold ingestMeasurement at h
  split at h
  next => cases h
  next =>
    unfold recognizeGoalGap at h
    simp only at h
    split_ifs at h with hrow hquiet hproducer hnote
    · cases h
    · cases h
    · cases h
    split at h
    next e he =>
      split_ifs at h with hknown
      split at h
      next => cases h
      next happend =>
        cases h
        exact .inl ⟨e, he, appendRecognition_conflict.1 happend⟩
    next hnone =>
      refine .inr ⟨hnone, ?_⟩
      by_contra hquiet'
      exact hquiet ⟨eq_false_of_ne_true hquiet', hnone⟩

theorem Ingested.kept (h : Ingested P s m s') (hs : s.Kept) : s'.Kept := by
  cases h with
  | quiet => exact hs.measured
  | known => exact hs.recorded
  | revised e row _ _ happend _ => exact hs.recorded.append happend
  | opened row _ _ _ happend _ => exact hs.recorded.append happend
  | closed => exact hs.recorded

theorem step_kept (s : Store) (op : Op) (hs : s.Kept) : (step P s op).Kept := by
  cases op with
  | recordObservation source subjects observedAt =>
    refine ⟨fun r hr => (hs.rows r hr).mono ⟨by simp [step], List.Subset.refl _,
      List.Subset.refl _, List.Subset.refl _⟩, fun o ho id goalId kpis heq => ?_⟩
    rcases List.mem_append.1 ho with ho | ho
    · exact hs.linked o ho id goalId kpis heq
    · rw [List.mem_singleton.1 ho] at heq
      cases heq
  | appendNeed needId expected v =>
    simp only [step]
    split
    next happend => exact hs.append happend
    next => exact hs
  | ingest m =>
    simp only [step, Store.ingest]
    split
    next hok => exact (ingestMeasurement_ok hok).kept hs
    next => exact hs
  | addProposal id =>
    exact ⟨fun r hr => (hs.rows r hr).mono ⟨le_rfl, List.Subset.refl _,
      List.subset_append_left _ _, List.Subset.refl _⟩, hs.linked⟩
  | addMission id =>
    exact ⟨fun r hr => (hs.rows r hr).mono ⟨le_rfl, List.Subset.refl _, List.Subset.refl _,
      List.subset_append_left _ _⟩, hs.linked⟩

/-- Every reachable store refers only to rows it has. -/
theorem exec_kept (run : List Op) : (exec (step P) Store.empty run).Kept :=
  exec_preserves (I := Store.Kept) step_kept
    ⟨fun _ hr => absurd hr List.not_mem_nil, fun _ ho => absurd ho List.not_mem_nil⟩ run

/-- A request that passes the checks of ingestion. -/
structure MeasurementInput.Valid (P : Platform) (m : MeasurementInput) : Prop where
  accepted : firstRefusal (measurementChecks P m) = none
  producer : Runtime.strip m.producer ≠ ""

/-- The row of the measurement and that of its observation are stored or can be. -/
structure Store.Takes (s : Store) (m : MeasurementInput) : Prop where
  row : m.payload ∈ s.measurements ∨ m.rowStored = true
  note : s.observations.findIdx? (sameFingerprints (m.observation (s.measurementId m))) = none →
    m.notesStored = true

theorem Store.Storable.takes (h : s.Storable m) : s.Takes m := ⟨h.1, fun _ => h.2⟩

theorem mem_measured : m.payload ∈ (s.measured m).measurements := by
  have hfound : (s.measured m).measurements.findIdx? (· = m.payload) ≠ none := by
    rw [Store.measured, findOrAdd_found (by simp)]
    simp
  by_contra hnot
  exact hfound (findIdx_payload.2 hnot)

/-- What an ingestion adds before its revision needs to be added once only. -/
theorem recorded_takes (needs : List BusinessNeedRevision) :
    ({ s.recorded m with needs := needs } : Store).Takes m := by
  refine ⟨.inl (mem_measured (s := s)), fun hnone => ?_⟩
  have hfound := recorded_found (s := s) (m := m) needs
  obtain ⟨id, hid, hk⟩ := Option.bind_eq_some_iff.1 hfound
  have hmeasurement : ({ s.recorded m with needs := needs } : Store).measurementId m = id := by
    unfold Store.measurementId findOrAdd
    rw [hid]
  rw [hmeasurement, hk] at hnone
  cases hnone

section Calls
variable (hm : m.Valid P)
include hm

theorem ingest_taken (hrow : m.payload ∈ s.measurements ∨ m.rowStored = true) :
    ingestMeasurement P s m = recognizeGoalGap P (s.measured m) m (s.measurementId m) := by
  unfold ingestMeasurement
  rw [hm.accepted]
  refine if_neg ?_
  rintro ⟨hnew, hrefused⟩
  rcases hrow with hrow | hrow
  · exact findIdx_payload.1 hnew hrow
  · rw [hrefused] at hrow
    cases hrow

theorem ingest_quiet (hrow : m.payload ∈ s.measurements ∨ m.rowStored = true)
    (hquiet : (m.status P).isGap = false) (hnone : s.existing P m = none) :
    ingestMeasurement P s m = .ok (s.measured m, none) := by
  rw [ingest_taken hm hrow]
  unfold recognizeGoalGap
  exact if_pos ⟨hquiet, hnone⟩

theorem ingest_existing (htakes : s.Takes m) {e : BusinessNeedRevision}
    (he : s.existing P m = some e) :
    ingestMeasurement P s m =
      if s.observationId m ∈ e.observationIds then .ok (s.recorded m, some e)
      else match appendRecognition (s.recorded m) m e.needId e.revision
          (recognitionValues P m (some e) (s.observationId m)) with
        | .ok (s', row) => .ok (s', some row)
        | .error failure => .error failure := by
  have hmeasured : (s.measured m).existing P m = some e := he
  have hrecorded : (s.recorded m).existing P m = some e := he
  rw [ingest_taken hm htakes.row]
  unfold recognizeGoalGap
  simp only
  rw [if_neg (fun h => by
    have hnone : (s.measured m).existing P m = none := h.2
    rw [hmeasured] at hnone
    cases hnone), if_neg fun h => hm.producer h.2, if_neg fun h => by
      have hnotes := htakes.note h.1
      rw [h.2] at hnotes
      cases hnotes]
  split
  next existing hexisting =>
    obtain rfl : existing = e := Option.some.inj (hexisting.symm.trans hrecorded)
    rfl
  next hnone => exact absurd (hrecorded.symm.trans hnone) (Option.some_ne_none e)

theorem ingest_opening (htakes : s.Takes m) (hgap : (m.status P).isGap = true)
    (hnone : s.existing P m = none) :
    ingestMeasurement P s m =
      match appendRecognition (s.recorded m) m (stableNeedId P m.goal m.kpis) 0
          (recognitionValues P m none (s.observationId m)) with
      | .ok (s', row) => .ok (s', some row)
      | .error (.conflict expected current) =>
        match s.latest (stableNeedId P m.goal m.kpis) with
        | some concurrent =>
          if s.observationId m ∈ concurrent.observationIds then .ok (s.recorded m, some concurrent)
          else .error (.conflict expected current)
        | none => .error (.conflict expected current)
      | .error failure => .error failure := by
  have hrecorded : (s.recorded m).existing P m = none := hnone
  rw [ingest_taken hm htakes.row]
  unfold recognizeGoalGap
  simp only
  rw [if_neg (fun h => by simp [hgap] at h), if_neg fun h => hm.producer h.2, if_neg fun h => by
    have hnotes := htakes.note h.1
    rw [h.2] at hnotes
    cases hnotes]
  split
  next existing hexisting =>
    exact absurd (hexisting.symm.trans hrecorded) (Option.some_ne_none existing)
  next => rfl

end Calls

theorem strip_ne_empty {text : String} {c : Char} (hc : c ∈ text.toList)
    (hspace : Runtime.isSpace c = false) : Runtime.strip text ≠ "" := by
  have hleft : c ∈ text.toList.dropWhile Runtime.isSpace := by
    rw [← List.takeWhile_append_dropWhile (p := Runtime.isSpace) (l := text.toList),
      List.mem_append] at hc
    refine hc.resolve_left fun htake => ?_
    have htrue := List.mem_takeWhile_imp htake
    rw [hspace] at htrue
    cases htrue
  have hright : (text.toList.dropWhile Runtime.isSpace).reverse.dropWhile Runtime.isSpace ≠ [] := by
    intro hnil
    rw [List.dropWhile_eq_nil_iff] at hnil
    have htrue := hnil c (List.mem_reverse.2 hleft)
    rw [hspace] at htrue
    cases htrue
  intro hempty
  have hlist := congrArg String.toList hempty
  simp only [Runtime.strip, String.toList_ofList, String.toList_empty, List.reverse_eq_nil_iff]
    at hlist
  exact hright hlist

theorem summary_ne_empty : Runtime.strip (m.summary P) ≠ "" := by
  have hmem : 'G' ∈ (m.summary P).toList := by
    simp [MeasurementInput.summary, String.toList_append]
  exact strip_ne_empty hmem (by decide)

theorem objective_ne_empty (goal : Goal) : Runtime.strip goal.objective ≠ "" := by
  unfold Goal.objective
  cases hkey : goal.objectiveKey with
  | none => exact goal.named.1
  | some key => exact goal.named.2 key hkey

/-- The identity of the need a measurement belongs to. -/
def Names (P : Platform) (m : MeasurementInput) (row : BusinessNeedRevision) : Prop :=
  ofIdentity P m.goal.objective (conditionKey m.goal m.kpis) m.goal.subjects row = true

theorem existing_latest {e : BusinessNeedRevision} (he : s.existing P m = some e) :
    s.latest e.needId = some e ∧ Names P m e :=
  findActive_some he

theorem recognitionValues_status {e : Option BusinessNeedRevision} {k : ℕ}
    (he : ∀ row, e = some row → Names P m row) :
    (recognitionValues P m e k).status.closed = false := by
  cases e with
  | none => rfl
  | some row =>
    have hactive := he row rfl
    simp only [Names, ofIdentity, decide_eq_true_eq] at hactive
    simp only [recognitionValues]
    split_ifs
    · rfl
    · exact hactive.2.2

theorem row_names {e : Option BusinessNeedRevision} {k n : ℕ} {needId : Text}
    (he : ∀ row, e = some row → Names P m row) :
    Names P m ((recognitionValues P m e k).row needId n) := by
  have hstatus := recognitionValues_status (k := k) he
  unfold Names ofIdentity
  exact decide_eq_true ⟨rfl, rfl, hstatus⟩

theorem row_observed {e : Option BusinessNeedRevision} {k n : ℕ} {needId : Text} :
    k ∈ ((recognitionValues P m e k).row needId n).observationIds := by
  simp [NeedValues.row, recognitionValues, List.mem_eraseDups]

/-- The carried-over revision passes every check but, perhaps, the one on its assessment. -/
theorem recognition_accepted (hs : s.Kept) (hm : m.Valid P) {e : Option BusinessNeedRevision}
    (hstored : ∀ row, e = some row → row ∈ s.needs) :
    Accepted (s.recorded m) (recognitionValues P m e (s.observationId m)) ↔
      ∀ row, e = some row →
        row.impactAssessment = none ∨ row.conditionSummary = Runtime.strip (m.summary P) := by
  have hkept : ∀ row, e = some row → RowKept (s.recorded m) row := fun row hrow =>
    (hs.rows row (hstored row hrow)).mono recorded_extends
  have hk : s.observationId m < (s.recorded m).observations.length := findOrAdd_lt
  constructor
  · rintro h row rfl
    cases hassessment : row.impactAssessment with
    | none => exact .inl rfl
    | some a =>
      have hfingerprint := (hkept row rfl).assessed a hassessment
      have hsame := h.assessed a (by simpa [recognitionValues] using hassessment) _ hfingerprint
      exact .inr (Text.summary.inj hsame)
  · intro h
    refine ⟨summary_ne_empty, hm.producer, ?_, ?_, ?_, ?_, ?_, ?_, ?_, ?_, ?_⟩
    · intro r hr
      obtain rfl : _ = r := Option.some.inj hr
      refine ⟨objective_ne_empty _, fun c hc => ?_⟩
      obtain rfl : _ = c := Option.some.inj hc
      rfl
    · intro hnil
      have hmem : s.observationId m ∈
          (recognitionValues P m e (s.observationId m)).observationIds := by
        simp [recognitionValues, List.mem_eraseDups]
      rw [hnil] at hmem
      cases hmem
    · intro id hid
      simp only [recognitionValues, List.mem_eraseDups, List.mem_append, List.mem_singleton] at hid
      rcases hid with hid | rfl
      · cases e with
        | none => cases hid
        | some row => exact (hkept row rfl).observed id hid
      · exact hk
    all_goals cases e with
      | none => simp [recognitionValues]
      | some row => ?_
    · exact (hkept row rfl).resolved
    · exact (hkept row rfl).related
    · exact (hkept row rfl).proposals
    · exact (hkept row rfl).missions
    · exact (hkept row rfl).responses
    · intro a ha c hc
      have hfingerprint := (hkept row rfl).assessed a ha
      rcases h row rfl with hnone | hsummary
      · have hsome : row.impactAssessment = some a := ha
        rw [hnone] at hsome
        cases hsome
      · have hc' : a.conditionFingerprint = some c := hc
        rw [hfingerprint] at hc'
        rw [← Option.some.inj hc', hsummary]
        rfl

/-- An active need of the measurement's identity refers to the measurement's observation. -/
def Recognised (P : Platform) (s : Store) (m : MeasurementInput) : Prop :=
  ∃ k row, s.observationOf m = some k ∧ row ∈ s.needs ∧ s.latest row.needId = some row ∧
    Names P m row ∧ k ∈ row.observationIds

section Outcome

theorem recognised_of_append {e : Option BusinessNeedRevision} {needId : Text} {expected : ℕ}
    {row : BusinessNeedRevision} (he : ∀ r, e = some r → Names P m r)
    (h : appendNeedRevision (s.recorded m) needId expected
      (recognitionValues P m e (s.observationId m)) = .ok (s', row)) :
    s' = { s.recorded m with needs := s.needs ++ [row] } ∧ row.needId = needId ∧
      s.currentRevision row.needId < row.revision ∧ Names P m row ∧
      s.observationId m ∈ row.observationIds := by
  rw [appendNeedRevision_ok] at h
  obtain ⟨-, hcurrent, rfl, rfl⟩ := h
  refine ⟨rfl, rfl, ?_, row_names he, row_observed⟩
  have hcurrent' : s.currentRevision needId = expected := hcurrent
  exact hcurrent'.trans_lt (Nat.lt_succ_self _)

theorem recognised_appended {row : BusinessNeedRevision}
    (hs' : s' = { s.recorded m with needs := s.needs ++ [row] })
    (hrevision : s.currentRevision row.needId < row.revision) (hnames : Names P m row)
    (hk : s.observationId m ∈ row.observationIds) : Recognised P s' m := by
  subst hs'
  refine ⟨s.observationId m, row, recorded_found _, by simp, ?_, hnames, hk⟩
  have hlatest := latest_append (s := s) hrevision row.needId
  rw [if_pos rfl] at hlatest
  exact hlatest

theorem recognised_known {row : BusinessNeedRevision} (hrow : s.existing P m = some row)
    (hk : s.observationId m ∈ row.observationIds) : Recognised P (s.recorded m) m := by
  obtain ⟨hlatest, hnames⟩ := existing_latest hrow
  exact ⟨s.observationId m, row, recorded_found _, (latest_mem hlatest).1, hlatest, hnames, hk⟩

theorem existing_appended {row : BusinessNeedRevision}
    (hs' : s' = { s.recorded m with needs := s.needs ++ [row] })
    (hrevision : s.currentRevision row.needId < row.revision) (hnames : Names P m row)
    (hold : ∀ e, s.existing P m = some e → e.needId = row.needId) : s'.existing P m = some row := by
  subst hs'
  exact findActive_append (s := s) hnames hrevision hold

/-- Ingesting a measurement again right away changes nothing. -/
theorem ingested_again (hm : m.Valid P) (h : Ingested P s m s') :
    ∃ r, ingestMeasurement P s' m = .ok (s', r) := by
  have hself : (s.recorded m).recorded m = s.recorded m := (recorded_again s.needs).1
  have hselfId : (s.recorded m).observationId m = s.observationId m := (recorded_again s.needs).2
  have happended : ∀ row, s' = { s.recorded m with needs := s.needs ++ [row] } →
      s'.existing P m = some row → s.observationId m ∈ row.observationIds →
      ∃ r, ingestMeasurement P s' m = .ok (s', r) := by
    intro row hs' hrow hk
    refine ⟨some row, ?_⟩
    subst hs'
    rw [ingest_existing hm (recorded_takes _) hrow]
    rw [(recorded_again _).2, if_pos hk, (recorded_again _).1]
  cases h with
  | quiet hquiet hnone =>
    have hagain : (s.measured m).measured m = s.measured m := measured_again s.needs
    refine ⟨none, ?_⟩
    rw [ingest_quiet (s := s.measured m) hm (.inl mem_measured) hquiet hnone, hagain]
  | known row hrow hknown =>
    refine ⟨some row, ?_⟩
    rw [ingest_existing (s := s.recorded m) hm (recorded_takes s.needs) hrow, hselfId,
      if_pos hknown, hself]
  | revised e row _ he happend _ =>
    obtain ⟨hs', hid, hrevision, hnames, hk⟩ :=
      recognised_of_append (fun r hr => Option.some.inj hr ▸ (existing_latest he).2) happend
    refine happended row hs' (existing_appended hs' hrevision hnames fun e' he' => ?_) hk
    rw [hid, Option.some.inj (he'.symm.trans he)]
  | opened row _ hgap hnone happend _ =>
    obtain ⟨hs', hid, hrevision, hnames, hk⟩ := recognised_of_append (fun r hr => by cases hr) happend
    refine happended row hs' (existing_appended hs' hrevision hnames fun e' he' => ?_) hk
    rw [hnone] at he'
    cases he'
  | closed row expected current hgap hnone hconflict hrow hknown =>
    refine ⟨some row, ?_⟩
    have hlatest : (s.recorded m).latest (stableNeedId P m.goal m.kpis) = some row := hrow
    rw [ingest_opening (s := s.recorded m) hm (recorded_takes s.needs) hgap hnone, hself, hselfId,
      appendRecognition_conflict.2 hconflict, hlatest]
    exact if_pos hknown

/-- The condition under which a measurement's gap is recognised. -/
def Recognisable (P : Platform) (s : Store) (m : MeasurementInput) : Prop :=
  (m.status P).isGap = true → Recognised P s m ∨ s.Storable m ∧
    match s.existing P m with
    | none => ∀ row ∈ s.needs, row.needId ≠ stableNeedId P m.goal m.kpis
    | some e => e.impactAssessment = none ∨ e.conditionSummary = Runtime.strip (m.summary P)

theorem ingest_ok {r : Option BusinessNeedRevision}
    (h : ingestMeasurement P s m = .ok (s', r)) : s.ingest P m = s' := by
  simp [Store.ingest, h]

theorem ingest_error {failure : Failure}
    (h : ingestMeasurement P s m = .error failure) : s.ingest P m = s := by
  simp [Store.ingest, h]

theorem not_recognised_of_none (hnone : s.existing P m = none) : ¬ Recognised P s m := by
  rintro ⟨k, row, -, -, hlatest, hnames, -⟩
  have hfalse := findActive_none.1 hnone row.needId row hlatest
  unfold Names at hnames
  rw [hnames] at hfalse
  cases hfalse

/-- The observation of a measurement is stored when its id is in range. -/
theorem observationOf_iff (hs : s.Kept) {k : ℕ} : s.observationOf m = some k ↔
    s.observationId m = k ∧ k < s.observations.length := by
  constructor
  · intro h
    refine ⟨observationOf_eq h, ?_⟩
    obtain ⟨id, -, hk⟩ := Option.bind_eq_some_iff.1 h
    rw [List.findIdx?_eq_some_iff_getElem] at hk
    exact hk.1
  · rintro ⟨rfl, hlt⟩
    have hobservation := findOrAdd_old hlt
    have hfound := hobservation
    rw [List.findIdx?_eq_some_iff_getElem] at hfound
    obtain ⟨hbound, hsame, -⟩ := hfound
    simp only [sameFingerprints, decide_eq_true_eq] at hsame
    have hmeasurement : s.measurementId m < s.measurements.length :=
      hs.linked _ (List.getElem_mem hbound) _ _ _ hsame.2
    unfold Store.observationOf
    have hid := findOrAdd_old hmeasurement
    rw [hid, Option.bind_some]
    exact hobservation

theorem recognised_iff_known (hs : s.Kept) : Recognised P s m ↔
    ∃ row, s.latest row.needId = some row ∧ Names P m row ∧
      s.observationId m ∈ row.observationIds := by
  constructor
  · rintro ⟨k, row, hk, -, hlatest, hnames, hmem⟩
    rw [observationOf_iff hs] at hk
    exact ⟨row, hlatest, hnames, hk.1 ▸ hmem⟩
  · rintro ⟨row, hlatest, hnames, hmem⟩
    have hrow := (latest_mem hlatest).1
    have hlt := (hs.rows row hrow).observed _ hmem
    exact ⟨_, row, (observationOf_iff hs).2 ⟨rfl, hlt⟩, hrow, hlatest, hnames, hmem⟩

/-- An ingestion that succeeds on an active need leaves the measurement recognised. -/
theorem Ingested.recognised {e : BusinessNeedRevision} (h : Ingested P s m s')
    (he : s.existing P m = some e) : Recognised P s' m := by
  cases h with
  | quiet _ hnone =>
    rw [he] at hnone
    cases hnone
  | known row hrow hknown => exact recognised_known hrow hknown
  | revised e' row _ he' happend _ =>
    obtain ⟨hs', -, hrevision, hnames, hk⟩ :=
      recognised_of_append (fun r hr => Option.some.inj hr ▸ (existing_latest he').2) happend
    exact recognised_appended hs' hrevision hnames hk
  | opened _ _ _ hnone =>
    rw [he] at hnone
    cases hnone
  | closed _ _ _ _ hnone =>
    rw [he] at hnone
    cases hnone

theorem existing_no_conflict {e : BusinessNeedRevision} (he : s.existing P m = some e)
    (expected current : ℕ) : ingestMeasurement P s m ≠ .error (.conflict expected current) := by
  intro h
  rcases ingestMeasurement_conflict h with ⟨e', he', happend⟩ | ⟨hnone, -⟩
  · have hlatest : (s.recorded m).latest e'.needId = some e' := (existing_latest he').1
    exact appendNeedRevision_conflict happend (by simp [Store.currentRevision, hlatest])
  · rw [he] at hnone
    cases hnone

theorem existing_recognised_iff (hs : s.Kept) (hm : m.Valid P) {e : BusinessNeedRevision}
    (he : s.existing P m = some e) : Recognised P (s.ingest P m) m ↔ Recognised P s m ∨
      s.Storable m ∧
        (e.impactAssessment = none ∨ e.conditionSummary = Runtime.strip (m.summary P)) := by
  obtain ⟨hlatest, hnames⟩ := existing_latest he
  have hmem := (latest_mem hlatest).1
  have haccepted := recognition_accepted hs hm (e := some e) fun r hr => Option.some.inj hr ▸ hmem
  constructor
  · intro hrecognised
    cases hresult : ingestMeasurement P s m with
    | error failure =>
      rw [ingest_error hresult] at hrecognised
      exact .inl hrecognised
    | ok outcome =>
      obtain ⟨s', r⟩ := outcome
      cases ingestMeasurement_ok hresult with
      | quiet _ hnone =>
        rw [he] at hnone
        cases hnone
      | known row hrow hknown =>
        obtain ⟨hlatest', hnames'⟩ := existing_latest hrow
        exact .inl ((recognised_iff_known hs).2 ⟨row, hlatest', hnames', hknown⟩)
      | revised e' row _ he' happend hstored =>
        obtain rfl : e = e' := Option.some.inj (he.symm.trans he')
        have hchecks := needChecks_eq_none.1 (appendNeedRevision_ok.1 happend).1
        exact .inr ⟨hstored, haccepted.1 hchecks.1 e rfl⟩
      | opened _ _ _ hnone =>
        rw [he] at hnone
        cases hnone
      | closed _ _ _ _ hnone =>
        rw [he] at hnone
        cases hnone
  · rintro (hknown | ⟨hstored, hcarries⟩)
    · cases hresult : ingestMeasurement P s m with
      | error failure => rwa [ingest_error hresult]
      | ok outcome =>
        obtain ⟨s', r⟩ := outcome
        rw [ingest_ok hresult]
        exact (ingestMeasurement_ok hresult).recognised he
    · have hresult := ingest_existing hm hstored.takes he
      by_cases hk : s.observationId m ∈ e.observationIds
      · rw [if_pos hk] at hresult
        rw [ingest_ok hresult]
        exact recognised_known he hk
      · have hstatus := recognitionValues_status (e := some e) (k := s.observationId m)
          fun r hr => Option.some.inj hr ▸ hnames
        have hchecks : firstRefusal (needChecks (s.recorded m) e.needId e.revision
            (recognitionValues P m (some e) (s.observationId m))) = none := by
          refine needChecks_eq_none.2 ⟨haccepted.2 fun r hr => Option.some.inj hr ▸ hcarries,
            fun hresolved => ?_⟩
          rw [hresolved] at hstatus
          cases hstatus
        have hcurrent : (s.recorded m).currentRevision e.needId = e.revision := by
          have hlatest' : (s.recorded m).latest e.needId = some e := hlatest
          simp [Store.currentRevision, hlatest']
        have happend := appendNeedRevision_ok.2 ⟨hchecks, hcurrent, rfl, rfl⟩
        rw [if_neg hk, appendRecognition_ok.2 ⟨happend, hstored.2⟩] at hresult
        rw [ingest_ok hresult]
        exact (ingestMeasurement_ok hresult).recognised he

theorem opening_recognised_iff (hs : s.Kept) (hm : m.Valid P)
    (hgap : (m.status P).isGap = true) (hnone : s.existing P m = none) :
    ((∀ expected current, ingestMeasurement P s m ≠ .error (.conflict expected current)) ∧
      Recognised P (s.ingest P m) m) ↔
        s.Storable m ∧ ∀ row ∈ s.needs, row.needId ≠ stableNeedId P m.goal m.kpis := by
  have hzero : s.currentRevision (stableNeedId P m.goal m.kpis) = 0 ↔
      ∀ row ∈ s.needs, row.needId ≠ stableNeedId P m.goal m.kpis :=
    currentRevision_eq_zero fun r hr => (hs.rows r hr).numbered
  constructor
  · rintro ⟨-, hrecognised⟩
    cases hresult : ingestMeasurement P s m with
    | error failure =>
      rw [ingest_error hresult] at hrecognised
      exact absurd hrecognised (not_recognised_of_none hnone)
    | ok outcome =>
      obtain ⟨s', r⟩ := outcome
      rw [ingest_ok hresult] at hrecognised
      cases ingestMeasurement_ok hresult with
      | quiet hquiet =>
        rw [hgap] at hquiet
        cases hquiet
      | known row hrow =>
        rw [hnone] at hrow
        cases hrow
      | revised e _ _ he =>
        rw [hnone] at he
        cases he
      | opened row _ _ _ happend hstored =>
        exact ⟨hstored, hzero.1 (appendNeedRevision_ok.1 happend).2.1⟩
      | closed =>
        have hstill : (s.recorded m).existing P m = none := hnone
        exact absurd hrecognised (not_recognised_of_none hstill)
  · rintro ⟨hstored, hunused⟩
    have hresult := ingest_opening hm hstored.takes hgap hnone
    have hchecks : firstRefusal (needChecks (s.recorded m) (stableNeedId P m.goal m.kpis) 0
        (recognitionValues P m none (s.observationId m))) = none := by
      have hnew : Accepted (s.recorded m) (recognitionValues P m none (s.observationId m)) :=
        (recognition_accepted hs hm (e := none) (by simp)).2 (by simp)
      refine needChecks_eq_none.2 ⟨hnew, fun hresolved => ?_⟩
      cases hresolved
    have happend := appendNeedRevision_ok.2 ⟨hchecks, hzero.2 hunused, rfl, rfl⟩
    rw [appendRecognition_ok.2 ⟨happend, hstored.2⟩] at hresult
    obtain ⟨hs', -, hrevision, hnames, hk⟩ :=
      recognised_of_append (fun r hr => by cases hr) happend
    refine ⟨fun expected current h => (by rw [hresult] at h; cases h), ?_⟩
    rw [ingest_ok hresult]
    exact recognised_appended hs' hrevision hnames hk

/-- Over a reachable store: no conflict, and a gap is recognised, exactly when it is
recognisable. -/
theorem recognised_iff (hs : s.Kept) (hm : m.Valid P) :
    ((∀ expected current, ingestMeasurement P s m ≠ .error (.conflict expected current)) ∧
      ((m.status P).isGap = true → Recognised P (s.ingest P m) m)) ↔ Recognisable P s m := by
  unfold Recognisable
  cases hexisting : s.existing P m with
  | some e =>
    rw [existing_recognised_iff hs hm hexisting]
    exact and_iff_right (existing_no_conflict hexisting)
  | none =>
    by_cases hgap : (m.status P).isGap = true
    · have hiff := opening_recognised_iff hs hm hgap hexisting
      have hnot := not_recognised_of_none hexisting
      simp only [hgap, forall_const, hnot, false_or]
      exact hiff
    · have hnever : ∀ expected current,
          ingestMeasurement P s m ≠ .error (.conflict expected current) := by
        intro expected current h
        rcases ingestMeasurement_conflict h with ⟨e, he, -⟩ | ⟨-, hgap'⟩
        · rw [hexisting] at he
          cases he
        · exact hgap hgap'
      simp [hgap, hnever]

end Outcome

/-- Two goals that differ only in the order of their subjects or KPIs. -/
structure Reordered (goal goal' : Goal) (kpis kpis' : List Kpi) : Prop where
  goalId : goal'.goalId = goal.goalId
  objectiveKey : goal'.objectiveKey = goal.objectiveKey
  name : goal'.name = goal.name
  subjects : goal'.subjectRefs.Perm goal.subjectRefs
  kpis : kpis'.Perm kpis

/-- The two goals have the same active need in every store, and the same hashed id. -/
def SameNeed (P : Platform) (goal goal' : Goal) (kpis kpis' : List Kpi) : Prop :=
  (∀ t : Store, t.findActiveNeedForIdentity P goal'.objective (conditionKey goal' kpis')
      goal'.subjects =
    t.findActiveNeedForIdentity P goal.objective (conditionKey goal kpis) goal.subjects) ∧
  stableNeedId P goal' kpis' = stableNeedId P goal kpis

def OneSubject (goal : Goal) : Prop :=
  ∀ a ∈ goal.subjectRefs, ∀ b ∈ goal.subjectRefs, a = b

section Reordering
variable {goal goal' : Goal}

theorem sortedKpiIds_perm {kpis kpis' : List Kpi} (h : kpis'.Perm kpis) : sortedKpiIds kpis' = sortedKpiIds kpis := by
  have hperm : (sortedKpiIds kpis').Perm (sortedKpiIds kpis) :=
    ((List.perm_insertionSort _ _).trans (h.map _)).trans (List.perm_insertionSort _ _).symm
  apply hperm.eq_of_pairwise
  · exact fun a b _ _ hab hba => le_antisymm hab hba
  · exact List.pairwise_insertionSort _ _
  · exact List.pairwise_insertionSort _ _

theorem dump_injective : Function.Injective BusinessObjectRef.dump := by
  rintro ⟨objectType, objectId⟩ ⟨objectType', objectId'⟩ h
  simpa [BusinessObjectRef.dump] using h

/-- The subjects of a goal enter its condition key in the order the caller lists them. -/
theorem reordered_iff (P : Platform) (kpis : List Kpi) : (∀ goal' kpis', Reordered goal goal' kpis kpis' →
    SameNeed P goal goal' kpis kpis') ↔ OneSubject goal := by
  constructor
  · intro h
    have hsame : ∀ refs, refs.Perm goal.subjectRefs → refs = goal.subjectRefs := by
      intro refs hperm
      have hneed := (h { goal with subjectRefs := refs } kpis
        ⟨rfl, rfl, rfl, hperm, List.Perm.refl _⟩).2
      have hcondition := (Text.need.inj hneed).2.2.1
      exact List.map_injective_iff.2 dump_injective (Text.condition.inj hcondition).2.2
    intro a ha b hb
    have hfirst := hsame _ (List.perm_cons_erase ha).symm
    have hsecond := hsame _ (List.perm_cons_erase hb).symm
    exact (List.cons.inj (hfirst.trans hsecond.symm)).1
  · intro hone goal' kpis' hre
    have hrefs : goal'.subjectRefs = goal.subjectRefs := by
      cases hsubjects : goal.subjectRefs with
      | nil =>
        have hperm := hre.subjects
        rw [hsubjects] at hperm
        exact hperm.eq_nil
      | cons a refs =>
        have hreplicate : goal.subjectRefs = List.replicate goal.subjectRefs.length a :=
          List.eq_replicate_of_mem fun b hb => hone b hb a (by rw [hsubjects]; simp)
        have hperm := hre.subjects
        rw [hreplicate, List.perm_replicate] at hperm
        rw [hperm, ← hsubjects]
        exact hreplicate.symm
    have hobjective : goal'.objective = goal.objective := by
      rw [Goal.objective, Goal.objective, hre.objectiveKey, hre.goalId]
    have hsubjects : goal'.subjects = goal.subjects := by
      rw [Goal.subjects, Goal.subjects, hrefs]
    have hcondition : conditionKey goal' kpis' = conditionKey goal kpis := by
      rw [conditionKey, conditionKey, hre.goalId, sortedKpiIds_perm hre.kpis, hsubjects]
    refine ⟨fun t => by rw [hobjective, hcondition, hsubjects], ?_⟩
    rw [stableNeedId, stableNeedId, hobjective, hcondition, hsubjects]

end Reordering

/-- What is asked of one ingestion: no revision conflict, a gap leaves an active need that
refers to the measurement, a second ingestion changes nothing, and the order in which the
goal lists its subjects and KPIs does not matter. -/
structure Lawful (P : Platform) (s : Store) (m : MeasurementInput) : Prop where
  noConflict : ∀ expected current,
    ingestMeasurement P s m ≠ .error (.conflict expected current)
  recognised : (m.status P).isGap = true → Recognised P (s.ingest P m) m
  again : (s.ingest P m).ingest P m = s.ingest P m
  sameNeed : ∀ goal' kpis', Reordered m.goal goal' m.kpis kpis' →
    SameNeed P m.goal goal' m.kpis kpis'

theorem ingest_again (hm : m.Valid P) : (s.ingest P m).ingest P m = s.ingest P m := by
  cases hresult : ingestMeasurement P s m with
  | error failure => rw [ingest_error hresult, ingest_error hresult]
  | ok outcome =>
    obtain ⟨s', r⟩ := outcome
    obtain ⟨r', hagain⟩ := ingested_again hm (ingestMeasurement_ok hresult)
    rw [ingest_ok hresult, ingest_ok hagain]

/-- In every reachable store, ingesting a valid measurement is lawful exactly when its gap is
recognisable and its goal lists one subject. -/
theorem goal_gap_recognised (P : Platform) (run : List Op) (m : MeasurementInput)
    (hm : m.Valid P) :
    Lawful P (exec (step P) Store.empty run) m ↔
      Recognisable P (exec (step P) Store.empty run) m ∧ OneSubject m.goal := by
  have hs : (exec (step P) Store.empty run).Kept := exec_kept run
  rw [← recognised_iff hs hm, ← reordered_iff P m.kpis]
  constructor
  · intro h
    exact ⟨⟨h.noConflict, h.recognised⟩, h.sameNeed⟩
  · rintro ⟨⟨hnever, hrecognised⟩, hsame⟩
    exact ⟨hnever, hrecognised, ingest_again hm, hsame⟩

section Example

def readDump : Json → Option BusinessObjectRef
  | .obj [_, (_, .str objectType), (_, .str objectId)] => some ⟨objectType, objectId⟩
  | _ => none

def samplePlatform : Platform where
  tenantId := "tenant"
  doubles := ⟨fun a b => a - b, fun a b => a = b⟩
  str v := (readDump v).elim "" fun ref => ref.objectType ++ ":" ++ ref.objectId
  dumps v := (readDump v).elim "" fun ref => ref.objectType ++ ":" ++ ref.objectId
  readRef := readDump
  collate _ _ := true

def sampleGoal : Goal where
  goalId := "replies"
  objectiveKey := none
  name := "Reply rate"
  subjectRefs := [⟨"account", "a1"⟩]
  named := ⟨by decide +kernel, fun _ h => nomatch h⟩

/-- A measurement below its target, in the given version of its source. -/
def sampleMeasurement (version : String) (observedAt : ℤ) : MeasurementInput where
  goal := sampleGoal
  kpis := [⟨"k", "replies", "Replies", "reply_rate", .increase, some 10, some 4, none, "", true, none⟩]
  subjectReferences := sampleGoal.subjects
  sourceVerified := false
  sourceReference := .obj [("report", .str "weekly")]
  sourceVersion := version
  periodStart := none
  periodEnd := none
  observedAt := ⟨observedAt, some 0⟩
  intended := .ok none
  producer := "owner"

def sampleNeedId : Text :=
  stableNeedId samplePlatform sampleGoal (sampleMeasurement "v1" 1).kpis

/-- The customer closes the recognised need. -/
def supersede : NeedValues where
  status := .superseded
  subjectReferences := sampleGoal.subjects
  objectiveReference := none
  conditionSummary := "No longer pursued"
  observationIds := [0]
  relatedNeeds := []
  candidateResponses := []
  proposals := []
  missions := []
  impactAssessment := none
  resolutionObservationIds := []
  producer := "owner"

def supersededRun : List Op :=
  [.ingest (sampleMeasurement "v1" 1), .appendNeed sampleNeedId 1 supersede]

theorem goal_gap_recognised_first :
    Lawful samplePlatform Store.empty (sampleMeasurement "v1" 1) := by
  have hvalid : (sampleMeasurement "v1" 1).Valid samplePlatform :=
    ⟨by decide +kernel, by decide +kernel⟩
  have hnone : Store.empty.existing samplePlatform (sampleMeasurement "v1" 1) = none := by
    decide +kernel
  refine (goal_gap_recognised samplePlatform [] (sampleMeasurement "v1" 1) hvalid).2 ⟨?_, ?_⟩
  · intro _
    right
    rw [exec_nil, hnone]
    refine ⟨⟨.inr (by decide +kernel), by decide +kernel⟩, ?_⟩
    exact fun row hrow => absurd hrow List.not_mem_nil
  · intro a ha b hb
    rw [List.mem_singleton.1 ha, List.mem_singleton.1 hb]

/-- Three KPIs whose metrics have sixty letters each. -/
def wideMeasurement : MeasurementInput :=
  { sampleMeasurement "v1" 1 with
    kpis := ["k", "l", "m"].map fun id => ⟨id, "replies", "Replies",
      String.ofList (List.replicate 60 'r'), .increase, some 10, some 4, none, "", true, none⟩ }

/-- After the need is superseded the next measurement of the gap conflicts with it; a measurement
whose metrics do not fit their column is not recognised at all. -/
theorem closed_need_conflicts :
    ((sampleMeasurement "v2" 2).Valid samplePlatform ∧
      ((sampleMeasurement "v2" 2).status samplePlatform).isGap = true ∧
      ingestMeasurement samplePlatform (exec (step samplePlatform) Store.empty supersededRun)
        (sampleMeasurement "v2" 2) = .error (.conflict 0 2) ∧
      ¬ Lawful samplePlatform (exec (step samplePlatform) Store.empty supersededRun)
        (sampleMeasurement "v2" 2)) ∧
    wideMeasurement.Valid samplePlatform ∧ (wideMeasurement.status samplePlatform).isGap = true ∧
      ingestMeasurement samplePlatform Store.empty wideMeasurement = .error .data ∧
      ¬ Lawful samplePlatform Store.empty wideMeasurement := by
  have hconflict : ingestMeasurement samplePlatform
      (exec (step samplePlatform) Store.empty supersededRun) (sampleMeasurement "v2" 2) =
      .error (.conflict 0 2) := by decide +kernel
  have hgap : (wideMeasurement.status samplePlatform).isGap = true := by decide +kernel
  have hwide : ingestMeasurement samplePlatform Store.empty wideMeasurement = .error .data := by
    decide +kernel
  refine ⟨⟨⟨by decide +kernel, by decide +kernel⟩, by decide +kernel, hconflict, fun h => ?_⟩,
    ⟨by decide +kernel, by decide +kernel⟩, hgap, hwide, fun h => ?_⟩
  · exact h.noConflict 0 2 hconflict
  · obtain ⟨k, row, -, hrow, -⟩ := h.recognised hgap
    rw [ingest_error hwide] at hrow
    cases hrow

end Example

end Ajenda.NeedRecognition
