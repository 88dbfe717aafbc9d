import Ajenda.ContradictionMonotonicity

/-!
# Decisions informed by knowledge, and the episodes they become

Knowledge enters a decision as facts that cite the evidence rows of the learning signals of its
supporting episodes. The decision becomes a row of its own, its snapshot collects the lineages
of what it relied on, and the outcome turns the snapshot into a new episode. The rows of the
learning signals are younger than the lineages inside these signals, so the new episode shares
no dependence key with an episode it was derived from.
-/
namespace Ajenda.Experience
open Ajenda.Runtime (strip)

section Tenant

inductive RowContent
  | learningSignal (episodeId : String) (signal : DecisionLearningSignal)
  | other (lineage : Option EvidenceLineage)

structure EvidenceRow where
  rowId : String
  content : RowContent

/-- The lineage the evidence bridge stores: a learning signal is emitted without one, and any
other is renamed to its row. -/
def EvidenceRow.lineage (row : EvidenceRow) : Option EvidenceLineage :=
  match row.content with
  | .learningSignal _ _ => none
  | .other lineage => lineage.map fun l => { l with artifactEvidenceId := row.rowId }

/-- The evidence rows of a tenant. -/
structure Tenant where
  rows : List EvidenceRow
  nodup : (rows.map (·.rowId)).Nodup

def Tenant.row (T : Tenant) (rowId : String) : Option EvidenceRow :=
  T.rows.find? (·.rowId = rowId)

/-- The rows that hold a signal of the episode. -/
def Tenant.signalRows (T : Tenant) (episodeId : String) :
    List (String × DecisionLearningSignal) :=
  T.rows.filterMap fun row =>
    match row.content with
    | .learningSignal id signal => if id = episodeId then some (row.rowId, signal) else none
    | .other _ => none

/-- The lowest row of the episode, as `_resolve_historical_episode_evidence` picks it. -/
def Tenant.episodeRow (T : Tenant) (episodeId : String) : Except String String :=
  match T.signalRows episodeId with
  | [] => .error "Knowledge support episode lacks durable learning-signal evidence"
  | first :: rest =>
    if rest.any (·.2 ≠ first.2) then
      .error "Knowledge support episode has contradictory durable learning signals"
    else .ok ((rest.map (·.1)).foldl min first.1)

end Tenant

section Facts

/-- An influence; one that supports its option is aligned with a criterion. -/
structure KnowledgeInfluence where
  influenceId : String
  optionId : String
  criterionId : Option String
  supports : Bool
  supportingEpisodeIds : List String
  aligned : supports = true → criterionId ≠ none

/-- A decision fact as its validators admit it. -/
structure EvidenceFact where
  evidenceId : String
  missing : Bool
  supportsOptionIds : List String
  supportsCriterionIds : List String
  lineage : Option EvidenceLineage
  durableSourceEvidenceIds : List String
  owned : ∀ l ∈ lineage, l.artifactEvidenceId = evidenceId

/-- The lineage of a fact derived from the given rows. -/
def derivedLineage (factId : String) (rowIds : List String) : EvidenceLineage where
  artifactEvidenceId := factId
  rootEvidenceIds := rowIds
  parentEvidenceIds := rowIds
  ancestorEvidenceIds := rowIds
  resolution := .known

/-- `knowledge_support_evidence_facts` for one influence, the episodes' rows resolved. -/
def derivedFact (factId : String → List String → String) (episodeRows : List (String × String))
    (influence : KnowledgeInfluence) : Option EvidenceFact :=
  match influence.criterionId with
  | none => none
  | some criterionId =>
    if influence.supports = false ∨ influence.supportingEpisodeIds = [] then none
    else
      let durable := sortedSet
        ((episodeRows.filter (·.1 ∈ influence.supportingEpisodeIds)).map (·.2))
      let id := factId influence.influenceId durable
      some
        { evidenceId := id
          missing := false
          supportsOptionIds := [influence.optionId]
          supportsCriterionIds := [criterionId]
          lineage := some (derivedLineage id durable)
          durableSourceEvidenceIds := durable
          owned := fun l hl => by
            obtain rfl := Option.some.inj hl
            rfl }

/-- A fact of `_materialization_decision_input`: the derived fact under one of its rows. -/
def sourceFact (f : EvidenceFact) (rowId : String) : EvidenceFact where
  evidenceId := rowId
  missing := f.missing
  supportsOptionIds := f.supportsOptionIds
  supportsCriterionIds := f.supportsCriterionIds
  lineage := some (derivedLineage rowId [rowId])
  durableSourceEvidenceIds := [rowId]
  owned l hl := by
    obtain rfl := Option.some.inj hl
    rfl

end Facts

section Decision

/-- A decision on the caller's facts and the knowledge's influences. `chosen` is the option the
scores put first, if there are options, and `recommendationRow` the row the result gets. -/
structure InformedDecision where
  factId : String → List String → String
  influences : List KnowledgeInfluence
  evidence : List EvidenceFact
  criteria : List String
  chosen : Option String
  recommendationRow : String

/-- The episodes the influences rest on. -/
def supportEpisodeIds (influences : List KnowledgeInfluence) : List String :=
  sortedSet ((influences.filter (·.supports)).flatMap (·.supportingEpisodeIds))

/-- `_resolve_historical_episode_evidence`. -/
def Tenant.resolve (T : Tenant) (d : InformedDecision) : Except String (List (String × String)) :=
  (supportEpisodeIds d.influences).mapM fun id => do return (id, ← T.episodeRow id)

def InformedDecision.derived (d : InformedDecision) (episodeRows : List (String × String)) :
    List EvidenceFact :=
  (d.influences.filterMap (derivedFact d.factId episodeRows)).insertionSort fun a b =>
    a.evidenceId ≤ b.evidenceId

/-- The `supporting_evidence_ids` of `decision.recommend_next_action`: those of the facts linked
to the chosen option, or of the first facts when there are no options. -/
def InformedDecision.scored (d : InformedDecision) (facts : List EvidenceFact) : List String :=
  match d.chosen with
  | none => ((facts.filter fun f => !f.missing).map (·.evidenceId)).take 10
  | some option => d.criteria.flatMap fun criterion =>
      (facts.filter fun f => criterion ∈ f.supportsCriterionIds ∧
        (f.supportsOptionIds = [] ∨ option ∈ f.supportsOptionIds)).flatMap fun f =>
          if f.durableSourceEvidenceIds = [] then [f.evidenceId] else f.durableSourceEvidenceIds

/-- `_normalize_decision_evidence_ids`; of two facts with one id the later is the mapping's. -/
def normalize (derived : List EvidenceFact) (ids : List String) : List String :=
  (ids.flatMap fun id =>
    match derived.reverse.find? fun f => f.evidenceId = id ∧ f.durableSourceEvidenceIds ≠ [] with
    | some f => f.durableSourceEvidenceIds
    | none => [id]).eraseDups

def InformedDecision.supporting (d : InformedDecision) (episodeRows : List (String × String)) :
    List String :=
  normalize (d.derived episodeRows) (d.scored (d.evidence ++ d.derived episodeRows))

/-- The facts of the materialization input. -/
def InformedDecision.materialized (d : InformedDecision) (episodeRows : List (String × String)) :
    List EvidenceFact :=
  d.evidence ++ (d.derived episodeRows).flatMap fun f =>
    f.durableSourceEvidenceIds.map (sourceFact f)

/-- The lineage of the result: its parents are all rows the knowledge rests on. -/
def InformedDecision.resultLineage (d : InformedDecision)
    (episodeRows : List (String × String)) : EvidenceLineage where
  artifactEvidenceId := d.recommendationRow
  parentEvidenceIds := sortedSet (episodeRows.map (·.2))
  resolution := if episodeRows = [] then .unknown else .partly

end Decision

section Snapshot

def sameMembers (xs ys : List String) : Bool := xs.all (· ∈ ys) && ys.all (· ∈ xs)

/-- The lineage of the result, closed over its parents when the decision relied on exactly
these and all of them are known. -/
def closeResult (supporting : List String) (lineages : List EvidenceLineage)
    (result : EvidenceLineage) : EvidenceLineage :=
  let parents := lineages.filter (·.artifactEvidenceId ∈ result.parentEvidenceIds)
  let sources := (parents.filterMap (·.sourceIdentity)).dedup
  if result.resolution = .partly ∧ result.parentEvidenceIds ≠ [] ∧
      sameMembers result.parentEvidenceIds supporting ∧
      ∀ id ∈ result.parentEvidenceIds,
        ∃ l ∈ lineages, l.artifactEvidenceId = id ∧ l.resolution = .known then
    { result with
      sourceIdentity := if sources.length = 1 then sources.head? else none
      rootEvidenceIds := sortedSet (parents.flatMap (·.rootEvidenceIds))
      ancestorEvidenceIds := sortedSet (parents.flatMap fun l =>
        l.artifactEvidenceId :: (l.parentEvidenceIds ++ l.ancestorEvidenceIds))
      resolution := .known }
  else result

/-- The lineages of the facts that cite what the decision relied on. -/
def factLineages (facts : List EvidenceFact) (supporting durableArtifacts : List String) :
    List EvidenceLineage :=
  (facts.filter fun f => f.evidenceId ∈ supporting ∨
    f.durableSourceEvidenceIds.any (· ∈ supporting)).filterMap fun f =>
      f.lineage.filter (·.artifactEvidenceId ∉ durableArtifacts)

/-- `_relevant_lineages`. -/
def relevantLineages (rows : List EvidenceRow) (facts : List EvidenceFact)
    (supporting : List String) (result : EvidenceLineage) : Except String (List EvidenceLineage) :=
  let supportingLineages := rows.filterMap (·.lineage)
  let lineages := result :: supportingLineages ++
    factLineages facts supporting (supportingLineages.map (·.artifactEvidenceId))
  if lineages.any fun a => lineages.any fun b =>
      a.artifactEvidenceId = b.artifactEvidenceId ∧ a ≠ b then
    .error "conflicting lineage contracts for one evidence artifact"
  else
    .ok ((lineages.dedup.map fun l =>
      if l.artifactEvidenceId = result.artifactEvidenceId then
        closeResult supporting lineages result else l).insertionSort fun a b =>
          a.artifactEvidenceId ≤ b.artifactEvidenceId)

/-- What the outcome adds: the signal as feedback assessed it and the evidence it cites. -/
structure AssessedOutcome where
  episodeId : String
  assessed : DecisionLearningSignal
  executionEvidenceIds : List String
  outcomeEvidenceIds : List String
  observationTimeProvenance : ObservationTimeProvenance

/-- What an episode cites: its decision's evidence, its execution's and its outcome's. -/
def citedEvidence (d : InformedDecision) (episodeRows : List (String × String))
    (x : AssessedOutcome) : List String :=
  (d.supporting episodeRows ++ x.executionEvidenceIds ++ x.outcomeEvidenceIds).eraseDups

def Tenant.supportingRow (T : Tenant) (id : String) : Except String EvidenceRow :=
  match T.row id with
  | some row => .ok row
  | none => .error "decision episode supporting artifact is inaccessible"

/-- The episode the decision becomes. A fact with durable sources must stand under its one
source, as `_validate_materialization_decision_input` demands. -/
def learningEpisode (T : Tenant) (d : InformedDecision) (x : AssessedOutcome) :
    Except String ExperienceEpisodeInput := do
  let episodeRows ← T.resolve d
  let supporting := d.supporting episodeRows
  if (d.materialized episodeRows).any fun f => f.durableSourceEvidenceIds ≠ [] ∧
      f.durableSourceEvidenceIds ≠ [f.evidenceId] then
    .error "Knowledge materialization evidence ancestry disagrees with scored support"
  else
    let rows ← supporting.mapM T.supportingRow
    let lineages ← relevantLineages rows (d.materialized episodeRows) supporting
      (d.resultLineage episodeRows)
    return {
      episodeId := x.episodeId
      signal := { x.assessed with
        evidenceLineages := lineages
        supportingEvidenceIds := citedEvidence d episodeRows x }
      observationTimeProvenance := x.observationTimeProvenance }

end Snapshot

section Rows
variable {T : Tenant} {d : InformedDecision} {episodeRows : List (String × String)}

theorem mapM_ok {α β : Type} {f : α → Except String β} {xs : List α} {ys : List β}
    (h : xs.mapM f = .ok ys) :
    (∀ y ∈ ys, ∃ x ∈ xs, f x = .ok y) ∧ ∀ x ∈ xs, ∃ y ∈ ys, f x = .ok y := by
  induction xs generalizing ys with
  | nil =>
    rw [List.mapM_nil] at h
    cases h
    simp
  | cons x xs ih =>
    rw [List.mapM_cons] at h
    cases hx : f x with
    | error e =>
      rw [hx] at h
      cases h
    | ok y =>
      cases hxs : xs.mapM f with
      | error e =>
        rw [hx, hxs] at h
        cases h
      | ok zs =>
        rw [hx, hxs] at h
        cases h
        obtain ⟨hback, hforth⟩ := ih hxs
        constructor
        · intro z hz
          rcases List.mem_cons.1 hz with rfl | hz
          · exact ⟨x, List.mem_cons_self, hx⟩
          · obtain ⟨w, hw, heq⟩ := hback z hz
            exact ⟨w, List.mem_cons_of_mem _ hw, heq⟩
        · intro z hz
          rcases List.mem_cons.1 hz with rfl | hz
          · exact ⟨y, List.mem_cons_self, hx⟩
          · obtain ⟨w, hw, heq⟩ := hforth z hz
            exact ⟨w, List.mem_cons_of_mem _ hw, heq⟩

theorem foldl_min_mem (a : String) (xs : List String) : xs.foldl min a ∈ a :: xs := by
  induction xs generalizing a with
  | nil => simp
  | cons x xs ih =>
    rw [List.foldl_cons]
    rcases List.mem_cons.1 (ih (min a x)) with h | h
    · rcases min_choice a x with hmin | hmin
      · rw [h, hmin]
        exact List.mem_cons_self
      · rw [h, hmin]
        exact List.mem_cons_of_mem _ List.mem_cons_self
    · exact List.mem_cons_of_mem _ (List.mem_cons_of_mem _ h)

/-- The row of an episode holds a learning signal, so it has no lineage. -/
theorem episodeRow_lineage {episodeId rowId : String} (h : T.episodeRow episodeId = .ok rowId) :
    ∃ row, T.row rowId = some row ∧ row.lineage = none := by
  unfold Tenant.episodeRow at h
  split at h
  next => cases h
  next first rest hrows =>
    split_ifs at h
    have hmem : rowId ∈ (T.signalRows episodeId).map (·.1) := by
      rw [hrows, List.map_cons, ← Except.ok.inj h]
      exact foldl_min_mem _ _
    obtain ⟨⟨_, signal⟩, hsignal, rfl⟩ := List.mem_map.1 hmem
    obtain ⟨row, hrow, hcontent⟩ := List.mem_filterMap.1 hsignal
    split at hcontent
    next id found hlearning =>
      split_ifs at hcontent
      obtain rfl : row.rowId = _ := (Prod.mk.inj (Option.some.inj hcontent)).1
      refine ⟨row, ?_, by simp [EvidenceRow.lineage, hlearning]⟩
      have hsome : (T.rows.find? fun r => decide (r.rowId = row.rowId)).isSome := by
        rw [List.find?_isSome]
        exact ⟨row, hrow, by simp⟩
      obtain ⟨other, hother⟩ := Option.isSome_iff_exists.1 hsome
      have hid : other.rowId = row.rowId := by simpa using List.find?_some hother
      have heq : other = row :=
        List.inj_on_of_nodup_map T.nodup (List.mem_of_find?_eq_some hother) hrow hid
      rw [Tenant.row, hother, heq]
    next => cases hcontent

theorem resolve_row (h : T.resolve d = .ok episodeRows) {p : String × String}
    (hp : p ∈ episodeRows) : p.1 ∈ supportEpisodeIds d.influences ∧
      ∃ row, T.row p.2 = some row ∧ row.lineage = none := by
  obtain ⟨id, hid, hrow⟩ := (mapM_ok h).1 p hp
  cases hepisode : T.episodeRow id with
  | error e =>
    rw [hepisode] at hrow
    cases hrow
  | ok rowId =>
    rw [hepisode] at hrow
    cases hrow
    exact ⟨hid, episodeRow_lineage hepisode⟩

theorem derivedFact_some (factId : String → List String → String)
    (episodeRows : List (String × String)) {influence : KnowledgeInfluence}
    (hsupports : influence.supports = true) (hepisodes : influence.supportingEpisodeIds ≠ []) :
    ∃ f, derivedFact factId episodeRows influence = some f ∧ f.durableSourceEvidenceIds =
      sortedSet ((episodeRows.filter (·.1 ∈ influence.supportingEpisodeIds)).map (·.2)) := by
  obtain ⟨criterionId, hcriterion⟩ := Option.ne_none_iff_exists'.1 (influence.aligned hsupports)
  simp [derivedFact, hcriterion, hsupports, hepisodes]

/-- Every row the knowledge rests on has a fact of its own among the materialized ones. -/
theorem sourceFact_materialized (h : T.resolve d = .ok episodeRows) {p : String × String}
    (hp : p ∈ episodeRows) : ∃ f, sourceFact f p.2 ∈ d.materialized episodeRows := by
  have hid := (resolve_row h hp).1
  simp only [supportEpisodeIds, mem_sortedSet, List.mem_flatMap, List.mem_filter] at hid
  obtain ⟨influence, ⟨hinfluence, hsupports⟩, hepisode⟩ := hid
  obtain ⟨f, hf, hdurable⟩ := derivedFact_some d.factId episodeRows hsupports
    (List.ne_nil_of_mem hepisode)
  have hsource : p.2 ∈ f.durableSourceEvidenceIds := by
    rw [hdurable, mem_sortedSet, List.mem_map]
    exact ⟨p, List.mem_filter.2 ⟨hp, by simpa using hepisode⟩, rfl⟩
  have hmem : f ∈ d.derived episodeRows :=
    (List.mem_insertionSort _).2 (List.mem_filterMap.2 ⟨influence, hinfluence, hf⟩)
  exact ⟨f, List.mem_append_right _
    (List.mem_flatMap.2 ⟨f, hmem, List.mem_map.2 ⟨p.2, hsource, rfl⟩⟩)⟩

end Rows

section Lineages
variable {rows : List EvidenceRow} {facts : List EvidenceFact} {supporting : List String}
  {result : EvidenceLineage} {lineages : List EvidenceLineage}

/-- The lineages before the result is closed. -/
def collected (rows : List EvidenceRow) (facts : List EvidenceFact) (supporting : List String)
    (result : EvidenceLineage) : List EvidenceLineage :=
  result :: rows.filterMap (·.lineage) ++ factLineages facts supporting
    ((rows.filterMap (·.lineage)).map (·.artifactEvidenceId))

theorem relevantLineages_ok (h : relevantLineages rows facts supporting result = .ok lineages) :
    (∀ a ∈ collected rows facts supporting result, ∀ b ∈ collected rows facts supporting result,
      a.artifactEvidenceId = b.artifactEvidenceId → a = b) ∧
    ∀ l, l ∈ lineages ↔ ∃ l' ∈ collected rows facts supporting result, l =
      if l'.artifactEvidenceId = result.artifactEvidenceId then
        closeResult supporting (collected rows facts supporting result) result else l' := by
  unfold relevantLineages at h
  simp only at h
  split_ifs at h with hconflict
  constructor
  · intro a ha b hb hab
    by_contra hne
    exact hconflict (List.any_eq_true.2 ⟨a, ha, List.any_eq_true.2 ⟨b, hb, by simp [hab, hne]⟩⟩)
  · intro l
    rw [← Except.ok.inj h, List.mem_insertionSort, List.mem_map]
    constructor
    · rintro ⟨l', hl', rfl⟩
      exact ⟨l', List.mem_dedup.1 hl', rfl⟩
    · rintro ⟨l', hl', rfl⟩
      exact ⟨l', List.mem_dedup.2 hl', rfl⟩

theorem lineageResolutionOf_known {rs : List EvidenceLineageResolution} :
    lineageResolutionOf rs = .known ↔ rs ≠ [] ∧ ∀ r ∈ rs, r = .known := by
  unfold lineageResolutionOf
  split_ifs with hunknown hpartly
  · simp only [false_iff, not_and]
    intro hne hall
    rcases hunknown with hmem | hnil
    · exact absurd (hall _ hmem) (by decide)
    · exact hne hnil
  · simp only [false_iff, not_and]
    intro _ hall
    exact absurd (hall _ hpartly) (by decide)
  · simp only [true_iff]
    rw [not_or] at hunknown
    refine ⟨hunknown.2, fun r hr => ?_⟩
    cases r with
    | known => rfl
    | partly => exact absurd hr hpartly
    | unknown => exact absurd hr hunknown.1

theorem sameMembers_iff {xs ys : List String} :
    sameMembers xs ys = true ↔ ∀ id, id ∈ xs ↔ id ∈ ys := by
  simp only [sameMembers, Bool.and_eq_true, List.all_eq_true, decide_eq_true_eq]
  constructor
  · rintro ⟨hxs, hys⟩ id
    exact ⟨hxs id, hys id⟩
  · intro h
    exact ⟨fun id => (h id).1, fun id => (h id).2⟩

theorem closeResult_known {all : List EvidenceLineage} (h : result.resolution ≠ .known) :
    (closeResult supporting all result).resolution = .known ↔ result.resolution = .partly ∧
      result.parentEvidenceIds ≠ [] ∧ sameMembers result.parentEvidenceIds supporting ∧
      ∀ id ∈ result.parentEvidenceIds,
        ∃ l ∈ all, l.artifactEvidenceId = id ∧ l.resolution = .known := by
  unfold closeResult
  split_ifs with hclose
  · exact ⟨fun _ => hclose, fun _ => rfl⟩
  · exact ⟨fun hknown => absurd hknown h, fun hknown => absurd hknown hclose⟩

/-- Without a source identity the dependence keys name evidence only. -/
theorem mem_dependenceKeys {l : EvidenceLineage} (h : l.sourceIdentity = none) {key : String} :
    key ∈ l.dependenceKeys ↔ ∃ id ∈ l.artifactEvidenceId ::
      (l.rootEvidenceIds ++ l.parentEvidenceIds ++ l.ancestorEvidenceIds),
        key = "evidence:" ++ id := by
  simp only [EvidenceLineage.dependenceKeys, h, Option.map_none, Option.toList_none,
    List.append_nil, ← List.map_cons, List.mem_map, eq_comm]

end Lineages

section OnlyKnowledge
variable {T : Tenant} {d : InformedDecision} {episodeRows : List (String × String)}
  {rows : List EvidenceRow} {lineages : List EvidenceLineage}

/-- The decision relied on the rows of its knowledge and on nothing else. -/
structure OnlyKnowledge (d : InformedDecision) (episodeRows : List (String × String)) : Prop where
  informed : episodeRows ≠ []
  same : ∀ id, id ∈ episodeRows.map (·.2) ↔ id ∈ d.supporting episodeRows

/-- What `learningEpisode` checked before it collected the lineages. -/
structure Collected (T : Tenant) (d : InformedDecision) (episodeRows : List (String × String))
    (rows : List EvidenceRow) (lineages : List EvidenceLineage) : Prop where
  resolved : T.resolve d = .ok episodeRows
  shaped : ∀ f ∈ d.materialized episodeRows, f.durableSourceEvidenceIds ≠ [] →
    f.durableSourceEvidenceIds = [f.evidenceId]
  stored : ∀ row ∈ rows, ∃ id ∈ d.supporting episodeRows, T.row id = some row
  relevant : relevantLineages rows (d.materialized episodeRows) (d.supporting episodeRows)
    (d.resultLineage episodeRows) = .ok lineages

namespace Collected

/-- A decision on knowledge alone collects its own lineage and that of each row. -/
theorem only (h : Collected T d episodeRows rows lineages) (honly : OnlyKnowledge d episodeRows)
    (l : EvidenceLineage) :
    l ∈ collected rows (d.materialized episodeRows) (d.supporting episodeRows)
        (d.resultLineage episodeRows) ↔
      l = d.resultLineage episodeRows ∨
        ∃ id ∈ episodeRows.map (·.2), l = derivedLineage id [id] := by
  have hnone : rows.filterMap (·.lineage) = [] := by
    rw [List.filterMap_eq_nil_iff]
    intro row hrow
    obtain ⟨id, hid, hstored⟩ := h.stored row hrow
    obtain ⟨p, hp, rfl⟩ := List.mem_map.1 ((honly.same id).2 hid)
    obtain ⟨row', hrow', hlineage⟩ := (resolve_row h.resolved hp).2
    rw [hstored, Option.some.injEq] at hrow'
    rw [hrow', hlineage]
  have hsource : ∀ id ∈ episodeRows.map (·.2), derivedLineage id [id] ∈
      collected rows (d.materialized episodeRows) (d.supporting episodeRows)
        (d.resultLineage episodeRows) := by
    intro id hid
    obtain ⟨p, hp, rfl⟩ := List.mem_map.1 hid
    obtain ⟨f, hf⟩ := sourceFact_materialized h.resolved hp
    refine List.mem_append_right _ (List.mem_filterMap.2 ⟨sourceFact f p.2,
      List.mem_filter.2 ⟨hf, ?_⟩, ?_⟩)
    · simpa [sourceFact] using (honly.same p.2).1 hid
    · simp [hnone, sourceFact]
  constructor
  · intro hl
    rcases List.mem_append.1 hl with hl | hl
    · rcases List.mem_cons.1 hl with rfl | hl
      · exact .inl rfl
      · rw [hnone] at hl
        cases hl
    · right
      obtain ⟨f, hf, hlineage⟩ := List.mem_filterMap.1 hl
      obtain ⟨hf, hcites⟩ := List.mem_filter.1 hf
      have howned : l.artifactEvidenceId = f.evidenceId :=
        f.owned l (Option.filter_eq_some_iff.1 hlineage).1
      have hsupporting : f.evidenceId ∈ d.supporting episodeRows := by
        rcases of_decide_eq_true hcites with hid | hdurable
        · exact hid
        · obtain ⟨id, hid, hcited⟩ := List.any_eq_true.1 hdurable
          rw [h.shaped f hf (List.ne_nil_of_mem hid), List.mem_singleton] at hid
          rw [← hid]
          exact of_decide_eq_true hcited
      have hid := (honly.same f.evidenceId).2 hsupporting
      exact ⟨f.evidenceId, hid, (relevantLineages_ok h.relevant).1 l
        (List.mem_append_right _ hl) _ (hsource _ hid) howned⟩
  · rintro (rfl | ⟨id, hid, rfl⟩)
    · exact List.mem_append_left _ List.mem_cons_self
    · exact hsource id hid

/-- The lineage of the episode is known exactly when the decision relied on knowledge alone. -/
theorem known_iff (h : Collected T d episodeRows rows lineages) :
    lineageResolutionOf (lineages.map (·.resolution)) = .known ↔
      OnlyKnowledge d episodeRows := by
  have hopen : (d.resultLineage episodeRows).resolution ≠ .known := by
    simp only [InformedDecision.resultLineage]
    split_ifs <;> decide
  obtain ⟨-, hmem⟩ := relevantLineages_ok h.relevant
  rw [lineageResolutionOf_known]
  constructor
  · rintro ⟨-, hknown⟩
    have hclosed := hknown _ (List.mem_map.2 ⟨_, (hmem _).2
      ⟨d.resultLineage episodeRows, List.mem_append_left _ List.mem_cons_self, rfl⟩, rfl⟩)
    rw [if_pos rfl, closeResult_known hopen] at hclosed
    obtain ⟨hpartly, -, hsame, -⟩ := hclosed
    refine ⟨fun hnil => ?_, fun id => ?_⟩
    · simp [InformedDecision.resultLineage, hnil] at hpartly
    · have hid := sameMembers_iff.1 hsame id
      simpa [InformedDecision.resultLineage] using hid
  · intro honly
    have hclosed : (closeResult (d.supporting episodeRows) (collected rows
        (d.materialized episodeRows) (d.supporting episodeRows) (d.resultLineage episodeRows))
        (d.resultLineage episodeRows)).resolution = .known := by
      rw [closeResult_known hopen]
      refine ⟨if_neg honly.informed, ?_, ?_, fun id hid => ?_⟩
      · obtain ⟨p, hp⟩ := List.exists_mem_of_ne_nil _ honly.informed
        exact List.ne_nil_of_mem (mem_sortedSet.2 (List.mem_map.2 ⟨p, hp, rfl⟩))
      · rw [sameMembers_iff]
        intro id
        simpa [InformedDecision.resultLineage] using honly.same id
      · exact ⟨_, (h.only honly _).2 (.inr ⟨id, mem_sortedSet.1 hid, rfl⟩), rfl, rfl⟩
    refine ⟨?_, fun r hr => ?_⟩
    · exact List.ne_nil_of_mem (List.mem_map.2 ⟨_, (hmem _).2
        ⟨d.resultLineage episodeRows, List.mem_append_left _ List.mem_cons_self, rfl⟩, rfl⟩)
    · obtain ⟨l, hl, rfl⟩ := List.mem_map.1 hr
      obtain ⟨l', hl', rfl⟩ := (hmem l).1 hl
      split_ifs with hresult
      · exact hclosed
      · rcases (h.only honly l').1 hl' with rfl | ⟨id, -, rfl⟩
        · exact absurd rfl hresult
        · rfl

/-- What the lineage of the decision names, closed or not. -/
theorem closed_names (h : Collected T d episodeRows rows lineages)
    (honly : OnlyKnowledge d episodeRows) {l : EvidenceLineage}
    (hl : l = closeResult (d.supporting episodeRows) (collected rows (d.materialized episodeRows)
      (d.supporting episodeRows) (d.resultLineage episodeRows)) (d.resultLineage episodeRows)) :
    l.sourceIdentity = none ∧ l.artifactEvidenceId = d.recommendationRow ∧
      l.parentEvidenceIds = sortedSet (episodeRows.map (·.2)) ∧
      ∀ id ∈ l.rootEvidenceIds ++ l.ancestorEvidenceIds,
        id ∈ d.recommendationRow :: episodeRows.map (·.2) := by
  unfold closeResult at hl
  split_ifs at hl
  · subst hl
    have hparent : ∀ p ∈ (collected rows (d.materialized episodeRows) (d.supporting episodeRows)
        (d.resultLineage episodeRows)).filter (·.artifactEvidenceId ∈
          (d.resultLineage episodeRows).parentEvidenceIds), p.sourceIdentity = none ∧
        ∀ id ∈ p.artifactEvidenceId ::
          (p.rootEvidenceIds ++ p.parentEvidenceIds ++ p.ancestorEvidenceIds),
            id ∈ d.recommendationRow :: episodeRows.map (·.2) := by
      intro p hp
      rcases (h.only honly p).1 (List.mem_filter.1 hp).1 with rfl | ⟨row, hrow, rfl⟩
      · simp [InformedDecision.resultLineage]
      · refine ⟨rfl, fun id hid => List.mem_cons_of_mem _ ?_⟩
        obtain rfl : id = row := by simpa [derivedLineage] using hid
        exact hrow
    refine ⟨?_, rfl, rfl, fun id hid => ?_⟩
    · have hnone : ((collected rows (d.materialized episodeRows) (d.supporting episodeRows)
          (d.resultLineage episodeRows)).filter (·.artifactEvidenceId ∈
            (d.resultLineage episodeRows).parentEvidenceIds)).filterMap (·.sourceIdentity) = [] :=
        List.filterMap_eq_nil_iff.2 fun p hp => (hparent p hp).1
      simp only [hnone, List.dedup_nil, List.length_nil, if_neg (Nat.zero_ne_one)]
    · simp only [List.mem_append, mem_sortedSet, List.mem_flatMap] at hid
      rcases hid with ⟨p, hp, hid⟩ | ⟨p, hp, hid⟩
      · exact (hparent p hp).2 id (by simp [hid])
      · refine (hparent p hp).2 id ?_
        simp only [List.mem_cons, List.mem_append] at hid ⊢
        tauto
  · subst hl
    exact ⟨rfl, rfl, rfl, by simp [InformedDecision.resultLineage]⟩

/-- The dependence keys of such an episode name its own row and the rows of its knowledge. -/
theorem keys (h : Collected T d episodeRows rows lineages) (honly : OnlyKnowledge d episodeRows)
    (key : String) : key ∈ lineages.flatMap (·.dependenceKeys) ↔
      ∃ id ∈ d.recommendationRow :: episodeRows.map (·.2), key = "evidence:" ++ id := by
  obtain ⟨hsource, hartifact, hparents, hnames⟩ := h.closed_names honly rfl
  obtain ⟨-, hmem⟩ := relevantLineages_ok h.relevant
  have hclosed := (hmem _).2
    ⟨d.resultLineage episodeRows, List.mem_append_left _ List.mem_cons_self, (if_pos rfl).symm⟩
  rw [List.mem_flatMap]
  constructor
  · rintro ⟨l, hl, hkey⟩
    obtain ⟨l', hl', rfl⟩ := (hmem l).1 hl
    split_ifs at hkey with hresult
    · obtain ⟨id, hid, rfl⟩ := (mem_dependenceKeys hsource).1 hkey
      refine ⟨id, ?_, rfl⟩
      rw [hartifact, hparents] at hid
      rcases List.mem_cons.1 hid with rfl | hid
      · exact List.mem_cons_self
      · simp only [List.mem_append, mem_sortedSet] at hid
        rcases hid with (hid | hid) | hid
        · exact hnames id (List.mem_append_left _ hid)
        · exact List.mem_cons_of_mem _ hid
        · exact hnames id (List.mem_append_right _ hid)
    · rcases (h.only honly l').1 hl' with rfl | ⟨row, hrow, rfl⟩
      · exact absurd rfl hresult
      · obtain ⟨id, hid, rfl⟩ := (mem_dependenceKeys rfl).1 hkey
        obtain rfl : id = row := by simpa [derivedLineage] using hid
        exact ⟨id, List.mem_cons_of_mem _ hrow, rfl⟩
  · rintro ⟨id, hid, rfl⟩
    refine ⟨_, hclosed, (mem_dependenceKeys hsource).2 ⟨id, ?_, rfl⟩⟩
    rw [hartifact, hparents]
    rcases List.mem_cons.1 hid with rfl | hid
    · exact List.mem_cons_self
    · simp [mem_sortedSet.2 hid]

end Collected

end OnlyKnowledge

end Ajenda.Experience
