import Ajenda.KnowledgeLifecycle
import Ajenda.PositionalMerge

/-!
# The evidence frontier of a proposition

`_resolve` of the knowledge lifecycle on validated history items. Two times are equal when they
name one instant; the frontier and the projection id keep the offset a time was written with.
A projection id is the hash of its payload and kept as the payload.
-/
namespace Ajenda.Knowledge
open Ajenda.Experience (Datetime KpiSemanticSignature BusinessObjectType RecurrenceStrength
  KnowledgeQualificationStatus KnowledgeQualificationGates KnowledgeLifecycleStatus
  lifecycleStatus sortedSet sortedSet_congr latest)

/-- The same instant written in UTC; a naive time stays as it is. -/
def inUtc (t : Datetime) : Datetime := ⟨t.instant, t.utcoffset.map fun _ => 0⟩

section Records

inductive KnowledgeRelationshipType
  | associatedWithFavorableOutcome
  deriving DecidableEq, Repr

structure KnowledgeProposition where
  propositionKey : String
  subjectSemanticSignatures : List BusinessObjectType
  interventionKey : String
  objectiveKey : Option String
  kpiSemanticSignatures : List KpiSemanticSignature
  relationshipType : KnowledgeRelationshipType
  scopeConditions : List String
  invalidationConditions : List String
  deriving DecidableEq, Repr

structure KnowledgeEvidenceSummary where
  sourceCandidateId : String
  recurrenceStrength : RecurrenceStrength
  independentSupportCount : ℤ
  dependentSupportCount : ℤ
  strongIndependentContradictionCount : ℤ
  limitedSupportCount : ℤ
  limitedContradictionCount : ℤ
  dependentContradictionCount : ℤ
  ambiguousUnitCount : ℤ
  supportingEpisodeIds : List String
  contradictingEpisodeIds : List String
  neutralEpisodeIds : List String
  ambiguousEpisodeIds : List String
  excludedEpisodeIds : List String
  dependentEpisodeGroups : List (List String)
  earliestEvaluatedAt : Option Datetime
  latestEvaluatedAt : Option Datetime
  experienceAlgorithm : String
  deriving DecidableEq, Repr

structure QualifiedKnowledgeArtifact where
  knowledgeId : String
  proposition : KnowledgeProposition
  sourceCandidateId : String
  qualificationId : String
  qualifiedThroughEvaluatedAt : Option Datetime
  algorithm : String
  deriving DecidableEq, Repr

structure KnowledgeQualificationResult where
  qualificationId : String
  sourceCandidateId : String
  proposition : Option KnowledgeProposition
  status : KnowledgeQualificationStatus
  gates : KnowledgeQualificationGates
  evidenceSummary : KnowledgeEvidenceSummary
  reasonCodes : List String
  epistemicLimits : List String
  qualifiedKnowledge : Option QualifiedKnowledgeArtifact
  algorithm : String
  boundary : status = .qualified ↔ qualifiedKnowledge.isSome = true
  deriving DecidableEq

def QualifiedKnowledgeArtifact.inUtc (a : QualifiedKnowledgeArtifact) :
    QualifiedKnowledgeArtifact :=
  { a with qualifiedThroughEvaluatedAt := a.qualifiedThroughEvaluatedAt.map Knowledge.inUtc }

def KnowledgeQualificationResult.inUtc (q : KnowledgeQualificationResult) :
    KnowledgeQualificationResult :=
  { q with
    evidenceSummary := { q.evidenceSummary with
      earliestEvaluatedAt := q.evidenceSummary.earliestEvaluatedAt.map Knowledge.inUtc
      latestEvaluatedAt := q.evidenceSummary.latestEvaluatedAt.map Knowledge.inUtc }
    qualifiedKnowledge := q.qualifiedKnowledge.map (·.inUtc)
    boundary := by rw [Option.isSome_map, q.boundary] }

/-- `validate_ledger_shape`: what is wrong with a history item. -/
def ledgerShape (q : KnowledgeQualificationResult) (watermark : Option Datetime)
    (knowledgeRecordId : Option String) (artifact : Option QualifiedKnowledgeArtifact) :
    Option String :=
  if q.proposition = none then
    some "lifecycle history requires proposition-bearing qualification"
  else if watermark.map inUtc ≠ q.evidenceSummary.latestEvaluatedAt.map inUtc then
    some "evaluation watermark disagrees with qualification payload"
  else if q.status = .qualified then
    match artifact, knowledgeRecordId with
    | some a, some _ =>
      if q.qualifiedKnowledge.map (·.inUtc) ≠ some a.inUtc then
        some "knowledge artifact disagrees with qualification payload"
      else if some a.proposition ≠ q.proposition ∨ a.qualificationId ≠ q.qualificationId ∨
          a.sourceCandidateId ≠ q.sourceCandidateId ∨ a.algorithm ≠ q.algorithm then
        some "knowledge artifact linkage disagrees with qualification"
      else none
    | _, _ => some "qualified lifecycle history requires a knowledge artifact"
  else if artifact ≠ none ∨ knowledgeRecordId ≠ none then
    some "non-qualified lifecycle history must not have a knowledge artifact"
  else none

structure KnowledgeLifecycleHistoryItem where
  qualificationRecordId : String
  qualification : KnowledgeQualificationResult
  evaluationWatermark : Option Datetime
  knowledgeRecordId : Option String
  knowledgeArtifact : Option QualifiedKnowledgeArtifact
  shape : ledgerShape qualification evaluationWatermark knowledgeRecordId knowledgeArtifact = none
  deriving DecidableEq

end Records

section Resolve

abbrev HistoryItem := KnowledgeLifecycleHistoryItem

/-- What is hashed into a projection id. -/
structure ProjectionPayload where
  propositionKey : String
  evaluationFrontier : Option Datetime
  authoritativeQualificationIds : List String
  authoritativeKnowledgeIds : List String
  lifecycleStatus : KnowledgeLifecycleStatus
  deriving DecidableEq, Repr

structure CurrentKnowledgeState where
  propositionKey : String
  lifecycleStatus : KnowledgeLifecycleStatus
  evaluationFrontier : Option Datetime
  authoritativeQualificationIds : List String
  authoritativeKnowledgeIds : List String
  historicalQualificationCount : ℕ
  unorderedQualificationIds : List String
  reasonCodes : List String
  epistemicLimits : List String
  lifecycleProjectionId : ProjectionPayload
  deriving DecidableEq, Repr

inductive LifecycleError
  | valueError (message : String)
  | typeError (message : String)
  deriving DecidableEq, Repr

def HistoryItem.identity (i : HistoryItem) : String := i.qualification.qualificationId

def HistoryItem.propositionKey (i : HistoryItem) : Option String :=
  i.qualification.proposition.map (·.propositionKey)

theorem HistoryItem.propositionKey_isSome (i : HistoryItem) : ∃ key, i.propositionKey = some key := by
  have hshape := i.shape
  unfold ledgerShape at hshape
  split_ifs at hshape with hproposition
  all_goals
    obtain ⟨p, hp⟩ := Option.ne_none_iff_exists'.1 hproposition
    exact ⟨p.propositionKey, by rw [HistoryItem.propositionKey, hp, Option.map_some]⟩

/-- What a replay of an item must repeat. -/
def HistoryItem.content (i : HistoryItem) :
    KnowledgeQualificationResult × Option Datetime × Option QualifiedKnowledgeArtifact :=
  (i.qualification.inUtc, i.evaluationWatermark.map inUtc, i.knowledgeArtifact.map (·.inUtc))

/-- `sorted`. -/
def sorted (xs : List String) : List String := xs.insertionSort (· ≤ ·)

def keep (distinct : List (String × HistoryItem)) (item : HistoryItem) :
    Except LifecycleError (List (String × HistoryItem)) :=
  if distinct.any fun r => r.1 = item.identity ∧ r.2.content ≠ item.content then
    .error (.valueError "qualification identity has conflicting lifecycle history")
  else .ok (PositionalMerge.put distinct item.identity item)

/-- The items under their identities, in the order in which these are met. -/
def distinctItems (items : List HistoryItem) : Except LifecycleError (List HistoryItem) :=
  (items.foldlM keep []).map (·.map Prod.snd)

/-- The items of the newest watermark and that watermark; without a watermark, all items. -/
def frontierOf (distinct : List HistoryItem) :
    Except LifecycleError (Option Datetime × List HistoryItem) :=
  let known := distinct.filter (·.evaluationWatermark.isSome)
  match known.filterMap (·.evaluationWatermark) with
  | [] => .ok (none, distinct)
  | t :: ts =>
    match latest t ts with
    | .error _ => .error (.typeError "can't compare offset-naive and offset-aware datetimes")
    | .ok newest => .ok (some newest,
        known.filter fun i => i.evaluationWatermark.map inUtc = some (inUtc newest))

def statusOf (dated : Bool) (count : ℕ) (statuses : List KnowledgeQualificationStatus) :
    KnowledgeLifecycleStatus :=
  if dated = false ∧ 1 < count then .contested
  else if .invalidated ∈ statuses then .invalidated
  else match statuses.dedup with
    | [status] => lifecycleStatus status
    | _ => .contested

/-- The state that the items of a proposition with a frontier among them give. -/
def stateOf (propositionKey : String) (distinct : List HistoryItem) (newest : Option Datetime)
    (frontier : List HistoryItem) : CurrentKnowledgeState :=
  let unordered := sorted ((distinct.filter (·.evaluationWatermark.isNone)).map (·.identity))
  let status := statusOf newest.isSome distinct.length (frontier.map (·.qualification.status))
  let qualificationIds := sorted (frontier.map (·.identity))
  let knowledgeIds :=
    if status = .active then
      sorted (frontier.filterMap fun i => i.knowledgeArtifact.map (·.knowledgeId))
    else []
  { propositionKey := propositionKey
    lifecycleStatus := status
    evaluationFrontier := newest
    authoritativeQualificationIds := qualificationIds
    authoritativeKnowledgeIds := knowledgeIds
    historicalQualificationCount := distinct.length
    unorderedQualificationIds := unordered
    reasonCodes := sortedSet
      ((if newest = none ∧ distinct.length ≠ 1 then ["temporal_authority_unresolved"] else []) ++
        frontier.flatMap (·.qualification.reasonCodes))
    epistemicLimits := sortedSet
      ((if newest ≠ none ∧ unordered ≠ [] then ["undated_history_not_authoritative"] else []) ++
        frontier.flatMap (·.qualification.epistemicLimits))
    lifecycleProjectionId := ⟨propositionKey, newest, qualificationIds, knowledgeIds, status⟩ }

def absentState (propositionKey : String) : CurrentKnowledgeState where
  propositionKey := propositionKey
  lifecycleStatus := .absent
  evaluationFrontier := none
  authoritativeQualificationIds := []
  authoritativeKnowledgeIds := []
  historicalQualificationCount := 0
  unorderedQualificationIds := []
  reasonCodes := ["no_qualification_history"]
  epistemicLimits := []
  lifecycleProjectionId := ⟨propositionKey, none, [], [], .absent⟩

/-- `resolve_knowledge_lifecycle`. -/
def resolveKnowledgeLifecycle (history : List HistoryItem) (propositionKey : Option String) :
    Except LifecycleError CurrentKnowledgeState :=
  if history = [] then
    match propositionKey with
    | none =>
      .error (.valueError "proposition_key is required when lifecycle history is empty")
    | some key => .ok (absentState key)
  else
    match (history.filterMap (·.propositionKey)).dedup with
    | [key] =>
      if propositionKey ≠ none ∧ propositionKey ≠ some key then
        .error (.valueError "supplied proposition_key disagrees with lifecycle history")
      else do
        let distinct ← distinctItems history
        let frontier ← frontierOf distinct
        return stateOf key distinct frontier.1 frontier.2
    | _ => .error (.valueError "lifecycle history must contain exactly one proposition")

end Resolve

section Times
variable {s t : Datetime} {ts : List Datetime}

theorem inUtc_eq_iff : inUtc s = inUtc t ↔ s.aware = t.aware ∧ s.instant = t.instant := by
  obtain ⟨wall, offset⟩ := s
  obtain ⟨wall', offset'⟩ := t
  cases offset <;> cases offset' <;> simp [inUtc, Datetime.aware]

theorem latest_cons {u : Datetime} {us : List Datetime} (h : u.aware = t.aware) :
    latest t (u :: us) = latest (if t.instant < u.instant then u else t) us := by
  rw [latest, Experience.extreme, Datetime.lt_eq, if_pos h.symm]
  split_ifs with hlt
  · rw [decide_eq_true hlt]
    rfl
  · rw [decide_eq_false hlt]
    rfl

/-- Of times of one kind `max` takes one that no other is later than. -/
theorem latest_spec (h : ∀ u ∈ ts, u.aware = t.aware) :
    ∃ m ∈ t :: ts, latest t ts = .ok m ∧ ∀ u ∈ t :: ts, u.instant ≤ m.instant := by
  induction ts generalizing t with
  | nil => exact ⟨t, List.mem_singleton_self t, rfl, by simp⟩
  | cons u us ih =>
    have hu := h u List.mem_cons_self
    have hus : ∀ v ∈ us, v.aware = t.aware := fun v hv => h v (List.mem_cons_of_mem u hv)
    rw [latest_cons hu]
    by_cases hlt : t.instant < u.instant
    · obtain ⟨m, hm, heq, hle⟩ := ih fun v hv => (hus v hv).trans hu.symm
      refine ⟨m, List.mem_cons_of_mem t hm, by rw [if_pos hlt, heq], fun v hv => ?_⟩
      rcases List.mem_cons.1 hv with rfl | hv
      · exact hlt.le.trans (hle u List.mem_cons_self)
      · exact hle v hv
    · obtain ⟨m, hm, heq, hle⟩ := ih hus
      refine ⟨m, ?_, by rw [if_neg hlt, heq], fun v hv => ?_⟩
      · rcases List.mem_cons.1 hm with rfl | hm
        · exact List.mem_cons_self
        · exact List.mem_cons_of_mem t (List.mem_cons_of_mem u hm)
      · rcases List.mem_cons.1 hv with rfl | hv
        · exact hle v List.mem_cons_self
        · rcases List.mem_cons.1 hv with rfl | hv
          · exact (not_lt.1 hlt).trans (hle t List.mem_cons_self)
          · exact hle v (List.mem_cons_of_mem t hv)

/-- The first of several latest times is the one taken. -/
theorem latest_head (h : ∀ u ∈ ts, u.aware = t.aware) (hle : ∀ u ∈ ts, u.instant ≤ t.instant) :
    latest t ts = .ok t := by
  induction ts with
  | nil => rfl
  | cons u us ih =>
    rw [latest_cons (h u List.mem_cons_self), if_neg (hle u List.mem_cons_self).not_gt]
    exact ih (fun v hv => h v (List.mem_cons_of_mem u hv))
      fun v hv => hle v (List.mem_cons_of_mem u hv)

theorem latest_mixed (h : ∃ u ∈ ts, u.aware ≠ t.aware) :
    latest t ts = .error .naiveAndAwareTimes := by
  refine Experience.extreme_mixed ?_ ?_ h
  · intro a b hab
    rw [Datetime.lt_eq, if_neg hab.symm]
  · intro a b hab
    exact ⟨_, by rw [Datetime.lt_eq, if_pos hab.symm]⟩

end Times

section Distinct
variable {history items : List HistoryItem} {records records' : List (String × HistoryItem)}

/-- A repeated identity repeats its content. -/
def Replays (history : List HistoryItem) : Prop :=
  ∀ i ∈ history, ∀ j ∈ history, i.identity = j.identity → i.content = j.content

/-- What is kept of the items read so far. -/
structure Kept (history : List HistoryItem) (records : List (String × HistoryItem)) : Prop where
  nodup : (records.map Prod.fst).Nodup
  entries : ∀ r ∈ records, r.1 = r.2.identity ∧ r.2 ∈ history
  agree : ∀ i ∈ history, ∃ r ∈ records, r.1 = i.identity ∧ r.2.content = i.content

theorem Kept.nil : Kept [] [] := ⟨List.nodup_nil, by simp, by simp⟩

theorem keep_eq_ok {item : HistoryItem} : keep records item = .ok records' ↔
    (∀ r ∈ records, r.1 = item.identity → r.2.content = item.content) ∧
      records' = PositionalMerge.put records item.identity item := by
  unfold keep
  split_ifs with hconflict
  · simp only [false_iff, not_and]
    intro hagree
    obtain ⟨r, hr, hne⟩ := List.any_eq_true.1 hconflict
    simp only [decide_eq_true_eq] at hne
    exact absurd (hagree r hr hne.1) hne.2
  · have hagree : ∀ r ∈ records, r.1 = item.identity → r.2.content = item.content := by
      intro r hr hkey
      by_contra hne
      exact hconflict (List.any_eq_true.2 ⟨r, hr, by simpa using ⟨hkey, hne⟩⟩)
    rw [and_iff_right hagree, Except.ok.injEq, eq_comm]

theorem mem_put {key : String} {item : HistoryItem} {r : String × HistoryItem} :
    r ∈ PositionalMerge.put records key item ↔ r = (key, item) ∨ r ∈ records ∧ r.1 ≠ key := by
  unfold PositionalMerge.put
  split_ifs with hkey
  · obtain ⟨q, hq, hqkey⟩ := List.mem_map.1 hkey
    rw [List.mem_map]
    constructor
    · rintro ⟨p, hp, rfl⟩
      by_cases hpkey : p.1 = key
      · simp [hpkey]
      · simp [hpkey, hp]
    · rintro (rfl | ⟨hr, hne⟩)
      · exact ⟨q, hq, if_pos hqkey⟩
      · exact ⟨r, hr, if_neg hne⟩
  · rw [List.mem_append, List.mem_singleton, or_comm]
    refine or_congr_right ⟨fun hr => ⟨hr, ?_⟩, And.left⟩
    rintro rfl
    exact hkey (List.mem_map_of_mem hr)

theorem put_keys_nodup {key : String} (item : HistoryItem) (h : (records.map Prod.fst).Nodup) :
    ((PositionalMerge.put records key item).map Prod.fst).Nodup := by
  unfold PositionalMerge.put
  split_ifs with hkey
  · have hkeys : (records.map fun r => if r.1 = key then (key, item) else r).map Prod.fst =
        records.map Prod.fst := by
      rw [List.map_map]
      refine List.map_congr_left fun r _ => ?_
      by_cases hr : r.1 = key <;> simp [hr]
    rwa [hkeys]
  · rw [List.map_append, List.map_singleton, ← List.concat_eq_append, List.nodup_concat]
    exact ⟨hkey, h⟩

theorem Kept.put {item : HistoryItem} (h : Kept history records)
    (hagree : ∀ r ∈ records, r.1 = item.identity → r.2.content = item.content) :
    Kept (history ++ [item]) (PositionalMerge.put records item.identity item) where
  nodup := put_keys_nodup item h.nodup
  entries r hr := by
    rcases mem_put.1 hr with rfl | ⟨hr, -⟩
    · exact ⟨rfl, by simp⟩
    · exact ⟨(h.entries r hr).1, List.mem_append_left _ (h.entries r hr).2⟩
  agree i hi := by
    rcases List.mem_append.1 hi with hi | hi
    · obtain ⟨r, hr, hkey, hcontent⟩ := h.agree i hi
      by_cases hsame : r.1 = item.identity
      · refine ⟨_, mem_put.2 (.inl rfl), hsame.symm.trans hkey, ?_⟩
        exact (hagree r hr hsame).symm.trans hcontent
      · exact ⟨r, mem_put.2 (.inr ⟨hr, hsame⟩), hkey, hcontent⟩
    · obtain rfl := List.mem_singleton.1 hi
      exact ⟨_, mem_put.2 (.inl rfl), rfl, rfl⟩

/-- Reading on keeps what is to be kept. -/
theorem Kept.fold (h : Kept history records) (hfold : items.foldlM keep records = .ok records') :
    Kept (history ++ items) records' := by
  induction items generalizing history records with
  | nil =>
    rw [List.foldlM_nil] at hfold
    cases hfold
    rwa [List.append_nil]
  | cons item items ih =>
    rw [List.foldlM_cons] at hfold
    cases hkeep : keep records item with
    | error e =>
      rw [hkeep] at hfold
      cases hfold
    | ok next =>
      rw [hkeep] at hfold
      obtain ⟨hagree, rfl⟩ := keep_eq_ok.1 hkeep
      simpa using ih (h.put hagree) hfold

/-- Replays are read without a conflict. -/
theorem Kept.fold_ok (h : Kept history records) (hreplays : Replays (history ++ items)) :
    ∃ records', items.foldlM keep records = .ok records' := by
  induction items generalizing history records with
  | nil => exact ⟨records, rfl⟩
  | cons item items ih =>
    have hagree : ∀ r ∈ records, r.1 = item.identity → r.2.content = item.content := by
      intro r hr hkey
      obtain ⟨hid, hmem⟩ := h.entries r hr
      exact hreplays r.2 (List.mem_append_left _ hmem) item (by simp) (hid.symm.trans hkey)
    rw [List.foldlM_cons, keep_eq_ok.2 ⟨hagree, rfl⟩]
    exact ih (h.put hagree) (by simpa using hreplays)

theorem Kept.replays (h : Kept history records) : Replays history := by
  intro i hi j hj hid
  obtain ⟨r, hr, hkey, hcontent⟩ := h.agree i hi
  obtain ⟨q, hq, hqkey, hqcontent⟩ := h.agree j hj
  have hsame : r = q :=
    List.inj_on_of_nodup_map h.nodup hr hq (hkey.trans (hid.trans hqkey.symm))
  rw [← hcontent, ← hqcontent, hsame]

/-- The distinct items of a history. -/
structure Distinct (history distinct : List HistoryItem) : Prop where
  nodup : (distinct.map (·.identity)).Nodup
  mem : ∀ i ∈ distinct, i ∈ history
  covers : ∀ i ∈ history, ∃ j ∈ distinct, j.identity = i.identity ∧ j.content = i.content

theorem Kept.distinct (h : Kept history records) : Distinct history (records.map Prod.snd) where
  nodup := by
    have hkeys : (records.map Prod.snd).map (·.identity) = records.map Prod.fst := by
      rw [List.map_map]
      exact List.map_congr_left fun r hr => (h.entries r hr).1.symm
    rw [hkeys]
    exact h.nodup
  mem i hi := by
    obtain ⟨r, hr, rfl⟩ := List.mem_map.1 hi
    exact (h.entries r hr).2
  covers i hi := by
    obtain ⟨r, hr, hkey, hcontent⟩ := h.agree i hi
    exact ⟨r.2, List.mem_map_of_mem hr, (h.entries r hr).1.symm.trans hkey, hcontent⟩

theorem distinctItems_ok (h : Replays history) :
    ∃ distinct, distinctItems history = .ok distinct ∧ Distinct history distinct := by
  have hreplays : Replays ([] ++ history) := by simpa using h
  obtain ⟨records, hrecords⟩ := Kept.nil.fold_ok hreplays
  refine ⟨records.map Prod.snd, by rw [distinctItems, hrecords]; rfl, ?_⟩
  simpa using (Kept.nil.fold hrecords).distinct

theorem replays_of_distinctItems {distinct : List HistoryItem}
    (h : distinctItems history = .ok distinct) : Replays history := by
  unfold distinctItems at h
  cases hrecords : history.foldlM keep [] with
  | error e =>
    rw [hrecords] at h
    cases h
  | ok records => simpa using (Kept.nil.fold hrecords).replays

end Distinct

section Frontier
variable {history distinct : List HistoryItem} {i : HistoryItem}

/-- All watermarks can be compared: they are all naive or all aware. -/
def Comparable (history : List HistoryItem) : Prop :=
  ∀ i ∈ history, ∀ j ∈ history, ∀ s ∈ i.evaluationWatermark, ∀ t ∈ j.evaluationWatermark,
    s.aware = t.aware

/-- The item has the newest watermark; where no item is dated, it is the only one. -/
def InFrontier (history : List HistoryItem) (i : HistoryItem) : Prop :=
  i ∈ history ∧ match i.evaluationWatermark with
    | some t => ∀ j ∈ history, ∀ s ∈ j.evaluationWatermark, s.instant ≤ t.instant
    | none => ∀ j ∈ history, j.evaluationWatermark = none ∧ j.identity = i.identity

theorem watermark_of_content {i j : HistoryItem} (h : i.content = j.content) :
    i.evaluationWatermark.map inUtc = j.evaluationWatermark.map inUtc :=
  congrArg (·.2.1) h

theorem map_inUtc_eq_some {w : Option Datetime} {t : Datetime} :
    w.map inUtc = some (inUtc t) ↔ ∃ s ∈ w, s.aware = t.aware ∧ s.instant = t.instant := by
  rw [Option.map_eq_some_iff]
  exact exists_congr fun s => and_congr_right fun _ => inUtc_eq_iff

/-- A watermark of the history is one of the distinct items, at the same instant. -/
theorem Distinct.watermark (h : Distinct history distinct) (hi : i ∈ history) {s : Datetime}
    (hs : s ∈ i.evaluationWatermark) :
    ∃ j ∈ distinct, j.identity = i.identity ∧
      ∃ t ∈ j.evaluationWatermark, t.aware = s.aware ∧ t.instant = s.instant := by
  obtain ⟨j, hj, hid, hcontent⟩ := h.covers i hi
  refine ⟨j, hj, hid, map_inUtc_eq_some.1 ?_⟩
  rw [watermark_of_content hcontent, hs, Option.map_some]

/-- The newest of several times is read only where they can be compared. -/
theorem comparable_of_ok {read : Option Datetime × List HistoryItem} (h : Distinct history distinct)
    (hok : frontierOf distinct = .ok read) : Comparable history := by
  have hdistinct : ∀ i ∈ distinct, ∀ j ∈ distinct, ∀ s ∈ i.evaluationWatermark,
      ∀ t ∈ j.evaluationWatermark, s.aware = t.aware := by
    have hmem : ∀ i ∈ distinct, ∀ s ∈ i.evaluationWatermark,
        s ∈ (distinct.filter (·.evaluationWatermark.isSome)).filterMap (·.evaluationWatermark) :=
      fun i hi s hs => List.mem_filterMap.2
        ⟨i, List.mem_filter.2 ⟨hi, by rw [Option.mem_def.1 hs]; rfl⟩, hs⟩
    unfold frontierOf at hok
    simp only at hok
    split at hok
    next hnil =>
      intro i hi j hj s hs
      have := hmem i hi s hs
      simp [hnil] at this
    next t ts heq =>
      have hkind : ∀ u ∈ t :: ts, u.aware = t.aware := by
        by_contra hmixed
        push Not at hmixed
        obtain ⟨u, hu, hne⟩ := hmixed
        have hts : u ∈ ts := (List.mem_cons.1 hu).resolve_left fun heq => hne (by rw [heq])
        rw [latest_mixed ⟨u, hts, hne⟩] at hok
        cases hok
      intro i hi j hj s hs u hu
      rw [hkind s (heq ▸ hmem i hi s hs), hkind u (heq ▸ hmem j hj u hu)]
  intro i hi j hj s hs t ht
  obtain ⟨i', hi', -, s', hs', hsaware, -⟩ := h.watermark hi hs
  obtain ⟨j', hj', -, t', ht', htaware, -⟩ := h.watermark hj ht
  rw [← hsaware, ← htaware]
  exact hdistinct i' hi' j' hj' s' hs' t' ht'

/-- The frontier of a history with a dated item. -/
theorem frontierOf_dated (h : Distinct history distinct) (hcomparable : Comparable history)
    (hi : i ∈ history) (hdated : i.evaluationWatermark.isSome = true) :
    ∃ newest, (∃ j, InFrontier history j ∧ j ∈ distinct ∧ j.evaluationWatermark = some newest) ∧
      frontierOf distinct = .ok (some newest,
        distinct.filter fun j => j.evaluationWatermark.map inUtc = some (inUtc newest)) ∧
      ∀ j, InFrontier history j ↔ j ∈ history ∧
        j.evaluationWatermark.map inUtc = some (inUtc newest) := by
  obtain ⟨s, hs⟩ := Option.isSome_iff_exists.1 hdated
  obtain ⟨k, hk, -, u, hu, -, -⟩ := h.watermark hi hs
  have hmem : u ∈ (distinct.filter (·.evaluationWatermark.isSome)).filterMap
      (·.evaluationWatermark) :=
    List.mem_filterMap.2 ⟨k, List.mem_filter.2 ⟨hk, by rw [hu]; rfl⟩, hu⟩
  have hwatermarks : ∀ v ∈ (distinct.filter (·.evaluationWatermark.isSome)).filterMap
      (·.evaluationWatermark), ∃ j ∈ distinct, j.evaluationWatermark = some v := by
    intro v hv
    obtain ⟨j, hj, hjv⟩ := List.mem_filterMap.1 hv
    exact ⟨j, (List.mem_filter.1 hj).1, hjv⟩
  unfold frontierOf
  simp only
  split
  next hnil => simp [hnil] at hmem
  next t ts heq =>
    rw [heq] at hmem hwatermarks
    obtain ⟨jt, hjt, hjtw⟩ := hwatermarks t List.mem_cons_self
    have hkind : ∀ v ∈ ts, v.aware = t.aware := by
      intro v hv
      obtain ⟨j, hj, hjw⟩ := hwatermarks v (List.mem_cons_of_mem t hv)
      exact hcomparable j (h.mem j hj) jt (h.mem jt hjt) v hjw t hjtw
    obtain ⟨newest, hnewest, hlatest, hle⟩ := latest_spec hkind
    obtain ⟨j₀, hj₀, hj₀w⟩ := hwatermarks newest hnewest
    have hbound : ∀ j ∈ history, ∀ v ∈ j.evaluationWatermark, v.instant ≤ newest.instant := by
      intro j hj v hv
      obtain ⟨j', hj', -, v', hv', -, hinstant⟩ := h.watermark hj hv
      rw [← hinstant]
      refine hle v' (heq ▸ List.mem_filterMap.2 ⟨j', List.mem_filter.2 ⟨hj', ?_⟩, hv'⟩)
      rw [hv']
      rfl
    have hfrontier : ∀ j, InFrontier history j ↔ j ∈ history ∧
        j.evaluationWatermark.map inUtc = some (inUtc newest) := by
      intro j
      refine and_congr_right fun hj => ?_
      cases hw : j.evaluationWatermark with
      | none =>
        simp only [Option.map_none, reduceCtorEq, iff_false, not_forall]
        exact ⟨j₀, h.mem j₀ hj₀, fun hnone => by simp [hj₀w] at hnone⟩
      | some v =>
        simp only [Option.map_some, Option.some.injEq, inUtc_eq_iff]
        constructor
        · intro hall
          exact ⟨hcomparable j hj j₀ (h.mem j₀ hj₀) v hw newest hj₀w,
            le_antisymm (hbound j hj v hw) (hall j₀ (h.mem j₀ hj₀) newest hj₀w)⟩
        · rintro ⟨-, hinstant⟩ k hk w hkw
          rw [hinstant]
          exact hbound k hk w hkw
    refine ⟨newest, ⟨j₀, (hfrontier j₀).2 ⟨h.mem j₀ hj₀, ?_⟩, hj₀, hj₀w⟩, ?_, hfrontier⟩
    · rw [hj₀w, Option.map_some]
    · rw [hlatest]
      simp only [Except.ok.injEq, Prod.mk.injEq, true_and, List.filter_filter]
      refine List.filter_congr fun j _ => ?_
      cases j.evaluationWatermark <;> simp

theorem frontierOf_undated (h : Distinct history distinct)
    (hundated : ∀ i ∈ history, i.evaluationWatermark = none) :
    frontierOf distinct = .ok (none, distinct) := by
  have hnil : (distinct.filter (·.evaluationWatermark.isSome)) = [] := by
    refine List.filter_eq_nil_iff.2 fun i hi => ?_
    rw [hundated i (h.mem i hi)]
    simp
  simp [frontierOf, hnil]

/-- Where no item is dated, the frontier is the one item there is. -/
theorem inFrontier_undated (h : Distinct history distinct)
    (hundated : ∀ i ∈ history, i.evaluationWatermark = none) :
    (∃ i, InFrontier history i) ↔ distinct.length = 1 := by
  constructor
  · rintro ⟨i, hi, hall⟩
    rw [hundated i hi] at hall
    obtain ⟨j, hj, -⟩ := h.covers i hi
    have hids : distinct.map (·.identity) = List.replicate distinct.length i.identity := by
      rw [← List.length_map (f := (·.identity))]
      refine List.eq_replicate_of_mem fun id hid => ?_
      obtain ⟨k, hk, rfl⟩ := List.mem_map.1 hid
      exact (hall k (h.mem k hk)).2
    have hnodup := h.nodup
    rw [hids, List.nodup_replicate] at hnodup
    exact le_antisymm hnodup (List.length_pos_of_mem hj)
  · intro hone
    obtain ⟨i, hi⟩ := List.length_eq_one_iff.1 hone
    have hmem : i ∈ distinct := by rw [hi]; exact List.mem_singleton_self i
    refine ⟨i, h.mem i hmem, ?_⟩
    rw [hundated i (h.mem i hmem)]
    intro j hj
    obtain ⟨k, hk, hid, -⟩ := h.covers j hj
    rw [hi, List.mem_singleton] at hk
    exact ⟨hundated j hj, by rw [← hid, hk]⟩

end Frontier

section State
variable {xs ys distinct distinct' frontier frontier' : List HistoryItem}
  {newest newest' : Option Datetime} {key : String}

/-- Items with different identities and the same contents come in one order or another. -/
theorem contents_perm (hx : (xs.map (·.identity)).Nodup) (hy : (ys.map (·.identity)).Nodup)
    (hxy : ∀ i ∈ xs, ∃ j ∈ ys, j.content = i.content)
    (hyx : ∀ j ∈ ys, ∃ i ∈ xs, i.content = j.content) :
    (xs.map (·.content)).Perm (ys.map (·.content)) := by
  have hnodup : ∀ {zs : List HistoryItem}, (zs.map (·.identity)).Nodup →
      (zs.map (·.content)).Nodup := by
    intro zs hzs
    refine List.Nodup.of_map (fun c => c.1.qualificationId) ?_
    rwa [List.map_map]
  refine (List.perm_ext_iff_of_nodup (hnodup hx) (hnodup hy)).2 fun c => ?_
  simp only [List.mem_map]
  constructor
  · rintro ⟨i, hi, rfl⟩
    exact hxy i hi
  · rintro ⟨j, hj, rfl⟩
    exact hyx j hj

theorem sorted_congr {as bs : List String} (h : as.Perm bs) : sorted as = sorted bs := by
  have hsorted : ∀ l : List String, (sorted l).Pairwise (· ≤ ·) := fun l =>
    List.pairwise_insertionSort _ l
  refine List.Perm.eq_of_pairwise (fun a b _ _ => le_antisymm) (hsorted as) (hsorted bs) ?_
  exact (List.perm_insertionSort _ as).trans (h.trans (List.perm_insertionSort _ bs).symm)

theorem statusOf_congr {dated : Bool} {count : ℕ} {as bs : List KnowledgeQualificationStatus}
    (h : as.Perm bs) : statusOf dated count as = statusOf dated count bs := by
  have hdedup := h.dedup
  simp only [statusOf, h.mem_iff]
  congr 2
  cases has : as.dedup with
  | nil =>
    rw [has, List.nil_perm] at hdedup
    rw [hdedup]
  | cons a rest =>
    cases rest with
    | nil =>
      rw [has, List.singleton_perm] at hdedup
      rw [← hdedup]
    | cons b rest =>
      have hlength := hdedup.length_eq
      rw [has] at hlength
      match hbs : bs.dedup, hlength with
      | _ :: _ :: _, _ => rfl

theorem reads_perm {β : Type} (f : _ → β) (h : (xs.map (·.content)).Perm (ys.map (·.content))) :
    (xs.map fun i => f i.content).Perm (ys.map fun i => f i.content) := by
  simpa only [List.map_map, Function.comp_def] using h.map f

theorem identities_perm (h : (xs.map (·.content)).Perm (ys.map (·.content))) :
    (xs.map (·.identity)).Perm (ys.map (·.identity)) :=
  reads_perm (fun c => c.1.qualificationId) h

theorem knowledgeIds_perm (h : (xs.map (·.content)).Perm (ys.map (·.content))) :
    (xs.filterMap fun i => i.knowledgeArtifact.map (·.knowledgeId)).Perm
      (ys.filterMap fun i => i.knowledgeArtifact.map (·.knowledgeId)) := by
  have hread : ∀ zs : List HistoryItem,
      (zs.filterMap fun i => i.knowledgeArtifact.map (·.knowledgeId)) =
        (zs.map (·.content)).filterMap fun c => c.2.2.map (·.knowledgeId) := by
    intro zs
    rw [List.filterMap_map]
    refine List.filterMap_congr fun i _ => ?_
    cases hi : i.knowledgeArtifact <;>
      simp [HistoryItem.content, hi, QualifiedKnowledgeArtifact.inUtc]
  rw [hread, hread]
  exact h.filterMap _

theorem unordered_perm (h : (xs.map (·.content)).Perm (ys.map (·.content))) :
    ((xs.filter (·.evaluationWatermark.isNone)).map (·.identity)).Perm
      ((ys.filter (·.evaluationWatermark.isNone)).map (·.identity)) := by
  have hread : ∀ zs : List HistoryItem,
      (zs.filter (·.evaluationWatermark.isNone)).map (·.identity) =
        ((zs.map (·.content)).filter fun c => c.2.1.isNone).map fun c => c.1.qualificationId := by
    intro zs
    rw [List.filter_map, List.map_map]
    have hfilter : zs.filter ((fun c => c.2.1.isNone) ∘ (·.content)) =
        zs.filter (·.evaluationWatermark.isNone) :=
      List.filter_congr fun i _ => by simp [HistoryItem.content]
    rw [hfilter]
    rfl
  rw [hread, hread]
  exact (h.filter _).map _

/-- The codes of the items, with others before them. -/
theorem codes_congr (codes : _ → List String) (before : List String)
    (h : (xs.map (·.content)).Perm (ys.map (·.content))) :
    sortedSet (before ++ xs.flatMap fun i => codes i.content) =
      sortedSet (before ++ ys.flatMap fun i => codes i.content) := by
  refine sortedSet_congr fun x => ?_
  have hmem := (h.flatMap_right codes).mem_iff (a := x)
  rw [List.flatMap_map, List.flatMap_map] at hmem
  rw [List.mem_append, List.mem_append, hmem]

theorem frontierStatus_congr (hcount : newest = none → distinct.length = distinct'.length)
    (hnewest : newest.isSome = newest'.isSome)
    (h : (frontier.map (·.content)).Perm (frontier'.map (·.content))) :
    statusOf newest.isSome distinct.length (frontier.map (·.qualification.status)) =
      statusOf newest'.isSome distinct'.length (frontier'.map (·.qualification.status)) := by
  have hstatuses : (frontier.map (·.qualification.status)).Perm
      (frontier'.map (·.qualification.status)) := reads_perm (fun c => c.1.status) h
  rw [← hnewest, statusOf_congr hstatuses]
  cases newest with
  | none => rw [hcount rfl]
  | some t => simp [statusOf]

/-- Two states of the same standing: their status and their authorities. -/
structure SameAuthority (state state' : CurrentKnowledgeState) : Prop where
  lifecycleStatus : state'.lifecycleStatus = state.lifecycleStatus
  qualificationIds : state'.authoritativeQualificationIds = state.authoritativeQualificationIds
  knowledgeIds : state'.authoritativeKnowledgeIds = state.authoritativeKnowledgeIds

theorem sameAuthority (hcount : newest = none → distinct.length = distinct'.length)
    (hnewest : newest.isSome = newest'.isSome)
    (h : (frontier.map (·.content)).Perm (frontier'.map (·.content))) :
    SameAuthority (stateOf key distinct newest frontier)
      (stateOf key distinct' newest' frontier') where
  lifecycleStatus := (frontierStatus_congr hcount hnewest h).symm
  qualificationIds := (sorted_congr (identities_perm h)).symm
  knowledgeIds := by
    simp only [stateOf, frontierStatus_congr hcount hnewest h, sorted_congr (knowledgeIds_perm h)]

theorem stateOf_congr (hd : (distinct.map (·.content)).Perm (distinct'.map (·.content)))
    (hf : (frontier.map (·.content)).Perm (frontier'.map (·.content))) :
    stateOf key distinct newest frontier = stateOf key distinct' newest frontier' := by
  have hcount : distinct.length = distinct'.length := by simpa using hd.length_eq
  have hstatus : statusOf newest.isSome distinct.length (frontier.map (·.qualification.status)) =
      statusOf newest.isSome distinct'.length (frontier'.map (·.qualification.status)) :=
    frontierStatus_congr (fun _ => hcount) rfl hf
  have hreasons := fun before => codes_congr (fun c => c.1.reasonCodes) before hf
  have hlimits := fun before => codes_congr (fun c => c.1.epistemicLimits) before hf
  have hunordered := sorted_congr (unordered_perm hd)
  have hreason : ∀ i : HistoryItem, i.content.1.reasonCodes = i.qualification.reasonCodes :=
    fun _ => rfl
  have hlimit : ∀ i : HistoryItem, i.content.1.epistemicLimits = i.qualification.epistemicLimits :=
    fun _ => rfl
  simp only [hreason] at hreasons
  simp only [hlimit] at hlimits
  rw [hcount] at hstatus
  simp only [stateOf, hcount, hstatus, hreasons, hlimits, hunordered,
    sorted_congr (identities_perm hf), sorted_congr (knowledgeIds_perm hf)]

theorem statusOf_active {dated : Bool} {count : ℕ} {statuses : List KnowledgeQualificationStatus} :
    statusOf dated count statuses = .active ↔ (dated = true ∨ count ≤ 1) ∧ statuses ≠ [] ∧
      ∀ s ∈ statuses, s = .qualified := by
  have hmap : ∀ s : KnowledgeQualificationStatus, lifecycleStatus s = .active ↔ s = .qualified := by
    intro s
    cases s <;> simp [lifecycleStatus]
  unfold statusOf
  split_ifs with hmany hinvalid
  · simp only [false_iff, not_and]
    intro h
    rcases h with h | h
    · simp [hmany.1] at h
    · exact absurd hmany.2 h.not_gt
  · simp only [false_iff, not_and]
    intro _ _ hall
    simpa using hall _ hinvalid
  · have hfew : dated = true ∨ count ≤ 1 := by
      by_contra hnot
      push Not at hnot
      exact hmany ⟨by simpa using hnot.1, hnot.2⟩
    rw [and_iff_right hfew, ← Experience.dedup_eq_singleton]
    split
    next s hs =>
      rw [hmap, hs, List.singleton_inj]
    next hnot =>
      simp only [reduceCtorEq, false_iff]
      exact hnot _

end State

end Ajenda.Knowledge
