import Ajenda.KnowledgeLifecycle
import Ajenda.NewestEntries

/-!
# Current knowledge after several consolidations

Every ledger record is the one its candidate qualifies for and carries a watermark, so an
append only adds the records of the history. A proposition is active when its newest records
qualify; whether older runs change that is decided by which side is newer where they disagree.
-/
namespace Ajenda.Experience
open TransitionSystem NewestEntries

section Active

def LedgerRecord.time (r : LedgerRecord) : ℤ := r.instant.getD 0

def LedgerRecord.readable (r : LedgerRecord) : Prop :=
  r.evaluationWatermark.all Datetime.aware = true

def LedgerRecord.qualified (r : LedgerRecord) : Prop := r.status = .qualified

/-- All records are dated and readable, and the newest ones qualify. -/
abbrev StandsQualified (records : List LedgerRecord) : Prop :=
  Stands LedgerRecord.time LedgerRecord.readable LedgerRecord.qualified records

def ofProposition (proposition : KnowledgeProposition) (records : List LedgerRecord) :
    List LedgerRecord :=
  records.filter fun r => r.proposition = proposition

def Dated (records : List LedgerRecord) : Prop :=
  ∀ r ∈ records, r.evaluationWatermark.isSome = true

variable {items : List LedgerRecord}

theorem mem_frontierOf (h : Dated items) {r : LedgerRecord} :
    r ∈ frontierOf items ↔ Newest LedgerRecord.time items r := by
  unfold frontierOf Newest
  rw [List.mem_filter, List.all_eq_true]
  refine and_congr_right fun hr => forall₂_congr fun other hother => ?_
  obtain ⟨t, ht⟩ := Option.isSome_iff_exists.1 (h r hr)
  obtain ⟨u, hu⟩ := Option.isSome_iff_exists.1 (h other hother)
  simp [LedgerRecord.time, LedgerRecord.instant, ht, hu]

theorem lifecycle_active_iff (h : Dated items) :
    (resolveLifecycle items).lifecycleStatus = .active ↔
      items ≠ [] ∧ ∀ r, Newest LedgerRecord.time items r → r.qualified := by
  have hknown : items.filter (·.evaluationWatermark.isSome) = items :=
    List.filter_eq_self.2 h
  by_cases hempty : items = []
  · simp [resolveLifecycle, hempty]
  obtain ⟨newest, hnewest⟩ : ∃ r, Newest LedgerRecord.time items r := newest_exists hempty
  have hall : (((frontierOf items).map (·.status)).dedup = [.qualified]) ↔
      ∀ r, Newest LedgerRecord.time items r → r.qualified := by
    rw [dedup_eq_singleton]
    constructor
    · rintro ⟨-, hmem⟩ r hr
      exact hmem _ (List.mem_map.2 ⟨r, (mem_frontierOf h).2 hr, rfl⟩)
    · intro hq
      refine ⟨fun hnil => ?_, fun status hstatus => ?_⟩
      · rw [List.map_eq_nil_iff] at hnil
        have hmem := (mem_frontierOf h).2 hnewest
        rw [hnil] at hmem
        cases hmem
      · obtain ⟨r, hr, rfl⟩ := List.mem_map.1 hstatus
        exact hq r ((mem_frontierOf h).1 hr)
  rw [and_iff_right hempty, ← hall]
  simp only [resolveLifecycle, hknown, hempty, false_and, if_false]
  constructor
  · intro hactive
    split_ifs at hactive with hinvalid
    split at hactive
    next status hstatus =>
      rw [hstatus]
      cases status <;> first | rfl | cases hactive
    next => cases hactive
  · intro hq
    rw [hq]
    rfl

theorem isActive_iff {ledger : KnowledgeLedger} (h : Dated ledger)
    (proposition : KnowledgeProposition) :
    isActive ledger proposition = true ↔ StandsQualified (ofProposition proposition ledger) := by
  have hitems : Dated (ofProposition proposition ledger) := fun r hr =>
    h r (List.mem_filter.1 hr).1
  unfold isActive currentKnowledgeState
  simp only
  split_ifs with hreadable
  · rw [Option.any_some, decide_eq_true_eq]
    refine (lifecycle_active_iff hitems).trans ⟨fun hactive => ?_, fun hstands => ?_⟩
    · exact ⟨hactive.1, fun r hr => List.all_eq_true.1 hreadable r hr, hactive.2⟩
    · exact ⟨hstands.nonempty, hstands.newest⟩
  · refine ⟨fun hfalse => Bool.noConfusion hfalse, fun hstands => ?_⟩
    exact absurd (List.all_eq_true.2 hstands.readable) hreadable

end Active

section Records
variable {F : CaseFolding} {stableKey : PartitionPayload → String}

theorem ledgerRecord_some {candidate : ExperiencePatternCandidate} {r : LedgerRecord}
    (h : ledgerRecord candidate = .ok (some r)) :
    r.candidate = candidate ∧ r.evaluationWatermark = candidate.latestEvaluatedAt := by
  cases hq : qualifyPatternKnowledge candidate with
  | error e =>
    simp only [ledgerRecord, hq, bind, Except.bind] at h
    cases h
  | ok result =>
    simp only [ledgerRecord, hq, bind, Except.bind, pure, Except.pure, Except.ok.injEq] at h
    split at h
    next => cases h
    next context hcontext =>
      split_ifs at h
      obtain rfl := Option.some.inj h
      exact ⟨rfl, rfl⟩

theorem mem_ledgerRecords {candidates : List ExperiencePatternCandidate}
    {records : List LedgerRecord} (h : ledgerRecords candidates = .ok records)
    {r : LedgerRecord} (hr : r ∈ records) :
    ∃ candidate ∈ candidates, ledgerRecord candidate = .ok (some r) := by
  induction candidates generalizing records with
  | nil =>
    obtain rfl : [] = records := Except.ok.inj h
    cases hr
  | cons candidate rest ih =>
    cases hrecord : ledgerRecord candidate with
    | error e =>
      simp only [ledgerRecords, hrecord, bind, Except.bind] at h
      cases h
    | ok record =>
      cases hrest : ledgerRecords rest with
      | error e =>
        simp only [ledgerRecords, hrecord, hrest, bind, Except.bind] at h
        cases h
      | ok others =>
        simp only [ledgerRecords, hrecord, hrest, bind, Except.bind, pure, Except.pure,
          Except.ok.injEq] at h
        subst h
        rcases List.mem_append.1 hr with hmem | hmem
        · obtain rfl : record = some r := by simpa using hmem
          exact ⟨candidate, List.mem_cons_self, hrecord⟩
        · obtain ⟨c, hc, hcr⟩ := ih hrest hmem
          exact ⟨c, List.mem_cons_of_mem _ hc, hcr⟩

/-- A record is the one its candidate earns, with a watermark. -/
def Earned (r : LedgerRecord) : Prop :=
  ledgerRecord r.candidate = .ok (some r) ∧ r.evaluationWatermark.isSome = true

theorem Earned.unique {r r' : LedgerRecord} (h : Earned r) (h' : Earned r')
    (heq : r.candidate = r'.candidate) : r = r' := by
  have hr := h.1
  rw [heq, h'.1] at hr
  exact (Option.some.inj (Except.ok.inj hr)).symm

theorem historyRecords_earned {history : List ExperienceEpisodeInput}
    {records : List LedgerRecord} (h : historyRecords F stableKey history = .ok records) :
    ∀ r ∈ records, Earned r := by
  intro r hr
  unfold historyRecords at h
  split at h
  next => cases h
  next =>
    split at h
    next => cases h
    next result hresult =>
      split at h
      next => cases h
      next others hothers =>
        obtain rfl := Except.ok.inj h
        obtain ⟨candidate, hcandidate, hrecord⟩ := mem_ledgerRecords hothers hr
        obtain ⟨hsame, hwatermark⟩ := ledgerRecord_some hrecord
        obtain ⟨_, _, _, hspec⟩ := candidate_spec hresult hcandidate
        obtain ⟨t, -, hlatest⟩ := hspec.latestAt
        refine ⟨by rw [hsame, hrecord], ?_⟩
        rw [hwatermark, hlatest]
        rfl

/-- An append of earned records adds exactly the records it is given. -/
theorem mem_foldl_append {records : List LedgerRecord} {ledger : KnowledgeLedger}
    (hledger : ∀ r ∈ ledger, Earned r) (hrecords : ∀ r ∈ records, Earned r) (r : LedgerRecord) :
    r ∈ records.foldl appendQualification ledger ↔ r ∈ ledger ∨ r ∈ records := by
  induction records generalizing ledger with
  | nil => simp
  | cons record rest ih =>
    have hstep : ∀ x, x ∈ appendQualification ledger record ↔ x ∈ ledger ∨ x = record := by
      intro x
      unfold appendQualification
      split_ifs with hstored
      · obtain ⟨stored, hmem, hsame⟩ := List.any_eq_true.1 hstored
        have heq : stored = record := (hledger stored hmem).unique
          (hrecords record List.mem_cons_self) (of_decide_eq_true hsame)
        subst heq
        exact ⟨.inl, fun hx => hx.elim id fun hx => hx ▸ hmem⟩
      · simp
    rw [List.foldl_cons, ih, hstep, List.mem_cons, or_assoc]
    · intro x hx
      rcases (hstep x).1 hx with hx | rfl
      · exact hledger x hx
      · exact hrecords x List.mem_cons_self
    · exact fun x hx => hrecords x (List.mem_cons_of_mem _ hx)

theorem consolidate_earned (ledger : KnowledgeLedger) (history : List ExperienceEpisodeInput)
    (hledger : ∀ r ∈ ledger, Earned r) : ∀ r ∈ consolidate F stableKey ledger history, Earned r := by
  unfold consolidate
  split
  next => exact hledger
  next records hrecords =>
    have hearned := historyRecords_earned hrecords
    intro r hr
    rcases (mem_foldl_append hledger hearned r).1 hr with hr | hr
    · exact hledger r hr
    · exact hearned r hr

end Records

section Histories
variable (F : CaseFolding) (stableKey : PartitionPayload → String)

/-- Whichever of the ledger and the history's own records holds a proposition active alone,
the history's records of it are the newer ones where the two disagree. -/
def OvertakesLedger (ledger : KnowledgeLedger) (records : List LedgerRecord) : Prop :=
  ∀ proposition, Overtakes LedgerRecord.time LedgerRecord.readable LedgerRecord.qualified
    (ofProposition proposition ledger) (ofProposition proposition records)

theorem stands_congr {xs ys : List LedgerRecord} (h : ∀ r, r ∈ xs ↔ r ∈ ys) :
    StandsQualified xs ↔ StandsQualified ys := by
  have hto : ∀ {us vs : List LedgerRecord}, (∀ r, r ∈ us ↔ r ∈ vs) →
      StandsQualified us → StandsQualified vs := by
    intro us vs hmem hu
    refine ⟨fun hnil => ?_, fun r hr => hu.readable r ((hmem r).2 hr), fun r hr => ?_⟩
    · obtain ⟨r, hr⟩ := List.exists_mem_of_ne_nil _ hu.nonempty
      have hr' := (hmem r).1 hr
      rw [hnil] at hr'
      cases hr'
    · exact hu.newest r ⟨(hmem r).2 hr.1, fun y hy => hr.2 y ((hmem y).1 hy)⟩
  exact ⟨hto h, hto fun r => (h r).symm⟩

/-- After any sequence of consolidations and one more, the active propositions are those of
the last history alone exactly when its records overtake the ledger. -/
theorem current_knowledge_of_last_history (histories : List (List ExperienceEpisodeInput))
    (history : List ExperienceEpisodeInput) (records : List LedgerRecord)
    (hrecords : historyRecords F stableKey history = .ok records) :
    (∀ proposition,
      isActive (exec (consolidate F stableKey) [] (histories ++ [history])) proposition =
        isActive (consolidate F stableKey [] history) proposition) ↔
      OvertakesLedger (exec (consolidate F stableKey) [] histories) records := by
  have hearned := historyRecords_earned hrecords
  have hledger : ∀ r ∈ exec (consolidate F stableKey) [] histories, Earned r :=
    exec_preserves (I := fun ledger => ∀ r ∈ ledger, Earned r) consolidate_earned
      (fun _ hr => absurd hr List.not_mem_nil) histories
  have hempty : ∀ r ∈ ([] : KnowledgeLedger), Earned r := fun _ hr => absurd hr List.not_mem_nil
  rw [exec_append, exec_cons, exec_nil]
  simp only [consolidate, hrecords]
  refine forall_congr' fun proposition => ?_
  rw [Bool.eq_iff_iff]
  have hdated : ∀ {ledger : KnowledgeLedger}, (∀ r ∈ ledger, Earned r) →
      Dated (records.foldl appendQualification ledger) := by
    intro ledger hl r hr
    rcases (mem_foldl_append hl hearned r).1 hr with hr | hr
    · exact (hl r hr).2
    · exact (hearned r hr).2
  rw [isActive_iff (hdated hledger), isActive_iff (hdated hempty)]
  have hboth : ∀ r, r ∈ ofProposition proposition
      (records.foldl appendQualification (exec (consolidate F stableKey) [] histories)) ↔
      r ∈ ofProposition proposition (exec (consolidate F stableKey) [] histories) ++
        ofProposition proposition records := by
    intro r
    simp only [ofProposition, List.mem_append, List.mem_filter, mem_foldl_append hledger hearned]
    exact or_and_right
  have halone : ∀ r, r ∈ ofProposition proposition (records.foldl appendQualification []) ↔
      r ∈ ofProposition proposition records := by
    intro r
    simp only [ofProposition, List.mem_filter, mem_foldl_append hempty hearned, List.not_mem_nil,
      false_or]
  rw [stands_congr hboth, stands_congr halone]
  exact stands_append_iff

end Histories

section Example

/-- A later, supporting episode that names an invalidation condition. -/
def lateEpisode : ExperienceEpisodeInput :=
  sampleEpisode "d" { sampleSignal "d" .effective with
    invalidationConditions := ["churn"]
    evaluatedAt := ⟨1, some 0⟩ }

def grownHistory : List ExperienceEpisodeInput := sampleSupport ++ [lateEpisode]

/-- The proposition the first three episodes qualify. -/
def sampleProposition : KnowledgeProposition where
  subjectSemanticSignatures := [.account]
  interventionKey := "call"
  objectiveKey := some "retain"
  kpiSemanticSignatures := []
  scopeConditions := ["region-eu"]
  invalidationConditions := []

/-- The first history's proposition stays active although the grown history, consolidated
alone, does not even propose it. -/
theorem stale_proposition_active :
    sampleSupport ⊆ grownHistory ∧
      isActive (exec (consolidate plainFolding sampleKey) [] [sampleSupport, grownHistory])
        sampleProposition = true ∧
      isActive (consolidate plainFolding sampleKey [] grownHistory) sampleProposition = false :=
  ⟨List.subset_append_left _ _, by decide +kernel, by decide +kernel⟩

/-- The first two episodes alone leave the proposition provisional. -/
def earlyHistories : List (List ExperienceEpisodeInput) :=
  [sampleSupport.take 1, sampleSupport.take 2]

/-- The first two episodes and a third one evaluated later. -/
def laterHistory : List ExperienceEpisodeInput :=
  sampleSupport.take 2 ++ [sampleEpisode "c" { sampleSignal "c" .partiallyEffective with
    evaluatedAt := ⟨1, some 0⟩ }]

/-- Each ledger entry can be read and some record of its proposition is newer than the whole
ledger. -/
def outdated (ledger : KnowledgeLedger) (records : List LedgerRecord) : Bool :=
  ledger.all fun r => r.evaluationWatermark.all Datetime.aware &&
    records.any fun record => record.proposition = r.proposition &&
      ledger.all fun other => other.time < record.time

theorem overtakes_of_outdated {ledger : KnowledgeLedger} {records : List LedgerRecord}
    (h : outdated ledger records = true) : OvertakesLedger ledger records := by
  intro proposition
  refine Overtakes.of_newer fun hne => ?_
  simp only [outdated, List.all_eq_true, Bool.and_eq_true, List.any_eq_true,
    decide_eq_true_eq] at h
  refine ⟨fun r hr => (h r (List.mem_filter.1 hr).1).1, ?_⟩
  obtain ⟨r, hr⟩ := List.exists_mem_of_ne_nil _ hne
  obtain ⟨hr, hproposition⟩ := List.mem_filter.1 hr
  obtain ⟨-, record, hrecord, hsame, hnewer⟩ := h r hr
  refine ⟨record, List.mem_filter.2 ⟨hrecord, ?_⟩, fun other hother => ?_⟩
  · rw [hsame]
    exact hproposition
  · exact hnewer other (List.mem_filter.1 hother).1

/-- The provisional proposition becomes active with the later episode. -/
theorem current_knowledge_of_grown_history :
    isActive (exec (consolidate plainFolding sampleKey) [] earlyHistories)
        sampleProposition = false ∧
      isActive (consolidate plainFolding sampleKey [] laterHistory) sampleProposition = true ∧
      ∀ proposition,
        isActive (exec (consolidate plainFolding sampleKey) [] (earlyHistories ++ [laterHistory]))
          proposition = isActive (consolidate plainFolding sampleKey [] laterHistory) proposition := by
  refine ⟨by decide +kernel, by decide +kernel, ?_⟩
  cases hrecords : historyRecords plainFolding sampleKey laterHistory with
  | error e =>
    have hok : (historyRecords plainFolding sampleKey laterHistory).isOk = true := by
      decide +kernel
    rw [hrecords] at hok
    cases hok
  | ok records =>
    refine (current_knowledge_of_last_history plainFolding sampleKey earlyHistories
      laterHistory records hrecords).2 (overtakes_of_outdated ?_)
    have houtdated : (historyRecords plainFolding sampleKey laterHistory).toOption.any
        (outdated (exec (consolidate plainFolding sampleKey) [] earlyHistories)) = true := by
      decide +kernel
    rw [hrecords] at houtdated
    exact houtdated

end Example

end Ajenda.Experience
