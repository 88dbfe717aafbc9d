import Ajenda.ExperienceSignatures
import Ajenda.Fallible

/-!
# Derived evidence keeps its ancestry

`EvidenceLineage` with its validators and `derived_evidence_lineage`. A derived lineage has every
dependence key of its parent, so a common ancestor is a common key however the evidence branched.
-/
namespace Ajenda.Lineage
open Ajenda.Runtime (strip)
open Ajenda.Fallible (bind_eq_ok exists_bind_ok)
open Ajenda.Experience (EvidenceSourceIdentity EvidenceLineageResolution CaseFolding
  ExperienceEpisodeInput canonicalIdentifiers mem_sortedSet sortedSet_congr strip_strip
  deriveContextSignature pairIndependence)

section Lineages

inductive EvidenceOriginType
  | sourceObservation | derivedFact | aggregation | callerAssertion | systemComputation | unknown
  deriving DecidableEq, Repr

inductive LineageError
  | stringTooShort
  | stringTooLong
  | valueError (message : String)
  deriving DecidableEq, Repr

def EvidenceOriginType.derivedLike (origin : EvidenceOriginType) : Bool :=
  origin = .derivedFact || origin = .aggregation || origin = .systemComputation

/-- `validate_resolution_claim`: what is wrong with the resolution a lineage claims. -/
def resolutionClaim (origin : EvidenceOriginType) (source : Option EvidenceSourceIdentity)
    (roots parents ancestors : List String) (resolution : EvidenceLineageResolution) :
    Option String :=
  let hasIdentity := source.isSome || roots ≠ [] || parents ≠ [] || ancestors ≠ []
  let hasClosure := source.isSome || roots ≠ [] || ancestors ≠ []
  if resolution = .known ∧ !hasIdentity then
    some "known lineage requires source, root, parent, or ancestor identity"
  else if resolution = .known ∧ origin.derivedLike ∧ !hasClosure then
    some "known derived lineage requires source, root, or ancestor closure"
  else if resolution = .partly ∧ !hasIdentity then
    some "partial lineage requires source, root, parent, or ancestor identity"
  else if resolution = .unknown ∧ hasIdentity then
    some "unknown lineage cannot contain resolved lineage identity"
  else none

/-- An identifier as its validators leave it. -/
def Canonical (id : String) : Prop := strip id = id ∧ id ≠ ""

structure EvidenceLineage where
  artifactEvidenceId : String
  originType : EvidenceOriginType
  sourceIdentity : Option EvidenceSourceIdentity
  rootEvidenceIds : List String
  parentEvidenceIds : List String
  ancestorEvidenceIds : List String
  resolution : EvidenceLineageResolution
  artifact : Canonical artifactEvidenceId
  ids : ∀ id ∈ rootEvidenceIds ++ parentEvidenceIds ++ ancestorEvidenceIds, Canonical id
  claim : resolutionClaim originType sourceIdentity rootEvidenceIds parentEvidenceIds
    ancestorEvidenceIds resolution = none

/-- What the dependence assessment reads of a lineage. -/
def EvidenceLineage.observed (l : EvidenceLineage) : Experience.EvidenceLineage where
  artifactEvidenceId := l.artifactEvidenceId
  sourceIdentity := l.sourceIdentity
  rootEvidenceIds := l.rootEvidenceIds
  parentEvidenceIds := l.parentEvidenceIds
  ancestorEvidenceIds := l.ancestorEvidenceIds
  resolution := l.resolution

/-- `dependence_keys`. -/
def EvidenceLineage.dependenceKeys (l : EvidenceLineage) : List String := l.observed.dependenceKeys

/-- The field constraints of an artifact id. -/
def artifactError (id : String) : Option LineageError :=
  if id.length < 1 then some .stringTooShort
  else if 240 < id.length then some .stringTooLong
  else if strip id = "" then some (.valueError "artifact_evidence_id must be non-empty")
  else none

theorem artifactError_eq_none {id : String} :
    artifactError id = none ↔ id.length ≤ 240 ∧ strip id ≠ "" := by
  unfold artifactError
  split_ifs with hshort hlong hblank
  · have hempty : id = "" := String.length_eq_zero_iff.1 (by omega)
    subst hempty
    simp [strip]
  · simp [hlong]
  · simp [hblank]
  · simp [hblank, not_lt.1 hlong]

theorem mem_canonicalIdentifiers {ids : List String} {id : String} :
    id ∈ canonicalIdentifiers ids ↔ ∃ raw ∈ ids, strip raw ≠ "" ∧ strip raw = id := by
  simp only [canonicalIdentifiers, mem_sortedSet, List.mem_map, List.mem_filter,
    decide_eq_true_eq, and_assoc]

theorem canonicalIdentifiers_canonical {ids : List String} {id : String}
    (h : id ∈ canonicalIdentifiers ids) : Canonical id := by
  obtain ⟨raw, -, hne, rfl⟩ := mem_canonicalIdentifiers.1 h
  exact ⟨strip_strip raw, hne⟩

theorem mem_canonical {ids : List String} {id : String} (h : ∀ raw ∈ ids, Canonical raw) :
    id ∈ canonicalIdentifiers ids ↔ id ∈ ids := by
  rw [mem_canonicalIdentifiers]
  constructor
  · rintro ⟨raw, hraw, -, rfl⟩
    rwa [(h raw hraw).1]
  · intro hid
    exact ⟨id, hid, by rw [(h id hid).1]; exact (h id hid).2, (h id hid).1⟩

/-- `EvidenceLineage(...)`. -/
def evidenceLineage (artifactEvidenceId : String) (origin : EvidenceOriginType)
    (source : Option EvidenceSourceIdentity) (roots parents ancestors : List String)
    (resolution : EvidenceLineageResolution) : Except LineageError EvidenceLineage :=
  match hartifact : artifactError artifactEvidenceId with
  | some e => .error e
  | none =>
    match hclaim : resolutionClaim origin source (canonicalIdentifiers roots)
        (canonicalIdentifiers parents) (canonicalIdentifiers ancestors) resolution with
    | some message => .error (.valueError message)
    | none => .ok {
        artifactEvidenceId := strip artifactEvidenceId
        originType := origin
        sourceIdentity := source
        rootEvidenceIds := canonicalIdentifiers roots
        parentEvidenceIds := canonicalIdentifiers parents
        ancestorEvidenceIds := canonicalIdentifiers ancestors
        resolution := resolution
        artifact := ⟨strip_strip _, (artifactError_eq_none.1 hartifact).2⟩
        ids := by
          simp only [List.mem_append]
          rintro id ((h | h) | h) <;> exact canonicalIdentifiers_canonical h
        claim := hclaim }

/-- The ancestors a derived artifact is given. -/
def derivedAncestors (parent : EvidenceLineage) : List String :=
  parent.artifactEvidenceId :: (parent.parentEvidenceIds ++ parent.ancestorEvidenceIds)

/-- The roots a derived artifact is given. -/
def derivedRoots (parent : EvidenceLineage) : List String :=
  if parent.rootEvidenceIds = [] ∧ parent.originType = .sourceObservation then
    [parent.artifactEvidenceId]
  else parent.rootEvidenceIds

def derivedResolution (parent : EvidenceLineage) : EvidenceLineageResolution :=
  if parent.resolution = .unknown then .partly else parent.resolution

/-- `derived_evidence_lineage`. -/
def derivedEvidenceLineage (artifactEvidenceId : String) (parent : EvidenceLineage) :
    Except LineageError EvidenceLineage :=
  evidenceLineage artifactEvidenceId .derivedFact parent.sourceIdentity (derivedRoots parent)
    [parent.artifactEvidenceId] (derivedAncestors parent) (derivedResolution parent)

end Lineages

section Step
variable {parent child : EvidenceLineage} {id : String}

theorem derivedRoots_canonical : ∀ raw ∈ derivedRoots parent, Canonical raw := by
  intro raw hraw
  unfold derivedRoots at hraw
  split_ifs at hraw
  · obtain rfl := List.mem_singleton.1 hraw
    exact parent.artifact
  · exact parent.ids raw (by simp [hraw])

theorem derivedAncestors_canonical :
    ∀ raw ∈ derivedAncestors parent, Canonical raw := by
  intro raw hraw
  rcases List.mem_cons.1 hraw with rfl | hraw
  · exact parent.artifact
  · rcases List.mem_append.1 hraw with hraw | hraw
    · exact parent.ids raw (by simp [hraw])
    · exact parent.ids raw (by simp [hraw])

/-- A derived lineage can claim the resolution it is given: its parent closes it. -/
theorem derived_claim : resolutionClaim .derivedFact parent.sourceIdentity
    (canonicalIdentifiers (derivedRoots parent)) (canonicalIdentifiers [parent.artifactEvidenceId])
    (canonicalIdentifiers (derivedAncestors parent)) (derivedResolution parent) = none := by
  have hancestors : canonicalIdentifiers (derivedAncestors parent) ≠ [] :=
    List.ne_nil_of_mem ((mem_canonical derivedAncestors_canonical).2 List.mem_cons_self)
  have hresolved : derivedResolution parent ≠ .unknown := by
    unfold derivedResolution
    split_ifs with h
    · simp
    · exact h
  simp [resolutionClaim, hancestors, hresolved]

/-- A derivation fails on the new artifact id and on nothing else. -/
theorem derived_ok_iff : (∃ child, derivedEvidenceLineage id parent = .ok child) ↔
    id.length ≤ 240 ∧ strip id ≠ "" := by
  rw [← artifactError_eq_none]
  unfold derivedEvidenceLineage evidenceLineage
  split
  next e he => simp [he]
  next he =>
    split
    next message hclaim => simp [derived_claim] at hclaim
    next hclaim => simp [he]

/-- What a derivation gives. -/
theorem derived_eq (h : derivedEvidenceLineage id parent = .ok child) :
    child.artifactEvidenceId = strip id ∧ child.sourceIdentity = parent.sourceIdentity ∧
      child.rootEvidenceIds = canonicalIdentifiers (derivedRoots parent) ∧
      child.parentEvidenceIds = canonicalIdentifiers [parent.artifactEvidenceId] ∧
      child.ancestorEvidenceIds = canonicalIdentifiers (derivedAncestors parent) := by
  unfold derivedEvidenceLineage evidenceLineage at h
  split at h
  next => cases h
  next =>
    split at h
    next => cases h
    next =>
      cases h
      exact ⟨rfl, rfl, rfl, rfl, rfl⟩

theorem mem_dependenceKeys {l : EvidenceLineage} {key : String} : key ∈ l.dependenceKeys ↔
    (∃ id ∈ l.artifactEvidenceId ::
        (l.rootEvidenceIds ++ l.parentEvidenceIds ++ l.ancestorEvidenceIds),
      "evidence:" ++ id = key) ∨
      ∃ s ∈ l.sourceIdentity, "source:" ++ s.sourceSystem ++ ":" ++ s.sourceRecordId = key := by
  simp only [EvidenceLineage.dependenceKeys, Experience.EvidenceLineage.dependenceKeys,
    EvidenceLineage.observed, ← List.map_cons, List.mem_append, List.mem_map,
    Option.mem_toList, Option.map_eq_some_iff, Option.mem_def]

/-- A derived lineage has the dependence keys of its parent. -/
theorem dependenceKeys_derived (h : derivedEvidenceLineage id parent = .ok child) :
    ∀ key ∈ parent.dependenceKeys, key ∈ child.dependenceKeys := by
  obtain ⟨-, hsource, hroots, hparents, hancestors⟩ := derived_eq h
  intro key hkey
  rw [mem_dependenceKeys] at hkey ⊢
  rw [hsource, hroots, hparents, hancestors]
  refine hkey.imp_left ?_
  rintro ⟨i, hi, rfl⟩
  refine ⟨i, List.mem_cons_of_mem _ ?_, rfl⟩
  have hancestor : i ∈ derivedAncestors parent →
      i ∈ canonicalIdentifiers (derivedAncestors parent) :=
    (mem_canonical derivedAncestors_canonical).2
  simp only [List.mem_cons, List.mem_append] at hi
  rcases hi with rfl | (hi | hi) | hi
  · exact List.mem_append_right _ (hancestor (by simp [derivedAncestors]))
  · -- the roots are passed on as they are, there being one
    have hsame : derivedRoots parent = parent.rootEvidenceIds :=
      if_neg fun hnone => List.ne_nil_of_mem hi hnone.1
    refine List.mem_append_left _ (List.mem_append_left _ ?_)
    rw [mem_canonical derivedRoots_canonical, hsame]
    exact hi
  · exact List.mem_append_right _ (hancestor (by simp [derivedAncestors, hi]))
  · exact List.mem_append_right _ (hancestor (by simp [derivedAncestors, hi]))

end Step

section Trees

/-- Artifact ids to derive from an artifact, and from what is derived. -/
inductive Derivations
  | node (artifactEvidenceId : String) (derived : List Derivations)

/-- Evidence with what was derived from it. -/
inductive EvidenceTree
  | node (lineage : EvidenceLineage) (derived : List EvidenceTree)

def EvidenceTree.lineage : EvidenceTree → EvidenceLineage
  | .node lineage _ => lineage

def EvidenceTree.derived : EvidenceTree → List EvidenceTree
  | .node _ derived => derived

mutual

def derive (parent : EvidenceLineage) : Derivations → Except LineageError EvidenceTree
  | .node id derivations => do
    let lineage ← derivedEvidenceLineage id parent
    return .node lineage (← deriveAll lineage derivations)

def deriveAll (parent : EvidenceLineage) :
    List Derivations → Except LineageError (List EvidenceTree)
  | [] => .ok []
  | derivations :: rest => do
    return (← derive parent derivations) :: (← deriveAll parent rest)

end

mutual

def Derivations.ids : Derivations → List String
  | .node id derivations => id :: idsOf derivations

def idsOf : List Derivations → List String
  | [] => []
  | derivations :: rest => derivations.ids ++ idsOf rest

end

/-- The text can name an artifact. -/
def NamesArtifact (id : String) : Prop := id.length ≤ 240 ∧ strip id ≠ ""

/-- Every tree below a node holds a lineage derived from that of the node. -/
inductive Grown : EvidenceTree → Prop
  | node {lineage : EvidenceLineage} {derived : List EvidenceTree}
    (step : ∀ t ∈ derived, ∃ id, derivedEvidenceLineage id lineage = .ok t.lineage)
    (grown : ∀ t ∈ derived, Grown t) : Grown (.node lineage derived)

/-- The first tree is a node of the second. -/
inductive Within : EvidenceTree → EvidenceTree → Prop
  | self (t : EvidenceTree) : Within t t
  | derived {s t u : EvidenceTree} (hu : u ∈ t.derived) (h : Within s u) : Within s t

mutual

/-- A tree is grown when all its ids name artifacts, and only then. -/
theorem derive_ok_iff (parent : EvidenceLineage) : ∀ d : Derivations,
    (∃ t, derive parent d = .ok t) ↔ ∀ id ∈ d.ids, NamesArtifact id
  | .node id derivations => by
    rw [derive, exists_bind_ok, Derivations.ids, List.forall_mem_cons]
    constructor
    · rintro ⟨lineage, hlineage, t, ht⟩
      obtain ⟨ts, hts, -⟩ := bind_eq_ok.1 ht
      exact ⟨derived_ok_iff.1 ⟨lineage, hlineage⟩,
        (deriveAll_ok_iff lineage derivations).1 ⟨ts, hts⟩⟩
    · rintro ⟨hid, hrest⟩
      obtain ⟨lineage, hlineage⟩ := derived_ok_iff.2 hid
      obtain ⟨ts, hts⟩ := (deriveAll_ok_iff lineage derivations).2 hrest
      exact ⟨lineage, hlineage, _, bind_eq_ok.2 ⟨ts, hts, rfl⟩⟩

theorem deriveAll_ok_iff (parent : EvidenceLineage) : ∀ ds : List Derivations,
    (∃ ts, deriveAll parent ds = .ok ts) ↔ ∀ id ∈ idsOf ds, NamesArtifact id
  | [] => by simp [deriveAll, idsOf]
  | d :: ds => by
    rw [deriveAll, exists_bind_ok, idsOf, List.forall_mem_append]
    constructor
    · rintro ⟨t, ht, ts, hts⟩
      obtain ⟨us, hus, -⟩ := bind_eq_ok.1 hts
      exact ⟨(derive_ok_iff parent d).1 ⟨t, ht⟩, (deriveAll_ok_iff parent ds).1 ⟨us, hus⟩⟩
    · rintro ⟨hd, hds⟩
      obtain ⟨t, ht⟩ := (derive_ok_iff parent d).2 hd
      obtain ⟨ts, hts⟩ := (deriveAll_ok_iff parent ds).2 hds
      exact ⟨t, ht, _, bind_eq_ok.2 ⟨ts, hts, rfl⟩⟩

end

mutual

theorem derive_grown {parent : EvidenceLineage} : ∀ {d : Derivations} {t : EvidenceTree},
    derive parent d = .ok t →
      (∃ id, derivedEvidenceLineage id parent = .ok t.lineage) ∧ Grown t
  | .node id derivations, t, h => by
    rw [derive] at h
    obtain ⟨lineage, hlineage, h⟩ := bind_eq_ok.1 h
    obtain ⟨ts, hts, h⟩ := bind_eq_ok.1 h
    cases h
    have hall := deriveAll_grown hts
    exact ⟨⟨id, hlineage⟩, .node (fun t ht => (hall t ht).1) fun t ht => (hall t ht).2⟩

theorem deriveAll_grown {parent : EvidenceLineage} :
    ∀ {ds : List Derivations} {ts : List EvidenceTree}, deriveAll parent ds = .ok ts →
      ∀ t ∈ ts, (∃ id, derivedEvidenceLineage id parent = .ok t.lineage) ∧ Grown t
  | [], ts, h => by
    cases h
    simp
  | d :: ds, ts, h => by
    rw [deriveAll] at h
    obtain ⟨t, ht, h⟩ := bind_eq_ok.1 h
    obtain ⟨us, hus, h⟩ := bind_eq_ok.1 h
    cases h
    rw [List.forall_mem_cons]
    exact ⟨derive_grown ht, deriveAll_grown hus⟩

end

theorem Grown.source {source : EvidenceLineage} {ds : List Derivations} {ts : List EvidenceTree}
    (h : deriveAll source ds = .ok ts) : Grown (.node source ts) :=
  .node (fun t ht => (deriveAll_grown h t ht).1) fun t ht => (deriveAll_grown h t ht).2

theorem Grown.within {s t : EvidenceTree} (h : Within s t) (hgrown : Grown t) : Grown s := by
  induction h with
  | self => exact hgrown
  | derived hu _ ih =>
    cases hgrown with
    | node _ hderived => exact ih (hderived _ hu)

theorem Grown.keys_step {t u : EvidenceTree} (hgrown : Grown t) (hu : u ∈ t.derived) :
    ∀ key ∈ t.lineage.dependenceKeys, key ∈ u.lineage.dependenceKeys := by
  cases hgrown with
  | node hstep _ =>
    obtain ⟨id, hid⟩ := hstep u hu
    exact dependenceKeys_derived hid

/-- However deep a derivation is, it has the keys of every ancestor. -/
theorem Grown.keys {s t : EvidenceTree} (h : Within s t) (hgrown : Grown t) :
    ∀ key ∈ t.lineage.dependenceKeys, key ∈ s.lineage.dependenceKeys := by
  induction h with
  | self => exact fun _ hkey => hkey
  | derived hu h ih =>
    intro key hkey
    exact ih (hgrown.within (.derived hu (.self _))) key (hgrown.keys_step hu key hkey)

end Trees

section Dependence
variable (F : CaseFolding)

theorem pairIndependence_of_key {a b : Experience.ExperienceContextSignature} {key : String}
    (ha : key ∈ a.lineageDependenceKeys) (hb : key ∈ b.lineageDependenceKeys) :
    (pairIndependence a b).1 = .dependent := by
  have hshared : Experience.overlap a.lineageDependenceKeys b.lineageDependenceKeys = true :=
    List.any_eq_true.2 ⟨key, ha, decide_eq_true hb⟩
  simp [pairIndependence, hshared]

theorem mem_lineageDependenceKeys {e : ExperienceEpisodeInput} {l : EvidenceLineage}
    (hl : l.observed ∈ e.signal.evidenceLineages) {key : String} (hkey : key ∈ l.dependenceKeys) :
    key ∈ (deriveContextSignature F e).lineageDependenceKeys := by
  simp only [deriveContextSignature, mem_sortedSet]
  exact List.mem_append_left _ (List.mem_flatMap.2 ⟨_, hl, hkey⟩)

theorem artifact_key (l : EvidenceLineage) : "evidence:" ++ l.artifactEvidenceId ∈ l.dependenceKeys :=
  mem_dependenceKeys.2 (.inl ⟨_, List.mem_cons_self, rfl⟩)

/-- Episodes that cite evidence of one ancestor depend on each other. -/
theorem dependent_of_ancestor {t t' a a' s s' : EvidenceTree} (ht : Grown t) (ht' : Grown t')
    (ha : Within a t) (ha' : Within a' t')
    (hsame : a.lineage.artifactEvidenceId = a'.lineage.artifactEvidenceId)
    (hs : Within s a) (hs' : Within s' a') {e e' : ExperienceEpisodeInput}
    (he : s.lineage.observed ∈ e.signal.evidenceLineages)
    (he' : s'.lineage.observed ∈ e'.signal.evidenceLineages) :
    (pairIndependence (deriveContextSignature F e) (deriveContextSignature F e')).1 =
      .dependent := by
  have hkey := Grown.keys hs (ht.within ha) _ (artifact_key a.lineage)
  have hkey' := Grown.keys hs' (ht'.within ha') _ (artifact_key a'.lineage)
  rw [← hsame] at hkey'
  exact pairIndependence_of_key (mem_lineageDependenceKeys F he hkey)
    (mem_lineageDependenceKeys F he' hkey')

/-- What trees of evidence owe to common ancestry. -/
structure KeepsAncestry (source source' : EvidenceLineage) (ds ds' : List Derivations) : Prop where
  construction : (∃ ts, deriveAll source ds = .ok ts) ↔ ∀ id ∈ idsOf ds, NamesArtifact id
  keys : ∀ ts, deriveAll source ds = .ok ts → ∀ t, Within t (.node source ts) → ∀ u ∈ t.derived,
    ∀ key ∈ t.lineage.dependenceKeys, key ∈ u.lineage.dependenceKeys
  dependent : ∀ ts ts', deriveAll source ds = .ok ts → deriveAll source' ds' = .ok ts' →
    ∀ a a', Within a (.node source ts) → Within a' (.node source' ts') →
      a.lineage.artifactEvidenceId = a'.lineage.artifactEvidenceId →
    ∀ s s', Within s a → Within s' a' → ∀ e e' : ExperienceEpisodeInput,
      s.lineage.observed ∈ e.signal.evidenceLineages →
      s'.lineage.observed ∈ e'.signal.evidenceLineages →
      (pairIndependence (deriveContextSignature F e) (deriveContextSignature F e')).1 = .dependent

/-- Evidence of any depth and branching, derived from two sources, keeps its ancestry. -/
theorem trees_keep_ancestry (source source' : EvidenceLineage) (ds ds' : List Derivations) :
    KeepsAncestry F source source' ds ds' where
  construction := deriveAll_ok_iff source ds
  keys _ hts _ ht _ hu := ((Grown.source hts).within ht).keys_step hu
  dependent _ _ hts hts' _ _ ha ha' hsame _ _ hs hs' _ _ he he' :=
    dependent_of_ancestor F (.source hts) (.source hts') ha ha' hsame hs hs' he he'

/-- A record observed at its source. -/
def observedRecord : EvidenceLineage where
  artifactEvidenceId := "record"
  originType := .sourceObservation
  sourceIdentity := some ⟨"crm", "42"⟩
  rootEvidenceIds := []
  parentEvidenceIds := []
  ancestorEvidenceIds := []
  resolution := .known
  artifact := ⟨by decide +kernel, by decide⟩
  ids := by simp
  claim := by decide

/-- A blank text names no artifact, so nothing is derived under it. -/
theorem blank_artifact_not_derived :
    ¬∀ source ds, ∃ ts, deriveAll source ds = .ok ts := by
  intro hall
  have hnames := (deriveAll_ok_iff observedRecord [.node " " []]).1 (hall _ _)
  exact (hnames " " (by simp [idsOf, Derivations.ids])).2 (by decide +kernel)

end Dependence

end Ajenda.Lineage
