import Ajenda.CanonicalText
import Ajenda.StableRanking

/-!
# Corroboration of research claims

`corroborate_claims` groups the claims of a subject by predicate and value and ranks the values by
the independent sources behind them. Values with as many sources keep the order in which they are
met, so the order of the claims shows through exactly when two of them lead.
-/
namespace Ajenda.Research
open Experience (orderedUnique sortedSet mem_sortedSet sortedSet_congr)
open StableRanking (ranked foremost)

section Records

inductive ResearchSourceKind
  | officialWebsite | providerDocument | thirdPartyArticle | publicSearchResult | crmRecord
  deriving DecidableEq

structure ResearchSourceRecord where
  sourceId : String
  sourceKind : ResearchSourceKind
  independenceKey : String
  deriving DecidableEq

structure ObservedResearchClaim where
  claimId : String
  subjectKey : String
  predicate : String
  value : String
  sourceId : String
  deriving DecidableEq

inductive ClaimAssessmentStatus
  | supported | contradicted | gap | stale
  deriving DecidableEq

structure ClaimAssessment where
  subjectKey : String
  predicate : String
  value : Option String
  status : ClaimAssessmentStatus
  supportingClaimIds : List String
  contradictingClaimIds : List String
  independentSourceCount : ℕ
  reason : String
  deriving DecidableEq

structure CorroborationBundle where
  subjectKey : String
  assessments : List ClaimAssessment
  evidenceGaps : List String
  deriving DecidableEq

end Records

section Corroborate

/-- `source_by_id.get(source_id)`: of several sources with one id the last. -/
def sourceById (sources : List ResearchSourceRecord) (sourceId : String) :
    Option ResearchSourceRecord :=
  sources.reverse.find? (·.sourceId = sourceId)

def isAuthoritative (source : ResearchSourceRecord) : Bool :=
  source.sourceKind ∈ [.officialWebsite, .crmRecord, .providerDocument]

variable (sources : List ResearchSourceRecord) (subjectKey : String)

/-- The claims of the subject whose sources are known. -/
def groundedClaims (claims : List ObservedResearchClaim) : List ObservedResearchClaim :=
  claims.filter fun c => c.subjectKey = subjectKey && (sourceById sources c.sourceId).isSome

/-- The grounded claims of a predicate. -/
def predicateClaims (claims : List ObservedResearchClaim) (predicate : String) :
    List ObservedResearchClaim :=
  (groundedClaims sources subjectKey claims).filter (·.predicate = predicate)

def independenceKeys (claims : List ObservedResearchClaim) : List String :=
  (claims.filterMap fun c => (sourceById sources c.sourceId).map (·.independenceKey)).dedup

def hasAuthoritative (claims : List ObservedResearchClaim) : Bool :=
  claims.any fun c => (sourceById sources c.sourceId).any isAuthoritative

/-- The claims under their values, in the order in which these are met. -/
def byValue (claims : List ObservedResearchClaim) : List (String × List ObservedResearchClaim) :=
  (orderedUnique (claims.map (·.value))).map fun v => (v, claims.filter (·.value = v))

def independentSupport (item : String × List ObservedResearchClaim) : ℕ :=
  (independenceKeys sources item.2).length

def sortedIds (claims : List ObservedResearchClaim) : List String :=
  (claims.map (·.claimId)).insertionSort (· ≤ ·)

/-- The assessment of a leading value with the claims for it and against it. -/
def assessed (predicate value : String) (supporting contradicting : List ObservedResearchClaim) :
    ClaimAssessment :=
  let verdict : ClaimAssessmentStatus × String :=
    if contradicting ≠ [] then (.contradicted, "Observed sources assert conflicting values.")
    else if hasAuthoritative sources supporting ∨
        2 ≤ (independenceKeys sources supporting).length then
      (.supported, "Supported by an authoritative source or two independent sources.")
    else (.gap, "Only one non-authoritative source supports the value.")
  { subjectKey := subjectKey
    predicate := predicate
    value := some value
    status := verdict.1
    supportingClaimIds := sortedIds supporting
    contradictingClaimIds := sortedIds contradicting
    independentSourceCount := (independenceKeys sources supporting).length
    reason := verdict.2 }

/-- One turn of the loop over the predicates. -/
def assessPredicate (predicate : String) (claims : List ObservedResearchClaim) : ClaimAssessment :=
  match ranked (independentSupport sources) (byValue claims) with
  | [] =>
    { subjectKey := subjectKey
      predicate := predicate
      value := none
      status := .gap
      supportingClaimIds := []
      contradictingClaimIds := []
      independentSourceCount := 0
      reason := "No observed claim supplies the required predicate." }
  | (value, supporting) :: rest =>
    assessed sources subjectKey predicate value supporting
      ((rest.filter (·.1 ≠ value)).flatMap (·.2))

/-- `corroborate_claims`, for a valid subject key: the bundle takes 1 to 320 characters. -/
def corroborateClaims (claims : List ObservedResearchClaim) (requiredPredicates : List String) :
    CorroborationBundle :=
  let predicates := sortedSet
    ((groundedClaims sources subjectKey claims).map (·.predicate) ++ requiredPredicates)
  let assessments := predicates.map fun p =>
    assessPredicate sources subjectKey p (predicateClaims sources subjectKey claims p)
  { subjectKey := subjectKey
    assessments := assessments
    evidenceGaps := (assessments.filter (·.status ≠ .supported)).map (·.predicate) }

end Corroborate

section Grouping
variable {α : Type*} [DecidableEq α] {xs : List α} {claims : List ObservedResearchClaim}

theorem foldl_unique (xs seen : List α) (hseen : seen.Nodup) :
    let unique := xs.foldl (fun seen x => if x ∈ seen then seen else seen ++ [x]) seen
    unique.Nodup ∧ seen <+: unique ∧ ∀ x, x ∈ unique ↔ x ∈ seen ∨ x ∈ xs := by
  induction xs generalizing seen with
  | nil => exact ⟨hseen, List.prefix_rfl, by simp⟩
  | cons y xs ih =>
    rw [List.foldl_cons]
    split_ifs with hy
    · obtain ⟨hnodup, hinitial, hmem⟩ := ih seen hseen
      refine ⟨hnodup, hinitial, fun x => ?_⟩
      rw [hmem, List.mem_cons]
      constructor
      · tauto
      · rintro (hx | rfl | hx)
        · exact .inl hx
        · exact .inl hy
        · exact .inr hx
    · obtain ⟨hnodup, hinitial, hmem⟩ := ih (seen ++ [y])
        (List.nodup_append.2 ⟨hseen, List.nodup_singleton y, fun a ha b hb heq => hy (by
          rw [List.mem_singleton.1 hb] at heq
          exact heq ▸ ha)⟩)
      refine ⟨hnodup, (List.prefix_append seen [y]).trans hinitial, fun x => ?_⟩
      rw [hmem]
      simp only [List.mem_append, List.mem_cons]
      tauto

theorem orderedUnique_nodup : (orderedUnique xs).Nodup := (foldl_unique xs [] List.nodup_nil).1

theorem mem_orderedUnique {x : α} : x ∈ orderedUnique xs ↔ x ∈ xs := by
  rw [orderedUnique, (foldl_unique xs [] List.nodup_nil).2.2 x]
  simp

theorem orderedUnique_cons (x : α) (xs : List α) : ∃ rest, orderedUnique (x :: xs) = x :: rest := by
  obtain ⟨rest, hrest⟩ := (foldl_unique xs [x] (List.nodup_singleton x)).2.1
  exact ⟨rest, hrest.symm⟩

/-- The groups of distinct values make up the claims with one of the values. -/
theorem flatMap_filter_perm {values : List String} (h : values.Nodup) :
    (values.flatMap fun v => claims.filter (·.value = v)).Perm
      (claims.filter (·.value ∈ values)) := by
  induction values with
  | nil => simp
  | cons v values ih =>
    obtain ⟨hv, hvalues⟩ := List.nodup_cons.1 h
    have hsplit := List.filter_append_perm (fun c : ObservedResearchClaim => c.value = v)
      (claims.filter (·.value ∈ v :: values))
    have hfirst : (claims.filter (·.value ∈ v :: values)).filter (·.value = v) =
        claims.filter (·.value = v) := by
      rw [List.filter_filter]
      refine List.filter_congr fun c _ => ?_
      by_cases hc : c.value = v <;> simp [hc]
    have hrest : (claims.filter (·.value ∈ v :: values)).filter (fun c => !decide (c.value = v)) =
        claims.filter (·.value ∈ values) := by
      rw [List.filter_filter]
      refine List.filter_congr fun c _ => ?_
      by_cases hc : c.value = v
      · simp [hc, hv]
      · simp [hc]
    rw [hfirst, hrest] at hsplit
    rw [List.flatMap_cons]
    exact ((ih hvalues).append_left _).trans hsplit

end Grouping

section Leading
variable {sources : List ResearchSourceRecord} {subjectKey predicate v w : String}
  {claims claims' : List ObservedResearchClaim}

/-- The independent sources behind a value. -/
def support (sources : List ResearchSourceRecord) (claims : List ObservedResearchClaim)
    (value : String) : ℕ :=
  (independenceKeys sources (claims.filter (·.value = value))).length

/-- No value has more independent sources. -/
def Leads (sources : List ResearchSourceRecord) (claims : List ObservedResearchClaim)
    (value : String) : Prop :=
  value ∈ claims.map (·.value) ∧
    ∀ u ∈ claims.map (·.value), support sources claims u ≤ support sources claims value

instance (sources : List ResearchSourceRecord) (claims : List ObservedResearchClaim)
    (value : String) : Decidable (Leads sources claims value) :=
  inferInstanceAs (Decidable (_ ∧ _))

theorem mem_byValue {item : String × List ObservedResearchClaim} :
    item ∈ byValue claims ↔ item.1 ∈ claims.map (·.value) ∧
      item.2 = claims.filter (·.value = item.1) := by
  simp only [byValue, List.mem_map (f := fun v => (v, claims.filter (·.value = v))),
    mem_orderedUnique]
  constructor
  · rintro ⟨v, hv, rfl⟩
    exact ⟨hv, rfl⟩
  · rintro ⟨hv, hitem⟩
    exact ⟨item.1, hv, Prod.ext rfl hitem.symm⟩

/-- The groups of the other values make up the claims with other values. -/
theorem others_perm (v : String) : (((byValue claims).filter (·.1 ≠ v)).flatMap (·.2)).Perm
    (claims.filter (·.value ≠ v)) := by
  rw [byValue, List.filter_map, List.flatMap_map]
  refine (flatMap_filter_perm (orderedUnique_nodup.filter _)).trans (List.Perm.of_eq ?_)
  refine List.filter_congr fun c hc => ?_
  have hmem : c.value ∈ orderedUnique (claims.map (·.value)) :=
    mem_orderedUnique.2 (List.mem_map_of_mem hc)
  simp [List.mem_filter, hmem]

variable (sources subjectKey predicate) in
/-- A predicate with claims is assessed by a leading value. -/
theorem assessPredicate_leads (h : claims ≠ []) : ∃ v contradicting,
    Leads sources claims v ∧ contradicting.Perm (claims.filter (·.value ≠ v)) ∧
      foremost (independentSupport sources) (byValue claims) =
        some (v, claims.filter (·.value = v)) ∧
      assessPredicate sources subjectKey predicate claims =
        assessed sources subjectKey predicate v (claims.filter (·.value = v)) contradicting := by
  obtain ⟨c, hc⟩ := List.exists_mem_of_ne_nil claims h
  have hitem : (c.value, claims.filter (·.value = c.value)) ∈ byValue claims :=
    mem_byValue.2 ⟨List.mem_map_of_mem hc, rfl⟩
  obtain ⟨⟨v, supporting⟩, hfirst⟩ :=
    StableRanking.foremost_of_mem (independentSupport sources) hitem
  obtain ⟨hv, hsupporting⟩ := mem_byValue.1 (StableRanking.foremost_mem _ hfirst)
  simp only at hv hsupporting
  rw [hsupporting] at hfirst
  obtain ⟨rest, hranked⟩ := List.head?_eq_some_iff.1 hfirst
  refine ⟨v, (rest.filter (·.1 ≠ v)).flatMap (·.2), ⟨hv, fun u hu => ?_⟩, ?_, hfirst, ?_⟩
  · have hu' : (u, claims.filter (·.value = u)) ∈ byValue claims := mem_byValue.2 ⟨hu, rfl⟩
    exact StableRanking.foremost_le (independentSupport sources) hfirst hu'
  · have hperm : (ranked (independentSupport sources) (byValue claims)).Perm (byValue claims) :=
      List.perm_insertionSort _ _
    have hrest : (ranked (independentSupport sources) (byValue claims)).filter (·.1 ≠ v) =
        rest.filter (·.1 ≠ v) := by
      rw [hranked, List.filter_cons_of_neg (by simp)]
    rw [← hrest]
    exact ((hperm.filter _).flatMap_right _).trans (others_perm v)
  · rw [assessPredicate, hranked]

theorem assessPredicate_nil : (assessPredicate sources subjectKey predicate []).status = .gap := rfl

theorem assessPredicate_predicate :
    (assessPredicate sources subjectKey predicate claims).predicate = predicate := by
  unfold assessPredicate
  split <;> rfl

theorem independenceKeys_length (h : claims.Perm claims') :
    (independenceKeys sources claims).length = (independenceKeys sources claims').length :=
  ((h.filterMap _).dedup).length_eq

theorem hasAuthoritative_iff : hasAuthoritative sources claims = true ↔
    ∃ c ∈ claims, ∃ s, sourceById sources c.sourceId = some s ∧ isAuthoritative s = true := by
  simp [hasAuthoritative, Option.any_eq_true]

theorem hasAuthoritative_congr (h : claims.Perm claims') :
    hasAuthoritative sources claims = hasAuthoritative sources claims' := by
  rw [Bool.eq_iff_iff, hasAuthoritative_iff, hasAuthoritative_iff]
  simp only [h.mem_iff]

theorem sortedIds_congr (h : claims.Perm claims') : sortedIds claims = sortedIds claims' := by
  refine List.Perm.eq_of_pairwise (fun a b _ _ => le_antisymm) (List.pairwise_insertionSort _ _)
    (List.pairwise_insertionSort _ _) ?_
  exact (List.perm_insertionSort _ _).trans
    ((h.map _).trans (List.perm_insertionSort _ _).symm)

/-- The assessment does not see the order of the claims for and against. -/
theorem assessed_congr {against against' : List ObservedResearchClaim} (h : claims.Perm claims')
    (hagainst : against.Perm against') :
    assessed sources subjectKey predicate v claims against =
      assessed sources subjectKey predicate v claims' against' := by
  have hnil : against = [] ↔ against' = [] := by
    rw [← List.length_eq_zero_iff, ← List.length_eq_zero_iff, hagainst.length_eq]
  simp only [assessed, ne_eq, hnil, independenceKeys_length h, hasAuthoritative_congr h,
    sortedIds_congr h, sortedIds_congr hagainst]

end Leading

section Verdicts
variable {sources : List ResearchSourceRecord} {subjectKey predicate : String}
  {claims : List ObservedResearchClaim}

/-- The claims assert one value. -/
def OneValue (claims : List ObservedResearchClaim) : Prop :=
  ∃ v, ∀ c ∈ claims, c.value = v

/-- One of the claims is authoritative or they come from two independent sources. -/
def Grounded (sources : List ResearchSourceRecord) (claims : List ObservedResearchClaim) : Prop :=
  hasAuthoritative sources claims = true ∨ 2 ≤ (independenceKeys sources claims).length

theorem filter_ne_nil {v : String} : claims.filter (·.value ≠ v) = [] ↔ ∀ c ∈ claims, c.value = v := by
  simp [List.filter_eq_nil_iff]

theorem filter_eq_self {v : String} (h : ∀ c ∈ claims, c.value = v) :
    claims.filter (·.value = v) = claims :=
  List.filter_eq_self.2 fun c hc => decide_eq_true (h c hc)

/-- The claims of a predicate support it exactly when they assert one value and are grounded. -/
theorem assessPredicate_supported :
    (assessPredicate sources subjectKey predicate claims).status = .supported ↔
      OneValue claims ∧ Grounded sources claims := by
  by_cases hnil : claims = []
  · subst hnil
    rw [assessPredicate_nil]
    simp [Grounded, hasAuthoritative, independenceKeys]
  · obtain ⟨v, contradicting, hleads, hperm, -, hassess⟩ :=
      assessPredicate_leads sources subjectKey predicate hnil
    have hone : contradicting = [] ↔ ∀ c ∈ claims, c.value = v := by
      rw [← filter_ne_nil, ← List.length_eq_zero_iff, ← List.length_eq_zero_iff, hperm.length_eq]
    have hvalue : OneValue claims ↔ ∀ c ∈ claims, c.value = v := by
      refine ⟨fun ⟨u, hu⟩ c hc => ?_, fun h => ⟨v, h⟩⟩
      obtain ⟨d, hd, rfl⟩ := List.mem_map.1 hleads.1
      rw [hu c hc, hu d hd]
    rw [hassess, hvalue]
    unfold assessed
    by_cases hall : ∀ c ∈ claims, c.value = v
    · simp only [ne_eq, hone.2 hall, not_true_eq_false, if_false, filter_eq_self hall, Grounded]
      split_ifs with hgrounded
      · exact ⟨fun _ => ⟨hall, hgrounded⟩, fun _ => rfl⟩
      · exact ⟨fun h => (by cases h), fun h => absurd h.2 hgrounded⟩
    · simp only [ne_eq, mt hone.1 hall, not_false_eq_true, if_true]
      exact ⟨fun h => (by cases h), fun h => absurd h.1 hall⟩

theorem assessPredicate_contradicted :
    (assessPredicate sources subjectKey predicate claims).status = .contradicted ↔
      ¬OneValue claims := by
  by_cases hnil : claims = []
  · subst hnil
    rw [assessPredicate_nil]
    simp [OneValue]
  · obtain ⟨v, contradicting, hleads, hperm, -, hassess⟩ :=
      assessPredicate_leads sources subjectKey predicate hnil
    have hone : contradicting = [] ↔ OneValue claims := by
      rw [← List.length_eq_zero_iff, hperm.length_eq, List.length_eq_zero_iff, filter_ne_nil]
      refine ⟨fun h => ⟨v, h⟩, fun ⟨u, hu⟩ c hc => ?_⟩
      obtain ⟨d, hd, rfl⟩ := List.mem_map.1 hleads.1
      rw [hu c hc, hu d hd]
    rw [hassess, ← hone]
    unfold assessed
    split_ifs with hcontradicting hgrounded
    · exact ⟨fun _ => hcontradicting, fun _ => rfl⟩
    · exact ⟨fun h => (by cases h), fun h => absurd h hcontradicting⟩
    · exact ⟨fun h => (by cases h), fun h => absurd h hcontradicting⟩

end Verdicts

section Order
variable {sources sources' : List ResearchSourceRecord} {subjectKey predicate : String}
  {claims claims' : List ObservedResearchClaim} {required : List String}

theorem sourceById_eq_some (h : (sources.map (·.sourceId)).Nodup) {id : String}
    {s : ResearchSourceRecord} :
    sourceById sources id = some s ↔ s ∈ sources ∧ s.sourceId = id := by
  constructor
  · intro hfind
    exact ⟨List.mem_reverse.1 (List.mem_of_find?_eq_some hfind),
      by simpa using List.find?_some hfind⟩
  · rintro ⟨hs, rfl⟩
    cases hfind : sourceById sources s.sourceId with
    | none =>
      have := List.find?_eq_none.1 hfind s (List.mem_reverse.2 hs)
      simp at this
    | some t =>
      have ht := List.mem_reverse.1 (List.mem_of_find?_eq_some hfind)
      have hid : t.sourceId = s.sourceId := by simpa using List.find?_some hfind
      rw [List.inj_on_of_nodup_map h ht hs hid]

theorem sourceById_perm (hunique : (sources.map (·.sourceId)).Nodup)
    (h : sources'.Perm sources) : sourceById sources' = sourceById sources := by
  funext id
  refine Option.ext fun s => ?_
  rw [sourceById_eq_some hunique, sourceById_eq_some ((h.map _).nodup_iff.2 hunique), h.mem_iff]

theorem corroborateClaims_sources (h : sourceById sources' = sourceById sources) :
    corroborateClaims sources' subjectKey claims required =
      corroborateClaims sources subjectKey claims required := by
  have hgrounded (cs : List ObservedResearchClaim) : groundedClaims sources' subjectKey cs =
      groundedClaims sources subjectKey cs := by
    simp only [groundedClaims, h]
  have hkeys : independenceKeys sources' = independenceKeys sources := by
    funext cs
    simp only [independenceKeys, h]
  have hauthoritative : hasAuthoritative sources' = hasAuthoritative sources := by
    funext cs
    simp only [hasAuthoritative, h]
  have hsupport : independentSupport sources' = independentSupport sources := by
    funext item
    simp only [independentSupport, hkeys]
  simp only [corroborateClaims, predicateClaims, hgrounded, assessPredicate, assessed, hkeys,
    hauthoritative, hsupport]

theorem groundedClaims_perm (h : claims'.Perm claims) :
    (groundedClaims sources subjectKey claims').Perm (groundedClaims sources subjectKey claims) :=
  h.filter _

theorem predicateClaims_perm (h : claims'.Perm claims) :
    (predicateClaims sources subjectKey claims' predicate).Perm
      (predicateClaims sources subjectKey claims predicate) :=
  (groundedClaims_perm h).filter _

theorem support_perm (h : claims'.Perm claims) (v : String) :
    support sources claims' v = support sources claims v :=
  independenceKeys_length (h.filter _)

/-- No two values of the predicate lead. -/
def OneLeads (sources : List ResearchSourceRecord) (claims : List ObservedResearchClaim) : Prop :=
  ∀ v w, Leads sources claims v → Leads sources claims w → v = w

theorem leads_perm {v : String} (h : claims'.Perm claims) (hv : Leads sources claims' v) :
    Leads sources claims v := by
  refine ⟨(h.map _).mem_iff.1 hv.1, fun u hu => ?_⟩
  rw [← support_perm h, ← support_perm h]
  exact hv.2 u ((h.map _).mem_iff.2 hu)

/-- Where one value leads, the order of the claims does not show. -/
theorem assessPredicate_perm (hone : OneLeads sources claims) (h : claims'.Perm claims) :
    assessPredicate sources subjectKey predicate claims' =
      assessPredicate sources subjectKey predicate claims := by
  by_cases hnil : claims = []
  · subst hnil
    rw [h.eq_nil]
  · have hnil' : claims' ≠ [] := fun hnil' => hnil (by
      rw [hnil'] at h
      exact h.symm.eq_nil)
    obtain ⟨v, against, hleads, hperm, -, hassess⟩ :=
      assessPredicate_leads sources subjectKey predicate hnil
    obtain ⟨v', against', hleads', hperm', -, hassess'⟩ :=
      assessPredicate_leads sources subjectKey predicate hnil'
    obtain rfl := hone v v' hleads (leads_perm h hleads')
    rw [hassess, hassess']
    exact assessed_congr (h.filter _) (hperm'.trans ((h.filter _).trans hperm.symm))

/-- The claims for a value first. -/
def claimsFirst (claims : List ObservedResearchClaim) (v : String) : List ObservedResearchClaim :=
  claims.filter (·.value = v) ++ claims.filter (·.value ≠ v)

theorem claimsFirst_perm (claims : List ObservedResearchClaim) (v : String) :
    (claimsFirst claims v).Perm claims := by
  refine List.Perm.trans (List.Perm.of_eq ?_) (List.filter_append_perm (·.value = v) claims)
  rw [claimsFirst]
  congr 1
  refine List.filter_congr fun c _ => ?_
  simp

/-- A leading value whose claims come first is the value of the assessment. -/
theorem assessPredicate_first {v : String} (hperm : claims'.Perm claims)
    (hleads : Leads sources claims v) (hfirst : (claims'.map (·.value)).head? = some v) :
    (assessPredicate sources subjectKey predicate claims').value = some v := by
  have hleads' : Leads sources claims' v := leads_perm hperm.symm hleads
  obtain ⟨rest, hvalues⟩ := List.head?_eq_some_iff.1 hfirst
  obtain ⟨others, hunique⟩ := orderedUnique_cons v rest
  have hbest : foremost (independentSupport sources) (byValue claims') =
      some (v, claims'.filter (·.value = v)) := by
    refine (StableRanking.foremost_eq_some _).2 ⟨[], others.map fun u =>
      (u, claims'.filter (·.value = u)), ?_, by simp, fun item hitem => ?_⟩
    · rw [byValue, hvalues, hunique]
      rfl
    · obtain ⟨u, hu, rfl⟩ := List.mem_map.1 hitem
      refine hleads'.2 u (mem_orderedUnique.1 ?_)
      rw [hvalues, hunique]
      exact List.mem_cons_of_mem v hu
  have hnil : claims' ≠ [] := by
    rintro rfl
    cases hfirst
  obtain ⟨w, against, -, -, hw, hassess⟩ :=
    assessPredicate_leads sources subjectKey predicate hnil
  rw [hbest] at hw
  cases hw
  rw [hassess]
  rfl

end Order

section Laws
variable (sources : List ResearchSourceRecord) (subjectKey : String)
  (claims : List ObservedResearchClaim) (required : List String)

/-- The bundle gives the predicate a status. -/
def HasStatus (bundle : CorroborationBundle) (predicate : String)
    (status : ClaimAssessmentStatus) : Prop :=
  ∃ a ∈ bundle.assessments, a.predicate = predicate ∧ a.status = status

/-- The claim is about the subject and its source is known. -/
def Known (c : ObservedResearchClaim) : Prop :=
  c.subjectKey = subjectKey ∧ ∃ s, sourceById sources c.sourceId = some s

/-- What corroboration promises. -/
structure Corroborates : Prop where
  orderFree : ∀ claims' sources', claims'.Perm claims → sources'.Perm sources →
    corroborateClaims sources' subjectKey claims' required =
      corroborateClaims sources subjectKey claims required
  supported : ∀ predicate,
    HasStatus (corroborateClaims sources subjectKey claims required) predicate .supported ↔
      OneValue (predicateClaims sources subjectKey claims predicate) ∧
        Grounded sources (predicateClaims sources subjectKey claims predicate)
  contradicted : ∀ c, Known sources subjectKey c →
    HasStatus (corroborateClaims sources subjectKey claims required) c.predicate .supported →
    (∃ d ∈ predicateClaims sources subjectKey claims c.predicate, d.value ≠ c.value) →
      ∀ claims', claims'.Perm (c :: claims) →
        HasStatus (corroborateClaims sources subjectKey claims' required) c.predicate .contradicted
  repeated : ∀ c s, c.subjectKey = subjectKey → sourceById sources c.sourceId = some s →
    HasStatus (corroborateClaims sources subjectKey claims required) c.predicate .gap →
    (∃ d ∈ predicateClaims sources subjectKey claims c.predicate, d.value = c.value) →
    s.independenceKey ∈
      independenceKeys sources (predicateClaims sources subjectKey claims c.predicate) →
    isAuthoritative s = false →
      ∀ claims', claims'.Perm (c :: claims) →
        ¬HasStatus (corroborateClaims sources subjectKey claims' required) c.predicate .supported

/-- In no predicate do two values lead. -/
def Untied : Prop :=
  ∀ predicate, OneLeads sources (predicateClaims sources subjectKey claims predicate)

variable {sources subjectKey claims required} {claims' : List ObservedResearchClaim}
  {predicate : String} {status : ClaimAssessmentStatus} {c : ObservedResearchClaim}

theorem hasStatus_iff :
    HasStatus (corroborateClaims sources subjectKey claims required) predicate status ↔
      (predicate ∈ (groundedClaims sources subjectKey claims).map (·.predicate) ∨
        predicate ∈ required) ∧
      (assessPredicate sources subjectKey predicate
        (predicateClaims sources subjectKey claims predicate)).status = status := by
  simp only [HasStatus, corroborateClaims, List.mem_map (f := fun p => assessPredicate sources
    subjectKey p (predicateClaims sources subjectKey claims p)), mem_sortedSet, List.mem_append]
  constructor
  · rintro ⟨a, ⟨p, hp, rfl⟩, hpredicate, hstatus⟩
    rw [assessPredicate_predicate] at hpredicate
    subst hpredicate
    exact ⟨hp, hstatus⟩
  · rintro ⟨hp, hstatus⟩
    exact ⟨_, ⟨predicate, hp, rfl⟩, assessPredicate_predicate, hstatus⟩

theorem mem_predicateClaims : c ∈ predicateClaims sources subjectKey claims predicate ↔
    c ∈ claims ∧ Known sources subjectKey c ∧ c.predicate = predicate := by
  simp only [predicateClaims, groundedClaims, List.mem_filter, Known, Bool.and_eq_true,
    decide_eq_true_eq, Option.isSome_iff_exists, and_assoc]

theorem predicate_listed (h : c ∈ predicateClaims sources subjectKey claims predicate) :
    predicate ∈ (groundedClaims sources subjectKey claims).map (·.predicate) := by
  obtain ⟨hgrounded, hpredicate⟩ := List.mem_filter.1 h
  exact List.mem_map.2 ⟨c, hgrounded, of_decide_eq_true hpredicate⟩

/-- A status that only claims give needs no requirement. -/
theorem hasStatus_of_claim (h : c ∈ predicateClaims sources subjectKey claims predicate) :
    HasStatus (corroborateClaims sources subjectKey claims required) predicate status ↔
      (assessPredicate sources subjectKey predicate
        (predicateClaims sources subjectKey claims predicate)).status = status := by
  rw [hasStatus_iff, and_iff_right (.inl (predicate_listed h))]

theorem hasStatus_supported :
    HasStatus (corroborateClaims sources subjectKey claims required) predicate .supported ↔
      OneValue (predicateClaims sources subjectKey claims predicate) ∧
        Grounded sources (predicateClaims sources subjectKey claims predicate) := by
  cases h : predicateClaims sources subjectKey claims predicate with
  | nil =>
    rw [hasStatus_iff, h]
    simp [assessPredicate_nil, Grounded, hasAuthoritative, independenceKeys]
  | cons c cs =>
    have hc : c ∈ predicateClaims sources subjectKey claims predicate := by simp [h]
    rw [hasStatus_of_claim hc, assessPredicate_supported, h]

theorem predicateClaims_cons (h : Known sources subjectKey c) (hperm : claims'.Perm (c :: claims)) :
    (predicateClaims sources subjectKey claims' c.predicate).Perm
      (c :: predicateClaims sources subjectKey claims c.predicate) := by
  refine (predicateClaims_perm hperm).trans (List.Perm.of_eq ?_)
  have hsome : (sourceById sources c.sourceId).isSome = true := Option.isSome_iff_exists.2 h.2
  simp [predicateClaims, groundedClaims, h.1, hsome]

/-- A claim with another value contradicts the others. -/
theorem contradicted_of_other (hc : Known sources subjectKey c)
    (hother : ∃ d ∈ predicateClaims sources subjectKey claims c.predicate, d.value ≠ c.value)
    (hperm : claims'.Perm (c :: claims)) :
    HasStatus (corroborateClaims sources subjectKey claims' required) c.predicate
      .contradicted := by
  have hclaims := predicateClaims_cons hc hperm
  have hmem : c ∈ predicateClaims sources subjectKey claims' c.predicate :=
    hclaims.mem_iff.2 List.mem_cons_self
  rw [hasStatus_of_claim hmem, assessPredicate_contradicted]
  rintro ⟨v, hv⟩
  obtain ⟨d, hd, hne⟩ := hother
  refine hne ?_
  rw [hv d (hclaims.mem_iff.2 (List.mem_cons_of_mem c hd)), hv c hmem]

theorem independenceKeys_cons {s : ResearchSourceRecord} {cs : List ObservedResearchClaim}
    (hs : sourceById sources c.sourceId = some s)
    (hkey : s.independenceKey ∈ independenceKeys sources cs) :
    independenceKeys sources (c :: cs) = independenceKeys sources cs := by
  have hmem := List.mem_dedup.1 hkey
  simp only [independenceKeys, List.filterMap_cons, hs, Option.map_some]
  exact List.dedup_cons_of_mem hmem

/-- A claim through a source of a used key that is not authoritative grounds nothing. -/
theorem not_supported_of_repeated {s : ResearchSourceRecord} (hsubject : c.subjectKey = subjectKey)
    (hs : sourceById sources c.sourceId = some s)
    (hgap : HasStatus (corroborateClaims sources subjectKey claims required) c.predicate .gap)
    (hkey : s.independenceKey ∈
      independenceKeys sources (predicateClaims sources subjectKey claims c.predicate))
    (hauthoritative : isAuthoritative s = false) (hperm : claims'.Perm (c :: claims)) :
    ¬HasStatus (corroborateClaims sources subjectKey claims' required) c.predicate .supported := by
  intro hsupported
  have hclaims := predicateClaims_cons ⟨hsubject, s, hs⟩ hperm
  obtain ⟨⟨v, hv⟩, hgrounded⟩ := hasStatus_supported.1 hsupported
  have hone : OneValue (predicateClaims sources subjectKey claims c.predicate) :=
    ⟨v, fun d hd => hv d (hclaims.mem_iff.2 (List.mem_cons_of_mem c hd))⟩
  have hstatus := (hasStatus_iff.1 hgap).2
  have hground : Grounded sources (predicateClaims sources subjectKey claims c.predicate) := by
    rcases hgrounded with hgrounded | hgrounded
    · rw [hasAuthoritative_congr hclaims, hasAuthoritative_iff] at hgrounded
      obtain ⟨d, hd, t, ht, htrue⟩ := hgrounded
      rcases List.mem_cons.1 hd with rfl | hd
      · rw [hs, Option.some.injEq] at ht
        rw [← ht, hauthoritative] at htrue
        cases htrue
      · exact .inl (hasAuthoritative_iff.2 ⟨d, hd, t, ht, htrue⟩)
    · rw [independenceKeys_length hclaims, independenceKeys_cons hs hkey] at hgrounded
      exact .inr hgrounded
  rw [assessPredicate_supported.2 ⟨hone, hground⟩] at hstatus
  cases hstatus

theorem orderFree_of_untied (hunique : (sources.map (·.sourceId)).Nodup)
    (h : Untied sources subjectKey claims) {sources' : List ResearchSourceRecord}
    (hclaims : claims'.Perm claims) (hsources : sources'.Perm sources) :
    corroborateClaims sources' subjectKey claims' required =
      corroborateClaims sources subjectKey claims required := by
  rw [corroborateClaims_sources (sourceById_perm hunique hsources)]
  have hpredicates : sortedSet ((groundedClaims sources subjectKey claims').map (·.predicate) ++
        required) =
      sortedSet ((groundedClaims sources subjectKey claims).map (·.predicate) ++ required) :=
    sortedSet_congr fun p => by
      rw [List.mem_append, List.mem_append, ((groundedClaims_perm hclaims).map _).mem_iff]
  have hassess (p : String) : assessPredicate sources subjectKey p
        (predicateClaims sources subjectKey claims' p) =
      assessPredicate sources subjectKey p (predicateClaims sources subjectKey claims p) :=
    assessPredicate_perm (h p) (predicateClaims_perm hclaims)
  simp only [corroborateClaims, hpredicates, hassess]

/-- A bundle shows the value by which a predicate with claims is assessed. -/
theorem assessPredicate_of_bundle (hclaims : claims'.Perm claims)
    (h : corroborateClaims sources subjectKey claims' required =
      corroborateClaims sources subjectKey claims required)
    (hc : c ∈ predicateClaims sources subjectKey claims predicate) :
    assessPredicate sources subjectKey predicate
        (predicateClaims sources subjectKey claims' predicate) =
      assessPredicate sources subjectKey predicate
        (predicateClaims sources subjectKey claims predicate) := by
  have hpredicates : sortedSet ((groundedClaims sources subjectKey claims').map (·.predicate) ++
        required) =
      sortedSet ((groundedClaims sources subjectKey claims).map (·.predicate) ++ required) :=
    sortedSet_congr fun p => by
      rw [List.mem_append, List.mem_append, ((groundedClaims_perm hclaims).map _).mem_iff]
  have hmap := congrArg CorroborationBundle.assessments h
  simp only [corroborateClaims, hpredicates] at hmap
  refine List.map_inj_left.1 hmap predicate ?_
  exact mem_sortedSet.2 (List.mem_append_left _ (predicate_listed hc))

theorem claimsFirst_head {v : String}
    (hc : c ∈ predicateClaims sources subjectKey claims predicate) (hcv : c.value = v) :
    ((predicateClaims sources subjectKey (claimsFirst claims v) predicate).map
      (·.value)).head? = some v := by
  have hsplit : predicateClaims sources subjectKey (claimsFirst claims v) predicate =
      predicateClaims sources subjectKey (claims.filter (·.value = v)) predicate ++
        predicateClaims sources subjectKey (claims.filter (·.value ≠ v)) predicate := by
    simp only [predicateClaims, groundedClaims, claimsFirst, List.filter_append]
  obtain ⟨hmem, hknown, hpredicate⟩ := mem_predicateClaims.1 hc
  have hfirst : c ∈ predicateClaims sources subjectKey (claims.filter (·.value = v)) predicate :=
    mem_predicateClaims.2 ⟨List.mem_filter.2 ⟨hmem, decide_eq_true hcv⟩, hknown, hpredicate⟩
  rw [hsplit]
  cases hcs : predicateClaims sources subjectKey (claims.filter (·.value = v)) predicate with
  | nil =>
    rw [hcs] at hfirst
    cases hfirst
  | cons d ds =>
    have hd : d ∈ predicateClaims sources subjectKey (claims.filter (·.value = v)) predicate := by
      simp [hcs]
    have hvalue := (List.mem_filter.1 (mem_predicateClaims.1 hd).1).2
    simpa using hvalue

theorem untied_of_orderFree (h : ∀ claims', claims'.Perm claims →
    corroborateClaims sources subjectKey claims' required =
      corroborateClaims sources subjectKey claims required) :
    Untied sources subjectKey claims := by
  have hvalue (predicate v : String)
      (hv : Leads sources (predicateClaims sources subjectKey claims predicate) v) :
      (assessPredicate sources subjectKey predicate
        (predicateClaims sources subjectKey claims predicate)).value = some v := by
    obtain ⟨c, hc, hcv⟩ := List.mem_map.1 hv.1
    have hperm := claimsFirst_perm claims v
    rw [← assessPredicate_of_bundle hperm (h _ hperm) hc]
    exact assessPredicate_first (predicateClaims_perm hperm) hv (claimsFirst_head hc hcv)
  intro predicate v w hv hw
  exact Option.some.inj ((hvalue predicate v hv).symm.trans (hvalue predicate w hw))

/-- Corroboration keeps its promises exactly when in no predicate two values lead. -/
theorem corroborates_iff (hunique : (sources.map (·.sourceId)).Nodup) :
    Corroborates sources subjectKey claims required ↔ Untied sources subjectKey claims := by
  refine ⟨fun h => untied_of_orderFree fun claims' hperm =>
    h.orderFree claims' sources hperm (List.Perm.refl _), fun h => ?_⟩
  exact {
    orderFree := fun _ _ hclaims hsources => orderFree_of_untied hunique h hclaims hsources
    supported := fun _ => hasStatus_supported
    contradicted := fun _ hc _ hother _ hperm => contradicted_of_other hc hother hperm
    repeated := fun _ _ hsubject hs hgap _ hkey hauthoritative _ hperm =>
      not_supported_of_repeated hsubject hs hgap hkey hauthoritative hperm }

end Laws

section Ties

def articles : List ResearchSourceRecord :=
  [⟨"s1", .thirdPartyArticle, "publisher:one"⟩, ⟨"s2", .thirdPartyArticle, "publisher:two"⟩]

def pricingClaim (claimId value sourceId : String) : ObservedResearchClaim :=
  ⟨claimId, "company:acme", "pricing", value, sourceId⟩

/-- Two publishers against one on the pricing, and a claim about the seats. -/
def sampleClaims : List ObservedResearchClaim :=
  [pricingClaim "c1" "paid" "s1", pricingClaim "c2" "free" "s2", pricingClaim "c3" "free" "s1",
    { pricingClaim "c4" "ten" "s2" with predicate := "seats" }]

theorem sampleClaims_untied : Untied articles "company:acme" sampleClaims := by
  have hone : ∀ c ∈ sampleClaims, ∀ d ∈ sampleClaims, ∀ e ∈ sampleClaims,
      Leads articles (predicateClaims articles "company:acme" sampleClaims c.predicate) d.value →
      Leads articles (predicateClaims articles "company:acme" sampleClaims c.predicate) e.value →
        d.value = e.value := by decide +kernel
  intro predicate v w hv hw
  obtain ⟨d, hd, rfl⟩ := List.mem_map.1 hv.1
  obtain ⟨e, he, rfl⟩ := List.mem_map.1 hw.1
  obtain ⟨hmem, -, rfl⟩ := mem_predicateClaims.1 hd
  exact hone d hmem d hmem e (mem_predicateClaims.1 he).1 hv hw

theorem corroborates_articles : Corroborates articles "company:acme" sampleClaims [] :=
  (corroborates_iff (by decide)).2 sampleClaims_untied

/-- Two values with one publisher each: the first claim decides the value of the assessment. -/
theorem tied_claims_ordered : ¬Corroborates articles "company:acme"
    [pricingClaim "c1" "free" "s1", pricingClaim "c2" "paid" "s2"] [] := by
  intro h
  have heq := h.orderFree [pricingClaim "c2" "paid" "s2", pricingClaim "c1" "free" "s1"] articles
    (List.Perm.swap _ _ _) (List.Perm.refl _)
  exact absurd heq (by decide +kernel)

end Ties

end Ajenda.Research
