import Ajenda.MissionAcceptance

/-!
# Acceptance and the order of the tasks

The checks read little of the merged records, and which of them they read depends on the contract.
Where the tasks agree on what is read of the records they name alike, the answer and the counts
are the same in every order of the tasks exactly when no record without an identity is met at a
position that is an identity.
-/
namespace Ajenda.Acceptance
open TaskGraphs (Value Dict)
open Ajenda.Runtime (strip)
open PositionalMerge

section Lists
variable {α β γ : Type} {f : α → β} {xs ys : List α}

theorem perm_map_of_factors [Nonempty γ] {g : α → γ} (hg : ∀ a b, f a = f b → g a = g b)
    (h : (xs.map f).Perm (ys.map f)) : (xs.map g).Perm (ys.map g) := by
  have hfactors : g.FactorsThrough f := fun a b hab => hg a b hab
  obtain ⟨e, rfl⟩ := (Function.factorsThrough_iff g).1 hfactors
  simpa only [List.map_map] using h.map e

theorem length_filter_eq {p : α → Bool} (hp : ∀ a b, f a = f b → p a = p b)
    (h : (xs.map f).Perm (ys.map f)) : (xs.filter p).length = (ys.filter p).length := by
  have hlength : ∀ l : List α, (l.filter p).length = ((l.map p).filter id).length := by
    intro l
    rw [List.filter_map, List.length_map]
    rfl
  rw [hlength, hlength]
  exact ((perm_map_of_factors hp h).filter id).length_eq

theorem mapM_multiset {us vs : List (Option β)} (h : us.Perm vs) :
    (us.mapM id).map (fun l => (l : Multiset β)) = (vs.mapM id).map fun l => (l : Multiset β) := by
  induction h with
  | nil => rfl
  | cons u h ih =>
    rename_i us vs
    rw [List.mapM_cons, List.mapM_cons]
    cases u with
    | none => rfl
    | some x =>
      have hcons := congrArg (Option.map (Multiset.cons x)) ih
      cases hus : us.mapM id <;> cases hvs : vs.mapM id <;> simp_all
  | swap u v us =>
    rw [List.mapM_cons, List.mapM_cons, List.mapM_cons, List.mapM_cons]
    cases u <;> cases v <;> cases hus : us.mapM id <;> simp [List.Perm.swap]
  | trans _ _ ih ih' => exact ih.trans ih'

theorem mapM_map_eq (f : α → Option β) (g : β → γ) (xs : List α) :
    (xs.map fun x => (f x).map g).mapM id = (xs.mapM f).map (List.map g) := by
  induction xs with
  | nil => rfl
  | cons x xs ih =>
    rw [List.map_cons, List.mapM_cons, List.mapM_cons, ih]
    cases f x <;> cases xs.mapM f <;> rfl

/-- What follows a loop that may raise and reads its results in any order and only in part. -/
theorem mapM_bind_read {β' δ : Type} {f : α → Option β} {f' : α → Option β'} (g : β → γ)
    (g' : β' → γ) {k : List β → Option δ} {k' : List β' → Option δ}
    (h : (xs.map fun x => (f x).map g).Perm (ys.map fun y => (f' y).map g'))
    (hk : ∀ us vs, (us.map g).Perm (vs.map g') → k us = k' vs) :
    (xs.mapM f >>= k) = (ys.mapM f' >>= k') := by
  have hmultiset := mapM_multiset h
  rw [mapM_map_eq, mapM_map_eq] at hmultiset
  cases hus : xs.mapM f with
  | none => cases hvs : ys.mapM f' <;> simp_all
  | some us =>
    cases hvs : ys.mapM f' with
    | none => simp_all
    | some vs =>
      rw [hus, hvs] at hmultiset
      exact hk us vs (Multiset.coe_eq_coe.1 (Option.some.inj hmultiset))

/-- What follows a loop that may raise, where the order of its results is not read. -/
theorem mapM_bind_eq {f : α → Option β} {k k' : List β → Option γ}
    (h : (xs.map f).Perm (ys.map f)) (hk : ∀ us vs, us.Perm vs → k us = k' vs) :
    (xs.mapM f >>= k) = (ys.mapM f >>= k') := by
  refine mapM_bind_read id id (by simpa using h) fun us vs hperm => hk us vs ?_
  simpa using hperm

end Lists

section Reading
variable (b : Builtins)

/-! ## What the checks read -/

/-- What is read of a record. -/
inductive Reading
  | nothing
  | flag (x : Bool)
  | text (s : String)
  deriving DecidableEq

/-- The contract asks for some number of records. -/
def asks (contract : Dict) (name : String) : Bool :=
  match contractInt b contract name 0 with
  | some minimum => 0 < minimum
  | none => false

/-- The identities that candidates are compared by. -/
def candidateIdentities (items : List Dict) : Finset String :=
  ((items.map (candidateIdentity b)).filter fun identity => identity ≠ "").toFinset

/-- Whether a candidate is verified, or else what it is compared by. -/
def candidateReading (contract item : Dict) : Reading :=
  if !asks b contract "candidate_min" then .nothing
  else if (contract.get "require_verified_identity").truthy then .flag (verified item)
  else .text (candidateIdentity b item)

/-- The candidates are looked at next to the observed ones: for verified ones when none of those
observed is verified, and for those that are already among them. -/
def candidatesRead (contract : Dict) (outputs : List Dict) : Bool :=
  let observed := uniqueRecords b ["verified_prospect_candidates"] outputs
  if (contract.get "require_verified_identity").truthy then observed.filter verified = []
  else candidateIdentities b observed ≠ ∅

/-- Whether a score reaches the threshold; a score that raises is read in any case. -/
def scoreReading (contract item : Dict) : Reading :=
  match contractInt b contract "qualified_min" 0, scoreThreshold b contract with
  | some minimum, some threshold =>
    match b.int (either (item.getOr "score_10" (.int 0)) (.int 0)) with
    | some score => .flag (0 < minimum && threshold ≤ score)
    | none => .nothing
  | _, _ => .nothing

def draftReading (contract item : Dict) : Reading :=
  if asks b contract "draft_min" && (contract.get "require_bound_drafts").truthy then
    .flag (boundDraft b item)
  else .nothing

/-- The id under which a record is persisted. -/
def idReading (needed : Bool) (item : Dict) : Reading :=
  if needed && (item.get "id").truthy then .text (b.str (item.get "id")) else .nothing

def crmReading (contract : Dict) : Dict → Reading :=
  idReading b ((contract.get "internal_crm_readback_required").truthy ||
    asks b contract "internal_crm_opportunities_min")

def followUpReading (contract : Dict) : Dict → Reading :=
  idReading b (contract.get "follow_up_task_readback_required").truthy

/-- The keys under which a contract collects records, and what its checks read of a record. The
rows of the other producers are collected when nothing was persisted. -/
def recordReads (contract : Dict) (outputs : List Dict) : List (List String × (Dict → Reading)) :=
  if contract = [] then [] else
  [(["prospect_candidates"], fun item =>
      if candidatesRead b contract outputs then candidateReading b contract item else .nothing),
    (["verified_prospect_candidates"], candidateReading b contract),
    (["qualified_prospects"], scoreReading b contract),
    (["introduction_drafts"], draftReading b contract),
    (["internal_crm_records"], crmReading b contract),
    (["follow_up_tasks"], followUpReading b contract)] ++
  if uniqueRecords b ["internal_crm_records"] outputs = [] then
    [(["crm_records", "records", "internal_records"], crmReading b contract)] else []

/-- Two tasks that each name a record agree on what the checks read of the last one. -/
def Agreeing (contract : Dict) (outputs : List Dict) : Prop :=
  ∀ r ∈ recordReads b contract outputs, Agree (recordName b) r.2 (records r.1) outputs

/-- No record without an identity is met at a position that is an identity. -/
def NamesApart (contract : Dict) (outputs outputs' : List Dict) : Prop :=
  ∀ r ∈ recordReads b contract outputs,
    Apart (recordName b) Nat.repr (outputs'.flatMap (records r.1))

variable {b} {contract : Dict} {outputs outputs' : List Dict}

theorem repr_injective : Function.Injective Nat.repr := by
  intro m n h
  have hdigits : Nat.toDigits 10 m = Nat.toDigits 10 n := by
    rw [← Nat.toList_repr, ← Nat.toList_repr, h]
  rw [← Nat.ofDigitChars_ten_toDigits (n := m), hdigits, Nat.ofDigitChars_ten_toDigits]

/-- The merged records of a key read alike in both orders. -/
def MergeAlike (b : Builtins) (keys : List String) (reading : Dict → Reading)
    (outputs outputs' : List Dict) : Prop :=
  ((uniqueRecords b keys outputs').map reading).Perm ((uniqueRecords b keys outputs).map reading)

theorem mergeAlike (hagree : Agreeing b contract outputs) (hperm : outputs'.Perm outputs)
    (hapart : NamesApart b contract outputs outputs)
    (hapart' : NamesApart b contract outputs outputs')
    {r : List String × (Dict → Reading)} (hr : r ∈ recordReads b contract outputs) :
    MergeAlike b r.1 r.2 outputs outputs' := by
  have hmerge := merge_perm repr_injective hperm (hapart r hr) (hapart' r hr) (hagree r hr)
  simpa only [MergeAlike, uniqueRecords, List.map_map, Function.comp_def] using hmerge

/-- Records that are named alike read alike. -/
theorem agreeing_of_named (h : ∀ r ∈ recordReads b contract outputs,
    ∀ x ∈ outputs.flatMap (records r.1), ∀ y ∈ outputs.flatMap (records r.1),
      recordName b x = recordName b y → r.2 x = r.2 y) : Agreeing b contract outputs := by
  intro r hr i hi j hj key x y hx hy
  obtain ⟨hxi, hx⟩ := mem_of_last hx
  obtain ⟨hyj, hy⟩ := mem_of_last hy
  exact h r hr x (List.mem_flatMap.2 ⟨i, hi, hxi⟩) y (List.mem_flatMap.2 ⟨j, hj, hyj⟩)
    (hx.trans hy.symm)

/-- Records that all name themselves are met at no position. -/
theorem namesApart_of_named (hperm : outputs'.Perm outputs)
    (h : ∀ r ∈ recordReads b contract outputs, ∀ x ∈ outputs.flatMap (records r.1),
      recordName b x ≠ none) : NamesApart b contract outputs outputs' := by
  intro r hr before a after heq hnone
  have ha : a ∈ outputs'.flatMap (records r.1) := heq ▸ by simp
  exact absurd hnone (h r hr a (((hperm.flatMap_right _).mem_iff).1 ha))

theorem MergeAlike.count {keys : List String} {reading : Dict → Reading}
    (h : MergeAlike b keys reading outputs outputs') :
    (uniqueRecords b keys outputs').length = (uniqueRecords b keys outputs).length := by
  simpa using h.length_eq

/-! ## Candidates -/

section Candidates
variable {candidates candidates' observed observed' : List Dict}

/-- One more observed candidate. -/
theorem addObserved_cons (item : Dict) :
    addObserved b candidates (item :: observed) =
      addObserved b (if candidateIdentity b item ≠ "" ∧
        candidateIdentity b item ∉ candidateIdentities b candidates then candidates ++ [item]
        else candidates) observed := by
  rw [addObserved, List.foldl_cons, addObserved]
  congr 1
  by_cases hempty : candidateIdentity b item = ""
  · simp [hempty]
  · simp [hempty, candidateIdentities]

theorem candidateIdentities_cons {item : Dict} (hempty : candidateIdentity b item ≠ "") :
    candidateIdentities b (item :: observed) =
      insert (candidateIdentity b item) (candidateIdentities b observed) := by
  simp [candidateIdentities, hempty]

theorem candidateIdentities_append {item : Dict} (hempty : candidateIdentity b item ≠ "") :
    candidateIdentities b (candidates ++ [item]) =
      insert (candidateIdentity b item) (candidateIdentities b candidates) := by
  ext identity
  simp [candidateIdentities, hempty, List.filter_append]

theorem length_addObserved :
    (addObserved b candidates observed).length = candidates.length +
      (candidateIdentities b observed \ candidateIdentities b candidates).card := by
  induction observed generalizing candidates with
  | nil => simp [addObserved, candidateIdentities]
  | cons item observed ih =>
    rw [addObserved_cons, ih]
    by_cases hempty : candidateIdentity b item = ""
    · simp [hempty, candidateIdentities]
    · rw [candidateIdentities_cons hempty]
      by_cases hold : candidateIdentity b item ∈ candidateIdentities b candidates
      · rw [if_neg fun hnew => hnew.2 hold, Finset.insert_sdiff_of_mem _ hold]
      · have hsplit : insert (candidateIdentity b item) (candidateIdentities b observed) \
            candidateIdentities b candidates = insert (candidateIdentity b item)
              (candidateIdentities b observed \ insert (candidateIdentity b item)
                (candidateIdentities b candidates)) := by
          ext identity
          simp only [Finset.mem_sdiff, Finset.mem_insert]
          by_cases hsame : identity = candidateIdentity b item
          · simp [hsame, hold]
          · simp [hsame]
        rw [if_pos ⟨hempty, hold⟩, candidateIdentities_append hempty, hsplit,
          Finset.card_insert_of_notMem (by simp), List.length_append, List.length_singleton]
        omega

/-- Observed candidates that are not verified add no verified candidate. -/
theorem verified_addObserved (h : ∀ item ∈ observed, verified item = false) :
    (addObserved b candidates observed).filter verified = candidates.filter verified := by
  induction observed generalizing candidates with
  | nil => rfl
  | cons item observed ih =>
    rw [addObserved_cons, ih fun item hitem => h item (List.mem_cons_of_mem _ hitem)]
    split_ifs
    · simp [List.filter_append, h item List.mem_cons_self]
    · rfl

theorem candidateIdentities_eq (h : (candidates'.map (candidateIdentity b)).Perm
    (candidates.map (candidateIdentity b))) :
    candidateIdentities b candidates' = candidateIdentities b candidates :=
  List.toFinset_eq_of_perm _ _ (h.filter _)

end Candidates

/-! ## Checks -/

section Checks
variable {contract : Dict}

/-- The verified candidates are those observed, or else those among all candidates. -/
theorem verifiedCount_eq {candidates candidates' observed observed' : List Dict}
    (hcandidates : (candidates'.filter verified).length = (candidates.filter verified).length)
    (hobserved : (observed'.filter verified).length = (observed.filter verified).length) :
    (if observed'.filter verified = [] then (addObserved b candidates' observed').filter verified
      else observed'.filter verified).length =
    (if observed.filter verified = [] then (addObserved b candidates observed).filter verified
      else observed.filter verified).length := by
  have hnone : ∀ {l : List Dict}, l.filter verified = [] → ∀ item ∈ l, verified item = false := by
    intro l hl item hitem
    simpa using List.filter_eq_nil_iff.1 hl item hitem
  by_cases hempty : observed.filter verified = []
  · have hempty' : observed'.filter verified = [] := by
      rw [← List.length_eq_zero_iff, hobserved, hempty, List.length_nil]
    rw [if_pos hempty, if_pos hempty', verified_addObserved (hnone hempty),
      verified_addObserved (hnone hempty'), hcandidates]
  · have hempty' : observed'.filter verified ≠ [] := by
      rw [← List.length_pos_iff, hobserved, List.length_pos_iff]
      exact hempty
    rw [if_neg hempty, if_neg hempty', hobserved]

/-- A threshold that is not positive is met by any count. -/
theorem demand_of_nonpos {minimum : ℤ} {reason : String} (count : ℕ) (h : ¬0 < minimum) :
    demand (minimum ≤ count) reason = [] := by
  rw [demand, if_pos (by omega)]

theorem asks_of_some {name : String} {minimum : ℤ} (h : contractInt b contract name 0 = some minimum)
    (hpos : 0 < minimum) : asks b contract name = true := by
  simp [asks, h, hpos]

/-- The count that the candidates are judged by. -/
theorem candidateCount_eq {minimum : ℤ}
    (hminimum : contractInt b contract "candidate_min" 0 = some minimum) (hpos : 0 < minimum)
    (hcandidates : MergeAlike b ["prospect_candidates"] (fun item =>
      if candidatesRead b contract outputs then candidateReading b contract item else .nothing)
      outputs outputs')
    (hobserved : MergeAlike b ["verified_prospect_candidates"] (candidateReading b contract)
      outputs outputs') (hrequired : (contract.get "require_verified_identity").truthy = false) :
    (addObserved b (uniqueRecords b ["prospect_candidates"] outputs')
        (uniqueRecords b ["verified_prospect_candidates"] outputs')).length =
      (addObserved b (uniqueRecords b ["prospect_candidates"] outputs)
        (uniqueRecords b ["verified_prospect_candidates"] outputs)).length := by
  have hread : ∀ item, candidateReading b contract item = .text (candidateIdentity b item) := by
    intro item
    simp [candidateReading, asks_of_some hminimum hpos, hrequired]
  have hidentity : ∀ item item', candidateReading b contract item =
      candidateReading b contract item' → candidateIdentity b item = candidateIdentity b item' := by
    intro item item' h
    rw [hread, hread] at h
    exact Reading.text.inj h
  have hseen := candidateIdentities_eq (perm_map_of_factors hidentity hobserved)
  rw [length_addObserved, length_addObserved, hcandidates.count, hseen]
  by_cases hnone : candidateIdentities b
      (uniqueRecords b ["verified_prospect_candidates"] outputs) = ∅
  · rw [hnone, Finset.empty_sdiff, Finset.empty_sdiff]
  · have hlooked : candidatesRead b contract outputs = true := by
      simp [candidatesRead, hrequired, hnone]
    simp only [hlooked, if_true] at hcandidates
    rw [candidateIdentities_eq (perm_map_of_factors hidentity hcandidates)]

theorem candidateVerified_eq {minimum : ℤ}
    (hminimum : contractInt b contract "candidate_min" 0 = some minimum) (hpos : 0 < minimum)
    (hcandidates : MergeAlike b ["prospect_candidates"] (fun item =>
      if candidatesRead b contract outputs then candidateReading b contract item else .nothing)
      outputs outputs')
    (hobserved : MergeAlike b ["verified_prospect_candidates"] (candidateReading b contract)
      outputs outputs') (hrequired : (contract.get "require_verified_identity").truthy = true) :
    (if (uniqueRecords b ["verified_prospect_candidates"] outputs').filter verified = [] then
        (addObserved b (uniqueRecords b ["prospect_candidates"] outputs')
          (uniqueRecords b ["verified_prospect_candidates"] outputs')).filter verified
      else (uniqueRecords b ["verified_prospect_candidates"] outputs').filter verified).length =
    (if (uniqueRecords b ["verified_prospect_candidates"] outputs).filter verified = [] then
        (addObserved b (uniqueRecords b ["prospect_candidates"] outputs)
          (uniqueRecords b ["verified_prospect_candidates"] outputs)).filter verified
      else (uniqueRecords b ["verified_prospect_candidates"] outputs).filter verified).length := by
  have hread : ∀ item, candidateReading b contract item = .flag (verified item) := by
    intro item
    simp [candidateReading, asks_of_some hminimum hpos, hrequired]
  have hverified : ∀ item item', candidateReading b contract item =
      candidateReading b contract item' → verified item = verified item' := by
    intro item item' h
    rw [hread, hread] at h
    exact Reading.flag.inj h
  have hpromoted := length_filter_eq hverified hobserved
  by_cases hnone : (uniqueRecords b ["verified_prospect_candidates"] outputs).filter verified = []
  · have hlooked : candidatesRead b contract outputs = true := by
      simp only [candidatesRead, hrequired, if_true, hnone, decide_true]
    simp only [hlooked, if_true] at hcandidates
    exact verifiedCount_eq (length_filter_eq hverified hcandidates) hpromoted
  · have hnone' : (uniqueRecords b ["verified_prospect_candidates"] outputs').filter verified ≠ [] := by
      rw [← List.length_pos_iff, hpromoted, List.length_pos_iff]
      exact hnone
    rw [if_neg hnone, if_neg hnone', hpromoted]

theorem candidateReasons_eq
    (hcandidates : MergeAlike b ["prospect_candidates"] (fun item =>
      if candidatesRead b contract outputs then candidateReading b contract item else .nothing)
      outputs outputs')
    (hobserved : MergeAlike b ["verified_prospect_candidates"] (candidateReading b contract)
      outputs outputs') :
    candidateReasons b contract outputs' = candidateReasons b contract outputs := by
  unfold candidateReasons
  cases hminimum : contractInt b contract "candidate_min" 0 with
  | none => rfl
  | some minimum =>
    simp only [bind, Option.bind, pure]
    by_cases hpos : 0 < minimum
    · cases hrequired : (contract.get "require_verified_identity").truthy with
      | true =>
        simp only [if_true, candidateVerified_eq hminimum hpos hcandidates hobserved hrequired]
      | false =>
        simp only [Bool.false_eq_true, if_false,
          candidateCount_eq hminimum hpos hcandidates hobserved hrequired]
    · simp only [demand_of_nonpos _ hpos]

theorem qualifiedReasons_eq
    (h : MergeAlike b ["qualified_prospects"] (scoreReading b contract) outputs outputs') :
    qualifiedReasons b contract outputs' = qualifiedReasons b contract outputs := by
  unfold qualifiedReasons
  cases hminimum : contractInt b contract "qualified_min" 0 with
  | none => rfl
  | some minimum =>
    cases hthreshold : scoreThreshold b contract with
    | none => rfl
    | some threshold =>
      simp only [Option.bind_eq_bind, Option.bind_some]
      have hscore : ∀ x y : Option ℤ,
          (match x with
            | some score => Reading.flag (0 < minimum && threshold ≤ score)
            | none => .nothing) =
          (match y with
            | some score => Reading.flag (0 < minimum && threshold ≤ score)
            | none => .nothing) →
          (x.map fun score => decide (0 < minimum) && decide (threshold ≤ score)) =
            y.map fun score => decide (0 < minimum) && decide (threshold ≤ score) := by
        rintro (_ | x) (_ | y) hxy <;> simp_all
      refine mapM_bind_read (fun score => decide (0 < minimum) && decide (threshold ≤ score))
        (fun score => decide (0 < minimum) && decide (threshold ≤ score))
        (perm_map_of_factors (fun item item' hread => ?_) h) fun scores scores' hscores => ?_
      · simp only [scoreReading, hminimum, hthreshold] at hread
        exact hscore _ _ hread
      · by_cases hpos : 0 < minimum
        · have hcount := (hscores.filter id).length_eq
          simp only [List.filter_map, List.length_map, hpos, decide_true, Bool.true_and,
            Function.comp_def, id_eq] at hcount
          rw [hcount]
        · simp only [demand_of_nonpos _ hpos]

theorem draftReasons_eq
    (h : MergeAlike b ["introduction_drafts"] (draftReading b contract) outputs outputs') :
    draftReasons b contract outputs' = draftReasons b contract outputs := by
  unfold draftReasons
  cases hminimum : contractInt b contract "draft_min" 0 with
  | none => rfl
  | some minimum =>
    simp only [Option.bind_eq_bind, Option.bind_some]
    by_cases hpos : 0 < minimum
    · cases hrequired : (contract.get "require_bound_drafts").truthy with
      | true =>
        have hbound := length_filter_eq (p := boundDraft b) (fun item item' hread => by
          simpa [draftReading, asks_of_some hminimum hpos, hrequired] using hread) h
        simp only [if_true, hbound]
      | false => simp only [Bool.false_eq_true, if_false, h.count]
    · simp only [demand_of_nonpos _ hpos]

theorem collected_bind {γ : Type} {name : String} {holders holders' : List Dict}
    {k k' : List Dict → Option γ} (h : holders'.Perm holders)
    (hk : ∀ us vs, us.Perm vs → k us = k' vs) :
    (collected name holders' >>= k) = (collected name holders >>= k') := by
  simp only [collected, bind_assoc, pure_bind]
  exact mapM_bind_eq (h.map _) fun us vs hperm => hk _ _ (hperm.flatten.filterMap _)

theorem reports_perm (key : String) (hperm : outputs'.Perm outputs) :
    (reports key outputs').Perm (reports key outputs) := hperm.filterMap _

theorem researchReasons_eq (hperm : outputs'.Perm outputs) :
    researchReasons b contract outputs' = researchReasons b contract outputs := by
  have hreports := reports_perm "research_report" hperm
  have hempty : reports "research_report" outputs' = [] ↔ reports "research_report" outputs = [] := by
    rw [← List.length_eq_zero_iff, hreports.length_eq, List.length_eq_zero_iff]
  simp only [researchReasons, ne_eq, hempty]
  refine bind_congr fun opportunityMin => ?_
  split_ifs
  · rfl
  · refine collected_bind hreports fun us vs hitems => ?_
    rw [(hitems.filter _).length_eq]

theorem reviewReasons_eq (hperm : outputs'.Perm outputs) :
    reviewReasons b contract outputs' = reviewReasons b contract outputs := by
  have hreports := reports_perm "business_review_report" hperm
  have hempty : reports "business_review_report" outputs' = [] ↔
      reports "business_review_report" outputs = [] := by
    rw [← List.length_eq_zero_iff, hreports.length_eq, List.length_eq_zero_iff]
  simp only [reviewReasons, hempty]
  split_ifs with hrequired
  · exact collected_bind hreports fun us vs hitems => rfl
  · refine collected_bind hreports fun us vs hitems => ?_
    rw [(hitems.filter _).length_eq]
  · rfl

theorem mem_persistedIds {items : List Dict} {s : String} :
    s ∈ persistedIds b items ↔ Reading.text s ∈ items.map (idReading b true) := by
  simp only [persistedIds, List.mem_toFinset, List.mem_map, List.mem_filter, idReading,
    Bool.true_and]
  constructor
  · rintro ⟨item, ⟨hitem, htruthy⟩, rfl⟩
    exact ⟨item, hitem, if_pos htruthy⟩
  · rintro ⟨item, hitem, hread⟩
    split_ifs at hread with htruthy
    exact ⟨item, ⟨hitem, htruthy⟩, Reading.text.inj hread⟩

theorem persistedIds_eq {items items' : List Dict}
    (h : (items'.map (idReading b true)).Perm (items.map (idReading b true))) :
    persistedIds b items' = persistedIds b items := by
  ext s
  rw [mem_persistedIds, mem_persistedIds, h.mem_iff]

theorem crmRecords_alike
    (hpersisted : MergeAlike b ["internal_crm_records"] (crmReading b contract) outputs outputs')
    (hrows : uniqueRecords b ["internal_crm_records"] outputs = [] →
      MergeAlike b ["crm_records", "records", "internal_records"] (crmReading b contract) outputs
        outputs') :
    ((crmRecords b outputs').map (crmReading b contract)).Perm
      ((crmRecords b outputs).map (crmReading b contract)) := by
  have hempty : uniqueRecords b ["internal_crm_records"] outputs' = [] ↔
      uniqueRecords b ["internal_crm_records"] outputs = [] := by
    rw [← List.length_eq_zero_iff, hpersisted.count, List.length_eq_zero_iff]
  simp only [crmRecords, hempty]
  split_ifs with hnone
  · exact hrows hnone
  · exact hpersisted

theorem verifiedIds_eq (tasksOnly : Bool) (hperm : outputs'.Perm outputs) :
    verifiedIds b tasksOnly outputs' = verifiedIds b tasksOnly outputs :=
  collected_bind hperm fun _ _ hitems =>
    congrArg some (List.toFinset_eq_of_perm _ _ ((hitems.filter _).map _))

theorem crmReasons_eq (h : ((crmRecords b outputs').map (crmReading b contract)).Perm
      ((crmRecords b outputs).map (crmReading b contract))) (hperm : outputs'.Perm outputs) :
    crmReasons b contract outputs' = crmReasons b contract outputs := by
  have hcount := h.length_eq
  simp only [List.length_map] at hcount
  simp only [crmReasons, hcount, verifiedIds_eq false hperm]
  cases hrequired : (contract.get "internal_crm_readback_required").truthy with
  | true =>
    rw [crmReading, hrequired, Bool.true_or] at h
    rw [persistedIds_eq h]
  | false => rfl

theorem followUpReasons_eq
    (h : MergeAlike b ["follow_up_tasks"] (followUpReading b contract) outputs outputs')
    (hperm : outputs'.Perm outputs) :
    followUpReasons b contract outputs' = followUpReasons b contract outputs := by
  simp only [followUpReasons, h.count, verifiedIds_eq true hperm]
  cases hrequired : (contract.get "follow_up_task_readback_required").truthy with
  | true =>
    rw [followUpReading, hrequired] at h
    rw [persistedIds_eq h]
  | false => rfl

/-- Whether a projection raises does not depend on the persisted records. -/
theorem projectedContact_raises (ids ids' : Finset String) (item : Dict) :
    (projectedContact b ids item).map (fun _ => ()) =
      (projectedContact b ids' item).map fun _ => () := by
  unfold projectedContact member
  cases item.get "contact_id" <;> rfl

theorem projectionReasons_eq (h : ((crmRecords b outputs').map (crmReading b contract)).Perm
      ((crmRecords b outputs).map (crmReading b contract))) (hperm : outputs'.Perm outputs) :
    projectionReasons b contract outputs' = projectionReasons b contract outputs := by
  unfold projectionReasons
  cases hminimum : contractInt b contract "internal_crm_opportunities_min" 0 with
  | none => rfl
  | some minimum =>
    simp only [Option.bind_eq_bind, Option.bind_some]
    split_ifs
    · rfl
    · by_cases hpos : 0 < minimum
      · rw [crmReading, asks_of_some hminimum hpos, Bool.or_true] at h
        rw [persistedIds_eq h]
        refine collected_bind hperm fun us vs hitems => ?_
        refine mapM_bind_eq (hitems.map _) fun contacts contacts' hcontacts => ?_
        rw [List.toFinset_eq_of_perm _ _ (hcontacts.filterMap id)]
      · simp only [demand_of_nonpos _ hpos]
        refine collected_bind hperm fun us vs hitems => ?_
        refine mapM_bind_read (fun _ => ()) (fun _ => ()) ?_ fun _ _ _ => rfl
        simp only [projectedContact_raises (persistedIds b (crmRecords b outputs'))
          (persistedIds b (crmRecords b outputs))]
        exact hitems.map _

end Checks

/-- What the order of the tasks leaves alone: the verdict with its reasons, and under every key
that is collected the number of records, one for each identity and one for each record
without. -/
def OrderFree (b : Builtins) (contract : Dict) (tasks : List Value) : Prop :=
  ∀ tasks', tasks'.Perm tasks →
    evaluateMissionAcceptance b tasks' contract = evaluateMissionAcceptance b tasks contract ∧
    ∀ r ∈ recordReads b contract (Acceptance.outputs tasks),
      (uniqueRecords b r.1 (Acceptance.outputs tasks')).length =
        distinct (recordName b) ((Acceptance.outputs tasks).flatMap (records r.1))

theorem distinct_perm {items items' : List Dict} (h : items'.Perm items) :
    distinct (recordName b) items' = distinct (recordName b) items := by
  rw [distinct, distinct, List.toFinset_eq_of_perm _ _ (h.filterMap _),
    (show (unnamed (recordName b) items').Perm (unnamed (recordName b) items) from
      h.filter _).length_eq]

/-- Tasks whose records merge alike are judged alike. -/
theorem evaluate_eq {tasks tasks' : List Value} (htasks : tasks'.Perm tasks)
    (halike : ∀ r ∈ recordReads b contract (Acceptance.outputs tasks),
      MergeAlike b r.1 r.2 (Acceptance.outputs tasks) (Acceptance.outputs tasks')) :
    evaluateMissionAcceptance b tasks' contract = evaluateMissionAcceptance b tasks contract := by
  have hperm : (Acceptance.outputs tasks').Perm (Acceptance.outputs tasks) :=
    htasks.filterMap taskOutput
  unfold evaluateMissionAcceptance
  split_ifs with hempty
  · rfl
  · have hmerge : ∀ {keys : List String} {reading : Dict → Reading},
        (keys, reading) ∈ recordReads b contract (Acceptance.outputs tasks) →
        MergeAlike b keys reading (Acceptance.outputs tasks) (Acceptance.outputs tasks') :=
      fun hr => halike _ hr
    have hcrm : ((crmRecords b (Acceptance.outputs tasks')).map (crmReading b contract)).Perm
        ((crmRecords b (Acceptance.outputs tasks)).map (crmReading b contract)) := by
      refine crmRecords_alike (hmerge ?_) fun hnone => hmerge ?_
      · simp [recordReads, hempty]
      · simp [recordReads, hempty, hnone]
    have hcandidates : candidateReasons b contract (Acceptance.outputs tasks') =
        candidateReasons b contract (Acceptance.outputs tasks) := by
      refine candidateReasons_eq (hmerge ?_) (hmerge ?_)
      all_goals simp [recordReads, hempty]
    have hqualified : qualifiedReasons b contract (Acceptance.outputs tasks') =
        qualifiedReasons b contract (Acceptance.outputs tasks) :=
      qualifiedReasons_eq (hmerge (by simp [recordReads, hempty]))
    have hdrafts : draftReasons b contract (Acceptance.outputs tasks') =
        draftReasons b contract (Acceptance.outputs tasks) :=
      draftReasons_eq (hmerge (by simp [recordReads, hempty]))
    have hfollowUp : followUpReasons b contract (Acceptance.outputs tasks') =
        followUpReasons b contract (Acceptance.outputs tasks) :=
      followUpReasons_eq (hmerge (by simp [recordReads, hempty])) hperm
    simp only [List.mapM_cons, List.mapM_nil, hcandidates, hqualified, hdrafts,
      researchReasons_eq hperm, reviewReasons_eq hperm, crmReasons_eq hcrm hperm, hfollowUp,
      projectionReasons_eq hcrm hperm]

/-- Where the tasks agree on what is read of the records they name alike, their order is without
effect exactly when in no order a record without an identity is met at a position that is an
identity. -/
theorem acceptance_order_free (b : Builtins) (contract : Dict) (tasks : List Value)
    (hagree : Agreeing b contract (Acceptance.outputs tasks)) : OrderFree b contract tasks ↔
      ∀ tasks', tasks'.Perm tasks →
        NamesApart b contract (Acceptance.outputs tasks) (Acceptance.outputs tasks') := by
  have hperm : ∀ {tasks'}, tasks'.Perm tasks →
      (Acceptance.outputs tasks').Perm (Acceptance.outputs tasks) := fun h => h.filterMap taskOutput
  have hcount : ∀ {tasks'}, tasks'.Perm tasks → ∀ keys,
      ((uniqueRecords b keys (Acceptance.outputs tasks')).length =
        distinct (recordName b) ((Acceptance.outputs tasks).flatMap (records keys)) ↔
      Apart (recordName b) Nat.repr ((Acceptance.outputs tasks').flatMap (records keys))) := by
    intro tasks' htasks keys
    rw [← length_merge_eq_iff repr_injective, ← distinct_perm ((hperm htasks).flatMap_right _),
      uniqueRecords, List.length_map]
  constructor
  · intro h tasks' htasks r hr
    exact (hcount htasks r.1).1 ((h tasks' htasks).2 r hr)
  · intro h tasks' htasks
    refine ⟨evaluate_eq htasks fun r hr => ?_, fun r hr => ?_⟩
    · exact mergeAlike hagree (hperm htasks) (h tasks (.refl _)) (h tasks' htasks) hr
    · exact (hcount htasks r.1).2 (h tasks' htasks r hr)

section Runs

/-- Floats, lists and dictionaries are no identities here, and no number is a text. -/
def plain : Builtins := ⟨fun _ => "", fun _ => none⟩

/-- A task that emits one record under a key. -/
def emits (key : String) (item : Dict) : Value :=
  .dict [("handler_result", .dict [("output", .dict [(key, .list [.dict item])])])]

def scored (company : String) (score : ℤ) : Value :=
  emits "qualified_prospects" [("company", .str company), ("score_10", .int score)]

/-- Two scores of one company above the threshold, another company below it and a draft. -/
def scoredTwice : List Value :=
  [scored "Acme" 8, scored "Bolt" 5, scored "Acme" 9,
    emits "introduction_drafts" [("company", .str "Acme"), ("text", .str "Hello")]]

theorem acceptance_order_free_scored :
    OrderFree plain [("qualified_min", .int 1), ("draft_min", .int 1)] scoredTwice := by
  have hnamed : ∀ r ∈ recordReads plain [("qualified_min", .int 1), ("draft_min", .int 1)]
      (Acceptance.outputs scoredTwice), ∀ x ∈ (Acceptance.outputs scoredTwice).flatMap (records r.1),
      recordName plain x ≠ none := by decide +kernel
  refine (acceptance_order_free plain _ _ (agreeing_of_named ?_)).2 fun tasks' htasks =>
    namesApart_of_named (htasks.filterMap taskOutput) hnamed
  decide +kernel

/-- The last score of a company decides, and a draft without an identity may take the place of
the draft that is named `1`. -/
theorem order_decides :
    ¬OrderFree plain [("qualified_min", .int 1)] [scored "Acme" 8, scored "Acme" 5] ∧
      ¬OrderFree plain [("draft_min", .int 2)] [emits "introduction_drafts" [("text", .str "Hello")],
        emits "introduction_drafts" [("id", .str "1")]] := by
  constructor
  · intro h
    have hswap := (h [scored "Acme" 5, scored "Acme" 8] (.swap _ _ _)).1
    revert hswap
    decide +kernel
  · intro h
    have hswap := (h [emits "introduction_drafts" [("id", .str "1")],
      emits "introduction_drafts" [("text", .str "Hello")]] (.swap _ _ _)).1
    revert hswap
    decide +kernel

end Runs
end Reading
end Ajenda.Acceptance
