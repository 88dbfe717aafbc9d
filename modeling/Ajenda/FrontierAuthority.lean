import Ajenda.KnowledgeFrontier

/-!
# The authority of the frontier

The state of a consistent history: what replays, another order and older items leave as it is, and
when the proposition is active. A history is consistent exactly when it is resolved at all.
-/
namespace Ajenda.Knowledge
open Ajenda.Experience (Datetime KnowledgeQualificationGates QualificationGateResult)

section Reading
variable {history history' distinct distinct' frontier frontier' : List HistoryItem}
  {newest newest' : Option Datetime} {propositionKey : Option String} {key : String}

/-- What the resolution asks of a history: one proposition, the one asked for, replays that repeat
their item, and times that can be compared. -/
structure Consistent (history : List HistoryItem) (propositionKey : Option String) : Prop where
  nonempty : history ≠ []
  oneProposition : ∃ key, (∀ i ∈ history, i.propositionKey = some key) ∧ ∀ k ∈ propositionKey, k = key
  replays : Replays history
  comparable : Comparable history

/-- The frontier and the newest time as the resolution reads them. -/
structure FrontierReading (history distinct : List HistoryItem) (newest : Option Datetime)
    (frontier : List HistoryItem) : Prop where
  kept : Distinct history distinct
  nodup : (frontier.map (·.identity)).Nodup
  dated : newest = none ↔ ∀ i ∈ history, i.evaluationWatermark = none
  undated : newest = none → frontier = distinct
  written : ∀ t ∈ newest, ∃ i, InFrontier history i ∧ i.evaluationWatermark = some t
  mem : newest ≠ none → ∀ i ∈ frontier, InFrontier history i
  covers : newest ≠ none → ∀ i, InFrontier history i → ∃ j ∈ frontier, j.content = i.content

theorem frontierReading (h : Distinct history distinct) (hcomparable : Comparable history) :
    ∃ newest frontier, frontierOf distinct = .ok (newest, frontier) ∧
      FrontierReading history distinct newest frontier := by
  by_cases hundated : ∀ i ∈ history, i.evaluationWatermark = none
  · refine ⟨none, distinct, frontierOf_undated h hundated, h, h.nodup, by simpa using hundated,
      fun _ => rfl, by simp, by simp, by simp⟩
  · push Not at hundated
    obtain ⟨i, hi, hdated⟩ := hundated
    obtain ⟨newest, ⟨j, hj, -, hjw⟩, hok, hfrontier⟩ :=
      frontierOf_dated h hcomparable hi (Option.isSome_iff_ne_none.2 hdated)
    refine ⟨some newest, _, hok, h, ?_, ?_, by simp, ?_, ?_, ?_⟩
    · exact h.nodup.sublist (List.filter_sublist.map _)
    · simp only [reduceCtorEq, false_iff, not_forall]
      exact ⟨i, hi, hdated⟩
    · rintro t ⟨⟩
      exact ⟨j, hj, hjw⟩
    · intro _ k hk
      obtain ⟨hkd, hkw⟩ := List.mem_filter.1 hk
      exact (hfrontier k).2 ⟨h.mem k hkd, by simpa using hkw⟩
    · intro _ k hk
      obtain ⟨hkh, hkw⟩ := (hfrontier k).1 hk
      obtain ⟨k', hk', -, hcontent⟩ := h.covers k hkh
      refine ⟨k', List.mem_filter.2 ⟨hk', ?_⟩, hcontent⟩
      simpa [watermark_of_content hcontent] using hkw

theorem keys_dedup (hne : history ≠ []) (h : ∀ i ∈ history, i.propositionKey = some key) :
    (history.filterMap (·.propositionKey)).dedup = [key] := by
  refine Experience.dedup_eq_singleton.2 ⟨?_, fun k hk => ?_⟩
  · obtain ⟨i, hi⟩ := List.exists_mem_of_ne_nil _ hne
    exact List.ne_nil_of_mem (List.mem_filterMap.2 ⟨i, hi, h i hi⟩)
  · obtain ⟨i, hi, hik⟩ := List.mem_filterMap.1 hk
    exact Option.some.inj (hik.symm.trans (h i hi))

theorem resolve_of_consistent (h : Consistent history propositionKey) :
    ∃ key distinct newest frontier, (∀ i ∈ history, i.propositionKey = some key) ∧
      distinctItems history = .ok distinct ∧ frontierOf distinct = .ok (newest, frontier) ∧
      FrontierReading history distinct newest frontier ∧
      resolveKnowledgeLifecycle history propositionKey =
        .ok (stateOf key distinct newest frontier) := by
  obtain ⟨key, hkey, hsupplied⟩ := h.oneProposition
  obtain ⟨distinct, hdistinct, hspec⟩ := distinctItems_ok h.replays
  obtain ⟨newest, frontier, hfrontier, hreading⟩ := frontierReading hspec h.comparable
  refine ⟨key, distinct, newest, frontier, hkey, hdistinct, hfrontier, hreading, ?_⟩
  have hasked : ¬ (propositionKey ≠ none ∧ propositionKey ≠ some key) := by
    rintro ⟨hsome, hne⟩
    obtain ⟨k, hk⟩ := Option.ne_none_iff_exists'.1 hsome
    exact hne (by rw [hk, hsupplied k hk])
  unfold resolveKnowledgeLifecycle
  rw [if_neg h.nonempty, keys_dedup h.nonempty hkey]
  simp only [if_neg hasked, hdistinct, hfrontier, bind, Except.bind, pure, Except.pure]

/-- Only a consistent history is resolved. -/
theorem consistent_of_ok {state : CurrentKnowledgeState} (hne : history ≠ [])
    (h : resolveKnowledgeLifecycle history propositionKey = .ok state) :
    Consistent history propositionKey := by
  unfold resolveKnowledgeLifecycle at h
  rw [if_neg hne] at h
  split at h
  next key hkeys =>
    split_ifs at h with hasked
    cases hdistinct : distinctItems history with
    | error e =>
      rw [hdistinct] at h
      cases h
    | ok distinct =>
      cases hfrontier : frontierOf distinct with
      | error e =>
        simp only [hdistinct, hfrontier, bind, Except.bind, reduceCtorEq] at h
      | ok read =>
        have hreplays := replays_of_distinctItems hdistinct
        obtain ⟨distinct', hdistinct', hspec⟩ := distinctItems_ok hreplays
        obtain rfl := Except.ok.inj (hdistinct.symm.trans hdistinct')
        refine ⟨hne, ⟨key, fun i hi => ?_, fun k hk => ?_⟩, hreplays,
          comparable_of_ok hspec hfrontier⟩
        · obtain ⟨k, hk⟩ := i.propositionKey_isSome
          rw [hk, (Experience.dedup_eq_singleton.1 hkeys).2 k (List.mem_filterMap.2 ⟨i, hi, hk⟩)]
        · by_contra hother
          exact hasked ⟨by simp [Option.mem_def.1 hk], by simpa [Option.mem_def.1 hk] using hother⟩
  next => cases h

theorem resolve_ok_iff (hne : history ≠ []) :
    (∃ state, resolveKnowledgeLifecycle history propositionKey = .ok state) ↔
      Consistent history propositionKey := by
  refine ⟨fun ⟨_, h⟩ => consistent_of_ok hne h, fun h => ?_⟩
  obtain ⟨_, _, _, _, -, -, -, -, hresolve⟩ := resolve_of_consistent h
  exact ⟨_, hresolve⟩

end Reading

section Follows
variable {history history' distinct distinct' frontier frontier' : List HistoryItem}
  {newest newest' : Option Datetime} {propositionKey : Option String} {key : String}

/-- Every item of the second list replays one of the first, its time written the same way. -/
def Repeats (history history' : List HistoryItem) : Prop :=
  ∀ j ∈ history', ∃ i ∈ history,
    i.content = j.content ∧ i.evaluationWatermark = j.evaluationWatermark

/-- The item is dated before the newest watermark, or undated where some item is dated. -/
def Older (history : List HistoryItem) (i : HistoryItem) : Prop :=
  ∃ j ∈ history, ∃ t ∈ j.evaluationWatermark, ∀ s ∈ i.evaluationWatermark, s.instant < t.instant

/-- The second list holds the first and older items. -/
structure AddsOlder (history history' : List HistoryItem) : Prop where
  keeps : ∀ i ∈ history, i ∈ history'
  adds : ∀ i ∈ history', i ∈ history ∨ Older history i

/-- The state of a history follows its frontier. -/
structure FollowsFrontier (history : List HistoryItem) (propositionKey : Option String)
    (state : CurrentKnowledgeState) : Prop where
  replayed : ∀ history', Repeats history history' → Repeats history' history →
    resolveKnowledgeLifecycle history' propositionKey = .ok state
  extended : ∀ history', AddsOlder history history' → Consistent history' propositionKey →
    ∃ state', resolveKnowledgeLifecycle history' propositionKey = .ok state' ∧
      SameAuthority state state'
  active : state.lifecycleStatus = .active ↔ (∃ i, InFrontier history i) ∧
    ∀ i, InFrontier history i → i.qualification.status = .qualified
  authoritative : state.lifecycleStatus = .active → state.authoritativeKnowledgeIds ≠ [] ∧
    ∀ id, id ∈ state.authoritativeKnowledgeIds ↔
      ∃ i, InFrontier history i ∧ ∃ a ∈ i.knowledgeArtifact, a.knowledgeId = id

/-- The items of the frontier write their instant with one offset. -/
def OneOffset (history : List HistoryItem) : Prop :=
  ∀ i j, InFrontier history i → InFrontier history j →
    i.evaluationWatermark = j.evaluationWatermark

theorem identity_of_content {i j : HistoryItem} (h : i.content = j.content) :
    i.identity = j.identity :=
  congrArg (·.1.qualificationId) h

theorem status_of_content {i j : HistoryItem} (h : i.content = j.content) :
    i.qualification.status = j.qualification.status :=
  congrArg (·.1.status) h

theorem propositionKey_of_content {i j : HistoryItem} (h : i.content = j.content) :
    i.propositionKey = j.propositionKey :=
  congrArg (fun c => c.1.proposition.map (·.propositionKey)) h

theorem Consistent.of_repeats (h : Consistent history propositionKey)
    (hrepeats : Repeats history history') (hback : Repeats history' history) :
    Consistent history' propositionKey where
  nonempty := by
    obtain ⟨i, hi⟩ := List.exists_mem_of_ne_nil _ h.nonempty
    obtain ⟨j, hj, -⟩ := hback i hi
    exact List.ne_nil_of_mem hj
  oneProposition := by
    obtain ⟨key, hkey, hsupplied⟩ := h.oneProposition
    refine ⟨key, fun j hj => ?_, hsupplied⟩
    obtain ⟨i, hi, hcontent, -⟩ := hrepeats j hj
    rw [← propositionKey_of_content hcontent, hkey i hi]
  replays := by
    intro j hj j' hj' hid
    obtain ⟨i, hi, hcontent, -⟩ := hrepeats j hj
    obtain ⟨i', hi', hcontent', -⟩ := hrepeats j' hj'
    rw [← hcontent, ← hcontent']
    exact h.replays i hi i' hi' (by
      rw [identity_of_content hcontent, identity_of_content hcontent', hid])
  comparable := by
    intro j hj j' hj' s hs t ht
    obtain ⟨i, hi, -, hw⟩ := hrepeats j hj
    obtain ⟨i', hi', -, hw'⟩ := hrepeats j' hj'
    exact h.comparable i hi i' hi' s (hw ▸ hs) t (hw' ▸ ht)

/-- A replay of an item of the frontier is in the frontier of the replayed history. -/
theorem InFrontier.of_repeats {i j : HistoryItem} (h : InFrontier history i)
    (hrepeats : Repeats history history') (hj : j ∈ history') (hcontent : i.content = j.content)
    (hw : i.evaluationWatermark = j.evaluationWatermark) : InFrontier history' j := by
  refine ⟨hj, ?_⟩
  have hall := h.2
  rw [hw] at hall
  cases hjw : j.evaluationWatermark with
  | none =>
    rw [hjw] at hall
    intro k hk
    obtain ⟨k', hk', hkcontent, hkw⟩ := hrepeats k hk
    rw [← hkw, ← identity_of_content hkcontent, ← identity_of_content hcontent]
    exact hall k' hk'
  | some t =>
    rw [hjw] at hall
    intro k hk s hs
    obtain ⟨k', hk', -, hkw⟩ := hrepeats k hk
    exact hall k' hk' s (hkw ▸ hs)

theorem FrontierReading.contents_distinct (h : FrontierReading history distinct newest frontier)
    (h' : FrontierReading history' distinct' newest' frontier')
    (hrepeats : Repeats history history') (hback : Repeats history' history) :
    (distinct.map (·.content)).Perm (distinct'.map (·.content)) := by
  have hcover : ∀ {xs ys ds es : List HistoryItem}, Distinct xs ds → Distinct ys es →
      Repeats ys xs → ∀ i ∈ ds, ∃ j ∈ es, j.content = i.content := by
    intro xs ys ds es hds hes hxy i hi
    obtain ⟨k, hk, hkcontent, -⟩ := hxy i (hds.mem i hi)
    obtain ⟨j, hj, -, hjcontent⟩ := hes.covers k hk
    exact ⟨j, hj, hjcontent.trans hkcontent⟩
  exact contents_perm h.kept.nodup h'.kept.nodup (hcover h.kept h'.kept hback)
    (hcover h'.kept h.kept hrepeats)

/-- Frontiers with the same contents are read as such. -/
theorem FrontierReading.contents_frontier (h : FrontierReading history distinct newest frontier)
    (h' : FrontierReading history' distinct' newest' frontier')
    (hdated : newest ≠ none) (hdated' : newest' ≠ none)
    (hto : ∀ i, InFrontier history i → ∃ j, InFrontier history' j ∧ j.content = i.content)
    (hfrom : ∀ j, InFrontier history' j → ∃ i, InFrontier history i ∧ i.content = j.content) :
    (frontier.map (·.content)).Perm (frontier'.map (·.content)) := by
  refine contents_perm h.nodup h'.nodup (fun i hi => ?_) fun j hj => ?_
  · obtain ⟨k, hk, hkcontent⟩ := hto i (h.mem hdated i hi)
    obtain ⟨j, hj, hjcontent⟩ := h'.covers hdated' k hk
    exact ⟨j, hj, hjcontent.trans hkcontent⟩
  · obtain ⟨k, hk, hkcontent⟩ := hfrom j (h'.mem hdated' j hj)
    obtain ⟨i, hi, hicontent⟩ := h.covers hdated k hk
    exact ⟨i, hi, hicontent.trans hkcontent⟩

theorem inFrontier_repeats (hrepeats : Repeats history history') (hback : Repeats history' history)
    {i : HistoryItem} (hi : InFrontier history i) :
    ∃ j, InFrontier history' j ∧ j.content = i.content ∧
      j.evaluationWatermark = i.evaluationWatermark := by
  obtain ⟨j, hj, hcontent, hw⟩ := hback i hi.1
  exact ⟨j, hi.of_repeats hrepeats hj hcontent.symm hw.symm, hcontent, hw⟩

theorem newest_none_of_repeats (h : FrontierReading history distinct newest frontier)
    (h' : FrontierReading history' distinct' newest' frontier')
    (hrepeats : Repeats history history') (hnone : newest = none) : newest' = none := by
  refine h'.dated.2 fun j hj => ?_
  obtain ⟨i, hi, -, hw⟩ := hrepeats j hj
  rw [← hw, h.dated.1 hnone i hi]

/-- With one offset at the frontier a replay changes nothing. -/
theorem resolve_replayed {state : CurrentKnowledgeState} (h : Consistent history propositionKey)
    (hoffset : OneOffset history)
    (hstate : resolveKnowledgeLifecycle history propositionKey = .ok state)
    (hrepeats : Repeats history history') (hback : Repeats history' history) :
    resolveKnowledgeLifecycle history' propositionKey = .ok state := by
  obtain ⟨key, distinct, newest, frontier, hkey, -, -, hreading, hresolve⟩ :=
    resolve_of_consistent h
  obtain ⟨key', distinct', newest', frontier', hkey', -, -, hreading', hresolve'⟩ :=
    resolve_of_consistent (h.of_repeats hrepeats hback)
  have hsame : key = key' := by
    obtain ⟨i, hi⟩ := List.exists_mem_of_ne_nil _ h.nonempty
    obtain ⟨j, hj, hcontent, -⟩ := hback i hi
    exact Option.some.inj ((hkey i hi).symm.trans
      ((propositionKey_of_content hcontent.symm).trans (hkey' j hj)))
  have hd := hreading.contents_distinct hreading' hrepeats hback
  rw [hresolve']
  rw [hresolve, Except.ok.injEq] at hstate
  rw [← hstate, hsame, Except.ok.injEq]
  cases hnewest : newest with
  | none =>
    obtain rfl := newest_none_of_repeats hreading hreading' hrepeats hnewest
    rw [hreading.undated hnewest, hreading'.undated rfl]
    exact (stateOf_congr hd hd).symm
  | some t =>
    have hdated' : newest' ≠ none := fun hnone => by
      rw [newest_none_of_repeats hreading' hreading hback hnone] at hnewest
      cases hnewest
    obtain ⟨t', ht'⟩ := Option.ne_none_iff_exists'.1 hdated'
    obtain ⟨i, hi, hiw⟩ := hreading.written t hnewest
    obtain ⟨j, hj, hjw⟩ := hreading'.written t' ht'
    obtain ⟨k, hk, -, hkw⟩ := inFrontier_repeats hback hrepeats hj
    have htimes : t' = t :=
      Option.some.inj (by rw [← hjw, ← hkw, hoffset k i hk hi, hiw])
    rw [ht', htimes]
    refine (stateOf_congr hd ?_).symm
    refine hreading.contents_frontier hreading' (by simp [hnewest]) hdated' (fun i hi => ?_)
      fun j hj => ?_
    · obtain ⟨k, hk, hcontent, -⟩ := inFrontier_repeats hrepeats hback hi
      exact ⟨k, hk, hcontent⟩
    · obtain ⟨k, hk, hcontent, -⟩ := inFrontier_repeats hback hrepeats hj
      exact ⟨k, hk, hcontent⟩

/-- Older items leave the frontier as it was. -/
theorem AddsOlder.inFrontier_iff (h : AddsOlder history history') {i : HistoryItem}
    (hdated : ∃ j ∈ history, j.evaluationWatermark ≠ none) :
    InFrontier history' i ↔ InFrontier history i := by
  obtain ⟨j, hj, hjw⟩ := hdated
  constructor
  · rintro ⟨hi, hall⟩
    cases hiw : i.evaluationWatermark with
    | none =>
      rw [hiw] at hall
      exact absurd (hall j (h.keeps j hj)).1 hjw
    | some t =>
      rw [hiw] at hall
      refine ⟨(h.adds i hi).resolve_right ?_, ?_⟩
      · rintro ⟨k, hk, s, hs, hlt⟩
        exact absurd (hlt t hiw) (hall k (h.keeps k hk) s hs).not_gt
      · rw [hiw]
        exact fun k hk => hall k (h.keeps k hk)
  · rintro ⟨hi, hall⟩
    refine ⟨h.keeps i hi, ?_⟩
    cases hiw : i.evaluationWatermark with
    | none =>
      rw [hiw] at hall
      exact absurd (hall j hj).1 hjw
    | some t =>
      rw [hiw] at hall
      intro k hk s hs
      rcases h.adds k hk with hk | ⟨l, hl, u, hu, hlt⟩
      · exact hall k hk s hs
      · exact (hlt s hs).le.trans (hall l hl u hu)

theorem resolve_extended {state : CurrentKnowledgeState} (h : Consistent history propositionKey)
    (hstate : resolveKnowledgeLifecycle history propositionKey = .ok state)
    (hadds : AddsOlder history history') (h' : Consistent history' propositionKey) :
    ∃ state', resolveKnowledgeLifecycle history' propositionKey = .ok state' ∧
      SameAuthority state state' := by
  obtain ⟨key, distinct, newest, frontier, hkey, -, -, hreading, hresolve⟩ :=
    resolve_of_consistent h
  obtain ⟨key', distinct', newest', frontier', hkey', -, -, hreading', hresolve'⟩ :=
    resolve_of_consistent h'
  refine ⟨_, hresolve', ?_⟩
  rw [hresolve, Except.ok.injEq] at hstate
  rw [← hstate]
  have hsame : key = key' := by
    obtain ⟨i, hi⟩ := List.exists_mem_of_ne_nil _ h.nonempty
    exact Option.some.inj ((hkey i hi).symm.trans (hkey' i (hadds.keeps i hi)))
  rw [hsame]
  by_cases hdated : ∃ j ∈ history, j.evaluationWatermark ≠ none
  · have hnewest : newest ≠ none := fun hnone => by
      obtain ⟨j, hj, hjw⟩ := hdated
      exact hjw (hreading.dated.1 hnone j hj)
    have hnewest' : newest' ≠ none := fun hnone => by
      obtain ⟨j, hj, hjw⟩ := hdated
      exact hjw (hreading'.dated.1 hnone j (hadds.keeps j hj))
    refine sameAuthority (fun hnone => absurd hnone hnewest) ?_ ?_
    · rw [Option.isSome_iff_ne_none.2 hnewest, Option.isSome_iff_ne_none.2 hnewest']
    · exact hreading.contents_frontier hreading' hnewest hnewest'
        (fun i hi => ⟨i, (hadds.inFrontier_iff hdated).2 hi, rfl⟩)
        fun j hj => ⟨j, (hadds.inFrontier_iff hdated).1 hj, rfl⟩
  · -- Nothing is older than an undated history: the items are the same.
    push Not at hdated
    have hsub : ∀ i ∈ history', i ∈ history := by
      intro i hi
      refine (hadds.adds i hi).resolve_right ?_
      rintro ⟨j, hj, t, ht, -⟩
      rw [hdated j hj] at ht
      cases ht
    have hrepeats : Repeats history history' := fun j hj => ⟨j, hsub j hj, rfl, rfl⟩
    have hback : Repeats history' history := fun i hi => ⟨i, hadds.keeps i hi, rfl, rfl⟩
    have hnewest : newest = none := hreading.dated.2 hdated
    obtain rfl := newest_none_of_repeats hreading hreading' hrepeats hnewest
    have hd := hreading.contents_distinct hreading' hrepeats hback
    rw [hnewest, hreading.undated hnewest, hreading'.undated rfl]
    exact sameAuthority (fun _ => by simpa using hd.length_eq) rfl hd

/-- Where a frontier exists the resolution reads its items. -/
theorem FrontierReading.members (h : FrontierReading history distinct newest frontier)
    (hexists : newest ≠ none ∨ distinct.length = 1) :
    (∃ i, InFrontier history i) ∧ (∀ j ∈ frontier, InFrontier history j) ∧
      ∀ i, InFrontier history i → ∃ j ∈ frontier, j.content = i.content := by
  cases hnewest : newest with
  | some t =>
    obtain ⟨i, hi, -⟩ := h.written t hnewest
    exact ⟨⟨i, hi⟩, h.mem (by simp [hnewest]), h.covers (by simp [hnewest])⟩
  | none =>
    have hundated := h.dated.1 hnewest
    have hone : distinct.length = 1 := hexists.resolve_left (by simp [hnewest])
    rw [h.undated hnewest]
    refine ⟨(inFrontier_undated h.kept hundated).2 hone, fun j hj => ?_, fun i hi => ?_⟩
    · refine ⟨h.kept.mem j hj, ?_⟩
      rw [hundated j (h.kept.mem j hj)]
      intro k hk
      obtain ⟨k', hk', hid, -⟩ := h.kept.covers k hk
      obtain ⟨x, hx⟩ := List.length_eq_one_iff.1 hone
      rw [hx, List.mem_singleton] at hj hk'
      exact ⟨hundated k hk, by rw [← hid, hj, hk']⟩
    · obtain ⟨j, hj, -, hcontent⟩ := h.kept.covers i hi.1
      exact ⟨j, hj, hcontent⟩

theorem FrontierReading.exists_iff (h : FrontierReading history distinct newest frontier) :
    (∃ i, InFrontier history i) ↔ newest ≠ none ∨ distinct.length = 1 := by
  refine ⟨fun hexists => ?_, fun hread => (h.members hread).1⟩
  by_cases hnewest : newest = none
  · exact .inr ((inFrontier_undated h.kept (h.dated.1 hnewest)).1 hexists)
  · exact .inl hnewest

theorem FrontierReading.active_iff (h : FrontierReading history distinct newest frontier)
    (hne : history ≠ []) : (stateOf key distinct newest frontier).lifecycleStatus = .active ↔
      (∃ i, InFrontier history i) ∧
        ∀ i, InFrontier history i → i.qualification.status = .qualified := by
  have hpos : 0 < distinct.length := by
    obtain ⟨i, hi⟩ := List.exists_mem_of_ne_nil _ hne
    obtain ⟨j, hj, -⟩ := h.kept.covers i hi
    exact List.length_pos_of_mem hj
  have hread : newest.isSome = true ∨ distinct.length ≤ 1 ↔
      newest ≠ none ∨ distinct.length = 1 := by
    rw [Option.isSome_iff_ne_none]
    exact or_congr_right ⟨fun hle => le_antisymm hle hpos, Eq.le⟩
  rw [stateOf, statusOf_active, hread, ← h.exists_iff]
  refine and_congr_right fun hexists => ?_
  obtain ⟨⟨i, hi⟩, hmem, hcovers⟩ := h.members (h.exists_iff.1 hexists)
  constructor
  · rintro ⟨-, hall⟩ k hk
    obtain ⟨j, hj, hcontent⟩ := hcovers k hk
    rw [← status_of_content hcontent]
    exact hall _ (List.mem_map_of_mem hj)
  · intro hall
    obtain ⟨j, hj, -⟩ := hcovers i hi
    refine ⟨List.ne_nil_of_mem (List.mem_map_of_mem hj), fun s hs => ?_⟩
    obtain ⟨k, hk, rfl⟩ := List.mem_map.1 hs
    exact hall k (hmem k hk)

theorem mem_sorted {x : String} {xs : List String} : x ∈ sorted xs ↔ x ∈ xs :=
  (List.perm_insertionSort _ xs).mem_iff

theorem HistoryItem.artifact_of_qualified {i : HistoryItem}
    (h : i.qualification.status = .qualified) : ∃ a, i.knowledgeArtifact = some a := by
  have hshape := i.shape
  unfold ledgerShape at hshape
  split_ifs at hshape
  split at hshape
  next a _ ha _ => exact ⟨a, ha⟩
  next => cases hshape

theorem artifactId_of_content {i j : HistoryItem} (h : i.content = j.content) :
    i.knowledgeArtifact.map (·.knowledgeId) = j.knowledgeArtifact.map (·.knowledgeId) := by
  have hmap : ∀ k : HistoryItem, (k.content.2.2).map (·.knowledgeId) =
      k.knowledgeArtifact.map (·.knowledgeId) := by
    intro k
    cases hk : k.knowledgeArtifact <;>
      simp [HistoryItem.content, hk, QualifiedKnowledgeArtifact.inUtc]
  rw [← hmap, ← hmap, h]

/-- The ids of an active proposition are those of the frontier's artifacts. -/
theorem FrontierReading.authoritative (h : FrontierReading history distinct newest frontier)
    (hne : history ≠ [])
    (hactive : (stateOf key distinct newest frontier).lifecycleStatus = .active) :
    (stateOf key distinct newest frontier).authoritativeKnowledgeIds ≠ [] ∧
      ∀ id, id ∈ (stateOf key distinct newest frontier).authoritativeKnowledgeIds ↔
        ∃ i, InFrontier history i ∧ ∃ a ∈ i.knowledgeArtifact, a.knowledgeId = id := by
  obtain ⟨hexists, hall⟩ := (h.active_iff hne).1 hactive
  obtain ⟨⟨i, hi⟩, hmem, hcovers⟩ := h.members (h.exists_iff.1 hexists)
  have hids : ∀ id, id ∈ (stateOf key distinct newest frontier).authoritativeKnowledgeIds ↔
      ∃ i, InFrontier history i ∧ ∃ a ∈ i.knowledgeArtifact, a.knowledgeId = id := by
    intro id
    simp only [stateOf] at hactive ⊢
    rw [if_pos hactive, mem_sorted, List.mem_filterMap]
    constructor
    · rintro ⟨j, hj, hid⟩
      obtain ⟨a, ha, rfl⟩ := Option.map_eq_some_iff.1 hid
      exact ⟨j, hmem j hj, a, ha, rfl⟩
    · rintro ⟨k, hk, a, ha, rfl⟩
      obtain ⟨j, hj, hcontent⟩ := hcovers k hk
      exact ⟨j, hj, by rw [artifactId_of_content hcontent, Option.mem_def.1 ha, Option.map_some]⟩
  refine ⟨?_, hids⟩
  obtain ⟨a, ha⟩ := HistoryItem.artifact_of_qualified (hall i hi)
  exact List.ne_nil_of_mem ((hids a.knowledgeId).2 ⟨i, hi, a, ha, rfl⟩)

/-- Reading on keeps the first identity first. -/
theorem fold_head {items : List HistoryItem} {r : String × HistoryItem}
    {rest records : List (String × HistoryItem)}
    (h : items.foldlM keep (r :: rest) = .ok records) :
    ∃ q rest', records = q :: rest' ∧ q.1 = r.1 := by
  induction items generalizing r rest with
  | nil =>
    cases h
    exact ⟨r, rest, rfl, rfl⟩
  | cons item items ih =>
    rw [List.foldlM_cons] at h
    cases hkeep : keep (r :: rest) item with
    | error e =>
      rw [hkeep] at h
      cases h
    | ok next =>
      rw [hkeep] at h
      have hput : ∃ q rest', next = q :: rest' ∧ q.1 = r.1 := by
        rw [(keep_eq_ok.1 hkeep).2, PositionalMerge.put]
        split_ifs with hkey
        · refine ⟨_, _, List.map_cons, ?_⟩
          by_cases hr : r.1 = item.identity <;> simp [hr]
        · exact ⟨r, _, List.cons_append, rfl⟩
      obtain ⟨q, rest', rfl, hq⟩ := hput
      obtain ⟨p, rest'', hp, hpq⟩ := ih h
      exact ⟨p, rest'', hp, hpq.trans hq⟩

/-- An item that comes first and last is the first of the distinct items. -/
theorem distinctItems_head {item : HistoryItem} {items : List HistoryItem}
    (h : distinctItems (item :: (items ++ [item])) = .ok distinct) :
    ∃ rest, distinct = item :: rest := by
  unfold distinctItems at h
  cases hrecords : (item :: (items ++ [item])).foldlM keep [] with
  | error e =>
    rw [hrecords] at h
    cases h
  | ok records =>
    rw [hrecords] at h
    obtain rfl := Except.ok.inj h
    have hfirst : keep [] item = .ok [(item.identity, item)] := rfl
    rw [List.foldlM_cons, hfirst] at hrecords
    change (items ++ [item]).foldlM keep [(item.identity, item)] = .ok records at hrecords
    rw [List.foldlM_append] at hrecords
    cases hmiddle : items.foldlM keep [(item.identity, item)] with
    | error e =>
      rw [hmiddle] at hrecords
      cases hrecords
    | ok middle =>
      obtain ⟨q, rest, rfl, hq⟩ := fold_head hmiddle
      rw [hmiddle] at hrecords
      change [item].foldlM keep (q :: rest) = .ok records at hrecords
      rw [List.foldlM_cons] at hrecords
      cases hlast : keep (q :: rest) item with
      | error e =>
        rw [hlast] at hrecords
        cases hrecords
      | ok last =>
        rw [hlast] at hrecords
        obtain rfl := Except.ok.inj hrecords
        rw [(keep_eq_ok.1 hlast).2, PositionalMerge.put, if_pos (by simp [hq])]
        simp [hq]

/-- With an item of the frontier first, the newest time is written as that item writes it. -/
theorem resolve_first {i : HistoryItem} {t : Datetime} (h : Consistent history propositionKey)
    (hi : InFrontier history i) (hw : i.evaluationWatermark = some t) :
    ∃ state, resolveKnowledgeLifecycle (i :: (history ++ [i])) propositionKey = .ok state ∧
      state.evaluationFrontier = some t := by
  have hmem : ∀ j ∈ i :: (history ++ [i]), j ∈ history := by
    intro j hj
    rcases List.mem_cons.1 hj with rfl | hj
    · exact hi.1
    · rcases List.mem_append.1 hj with hj | hj
      · exact hj
      · exact List.mem_singleton.1 hj ▸ hi.1
  have hconsistent : Consistent (i :: (history ++ [i])) propositionKey := by
    refine h.of_repeats (fun j hj => ⟨j, hmem j hj, rfl, rfl⟩) fun j hj => ⟨j, ?_, rfl, rfl⟩
    exact List.mem_cons_of_mem i (List.mem_append_left _ hj)
  obtain ⟨key, distinct, newest, frontier, -, hdistinct, hfrontier, hreading, hresolve⟩ :=
    resolve_of_consistent hconsistent
  refine ⟨_, hresolve, ?_⟩
  change newest = some t
  obtain ⟨rest, rfl⟩ := distinctItems_head hdistinct
  have hall := hi.2
  rw [hw] at hall
  have htimes : (((i :: rest).filter (·.evaluationWatermark.isSome)).filterMap
      (·.evaluationWatermark)) =
        t :: (rest.filter (·.evaluationWatermark.isSome)).filterMap (·.evaluationWatermark) := by
    rw [List.filter_cons_of_pos (by rw [hw]; rfl), List.filterMap_cons_some hw]
  have hread : ∀ u ∈ (rest.filter (·.evaluationWatermark.isSome)).filterMap
      (·.evaluationWatermark), u.aware = t.aware ∧ u.instant ≤ t.instant := by
    intro u hu
    obtain ⟨j, hj, hju⟩ := List.mem_filterMap.1 hu
    have hjh : j ∈ history :=
      hmem j (hreading.kept.mem j (List.mem_cons_of_mem i (List.mem_filter.1 hj).1))
    exact ⟨h.comparable j hjh i hi.1 u hju t hw, hall j hjh u hju⟩
  unfold frontierOf at hfrontier
  simp only [htimes, latest_head (fun u hu => (hread u hu).1) fun u hu => (hread u hu).2,
    Except.ok.injEq, Prod.mk.injEq] at hfrontier
  exact hfrontier.1.symm

theorem oneOffset_of_replayed {state : CurrentKnowledgeState}
    (h : Consistent history propositionKey)
    (hreplayed : ∀ history', Repeats history history' → Repeats history' history →
      resolveKnowledgeLifecycle history' propositionKey = .ok state) : OneOffset history := by
  have hwritten : ∀ i t, InFrontier history i → i.evaluationWatermark = some t →
      state.evaluationFrontier = some t := by
    intro i t hi hw
    obtain ⟨state', hstate', hfrontier⟩ := resolve_first h hi hw
    have hrepeats : Repeats history (i :: (history ++ [i])) := by
      intro j hj
      refine ⟨j, ?_, rfl, rfl⟩
      rcases List.mem_cons.1 hj with rfl | hj
      · exact hi.1
      · exact (List.mem_append.1 hj).elim id fun hj => List.mem_singleton.1 hj ▸ hi.1
    have hback : Repeats (i :: (history ++ [i])) history := fun j hj =>
      ⟨j, List.mem_cons_of_mem i (List.mem_append_left _ hj), rfl, rfl⟩
    rw [hreplayed _ hrepeats hback, Except.ok.injEq] at hstate'
    rw [hstate', hfrontier]
  intro i j hi hj
  cases hiw : i.evaluationWatermark with
  | none =>
    have hall := hi.2
    rw [hiw] at hall
    exact (hall j hj.1).1.symm
  | some t =>
    cases hjw : j.evaluationWatermark with
    | none =>
      have hall := hj.2
      rw [hjw] at hall
      exact hiw ▸ (hall i hi.1).1
    | some u => rw [← hwritten i t hi hiw, ← hwritten j u hj hjw]

/-- The state of a consistent history follows its frontier exactly when the items of the frontier
write their instant with one offset. -/
theorem followsFrontier_iff (h : Consistent history propositionKey) :
    ∃ state, resolveKnowledgeLifecycle history propositionKey = .ok state ∧
      (FollowsFrontier history propositionKey state ↔ OneOffset history) := by
  obtain ⟨key, distinct, newest, frontier, -, -, -, hreading, hresolve⟩ := resolve_of_consistent h
  refine ⟨_, hresolve, fun hfollows => oneOffset_of_replayed h hfollows.replayed,
    fun hoffset => ?_⟩
  exact {
    replayed := fun _ hrepeats hback => resolve_replayed h hoffset hresolve hrepeats hback
    extended := fun _ hadds h' => resolve_extended h hresolve hadds h'
    active := hreading.active_iff h.nonempty
    authoritative := hreading.authoritative h.nonempty }

end Follows

section Offsets

def sampleGates : KnowledgeQualificationGates :=
  let g : QualificationGateResult := ⟨.pass, []⟩
  ⟨g, g, g, g, g, g, g, g⟩

def sampleProposition : KnowledgeProposition where
  propositionKey := "p"
  subjectSemanticSignatures := []
  interventionKey := "call"
  objectiveKey := some "growth"
  kpiSemanticSignatures := []
  relationshipType := .associatedWithFavorableOutcome
  scopeConditions := []
  invalidationConditions := []

/-- A provisional qualification of the evidence up to a time. -/
def provisional (id : String) (watermark : Option Datetime) : KnowledgeLifecycleHistoryItem where
  qualificationRecordId := id
  qualification := {
    qualificationId := id
    sourceCandidateId := "candidate"
    proposition := some sampleProposition
    status := .provisional
    gates := sampleGates
    evidenceSummary := {
      sourceCandidateId := "candidate"
      recurrenceStrength := .supported
      independentSupportCount := 3
      dependentSupportCount := 0
      strongIndependentContradictionCount := 0
      limitedSupportCount := 0
      limitedContradictionCount := 0
      dependentContradictionCount := 0
      ambiguousUnitCount := 0
      supportingEpisodeIds := []
      contradictingEpisodeIds := []
      neutralEpisodeIds := []
      ambiguousEpisodeIds := []
      excludedEpisodeIds := []
      dependentEpisodeGroups := []
      earliestEvaluatedAt := watermark
      latestEvaluatedAt := watermark
      experienceAlgorithm := "experience_intelligence_v1" }
    reasonCodes := []
    epistemicLimits := []
    qualifiedKnowledge := none
    algorithm := "knowledge_qualification_v1"
    boundary := by simp }
  evaluationWatermark := watermark
  knowledgeRecordId := none
  knowledgeArtifact := none
  shape := by simp [ledgerShape]

/-- Qualified through midnight, the offset written as zero. -/
def writtenInUtc : HistoryItem := provisional "a" (some ⟨0, some 0⟩)

/-- Qualified through the same instant, the offset written as one hour. -/
def writtenInCet : HistoryItem := provisional "b" (some ⟨3600, some 3600⟩)

theorem offsets_consistent : Consistent [writtenInUtc, writtenInCet] none where
  nonempty := by simp
  oneProposition := ⟨"p", by simp [HistoryItem.propositionKey, writtenInUtc, writtenInCet,
    provisional, sampleProposition], by simp⟩
  replays := by
    have hne : writtenInUtc.identity ≠ writtenInCet.identity := by decide +kernel
    intro i hi j hj hid
    rcases List.mem_pair.1 hi with rfl | rfl <;> rcases List.mem_pair.1 hj with rfl | rfl
    · rfl
    · exact absurd hid hne
    · exact absurd hid.symm hne
    · rfl
  comparable := by
    intro i hi j hj s hs t ht
    rcases List.mem_pair.1 hi with rfl | rfl <;> rcases List.mem_pair.1 hj with rfl | rfl <;>
      · cases hs
        cases ht
        rfl

theorem followsFrontier_iff_offsets : ∃ state,
    resolveKnowledgeLifecycle [writtenInUtc, writtenInCet] none = .ok state ∧
      (FollowsFrontier [writtenInUtc, writtenInCet] none state ↔
        OneOffset [writtenInUtc, writtenInCet]) :=
  followsFrontier_iff offsets_consistent

/-- One instant written with two offsets: the order of the items decides the projection id. -/
theorem projection_follows_order :
    ∃ history history' : List HistoryItem, Consistent history none ∧ history.Perm history' ∧
      resolveKnowledgeLifecycle history none ≠ resolveKnowledgeLifecycle history' none :=
  ⟨[writtenInUtc, writtenInCet], [writtenInCet, writtenInUtc], offsets_consistent,
    List.Perm.swap _ _ _, by decide +kernel⟩

end Offsets

end Ajenda.Knowledge
