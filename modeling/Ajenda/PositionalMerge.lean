import Mathlib.Data.Finset.Card
import Mathlib.Data.List.Perm.Basic
import Mathlib.Tactic

/-!
# Merging records under identities

A record that names itself is kept under its name, any other under the position at which it is
met, and a later record replaces an earlier one of its identity. A merge keeps the last record of
each name and every record without one, `Merged`, exactly when none of them is met at a position
that is a name. Lists of records that come in blocks then merge alike in every order of the
blocks, as far as the blocks agree on the names they share.
-/
namespace PositionalMerge

section Merge
variable {κ α : Type*} [DecidableEq κ]

/-- The record is kept under the key: it replaces an earlier one in its place. -/
def put (records : List (κ × α)) (key : κ) (a : α) : List (κ × α) :=
  if key ∈ records.map Prod.fst then records.map fun r => if r.1 = key then (key, a) else r
  else records ++ [(key, a)]

variable (name : α → Option κ) (position : ℕ → κ)

def step (records : List (κ × α)) (a : α) : List (κ × α) :=
  put records ((name a).getD (position records.length)) a

def merge (items : List α) : List (κ × α) := items.foldl (step name position) []

/-- The last record of a name. -/
def last (key : κ) (items : List α) : Option α :=
  (items.filter fun a => name a = some key).getLast?

def unnamed (items : List α) : List α := items.filter fun a => name a = none

/-- The names of the records and the records without one. -/
def distinct (items : List α) : ℕ :=
  (items.filterMap name).toFinset.card + (unnamed name items).length

/-- No record without a name is met at a position that names a record. -/
def Apart (items : List α) : Prop :=
  ∀ before a after, items = before ++ a :: after → name a = none →
    ∀ b ∈ items, name b ≠ some (position (distinct name before))

/-- What a merge of `items` holds. -/
structure Merged (items : List α) (records : List (κ × α)) : Prop where
  nodup : (records.map Prod.fst).Nodup
  entries : ∀ r ∈ records, r.2 ∈ items ∧ (name r.2 = some r.1 ∨ name r.2 = none ∧
    ∃ before after, items = before ++ r.2 :: after ∧ r.1 = position (distinct name before))
  named : ∀ key a, last name key items = some a → (key, a) ∈ records
  others : (records.filterMap fun r => if name r.2 = none then some r.2 else none) =
    unnamed name items

variable {name} {position} {items : List α} {records : List (κ × α)} {b : α} {key : κ}

theorem mem_of_last {a : α} (h : last name key items = some a) : a ∈ items ∧ name a = some key := by
  have hmem := List.mem_of_getLast? h
  simpa using hmem

theorem last_isSome {a : α} (ha : a ∈ items) (hname : name a = some key) :
    ∃ b, last name key items = some b := by
  rw [← Option.isSome_iff_exists, last, List.getLast?_isSome]
  exact List.ne_nil_of_mem (List.mem_filter.2 ⟨ha, by simpa using hname⟩)

theorem last_append_self (hb : name b = some key) : last name key (items ++ [b]) = some b := by
  simp [last, List.filter_append, hb]

theorem last_append_ne (hb : name b ≠ some key) :
    last name key (items ++ [b]) = last name key items := by
  simp [last, List.filter_append, hb]

theorem distinct_append_unnamed (hb : name b = none) :
    distinct name (items ++ [b]) = distinct name items + 1 := by
  simp [distinct, unnamed, List.filter_append, hb]
  omega

theorem distinct_append_new (hb : name b = some key) (hkey : key ∉ items.filterMap name) :
    distinct name (items ++ [b]) = distinct name items + 1 := by
  have hfinset : ((items ++ [b]).filterMap name).toFinset =
      insert key (items.filterMap name).toFinset := by
    ext key'
    simp [hb, eq_comm]
  rw [distinct, hfinset, Finset.card_insert_of_notMem (by simpa using hkey)]
  simp [distinct, unnamed, List.filter_append, hb]
  omega

theorem distinct_append_old (hb : name b = some key) (hkey : key ∈ items.filterMap name) :
    distinct name (items ++ [b]) = distinct name items := by
  have hfinset : ((items ++ [b]).filterMap name).toFinset = (items.filterMap name).toFinset := by
    ext key'
    simp only [List.filterMap_append, List.toFinset_append, Finset.mem_union, List.mem_toFinset,
      List.filterMap_cons, hb, List.filterMap_nil, List.mem_singleton]
    exact or_iff_left_of_imp fun heq => heq ▸ hkey
  rw [distinct, hfinset]
  simp [distinct, unnamed, List.filter_append, hb]

variable (name) in
theorem distinct_mono (items more : List α) :
    distinct name items ≤ distinct name (items ++ more) := by
  induction more using List.reverseRecOn with
  | nil => simp
  | append_singleton more b ih =>
    refine ih.trans ?_
    rw [← List.append_assoc]
    cases hb : name b with
    | none => rw [distinct_append_unnamed hb]; omega
    | some key =>
      by_cases hkey : key ∈ (items ++ more).filterMap name
      · rw [distinct_append_old hb hkey]
      · rw [distinct_append_new hb hkey]
        omega

/-- A record without a name comes on top of those before it. -/
theorem distinct_lt {before after : List α} {a : α} (ha : name a = none) :
    distinct name before < distinct name (before ++ a :: after) := by
  have hmono := distinct_mono name (before ++ [a]) after
  rw [distinct_append_unnamed ha, List.append_assoc, List.singleton_append] at hmono
  omega

theorem Merged.nil : Merged name position ([] : List α) [] :=
  ⟨List.nodup_nil, by simp, by simp [last], rfl⟩

/-- Every name is kept once, and every record without a name. -/
theorem Merged.length_eq (h : Merged name position items records) :
    records.length = distinct name items := by
  have hkeys : ((records.filter fun r => (name r.2).isSome).map Prod.fst).toFinset =
      (items.filterMap name).toFinset := by
    ext key
    simp only [List.mem_toFinset, List.mem_map, List.mem_filter, List.mem_filterMap]
    constructor
    · rintro ⟨r, ⟨hr, hsome⟩, rfl⟩
      obtain ⟨hmem, hname | ⟨hnone, -⟩⟩ := h.entries r hr
      · exact ⟨r.2, hmem, hname⟩
      · simp [hnone] at hsome
    · rintro ⟨a, ha, hname⟩
      obtain ⟨b, hb⟩ := last_isSome ha hname
      exact ⟨(key, b), ⟨h.named key b hb, by simp [(mem_of_last hb).2]⟩, rfl⟩
  have hnodup : ((records.filter fun r => (name r.2).isSome).map Prod.fst).Nodup :=
    h.nodup.sublist (List.filter_sublist.map _)
  have hnamed : (records.filter fun r => (name r.2).isSome).length =
      (items.filterMap name).toFinset.card := by
    rw [← hkeys, List.toFinset_card_of_nodup hnodup, List.length_map]
  have hunnamed : (records.filter fun r => !(name r.2).isSome).length =
      (unnamed name items).length := by
    rw [← h.others, List.length_filterMap_eq_countP, List.countP_eq_length_filter]
    congr 1
    refine List.filter_congr fun r _ => ?_
    cases name r.2 <;> rfl
  rw [distinct, ← hnamed, ← hunnamed, ← List.countP_eq_length_filter, ← List.countP_eq_length_filter]
  rw [List.length_eq_countP_add_countP fun r : κ × α => (name r.2).isSome]
  congr 1
  refine List.countP_congr fun r _ => ?_
  cases name r.2 <;> simp

theorem Merged.append (h : Merged name position items records) (hkey : key ∉ records.map Prod.fst)
    (hentry : name b = some key ∨ name b = none ∧ key = position records.length) :
    Merged name position (items ++ [b]) (records ++ [(key, b)]) := by
  refine ⟨?_, ?_, ?_, ?_⟩
  · rw [List.map_append, List.map_singleton, ← List.concat_eq_append, List.nodup_concat]
    exact ⟨hkey, h.nodup⟩
  · intro r hr
    rcases List.mem_append.1 hr with hr | hr
    · obtain ⟨hmem, hname⟩ := h.entries r hr
      refine ⟨List.mem_append_left _ hmem, hname.imp_right ?_⟩
      rintro ⟨hnone, before, after, rfl, hposition⟩
      exact ⟨hnone, before, after ++ [b], by simp, hposition⟩
    · obtain rfl := List.mem_singleton.1 hr
      refine ⟨by simp, hentry.imp_right ?_⟩
      rintro ⟨hnone, hposition⟩
      exact ⟨hnone, items, [], rfl, by rw [hposition, h.length_eq]⟩
  · intro key' a hlast
    by_cases hb : name b = some key'
    · rw [last_append_self hb] at hlast
      obtain rfl := Option.some.inj hlast
      obtain hentry | ⟨hnone, -⟩ := hentry
      · obtain rfl := Option.some.inj (hentry.symm.trans hb)
        simp
      · cases hnone.symm.trans hb
    · rw [last_append_ne hb] at hlast
      exact List.mem_append_left _ (h.named key' a hlast)
  · rw [List.filterMap_append, h.others, unnamed, unnamed, List.filter_append]
    congr 1
    by_cases hnone : name b = none <;> simp [hnone]

theorem Merged.replace (h : Merged name position items records) (hb : name b = some key)
    (hkey : key ∈ records.map Prod.fst)
    (hnamed : ∀ r ∈ records, r.1 = key → name r.2 ≠ none) :
    Merged name position (items ++ [b])
      (records.map fun r => if r.1 = key then (key, b) else r) := by
  refine ⟨?_, ?_, ?_, ?_⟩
  · have hkeys : (records.map fun r => if r.1 = key then (key, b) else r).map Prod.fst =
        records.map Prod.fst := by
      rw [List.map_map]
      refine List.map_congr_left fun r _ => ?_
      by_cases hr : r.1 = key <;> simp [hr]
    rw [hkeys]
    exact h.nodup
  · intro r hr
    obtain ⟨r', hr', rfl⟩ := List.mem_map.1 hr
    split_ifs with heq
    · exact ⟨by simp, .inl hb⟩
    · obtain ⟨hmem, hname⟩ := h.entries r' hr'
      refine ⟨List.mem_append_left _ hmem, hname.imp_right ?_⟩
      rintro ⟨hnone, before, after, rfl, hposition⟩
      exact ⟨hnone, before, after ++ [b], by simp, hposition⟩
  · intro key' a hlast
    by_cases hb' : name b = some key'
    · rw [last_append_self hb'] at hlast
      obtain rfl := Option.some.inj hlast
      obtain rfl := Option.some.inj (hb.symm.trans hb')
      obtain ⟨r, hr, rfl⟩ := List.mem_map.1 hkey
      exact List.mem_map.2 ⟨r, hr, by simp⟩
    · rw [last_append_ne hb'] at hlast
      refine List.mem_map.2 ⟨_, h.named key' a hlast, if_neg ?_⟩
      rintro rfl
      exact hb' hb
  · have hlast : unnamed name (items ++ [b]) = unnamed name items := by
      simp [unnamed, List.filter_append, hb]
    rw [hlast, ← h.others, List.filterMap_map]
    refine List.filterMap_congr fun r hr => ?_
    by_cases heq : r.1 = key
    · simp [heq, hb, hnamed r hr heq]
    · simp [heq]

/-- One more record. -/
theorem Merged.step (h : Merged name position items records)
    (hposition : Function.Injective position) (hapart : Apart name position (items ++ [b])) :
    Merged name position (items ++ [b]) (PositionalMerge.step name position records b) := by
  unfold PositionalMerge.step put
  cases hb : name b with
  | some key =>
    rw [Option.getD_some]
    split_ifs with hkey
    · refine h.replace hb hkey fun r hr heq hnone => ?_
      -- the entry would be kept under a position that `b` is named by
      obtain ⟨-, hname | ⟨-, before, after, rfl, hposition⟩⟩ := h.entries r hr
      · cases hname.symm.trans hnone
      · refine hapart before r.2 (after ++ [b]) (by simp) hnone b (by simp) ?_
        rw [hb, ← heq, hposition]
    · exact h.append hkey (.inl hb)
  | none =>
    have hfresh : position records.length ∉ records.map Prod.fst := by
      intro hkey
      obtain ⟨r, hr, heq⟩ := List.mem_map.1 hkey
      rw [h.length_eq] at heq
      obtain ⟨hmem, hname | ⟨hnone, before, after, rfl, hkept⟩⟩ := h.entries r hr
      · exact hapart items b [] rfl hb r.2 (List.mem_append_left _ hmem)
          (hname.trans (congrArg some heq))
      · exact absurd (hposition (hkept.symm.trans heq)) (distinct_lt hnone).ne
    rw [Option.getD_none, if_neg hfresh]
    exact h.append hfresh (.inr ⟨hb, rfl⟩)

theorem Apart.of_append {rest : List α} (h : Apart name position (items ++ rest)) :
    Apart name position items := by
  rintro before a after rfl hnone c hc
  exact h before a (after ++ rest) (by simp) hnone c (List.mem_append_left _ hc)

theorem merged (hposition : Function.Injective position) (hapart : Apart name position items) :
    Merged name position items (merge name position items) := by
  induction items using List.reverseRecOn with
  | nil => exact .nil
  | append_singleton items b ih =>
    rw [merge, List.foldl_append]
    exact (ih hapart.of_append).step hposition hapart

/-! ## What a collision loses -/

theorem merge_append_singleton (items : List α) (b : α) :
    merge name position (items ++ [b]) = step name position (merge name position items) b := by
  rw [merge, List.foldl_append]
  rfl

/-- A key is kept in its place or added. -/
theorem put_keys (records : List (κ × α)) (key : κ) (a : α) : (put records key a).map Prod.fst =
    if key ∈ records.map Prod.fst then records.map Prod.fst else records.map Prod.fst ++ [key] := by
  unfold put
  split_ifs with hkey
  · rw [List.map_map]
    refine List.map_congr_left fun r _ => ?_
    by_cases hr : r.1 = key <;> simp [hr]
  · simp

theorem mem_keys_append {more : List α} (h : key ∈ (merge name position items).map Prod.fst) :
    key ∈ (merge name position (items ++ more)).map Prod.fst := by
  induction more using List.reverseRecOn with
  | nil => simpa using h
  | append_singleton more b ih =>
    rw [← List.append_assoc, merge_append_singleton, step, put_keys]
    split_ifs
    · exact ih
    · exact List.mem_append_left _ ih

variable (name position) in
/-- The key under which a record is kept. -/
theorem mem_keys_self (items : List α) (b : α) :
    (name b).getD (position (merge name position items).length) ∈
      (merge name position (items ++ [b])).map Prod.fst := by
  rw [merge_append_singleton, step, put_keys]
  split_ifs with hkey
  · exact hkey
  · simp

theorem mem_keys_of_name (h : key ∈ items.filterMap name) :
    key ∈ (merge name position items).map Prod.fst := by
  obtain ⟨a, ha, hname⟩ := List.mem_filterMap.1 h
  obtain ⟨before, after, rfl⟩ := List.append_of_mem ha
  have hself := mem_keys_self name position before a
  rw [hname, Option.getD_some] at hself
  rw [← List.singleton_append, ← List.append_assoc]
  exact mem_keys_append hself

theorem length_merge_append (items : List α) (b : α) :
    (merge name position (items ++ [b])).length =
      if (name b).getD (position (merge name position items).length) ∈
        (merge name position items).map Prod.fst then (merge name position items).length
      else (merge name position items).length + 1 := by
  rw [merge_append_singleton, step, ← List.length_map (f := Prod.fst), put_keys]
  split_ifs <;> simp

variable (name position) in
/-- A merge keeps no more than the names and the records without one. -/
theorem length_merge_le (items : List α) :
    (merge name position items).length ≤ distinct name items := by
  induction items using List.reverseRecOn with
  | nil => simp [merge]
  | append_singleton items b ih =>
    rw [length_merge_append]
    cases hb : name b with
    | none =>
      rw [distinct_append_unnamed hb]
      split_ifs <;> omega
    | some key =>
      rw [Option.getD_some]
      by_cases hkey : key ∈ items.filterMap name
      · rw [distinct_append_old hb hkey, if_pos (mem_keys_of_name hkey)]
        exact ih
      · rw [distinct_append_new hb hkey]
        split_ifs <;> omega

/-- What one more record must not collide with. -/
theorem Apart.append (h : Apart name position items)
    (hunnamed : name b = none → ∀ c ∈ items, name c ≠ some (position (distinct name items)))
    (hnamed : ∀ before a after, items = before ++ a :: after → name a = none →
      name b ≠ some (position (distinct name before))) : Apart name position (items ++ [b]) := by
  intro before a after heq hnone c hc
  rcases after.eq_nil_or_concat' with rfl | ⟨after, d, rfl⟩
  · obtain ⟨rfl, hab⟩ := List.append_inj' heq rfl
    obtain rfl := List.singleton_inj.1 hab
    rcases List.mem_append.1 hc with hc | hc
    · exact hunnamed hnone c hc
    · rw [List.mem_singleton.1 hc, hnone]
      exact nofun
  · rw [← List.cons_append, ← List.append_assoc] at heq
    obtain ⟨rfl, -⟩ := List.append_inj' heq rfl
    rcases List.mem_append.1 hc with hc | hc
    · exact h before a after rfl hnone c hc
    · rw [List.mem_singleton.1 hc]
      exact hnamed before a after rfl hnone

/-- The position at which a record without a name is kept. -/
theorem position_mem_keys {before after : List α} {a : α} (hposition : Function.Injective position)
    (hapart : Apart name position (before ++ a :: after)) (ha : name a = none) :
    position (distinct name before) ∈
      (merge name position (before ++ a :: after)).map Prod.fst := by
  have hself := mem_keys_self name position before a
  rw [ha, Option.getD_none, (merged hposition hapart.of_append).length_eq] at hself
  rw [← List.singleton_append, ← List.append_assoc]
  exact mem_keys_append hself

/-- A merge keeps that many exactly when no record without a name is met at a position that
names a record. -/
theorem length_merge_eq_iff (hposition : Function.Injective position) :
    (merge name position items).length = distinct name items ↔ Apart name position items := by
  refine ⟨fun h => ?_, fun hapart => (merged hposition hapart).length_eq⟩
  induction items using List.reverseRecOn with
  | nil =>
    intro before a after heq
    simp at heq
  | append_singleton items b ih =>
    have hle := length_merge_le name position items
    rw [length_merge_append] at h
    cases hb : name b with
    | none =>
      rw [hb, Option.getD_none, distinct_append_unnamed hb] at h
      split_ifs at h with hkey
      · omega
      · have hlength : (merge name position items).length = distinct name items := by omega
        refine (ih hlength).append (fun _ c hc hname => hkey ?_) (by simp [hb])
        rw [hlength]
        exact mem_keys_of_name (List.mem_filterMap.2 ⟨c, hc, hname⟩)
    | some key =>
      rw [hb, Option.getD_some] at h
      by_cases hold : key ∈ items.filterMap name
      · rw [distinct_append_old hb hold, if_pos (mem_keys_of_name hold)] at h
        refine (ih h).append (by simp [hb]) fun before a after heq hnone hname => ?_
        obtain ⟨c, hc, hcname⟩ := List.mem_filterMap.1 hold
        exact ih h before a after heq hnone c hc (hcname.trans (hb.symm.trans hname))
      · rw [distinct_append_new hb hold] at h
        split_ifs at h with hkey
        · omega
        · have hapart := ih (by omega)
          refine hapart.append (by simp [hb]) fun before a after heq hnone hname => hkey ?_
          obtain rfl : key = position (distinct name before) :=
            Option.some.inj (hb.symm.trans hname)
          subst heq
          exact position_mem_keys hposition hapart hnone

section Blocks
variable {ι β : Type*} {f : α → β} {blocks blocks' : List ι} {g : ι → List α}

/-- What is read of the records of a merge. -/
theorem Merged.reads (f : α → β) (h : Merged name position items records) :
    (records.map fun r => f r.2).Perm
      (((records.filter fun r => (name r.2).isSome).map fun r => f r.2) ++
        (unnamed name items).map f) := by
  have hunnamed : (unnamed name items).map f =
      (records.filter fun r => !(name r.2).isSome).map fun r => f r.2 := by
    rw [← h.others]
    clear h
    induction records with
    | nil => rfl
    | cons r records ih =>
      cases hr : name r.2 <;> simp [hr] at ih ⊢ <;> exact ih
  rw [hunnamed, ← List.map_append]
  exact (List.filter_append_perm _ records).symm.map _

/-- The blocks agree on what is read of a name's last record. -/
def Agree (name : α → Option κ) (f : α → β) (g : ι → List α) (blocks : List ι) : Prop :=
  ∀ i ∈ blocks, ∀ j ∈ blocks, ∀ key x y, last name key (g i) = some x →
    last name key (g j) = some y → f x = f y

/-- The last record of a name is the last of some block. -/
theorem exists_block {a : α} (h : last name key (blocks.flatMap g) = some a) :
    ∃ i ∈ blocks, last name key (g i) = some a := by
  induction blocks with
  | nil => simp [last] at h
  | cons i blocks ih =>
    rw [List.flatMap_cons, last, List.filter_append, List.getLast?_append] at h
    cases hrest : ((blocks.flatMap g).filter fun a => name a = some key).getLast? with
    | some c =>
      rw [hrest] at h
      obtain ⟨j, hj, hlast⟩ := ih (hrest.trans h)
      exact ⟨j, List.mem_cons_of_mem _ hj, hlast⟩
    | none =>
      rw [hrest] at h
      exact ⟨i, List.mem_cons_self, h⟩

theorem last_of_block {i : ι} (hi : i ∈ blocks) {a : α} (h : last name key (g i) = some a) :
    ∃ b, last name key (blocks.flatMap g) = some b :=
  last_isSome (List.mem_flatMap.2 ⟨i, hi, (mem_of_last h).1⟩) (mem_of_last h).2

theorem Agree.last_eq (h : Agree name f g blocks) (hperm : blocks'.Perm blocks) {x y : α}
    (hx : last name key (blocks'.flatMap g) = some x)
    (hy : last name key (blocks.flatMap g) = some y) : f x = f y := by
  obtain ⟨i, hi, hi'⟩ := exists_block hx
  obtain ⟨j, hj, hj'⟩ := exists_block hy
  exact h i (hperm.mem_iff.1 hi) j hj key x y hi' hj'

/-- The named records of a merge are the last of their names. -/
theorem Merged.mem_named (h : Merged name position items records) {p : β} :
    (key, p) ∈ ((records.filter fun r => (name r.2).isSome).map fun r => (r.1, f r.2)) ↔
      ∃ a, last name key items = some a ∧ f a = p := by
  simp only [List.mem_map, List.mem_filter, Prod.mk.injEq]
  constructor
  · rintro ⟨r, ⟨hr, hsome⟩, rfl, rfl⟩
    obtain ⟨hmem, hname | ⟨hnone, -⟩⟩ := h.entries r hr
    · obtain ⟨b, hb⟩ := last_isSome hmem hname
      have hsame : r = (r.1, b) := List.inj_on_of_nodup_map h.nodup hr (h.named _ b hb) rfl
      exact ⟨b, hb, by rw [hsame]⟩
    · simp [hnone] at hsome
  · rintro ⟨a, ha, rfl⟩
    exact ⟨(key, a), ⟨h.named key a ha, by simp [(mem_of_last ha).2]⟩, rfl, rfl⟩

theorem Merged.nodup_named (f : α → β) (h : Merged name position items records) :
    ((records.filter fun r => (name r.2).isSome).map fun r => (r.1, f r.2)).Nodup := by
  refine List.Nodup.of_map Prod.fst ?_
  rw [List.map_map]
  exact h.nodup.sublist (List.filter_sublist.map _)

/-- Blocks that agree merge alike in every order. -/
theorem merge_perm (hposition : Function.Injective position) (hperm : blocks'.Perm blocks)
    (hapart : Apart name position (blocks.flatMap g))
    (hapart' : Apart name position (blocks'.flatMap g)) (hagree : Agree name f g blocks) :
    ((merge name position (blocks'.flatMap g)).map fun r => f r.2).Perm
      ((merge name position (blocks.flatMap g)).map fun r => f r.2) := by
  have hitems : (blocks'.flatMap g).Perm (blocks.flatMap g) := hperm.flatMap_right g
  have h := merged hposition hapart
  have h' := merged hposition hapart'
  refine (h'.reads f).trans (.trans (.append ?_ ?_) (h.reads f).symm)
  · have hpairs := (List.perm_ext_iff_of_nodup (h'.nodup_named f) (h.nodup_named f)).2 fun pair => by
      obtain ⟨key, p⟩ := pair
      rw [h'.mem_named, h.mem_named]
      constructor
      · rintro ⟨a, ha, rfl⟩
        obtain ⟨i, hi, hblock⟩ := exists_block ha
        obtain ⟨b, hb⟩ := last_of_block (hperm.mem_iff.1 hi) hblock
        exact ⟨b, hb, (hagree.last_eq hperm ha hb).symm⟩
      · rintro ⟨b, hb, rfl⟩
        obtain ⟨i, hi, hblock⟩ := exists_block hb
        obtain ⟨a, ha⟩ := last_of_block (hperm.mem_iff.2 hi) hblock
        exact ⟨a, ha, hagree.last_eq hperm ha hb⟩
    simpa [List.map_map, Function.comp_def] using hpairs.map Prod.snd
  · exact (hitems.filter _).map f

end Blocks
end Merge
end PositionalMerge
