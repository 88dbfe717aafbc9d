import Mathlib.Data.List.Dedup
import Mathlib.Data.List.Sort
import Mathlib.Data.String.Basic
import Ajenda.MissionInputBinding

/-!
# Canonical texts

How experience intelligence normalises texts: `_norm`, `_canonical_semantic_values` and
`_canonical_identifiers`. The folding table of `str.casefold` is a parameter with the
properties of the Unicode table that the code relies on; normalising twice changes nothing.
-/
namespace Ajenda.Experience
open Ajenda.Runtime (isSpace strip)

/-- `tuple(sorted({...}))`. -/
def sortedSet {α : Type*} [LinearOrder α] (xs : List α) : List α :=
  xs.dedup.insertionSort (· ≤ ·)

/-- The case folding table: what each character becomes. -/
structure CaseFolding where
  fold : Char → List Char
  nonempty : ∀ c, fold c ≠ []
  settled : ∀ c, ∀ d ∈ fold c, fold d = [d]
  space : ∀ c, ∀ d ∈ fold c, isSpace d = isSpace c
  lower : ∀ c, 'a' ≤ c → c ≤ 'z' → fold c = [c]

/-- `str.casefold`. -/
def CaseFolding.casefold (F : CaseFolding) (s : String) : String :=
  String.ofList (s.toList.flatMap F.fold)

/-- The table on texts without capitals. -/
def plainFolding : CaseFolding where
  fold c := [c]
  nonempty _ := by simp
  settled _ _ h := by simp_all
  space _ _ h := by simp_all
  lower _ _ _ := rfl

/-- `_norm`. -/
def norm (F : CaseFolding) : Option String → Option String
  | none => none
  | some value =>
    let stripped := F.casefold (strip value)
    if stripped = "" then none else some stripped

/-- `_canonical_semantic_values`. -/
def canonicalSemanticValues (F : CaseFolding) (items : List String) : List String :=
  sortedSet ((items.filter fun i => strip i ≠ "").map fun i => F.casefold (strip i))

/-- `_canonical_identifiers`: identifiers keep their case. -/
def canonicalIdentifiers (items : List String) : List String :=
  sortedSet ((items.filter fun i => strip i ≠ "").map strip)

/-- `dict.fromkeys(...)`: the items in the order in which they are first met. -/
def orderedUnique {α : Type*} [DecidableEq α] (xs : List α) : List α :=
  xs.foldl (fun seen x => if x ∈ seen then seen else seen ++ [x]) []

theorem dedup_eq_singleton {α : Type*} [DecidableEq α] {xs : List α} {a : α} :
    xs.dedup = [a] ↔ xs ≠ [] ∧ ∀ x ∈ xs, x = a := by
  constructor
  · intro h
    refine ⟨fun hnil => by simp [hnil] at h, fun x hx => ?_⟩
    have hmem := List.mem_dedup.2 hx
    rw [h] at hmem
    exact List.mem_singleton.1 hmem
  · rintro ⟨hne, hall⟩
    rw [List.eq_replicate_of_mem hall, List.replicate_dedup]
    exact fun hzero => hne (List.length_eq_zero_iff.1 hzero)

section SortedSet
variable {α : Type*} [LinearOrder α]

@[simp] theorem mem_sortedSet {xs : List α} {x : α} : x ∈ sortedSet xs ↔ x ∈ xs := by
  simp [sortedSet]

theorem sortedSet_nodup (xs : List α) : (sortedSet xs).Nodup :=
  (List.perm_insertionSort _ _).nodup_iff.2 (List.nodup_dedup xs)

theorem sortedSet_pairwise (xs : List α) : (sortedSet xs).Pairwise (· ≤ ·) :=
  List.pairwise_insertionSort _ _

/-- A list that is sorted and without duplicates is its own canonical form. -/
theorem sortedSet_sortedSet (xs : List α) : sortedSet (sortedSet xs) = sortedSet xs := by
  have hdedup := (sortedSet_nodup xs).dedup
  rw [sortedSet, hdedup]
  exact (sortedSet_pairwise xs).insertionSort_eq

theorem sortedSet_strict (xs : List α) :
    (sortedSet xs).Pairwise (· < ·) := by
  refine ((sortedSet_pairwise xs).and (sortedSet_nodup xs)).imp ?_
  intro a b hab
  exact lt_of_le_of_ne hab.1 hab.2

/-- Two strictly sorted lists with the same members are one. -/
theorem eq_of_strict {xs ys : List α} (hx : xs.Pairwise (· < ·))
    (hy : ys.Pairwise (· < ·)) (h : ∀ x, x ∈ xs ↔ x ∈ ys) : xs = ys := by
  have hperm : xs.Perm ys :=
    (List.perm_ext_iff_of_nodup (hx.imp fun hlt => hlt.ne) (hy.imp fun hlt => hlt.ne)).2 h
  refine List.Perm.eq_of_pairwise ?_ hx hy hperm
  intro a b _ _ hab hba
  exact absurd hba hab.asymm

theorem sortedSet_congr {xs ys : List α} (h : ∀ x, x ∈ xs ↔ x ∈ ys) :
    sortedSet xs = sortedSet ys :=
  eq_of_strict (sortedSet_strict xs) (sortedSet_strict ys) fun x => by
    rw [mem_sortedSet, mem_sortedSet, h]

end SortedSet

section Folding
variable (F : CaseFolding)

/-- Neither end of the text is white space. -/
def Trimmed (l : List Char) : Prop :=
  (∀ c ∈ l.head?, isSpace c = false) ∧ ∀ c ∈ l.getLast?, isSpace c = false

theorem dropWhile_head {l : List Char} : ∀ c ∈ (l.dropWhile isSpace).head?, isSpace c = false := by
  intro c hc
  have h := List.head?_dropWhile_not isSpace l
  rw [Option.mem_def] at hc
  simpa [hc] using h

theorem strip_trimmed (s : String) : Trimmed (strip s).toList := by
  simp only [Trimmed, strip, String.toList_ofList, List.head?_reverse, List.getLast?_reverse]
  refine ⟨fun c hc => ?_, dropWhile_head⟩
  -- the last of what is left of the reversed text is the last of the reversed text
  have hhead := dropWhile_head (l := s.toList) c
  have hsuffix := List.dropWhile_suffix isSpace (l := (s.toList.dropWhile isSpace).reverse)
  have hne : ((s.toList.dropWhile isSpace).reverse.dropWhile isSpace) ≠ [] := by
    intro hnil
    simp [hnil] at hc
  have hlast := hsuffix.getLast hne
  apply hhead
  rw [List.getLast?_eq_some_getLast hne, Option.mem_def, Option.some_inj] at hc
  rw [← hc, hlast, List.getLast_reverse, Option.mem_def, List.head?_eq_some_head]

theorem strip_of_trimmed {s : String} (h : Trimmed s.toList) : strip s = s := by
  have hfirst : s.toList.dropWhile isSpace = s.toList := by
    cases hl : s.toList with
    | nil => rfl
    | cons c l => simp [h.1 c (by simp [hl])]
  have hlast : s.toList.reverse.dropWhile isSpace = s.toList.reverse := by
    cases hl : s.toList.reverse with
    | nil => rfl
    | cons c l =>
      have : s.toList.getLast? = some c := by rw [← List.head?_reverse, hl]; rfl
      simp [h.2 c (by simp [this])]
  rw [strip, hfirst, hlast, List.reverse_reverse, String.ofList_toList]

theorem strip_strip (s : String) : strip (strip s) = strip s := strip_of_trimmed (strip_trimmed s)

theorem flatMap_trimmed {l : List Char} (h : Trimmed l) : Trimmed (l.flatMap F.fold) := by
  constructor
  · cases l with
    | nil => simp
    | cons c l =>
      intro d hd
      obtain ⟨e, es, he⟩ := List.exists_cons_of_ne_nil (F.nonempty c)
      have hde : e = d := by simpa [he] using hd
      rw [← hde, F.space c e (by simp [he])]
      exact h.1 c (by simp)
  · rcases List.eq_nil_or_concat l with rfl | ⟨l, c, rfl⟩
    · simp
    · intro d hd
      rcases List.eq_nil_or_concat (F.fold c) with hnil | ⟨es, e, he⟩
      · exact absurd hnil (F.nonempty c)
      · have hde : e = d := by simpa [he, List.flatMap_append] using hd
        rw [← hde, F.space c e (by simp [he])]
        exact h.2 c (by simp)

/-- A text that normalising leaves alone. -/
def Normal (s : String) : Prop := s ≠ "" ∧ strip s = s ∧ F.casefold s = s

theorem casefold_casefold (s : String) : F.casefold (F.casefold s) = F.casefold s := by
  have hsettled : ∀ ds : List Char, (∀ d ∈ ds, F.fold d = [d]) → ds.flatMap F.fold = ds := by
    intro ds hds
    induction ds with
    | nil => rfl
    | cons d ds ih =>
      rw [List.flatMap_cons, hds d (by simp), ih fun e he => hds e (by simp [he])]
      rfl
  simp only [CaseFolding.casefold, String.toList_ofList]
  congr 1
  rw [List.flatMap_assoc]
  apply List.flatMap_congr
  intro c _
  exact hsettled (F.fold c) (F.settled c)

theorem casefold_ne_empty {s : String} (h : s ≠ "") : F.casefold s ≠ "" := by
  intro hfold
  have hnil : s.toList.flatMap F.fold = [] := by
    have := congrArg String.toList hfold
    simpa [CaseFolding.casefold] using this
  cases hl : s.toList with
  | nil => exact h (by simpa using hl)
  | cons c l =>
    rw [hl, List.flatMap_cons, List.append_eq_nil_iff] at hnil
    exact F.nonempty c hnil.1

theorem folded_normal {s : String} (h : strip s ≠ "") : Normal F (F.casefold (strip s)) := by
  refine ⟨casefold_ne_empty F h, ?_, casefold_casefold F _⟩
  apply strip_of_trimmed
  rw [CaseFolding.casefold, String.toList_ofList]
  exact flatMap_trimmed F (strip_trimmed s)

theorem canonicalSemanticValues_normal {items : List String} {x : String}
    (h : x ∈ canonicalSemanticValues F items) : Normal F x := by
  simp only [canonicalSemanticValues, mem_sortedSet, List.mem_map, List.mem_filter] at h
  obtain ⟨i, hi, rfl⟩ := h
  exact folded_normal F (by simpa using hi.2)

/-- Normal texts are only sorted and deduplicated. -/
theorem canonicalSemanticValues_of_normal {items : List String} (h : ∀ x ∈ items, Normal F x) :
    canonicalSemanticValues F items = sortedSet items := by
  have hfilter : (items.filter fun i => strip i ≠ "") = items := by
    apply List.filter_eq_self.2
    intro i hi
    simpa [(h i hi).2.1] using (h i hi).1
  have hmap : items.map (fun i => F.casefold (strip i)) = items := by
    refine (List.map_congr_left ?_).trans (List.map_id items)
    intro i hi
    simp [(h i hi).2.1, (h i hi).2.2]
  rw [canonicalSemanticValues, hfilter, hmap]

theorem canonicalSemanticValues_idem (items : List String) :
    canonicalSemanticValues F (canonicalSemanticValues F items) =
      canonicalSemanticValues F items := by
  rw [canonicalSemanticValues_of_normal F fun x hx => canonicalSemanticValues_normal F hx]
  exact sortedSet_sortedSet _

end Folding

end Ajenda.Experience
