import Mathlib.Data.List.AList
import Mathlib.Data.List.MinMax
import Mathlib.Data.String.Basic
import Mathlib.Data.Prod.Lex
import Mathlib.Order.Lex

/-!
# Finite tables and ranked sets

`Table κ ν` is a finite map read through `get` and changed through `put` and `del`; every
fact about it is stated by `get`. `RankedSet` keeps one natural-number rank for each
string member and answers the member of least rank, ties broken by the member itself.
-/
namespace FiniteTable

/-- A finite map: one value for each key that is present. -/
abbrev Table (κ ν : Type*) := AList fun _ : κ => ν

namespace Table
variable {κ ν : Type*} [DecidableEq κ]

def get (t : Table κ ν) (k : κ) : Option ν := AList.lookup k t

def has (t : Table κ ν) (k : κ) : Bool := (t.get k).isSome

def put (t : Table κ ν) (k : κ) (v : ν) : Table κ ν := AList.insert k v t

def del (t : Table κ ν) (k : κ) : Table κ ν := AList.erase k t

def values (t : Table κ ν) : List ν := t.entries.map Sigma.snd

@[simp] theorem get_empty (k : κ) : (∅ : Table κ ν).get k = none := AList.lookup_empty k

theorem get_put (t : Table κ ν) (k j : κ) (v : ν) :
    (t.put k v).get j = if j = k then some v else t.get j := by
  unfold get put
  split_ifs with h
  · rw [h, AList.lookup_insert]
  · exact AList.lookup_insert_ne h

theorem get_del (t : Table κ ν) (k j : κ) :
    (t.del k).get j = if j = k then none else t.get j := by
  unfold get del
  split_ifs with h
  · rw [h, AList.lookup_erase]
  · exact AList.lookup_erase_ne h

@[simp] theorem get_put_self (t : Table κ ν) (k : κ) (v : ν) : (t.put k v).get k = some v := by
  simp [get_put]

@[simp] theorem get_del_self (t : Table κ ν) (k : κ) : (t.del k).get k = none := by
  simp [get_del]

theorem get_put_ne (t : Table κ ν) {k j : κ} (v : ν) (h : j ≠ k) :
    (t.put k v).get j = t.get j := by
  simp [get_put, h]

theorem get_del_ne (t : Table κ ν) {k j : κ} (h : j ≠ k) : (t.del k).get j = t.get j := by
  simp [get_del, h]

theorem has_eq_false {t : Table κ ν} {k : κ} : t.has k = false ↔ t.get k = none := by
  simp [has]

theorem has_iff {t : Table κ ν} {k : κ} : t.has k = true ↔ ∃ v, t.get k = some v := by
  simp [has, Option.isSome_iff_exists]

theorem has_put (t : Table κ ν) (k j : κ) (v : ν) :
    (t.put k v).has j = (decide (j = k) || t.has j) := by
  by_cases h : j = k <;> simp [has, get_put, h]

theorem has_del (t : Table κ ν) (k j : κ) : (t.del k).has j = (!decide (j = k) && t.has j) := by
  by_cases h : j = k <;> simp [has, get_del, h]

@[simp] theorem has_empty (k : κ) : (∅ : Table κ ν).has k = false := by
  simp [has]

/-- The table with every value replaced by its image. -/
def mapValues {μ : Type*} (f : ν → μ) (t : Table κ ν) : Table κ μ :=
  ⟨t.entries.map fun e => ⟨e.1, f e.2⟩, by
    have h := t.nodupKeys
    unfold List.NodupKeys List.keys at h ⊢
    simpa [Function.comp_def] using h⟩

theorem get_mapValues {μ : Type*} (f : ν → μ) (t : Table κ ν) (k : κ) :
    (t.mapValues f).get k = (t.get k).map f := by
  exact List.dlookup_map₂ (f := fun _ => f) k

theorem kerase_map {μ : Type*} (f : ν → μ) (k : κ) (es : List (Sigma fun _ : κ => ν)) :
    (List.kerase k es).map (fun e => (⟨e.1, f e.2⟩ : Sigma fun _ : κ => μ)) =
      List.kerase k (es.map fun e => (⟨e.1, f e.2⟩ : Sigma fun _ : κ => μ)) := by
  induction es with
  | nil => rfl
  | cons e es ih =>
    let e' : Sigma fun _ : κ => μ := ⟨e.1, f e.2⟩
    by_cases he : k = e.1
    · have he' : k = e'.1 := he
      rw [List.kerase_cons_eq he, List.map_cons, List.kerase_cons_eq he']
    · have he' : k ≠ e'.1 := he
      rw [List.kerase_cons_ne he, List.map_cons, List.map_cons, List.kerase_cons_ne he', ih]

theorem mapValues_put {μ : Type*} (f : ν → μ) (t : Table κ ν) (k : κ) (v : ν) :
    (t.put k v).mapValues f = (t.mapValues f).put k (f v) := by
  apply AList.ext
  have hmapped : ((t.mapValues f).put k (f v)).entries =
      ⟨k, f v⟩ :: List.kerase k (t.entries.map fun e => ⟨e.1, f e.2⟩) := rfl
  rw [hmapped, ← kerase_map]
  rfl

theorem get_of_entries_nil {t : Table κ ν} (h : t.entries = []) (k : κ) : t.get k = none := by
  unfold get AList.lookup
  rw [h]
  rfl

@[simp] theorem has_mapValues {μ : Type*} (f : ν → μ) (t : Table κ ν) (k : κ) :
    (t.mapValues f).has k = t.has k := by
  simp [has, get_mapValues]

theorem mem_entries_iff {t : Table κ ν} {k : κ} {v : ν} :
    (⟨k, v⟩ : Sigma fun _ : κ => ν) ∈ t.entries ↔ t.get k = some v :=
  AList.mem_lookup_iff.symm

end Table

/-- Members with one rank each. -/
abbrev RankedSet := Table String ℕ

namespace RankedSet

/-- The member of least rank, ties broken by the order of the members. -/
def first (z : RankedSet) : Option String :=
  (z.entries.argmin fun e => toLex (e.2, e.1)).map Sigma.fst

theorem get_of_first {z : RankedSet} {m : String} (h : z.first = some m) :
    ∃ r, z.get m = some r := by
  obtain ⟨⟨k, r⟩, he, rfl⟩ := Option.map_eq_some_iff.mp h
  exact ⟨r, Table.mem_entries_iff.mp (List.argmin_mem he)⟩

theorem first_exists {z : RankedSet} {m : String} {r : ℕ} (h : z.get m = some r) :
    ∃ k, z.first = some k := by
  have hm : (⟨m, r⟩ : Sigma fun _ : String => ℕ) ∈ z.entries := Table.mem_entries_iff.mpr h
  cases he : z.entries.argmin (fun e => toLex (e.2, e.1)) with
  | some e => exact ⟨e.1, by simp [first, he]⟩
  | none =>
    rw [List.argmin_eq_none.mp he] at hm
    simp at hm

/-- The first member has a least rank. -/
theorem first_le {z : RankedSet} {m k : String} {r q : ℕ} (h : z.first = some m)
    (hm : z.get m = some r) (hk : z.get k = some q) : r ≤ q := by
  obtain ⟨⟨m', r'⟩, he, rfl⟩ := Option.map_eq_some_iff.mp h
  have hr := Table.mem_entries_iff.mp (List.argmin_mem he)
  obtain rfl : r' = r := Option.some.inj (hr.symm.trans hm)
  have hle := List.le_of_mem_argmin (Table.mem_entries_iff.mpr hk) he
  rcases Prod.Lex.toLex_le_toLex.mp hle with hlt | heq
  · exact hlt.le
  · exact heq.1.le

end RankedSet
end FiniteTable
