import Mathlib.Data.List.Basic
import Mathlib.Data.List.Nodup
import Mathlib.Tactic

/-!
# Rows with a primary key

`Rows α` is the content of a table whose rows carry a text key. The keys are distinct by
construction, reading is by key, and a write replaces the row of the same key in place, so
the order of the rows is the order in which they were inserted.
-/
namespace KeyedRows

class Keyed (α : Type*) where
  key : α → String

open Keyed (key)

structure Rows (α : Type*) [Keyed α] where
  list : List α
  nodup : (list.map key).Nodup

namespace Rows
variable {α : Type*} [Keyed α]

def empty : Rows α := ⟨[], List.nodup_nil⟩

def get (rows : Rows α) (k : String) : Option α := rows.list.find? fun r => key r = k

/-- Replace the row with the key of `r`. -/
def set (rows : Rows α) (r : α) : Rows α where
  list := rows.list.map fun q => if key q = key r then r else q
  nodup := by
    have hkeys : (rows.list.map fun q => if key q = key r then r else q).map key =
        rows.list.map key := by
      rw [List.map_map]
      refine List.map_congr_left fun q _ => ?_
      by_cases h : key q = key r <;> simp [h]
    rw [hkeys]
    exact rows.nodup

/-- Insert a row, or `none` when its key is taken. -/
def insert (rows : Rows α) (r : α) : Option (Rows α) :=
  if h : key r ∈ rows.list.map key then none
  else some ⟨rows.list ++ [r], by
    rw [List.map_append, List.nodup_append]
    refine ⟨rows.nodup, by simp, ?_⟩
    rintro k hk j hj rfl
    simp only [List.map_cons, List.map_nil, List.mem_singleton] at hj
    exact h (hj ▸ hk)⟩

@[simp] theorem get_empty (k : String) : (empty : Rows α).get k = none := rfl

theorem key_of_get {rows : Rows α} {k : String} {r : α} (h : rows.get k = some r) : key r = k := by
  simpa using List.find?_some h

theorem get_self {rows : Rows α} {k : String} {r : α} (h : rows.get k = some r) :
    rows.get (key r) = some r := by
  rw [key_of_get h, h]

theorem mem_of_get {rows : Rows α} {k : String} {r : α} (h : rows.get k = some r) :
    r ∈ rows.list := List.mem_of_find?_eq_some h

theorem get_of_mem {rows : Rows α} {r : α} (h : r ∈ rows.list) : rows.get (key r) = some r := by
  obtain ⟨q, hq⟩ : ∃ q, rows.get (key r) = some q := by
    rw [← Option.isSome_iff_exists, get, List.find?_isSome]
    exact ⟨r, h, by simp⟩
  have heq : q = r :=
    List.inj_on_of_nodup_map rows.nodup (mem_of_get hq) h (key_of_get hq)
  rw [hq, heq]

theorem find?_replace (l : List α) (r : α) (k : String) :
    (l.map fun q => if key q = key r then r else q).find? (fun q => key q = k) =
      if k = key r then (l.find? fun q => key q = k).map fun _ => r
      else l.find? fun q => key q = k := by
  induction l with
  | nil => simp
  | cons q l ih =>
    simp only [List.map_cons, List.find?_cons, ih]
    by_cases hq : key q = key r
    · by_cases hk : k = key r
      · simp [hq, hk]
      · simp [hq, hk, Ne.symm hk]
    · by_cases hk : k = key r
      · simp [hq, hk]
      · simp [hq, hk]

theorem get_set (rows : Rows α) (r : α) (k : String) :
    (rows.set r).get k = if k = key r then (rows.get k).map fun _ => r else rows.get k :=
  find?_replace rows.list r k

theorem get_set_ne (rows : Rows α) {r : α} {k : String} (h : k ≠ key r) :
    (rows.set r).get k = rows.get k := by
  simp [get_set, h]

/-- Writing a changed version of a stored row. -/
theorem get_set_of_get {rows : Rows α} {q r : α} (h : rows.get (key q) = some q)
    (hkey : key r = key q) (k : String) :
    (rows.set r).get k = if k = key q then some r else rows.get k := by
  rw [get_set, hkey]
  split_ifs with hk
  · rw [hk, h, Option.map_some]
  · rfl

theorem get_set_self {rows : Rows α} {r q : α} (h : rows.get (key r) = some q) :
    (rows.set r).get (key r) = some r := by
  simp [get_set, h]

theorem get_insert {rows rows' : Rows α} {r : α} (h : rows.insert r = some rows') (k : String) :
    rows'.get k = if k = key r then some r else rows.get k := by
  unfold insert at h
  split_ifs at h with hr
  obtain rfl := Option.some.inj h
  simp only [get, List.find?_append]
  by_cases hk : k = key r
  · subst hk
    have hnone : rows.list.find? (fun q => key q = key r) = none := by
      rw [List.find?_eq_none]
      intro q hq hkey
      exact hr (List.mem_map.mpr ⟨q, hq, by simpa using hkey⟩)
    simp [hnone]
  · simp [hk, Ne.symm hk]

theorem get_of_insert {rows rows' : Rows α} {r : α} (h : rows.insert r = some rows') :
    rows.get (key r) = none := by
  unfold insert at h
  split_ifs at h with hr
  rw [get, List.find?_eq_none]
  intro q hq hkey
  exact hr (List.mem_map.mpr ⟨q, hq, by simpa using hkey⟩)

section Related
variable {R : α → α → Prop}

/-- The same rows one by one up to `R`. -/
def Related (R : α → α → Prop) (rows rows' : Rows α) : Prop := List.Forall₂ R rows.list rows'.list

omit [Keyed α] in
theorem forall₂_find? {p : α → Bool} (hp : ∀ a b, R a b → p a = p b) {l l' : List α}
    (h : List.Forall₂ R l l') : Option.Rel R (l.find? p) (l'.find? p) := by
  induction h with
  | nil => exact .none
  | cons hab _ ih =>
    rw [List.find?_cons, List.find?_cons, ← hp _ _ hab]
    split
    · exact .some hab
    · exact ih

theorem related_refl (hR : ∀ r, R r r) (rows : Rows α) : Related R rows rows :=
  List.forall₂_same.mpr fun r _ => hR r

theorem Related.trans (hR : ∀ a b c, R a b → R b c → R a c) {rows₁ rows₂ rows₃ : Rows α}
    (h : Related R rows₁ rows₂) (g : Related R rows₂ rows₃) : Related R rows₁ rows₃ := by
  unfold Related at *
  rw [List.forall₂_iff_get] at *
  refine ⟨h.1.trans g.1, fun i h₁ h₃ => ?_⟩
  have h₂ : i < rows₂.list.length := h.1 ▸ h₁
  exact hR _ _ _ (h.2 i h₁ h₂) (g.2 i h₂ h₃)

theorem related_set (hR : ∀ r, R r r) {rows : Rows α} {q r : α} (h : rows.get (key q) = some q)
    (hkey : key r = key q) (hqr : R q r) : Related R rows (rows.set r) := by
  refine List.forall₂_map_right_iff.mpr (List.forall₂_same.mpr fun x hx => ?_)
  split_ifs with hxr
  · have hget := get_of_mem hx
    rw [hxr, hkey, h] at hget
    obtain rfl := Option.some.inj hget
    exact hqr
  · exact hR x

/-- Two writes of the same row. -/
theorem related_set_set (hR : ∀ r, R r r) (rows : Rows α) {r r' : α} (hkey : key r' = key r)
    (hr : R r r') : Related R (rows.set r) (rows.set r') := by
  refine List.forall₂_map_left_iff.mpr (List.forall₂_map_right_iff.mpr
    (List.forall₂_same.mpr fun x _ => ?_))
  rw [hkey]
  split_ifs
  · exact hr
  · exact hR x

theorem Related.get (hkey : ∀ a b, R a b → key a = key b) {rows rows' : Rows α}
    (h : Related R rows rows') (k : String) : Option.Rel R (rows.get k) (rows'.get k) :=
  forall₂_find? (fun a b hab => by rw [hkey a b hab]) h

theorem Related.filter {p : α → Bool} (hp : ∀ a b, R a b → p a = p b) {rows rows' : Rows α}
    (h : Related R rows rows') :
    List.Forall₂ R (rows.list.filter p) (rows'.list.filter p) :=
  List.rel_filter (fun a b hab => by simp [hp a b hab]) h

end Related
end Rows
end KeyedRows
