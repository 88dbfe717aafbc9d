import Mathlib.Logic.Function.Basic
import Mathlib.Data.Option.Basic

/-!
# Rows that one transaction at a time may write

A row has a committed version and at most one uncommitted version, which belongs to the
transaction that holds the row lock. A transaction reads its own version of a row it has
written and the committed version of any other row.
-/
namespace LockedRows

structure Database (τ κ ν : Type*) where
  committed : κ → Option ν
  pending : κ → Option (τ × ν)

variable {τ κ ν : Type*}

def Database.empty : Database τ κ ν := ⟨fun _ => none, fun _ => none⟩

def Database.write [DecidableEq κ] (db : Database τ κ ν) (t : τ) (k : κ) (v : ν) :
    Database τ κ ν := { db with pending := Function.update db.pending k (some (t, v)) }

theorem Database.pending_write [DecidableEq κ] (db : Database τ κ ν) (t : τ) (k : κ) (v : ν)
    (j : κ) : (db.write t k v).pending j = if j = k then some (t, v) else db.pending j := by
  simp [write, Function.update_apply]

namespace Database
variable [DecidableEq τ] (db : Database τ κ ν) (t : τ) (k : κ)

/-- The version a transaction has written, if it holds the lock of the row. -/
def own : Option ν := ((db.pending k).filter (·.1 = t)).map Prod.snd

def read : Option ν := (db.own t k).or (db.committed k)

/-- No other transaction holds the lock. -/
def free : Bool := (db.pending k).all (·.1 = t)

def commit : Database τ κ ν where
  committed k := db.read t k
  pending k := (db.pending k).filter (·.1 ≠ t)

def rollback : Database τ κ ν := { db with pending := fun k => (db.pending k).filter (·.1 ≠ t) }

variable {db t k}

theorem own_eq_some {v : ν} : db.own t k = some v ↔ db.pending k = some (t, v) := by
  unfold own
  cases db.pending k with
  | none => simp
  | some version =>
    obtain ⟨t', v'⟩ := version
    by_cases ht : t' = t
    · simp [Option.filter_some, ht]
    · simp [Option.filter_some, ht]

theorem read_of_own {v : ν} (h : db.pending k = some (t, v)) : db.read t k = some v := by
  rw [read, own_eq_some.mpr h, Option.some_or]

theorem read_of_unlocked (h : db.pending k = none) : db.read t k = db.committed k := by
  simp [read, own, h]

theorem read_of_other {t' : τ} {v : ν} (h : db.pending k = some (t', v)) (ht : t' ≠ t) :
    db.read t k = db.committed k := by
  simp [read, own, h, Option.filter_some, ht]

/-- A row that is free for a transaction is unlocked or its own. -/
theorem free_cases (h : db.free t k = true) :
    db.pending k = none ∨ ∃ v, db.pending k = some (t, v) := by
  unfold free at h
  cases hp : db.pending k with
  | none => exact .inl rfl
  | some version =>
    obtain ⟨t', v⟩ := version
    rw [hp] at h
    have ht : t' = t := by simpa using h
    exact .inr ⟨v, by rw [ht]⟩

theorem pending_filter {t' : τ} {v : ν} {j : κ} :
    (db.pending j).filter (·.1 ≠ t) = some (t', v) ↔ db.pending j = some (t', v) ∧ t' ≠ t := by
  rw [Option.filter_eq_some_iff]
  simp

variable {t' : τ} {v : ν}

theorem own_filter (ht : t' ≠ t) :
    (((db.pending k).filter (·.1 ≠ t)).filter (·.1 = t')).map Prod.snd = db.own t' k := by
  unfold own
  cases db.pending k with
  | none => rfl
  | some version =>
    obtain ⟨u, v⟩ := version
    by_cases hu : u = t
    · simp [Option.filter_some, hu, ht.symm]
    · simp [Option.filter_some, hu]

/-- A row visible to a transaction stays so when another one commits. -/
theorem read_commit_isSome (ht : t' ≠ t) (h : (db.read t' k).isSome = true) :
    ((db.commit t).read t' k).isSome = true := by
  have hown : (db.commit t).own t' k = db.own t' k := own_filter ht
  rw [read, hown]
  rw [read] at h
  cases ho : db.own t' k with
  | some v => rfl
  | none =>
    rw [ho, Option.none_or] at h
    obtain ⟨v, hv⟩ := Option.isSome_iff_exists.mp h
    rw [Option.none_or]
    show (db.read t k).isSome = true
    rw [read, hv]
    cases db.own t k <;> rfl

theorem read_rollback_other (ht : t' ≠ t) : (db.rollback t).read t' k = db.read t' k := by
  have hown : (db.rollback t).own t' k = db.own t' k := own_filter ht
  rw [read, hown]
  rfl

section Writes
variable [DecidableEq κ] {j : κ}

theorem read_write_self : (db.write t k v).read t k = some v :=
  read_of_own (by rw [pending_write, if_pos rfl])

/-- A write to a free row is invisible to the others until it commits. -/
theorem read_write_other (hfree : db.free t k = true) (ht : t' ≠ t) :
    (db.write t k v).read t' j = db.read t' j := by
  by_cases hj : j = k
  · subst hj
    have hwritten : (db.write t j v).read t' j = db.committed j :=
      read_of_other (by rw [pending_write, if_pos rfl]) ht.symm
    rw [hwritten]
    rcases free_cases hfree with hnone | ⟨v', hown⟩
    · rw [read_of_unlocked hnone]
    · rw [read_of_other hown ht.symm]
  · simp only [read, own, pending_write, if_neg hj]
    rfl

end Writes

end Database
end LockedRows
