import Ajenda.KeyedRows

/-!
# Commits of a transaction over newer rows

A transaction reads `base`, computes `new` and commits when `cur` is committed. The commit
inserts its new rows and changes its changed rows in place: `f b n c` is what the change from
`b` to `n` makes of the committed row `c`. Rows that the transaction leaves alone keep what
others have committed meanwhile. A session that outlives its commits need not read a row again.
-/
namespace KeyedRows

open Keyed (key)

/-- What a change of a column from `b` to `n` makes of the committed `c`. -/
def column {β : Type*} [DecidableEq β] (b n c : β) : β := if n = b then c else n

section Column
variable {β : Type*} [DecidableEq β]

@[simp] theorem column_same (b c : β) : column b b c = c := by simp [column]

@[simp] theorem column_base (b n : β) : column b n b = n := by
  unfold column
  split_ifs with h
  · exact h.symm
  · rfl

theorem column_cases (b n c : β) : column b n c = c ∨ (n ≠ b ∧ column b n c = n) := by
  unfold column
  split_ifs with h
  · exact .inl rfl
  · exact .inr ⟨h, rfl⟩

end Column

/-- A change of rows that keeps their keys and leaves alone what it does not change. -/
structure RowMerge (α : Type*) [Keyed α] where
  apply : α → α → α → α
  key_apply : ∀ b n c, key (apply b n c) = key c
  same : ∀ b c, apply b b c = c

namespace Rows
variable {α : Type*} [Keyed α] (f : RowMerge α)

/-- Change the committed rows that the transaction has changed. -/
def update (base new cur : Rows α) : Rows α where
  list := cur.list.map fun c => match base.get (key c), new.get (key c) with
    | some b, some n => f.apply b n c
    | _, _ => c
  nodup := by
    have hkeys : (cur.list.map fun c => match base.get (key c), new.get (key c) with
        | some b, some n => f.apply b n c
        | _, _ => c).map key = cur.list.map key := by
      rw [List.map_map]
      refine List.map_congr_left fun c _ => ?_
      simp only [Function.comp_apply]
      split
      · exact f.key_apply _ _ _
      · rfl
    rw [hkeys]
    exact cur.nodup

/-- The committed rows as a session sees them: a kept row is as the session holds it. -/
def seen (kept : String → Bool) (held cur : Rows α) : Rows α where
  list := cur.list.map fun c => if kept (key c) then (held.get (key c)).getD c else c
  nodup := by
    have hkeys : (cur.list.map fun c => if kept (key c) then (held.get (key c)).getD c else c).map
        key = cur.list.map key := by
      rw [List.map_map]
      refine List.map_congr_left fun c _ => ?_
      simp only [Function.comp_apply]
      split_ifs
      · cases hget : held.get (key c) with
        | none => rfl
        | some r => exact key_of_get hget
      · rfl
    rw [hkeys]
    exact cur.nodup

def insertAll (rows : Rows α) : List α → Option (Rows α)
  | [] => some rows
  | r :: rs => (rows.insert r).bind fun rows => rows.insertAll rs

/-- Commit a transaction, or `none` when the key of a new row is taken. -/
def merge (base new cur : Rows α) : Option (Rows α) :=
  (update f base new cur).insertAll (new.list.filter fun n => (base.get (key n)).isNone)

variable {f}

theorem update_list_map_key (base new cur : Rows α) :
    (update f base new cur).list.map key = cur.list.map key := by
  rw [update, List.map_map]
  refine List.map_congr_left fun c _ => ?_
  simp only [Function.comp_apply]
  split
  · exact f.key_apply _ _ _
  · rfl

theorem get_update {base new cur : Rows α} {k : String} {c : α} (h : cur.get k = some c) :
    (update f base new cur).get k = some (match base.get k, new.get k with
      | some b, some n => f.apply b n c
      | _, _ => c) := by
  obtain rfl := key_of_get h
  have hmem := mem_of_get h
  set c' := (match base.get (key c), new.get (key c) with
    | some b, some n => f.apply b n c
    | _, _ => c) with hc'
  have hkey : key c' = key c := by
    rw [hc']
    split
    · exact f.key_apply _ _ _
    · rfl
  rw [← hkey]
  exact get_of_mem (List.mem_map.mpr ⟨c, hmem, rfl⟩)

theorem get_update_none {base new cur : Rows α} {k : String} (h : cur.get k = none) :
    (update f base new cur).get k = none := by
  cases hget : (update f base new cur).get k with
  | none => rfl
  | some r =>
    have hkey : k ∈ (update f base new cur).list.map key :=
      List.mem_map.mpr ⟨r, mem_of_get hget, key_of_get hget⟩
    rw [update_list_map_key] at hkey
    obtain ⟨c, hc, rfl⟩ := List.mem_map.mp hkey
    rw [get_of_mem hc] at h
    cases h

theorem get_insertAll {rows rows' : Rows α} {rs : List α} (h : rows.insertAll rs = some rows') :
    (∀ r ∈ rs, rows.get (key r) = none ∧ rows'.get (key r) = some r) ∧
      ∀ k, (∀ r ∈ rs, key r ≠ k) → rows'.get k = rows.get k := by
  induction rs generalizing rows with
  | nil =>
    obtain rfl := Option.some.inj h
    exact ⟨by simp, fun _ _ => rfl⟩
  | cons r rs ih =>
    obtain ⟨rows₁, hinsert, hrest⟩ := Option.bind_eq_some_iff.mp h
    obtain ⟨hnew, hold⟩ := ih hrest
    have hrow := get_insert hinsert
    have hfresh : ∀ q ∈ rs, key q ≠ key r := fun q hq heq => by
      have := (hnew q hq).1
      rw [heq, hrow, if_pos rfl] at this
      cases this
    refine ⟨fun q hq => ?_, fun k hk => ?_⟩
    · rcases List.mem_cons.mp hq with rfl | hq
      · exact ⟨get_of_insert hinsert,
          (hold _ hfresh).trans ((hrow _).trans (if_pos rfl))⟩
      · obtain ⟨hnone, hsome⟩ := hnew q hq
        rw [hrow, if_neg (hfresh q hq)] at hnone
        exact ⟨hnone, hsome⟩
    · rw [hold k fun q hq => hk q (by simp [hq]), hrow, if_neg (Ne.symm (hk r (by simp)))]

section Merge
variable {base new cur rows : Rows α} {k : String}

/-- A committed row after the commit. -/
theorem get_merge (h : merge f base new cur = some rows) {c : α} (hc : cur.get k = some c) :
    rows.get k = some (match base.get k, new.get k with
      | some b, some n => f.apply b n c
      | _, _ => c) := by
  obtain ⟨hnew, hold⟩ := get_insertAll h
  rw [hold k fun r hr hkey => ?_, get_update hc]
  have hupdate : (update f base new cur).get k = _ := get_update hc
  rw [← hkey, (hnew r hr).1] at hupdate
  cases hupdate

/-- A row after the commit was committed before, or the transaction has inserted it. -/
theorem get_of_merge (h : merge f base new cur = some rows) {r : α} (hr : rows.get k = some r) :
    (∃ c, cur.get k = some c ∧ r = match base.get k, new.get k with
      | some b, some n => f.apply b n c
      | _, _ => c) ∨ (cur.get k = none ∧ base.get k = none ∧ new.get k = some r) := by
  cases hc : cur.get k with
  | some c =>
    rw [get_merge h hc] at hr
    exact .inl ⟨c, rfl, (Option.some.inj hr).symm⟩
  | none =>
    obtain ⟨hnew, hold⟩ := get_insertAll h
    by_cases hmem : ∃ n ∈ new.list.filter fun n => (base.get (key n)).isNone, key n = k
    · obtain ⟨n, hn, rfl⟩ := hmem
      obtain rfl := Option.some.inj ((hnew n hn).2.symm.trans hr)
      obtain ⟨hlist, hnone⟩ := List.mem_filter.mp hn
      exact .inr ⟨rfl, by simpa using hnone, get_of_mem hlist⟩
    · rw [hold k fun n hn hkey => hmem ⟨n, hn, hkey⟩, get_update_none hc] at hr
      cases hr

/-- A row that no one has changed becomes what the transaction made of it. -/
theorem get_merge_of_base (h : merge f base new cur = some rows)
    (hf : ∀ b n, key n = key b → f.apply b n b = n) {n : α} (hn : new.get k = some n)
    (hcur : cur.get k = base.get k) : rows.get k = some n := by
  cases hb : base.get k with
  | some b =>
    rw [hb] at hcur
    rw [get_merge h hcur, hb, hn]
    exact congrArg some (hf b n ((key_of_get hn).trans (key_of_get hb).symm))
  | none =>
    obtain rfl := key_of_get hn
    exact ((get_insertAll h).1 n (List.mem_filter.mpr ⟨mem_of_get hn, by simp [hb]⟩)).2

/-- A row that the transaction has not changed stays as it is committed. -/
theorem get_merge_of_same (h : merge f base new cur = some rows) (hnew : new.get k = base.get k) :
    rows.get k = cur.get k := by
  cases hc : cur.get k with
  | some c =>
    rw [get_merge h hc, hnew]
    cases base.get k with
    | none => rfl
    | some b => exact congrArg some (f.same b c)
  | none =>
    obtain ⟨-, hold⟩ := get_insertAll h
    rw [hold k fun r hr hkey => ?_, get_update_none hc]
    obtain ⟨hmem, hnone⟩ := List.mem_filter.mp hr
    have hget := get_of_mem hmem
    rw [hkey] at hget hnone
    rw [hnew] at hget
    simp [hget] at hnone

/-- Without new rows a commit changes rows in place. -/
theorem merge_eq_update (hnew : ∀ n ∈ new.list, (base.get (key n)).isSome = true) :
    merge f base new cur = some (update f base new cur) := by
  have hfilter : (new.list.filter fun n => (base.get (key n)).isNone) = [] := by
    rw [List.filter_eq_nil_iff]
    intro n hn
    simpa [Option.isSome_iff_ne_none] using hnew n hn
  rw [merge, hfilter]
  rfl

/-- A transaction that has changed nothing leaves the committed rows. -/
theorem merge_same (base cur : Rows α) : merge f base base cur = some cur := by
  rw [merge_eq_update fun n hn => by rw [get_of_mem hn]; rfl]
  have hlist : (update f base base cur).list = cur.list := by
    refine (List.map_congr_left fun c _ => ?_).trans (List.map_id cur.list)
    cases base.get (key c) with
    | none => rfl
    | some b => exact f.same b c
  cases cur
  simp only [update, Option.some.injEq, Rows.mk.injEq] at hlist ⊢
  exact hlist

end Merge
end Rows
end KeyedRows
