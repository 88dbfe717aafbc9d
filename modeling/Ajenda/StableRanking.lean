import Mathlib.Data.List.Sort
import Mathlib.Order.Lattice

/-!
# Stable ranking

Sorting by falling keys where equal keys keep their places. The first of the sorted list is the
first entry with the greatest key.
-/
namespace Ajenda.StableRanking

variable {α κ : Type*} [LinearOrder κ] (key : α → κ) {xs ys : List α} {x y : α}

/-- `sort(key=..., reverse=True)`. -/
def ranked (xs : List α) : List α := xs.insertionSort fun a b => key b ≤ key a

/-- The entry with the greatest key, of several the first. -/
def foremost (xs : List α) : Option α := (ranked key xs).head?

@[simp] theorem mem_ranked : x ∈ ranked key xs ↔ x ∈ xs := List.mem_insertionSort _

theorem foremost_cons : foremost key (x :: xs) =
    some (match foremost key xs with
      | none => x
      | some best => if key best ≤ key x then x else best) := by
  unfold foremost ranked
  rw [List.insertionSort_cons]
  cases hsorted : xs.insertionSort (fun a b => key b ≤ key a) with
  | nil => rfl
  | cons best rest =>
    rw [List.orderedInsert_cons]
    split_ifs with hle <;> simp [hle]

/-- What the foremost entry is: it beats those before it and is not beaten by those after it. -/
theorem foremost_eq_some : foremost key xs = some x ↔ ∃ before after, xs = before ++ x :: after ∧
    (∀ y ∈ before, key y < key x) ∧ ∀ y ∈ after, key y ≤ key x := by
  induction xs generalizing x with
  | nil => simp [foremost, ranked]
  | cons a xs ih =>
    rw [foremost_cons, Option.some.injEq]
    cases hbest : foremost key xs with
    | none =>
      have hnil : xs = [] := by
        cases xs with
        | nil => rfl
        | cons b xs => simp [foremost_cons] at hbest
      subst hnil
      constructor
      · rintro rfl
        exact ⟨[], [], rfl, by simp, by simp⟩
      · rintro ⟨before, after, h, -, -⟩
        cases before with
        | nil => exact (List.cons.inj h).1
        | cons c before => simp at h
    | some best =>
      obtain ⟨front, back, hsplit, hfront, hback⟩ := ih.1 hbest
      have hall : ∀ y ∈ xs, key y ≤ key best := by
        intro y hy
        rw [hsplit, List.mem_append, List.mem_cons] at hy
        rcases hy with hy | rfl | hy
        · exact (hfront y hy).le
        · exact le_rfl
        · exact hback y hy
      have hmem : best ∈ xs := by simp [hsplit]
      simp only
      constructor
      · split_ifs with hle
        · rintro rfl
          exact ⟨[], xs, rfl, by simp, fun y hy => (hall y hy).trans hle⟩
        · rintro rfl
          refine ⟨a :: front, back, by rw [hsplit]; rfl, fun y hy => ?_, hback⟩
          rcases List.mem_cons.1 hy with rfl | hy
          · exact not_le.1 hle
          · exact hfront y hy
      · rintro ⟨before, after, h, hbefore, hafter⟩
        cases before with
        | nil =>
          obtain ⟨rfl, rfl⟩ := List.cons.inj h
          exact if_pos (hafter best hmem)
        | cons c before =>
          obtain ⟨rfl, rfl⟩ := List.cons.inj h
          have hx := ih.2 ⟨before, after, rfl, fun y hy => hbefore y (List.mem_cons_of_mem _ hy),
            hafter⟩
          rw [hbest, Option.some.injEq] at hx
          subst hx
          exact if_neg (not_le.2 (hbefore a List.mem_cons_self))

theorem foremost_mem (h : foremost key xs = some x) : x ∈ xs := by
  obtain ⟨before, after, rfl, -, -⟩ := (foremost_eq_some key).1 h
  simp

theorem foremost_le (h : foremost key xs = some x) (hy : y ∈ xs) : key y ≤ key x := by
  obtain ⟨before, after, rfl, hbefore, hafter⟩ := (foremost_eq_some key).1 h
  rw [List.mem_append, List.mem_cons] at hy
  rcases hy with hy | rfl | hy
  · exact (hbefore y hy).le
  · exact le_rfl
  · exact hafter y hy

theorem foremost_none : foremost key xs = none ↔ xs = [] := by
  cases xs with
  | nil => simp [foremost, ranked]
  | cons x xs => simp [foremost_cons]

theorem foremost_of_mem (h : x ∈ xs) : ∃ best, foremost key xs = some best := by
  refine Option.ne_none_iff_exists'.1 fun hnone => ?_
  rw [(foremost_none key).1 hnone] at h
  exact List.not_mem_nil h

theorem foremost_map {β : Type*} (f : β → α) (zs : List β) :
    foremost key (zs.map f) = (foremost (fun z => key (f z)) zs).map f := by
  induction zs with
  | nil => rfl
  | cons z zs ih =>
    rw [List.map_cons, foremost_cons, foremost_cons, ih]
    cases foremost (fun z => key (f z)) zs with
    | none => rfl
    | some best =>
      simp only [Option.map_some]
      split_ifs <;> rfl

/-- More entries do not lower the greatest key. -/
theorem foremost_mono (hsub : ∀ z ∈ xs, z ∈ ys) (hx : foremost key xs = some x)
    (hy : foremost key ys = some y) : key x ≤ key y :=
  foremost_le key hy (hsub x (foremost_mem key hx))

/-- Of the entries of one key that `own` picks out, the foremost entry is one exactly when none of
the others is ahead. -/
theorem foremost_own_iff (own : α → Bool) {m : κ} {o : α}
    (hown : ∀ y ∈ xs, own y = true → key y = m) (hx : x ∈ xs) (hxown : own x = true)
    (hfirst : foremost key xs = some o) :
    own o = true ↔ (∀ y ∈ xs.takeWhile (!own ·), key y < m) ∧
      ∀ y ∈ xs, own y = false → key y ≤ m := by
  obtain ⟨before, after, hsplit, hbefore, -⟩ := (foremost_eq_some key).1 hfirst
  have hmax : ∀ y ∈ xs, key y ≤ key o := fun y hy => foremost_le key hfirst hy
  have hnone : key o = m → ∀ y ∈ before, own y = false := by
    intro hm y hy
    refine Bool.eq_false_iff.2 fun hyown => ?_
    have hlt := hbefore y hy
    rw [hown y (by simp [hsplit, hy]) hyown, hm] at hlt
    exact lt_irrefl _ hlt
  constructor
  · intro ho
    have hm := hown o (foremost_mem key hfirst) ho
    have htake : xs.takeWhile (!own ·) = before := by
      rw [hsplit, List.takeWhile_append_of_pos (fun y hy => by simp [hnone hm y hy]),
        List.takeWhile_cons_of_neg (by simp [ho]), List.append_nil]
    rw [htake]
    exact ⟨fun y hy => hm ▸ hbefore y hy, fun y hy _ => hm ▸ hmax y hy⟩
  · rintro ⟨hearlier, hother⟩
    by_contra ho
    rw [Bool.not_eq_true] at ho
    have hm : key o = m :=
      le_antisymm (hother o (foremost_mem key hfirst) ho) (hown x hx hxown ▸ hmax x hx)
    have hmem : o ∈ xs.takeWhile (!own ·) := by
      rw [hsplit, List.takeWhile_append_of_pos (fun y hy => by simp [hnone hm y hy]),
        List.takeWhile_cons_of_pos (by simp [ho])]
      simp
    exact (hearlier o hmem).ne hm

end Ajenda.StableRanking
