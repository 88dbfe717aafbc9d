import Mathlib.Algebra.BigOperators.Group.Finset.Basic
import Mathlib.Algebra.Order.BigOperators.Group.Finset
import Mathlib.Data.List.Basic
import Mathlib.Tactic

/-!
# Pages read through windows

A page is cut out of the entries that pass a test within a window of a list. The pages make up the
entries that pass in the whole list exactly when every window holds what its page needs.
-/
namespace WindowedPages
open Finset

variable {α : Type*} (p : α → Bool) (window : ℕ → ℕ) (size : ℕ) (xs : List α)

/-- The entries that pass within the window of a page. -/
def within (k : ℕ) : List α := (xs.take (window k)).filter p

def page (k : ℕ) : List α := ((within p window xs k).drop (k * size)).take size

/-- The first pages in a row. -/
def pages (count : ℕ) : List α := (List.range count).flatMap (page p window size xs)

/-- The window of every page holds the entries up to its end. -/
def Wide : Prop :=
  ∀ k, min (xs.filter p).length ((k + 1) * size) ≤ (within p window xs k).length

variable {p window size xs} {k count : ℕ}

/-- What passes within a window comes first of what passes. -/
theorem within_eq_take (k : ℕ) :
    within p window xs k = (xs.filter p).take (within p window xs k).length := by
  have hsplit : xs.filter p = within p window xs k ++ (xs.drop (window k)).filter p := by
    rw [within, ← List.filter_append, List.take_append_drop]
  rw [hsplit, List.take_left]

theorem within_length_le (k : ℕ) : (within p window xs k).length ≤ (xs.filter p).length :=
  ((List.take_sublist _ _).filter p).length_le

theorem within_mono (hwindow : Monotone window) {j : ℕ} (h : j ≤ k) :
    (within p window xs j).length ≤ (within p window xs k).length :=
  ((List.take_sublist_take_left (hwindow h)).filter p).length_le

theorem page_length (k : ℕ) : (page p window size xs k).length =
    min (within p window xs k).length ((k + 1) * size) - k * size := by
  rw [page, List.length_take, List.length_drop, Nat.succ_mul]
  omega

theorem pages_succ (count : ℕ) : pages p window size xs (count + 1) =
    pages p window size xs count ++ page p window size xs count := by
  rw [pages, List.range_succ, List.flatMap_append]
  simp [pages]

theorem pages_length (count : ℕ) : (pages p window size xs count).length =
    ∑ k ∈ range count, (page p window size xs k).length := by
  induction count with
  | zero => rfl
  | succ count ih => rw [pages_succ, List.length_append, ih, sum_range_succ]

theorem wide_of_short (h : ∀ k, xs.length ≤ window k) : Wide p window size xs := by
  intro k
  rw [within, List.take_of_length_le (h k)]
  exact min_le_left _ _

/-- Where the windows are wide, a page is the next part of what passes. -/
theorem page_eq (h : Wide p window size xs) (k : ℕ) :
    page p window size xs k = ((xs.filter p).drop (k * size)).take size := by
  have hwide := h k
  rw [Nat.succ_mul] at hwide
  rw [page, within_eq_take k, List.drop_take, List.take_take]
  by_cases hlong : k * size + size ≤ (within p window xs k).length
  · rw [min_eq_left (by omega)]
  · have hall : (within p window xs k).length = (xs.filter p).length := by
      have hle : (within p window xs k).length ≤ (xs.filter p).length := within_length_le k
      omega
    rw [hall, List.take_of_length_le (by rw [List.length_drop]; omega),
      List.take_of_length_le (by rw [List.length_drop]; omega)]

theorem pages_eq (h : Wide p window size xs) (count : ℕ) :
    pages p window size xs count = (xs.filter p).take (count * size) := by
  induction count with
  | zero => simp [pages]
  | succ count ih => rw [pages_succ, ih, page_eq h, Nat.succ_mul, List.take_add]

/-- The parts of a length that fall on the pages. -/
theorem sum_parts (length count : ℕ) :
    ∑ k ∈ range count, (min length ((k + 1) * size) - k * size) = min length (count * size) := by
  induction count with
  | zero => simp
  | succ count ih =>
    rw [sum_range_succ, ih, Nat.succ_mul]
    omega

/-- If the pages are as long as what passes, the windows are wide. -/
theorem wide_of_length (hwindow : Monotone window) (hsize : 0 < size)
    (hcount : (xs.filter p).length ≤ count * size)
    (h : (xs.filter p).length ≤ (pages p window size xs count).length) :
    Wide p window size xs := by
  have hpart (k : ℕ) : (page p window size xs k).length ≤
      min (xs.filter p).length ((k + 1) * size) - k * size := by
    have hle : (within p window xs k).length ≤ (xs.filter p).length := within_length_le k
    rw [page_length]
    omega
  have hequal : ∀ k ∈ range count, (page p window size xs k).length =
      min (xs.filter p).length ((k + 1) * size) - k * size := by
    refine (sum_eq_sum_iff_of_le fun k _ => hpart k).1 (le_antisymm (sum_le_sum fun k _ => hpart k) ?_)
    rw [sum_parts, min_eq_left hcount, ← pages_length]
    exact h
  -- a page that starts before the end of what passes is full
  have hfull (k : ℕ) (hk : k * size < (xs.filter p).length) :
      min (xs.filter p).length ((k + 1) * size) ≤ (within p window xs k).length := by
    have hmem : k < count := lt_of_mul_lt_mul_right (hk.trans_le hcount) size.zero_le
    have heq := hequal k (mem_range.2 hmem)
    rw [page_length, Nat.succ_mul] at heq
    rw [Nat.succ_mul]
    omega
  intro k
  by_cases hk : k * size < (xs.filter p).length
  · exact hfull k hk
  · rcases Nat.eq_zero_or_pos (xs.filter p).length with hzero | hpos
    · rw [hzero]
      exact (min_le_left _ _).trans (Nat.zero_le _)
    · -- the last page that starts before the end has seen everything
      have hlast : ((xs.filter p).length - 1) / size * size < (xs.filter p).length := by
        have := Nat.div_mul_le_self ((xs.filter p).length - 1) size
        omega
      have hend : (xs.filter p).length ≤ (((xs.filter p).length - 1) / size + 1) * size := by
        have := Nat.lt_mul_div_succ ((xs.filter p).length - 1) hsize
        rw [Nat.mul_comm] at this
        omega
      have hle : ((xs.filter p).length - 1) / size ≤ k := by
        refine Nat.le_of_lt_succ ((Nat.div_lt_iff_lt_mul hsize).2 ?_)
        rw [Nat.succ_mul]
        omega
      have hseen := hfull _ hlast
      rw [min_eq_left hend] at hseen
      exact (min_le_left _ _).trans (hseen.trans (within_mono hwindow hle))

end WindowedPages
