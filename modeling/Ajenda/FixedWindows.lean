import Mathlib.Algebra.Order.Group.Defs
import Mathlib.Data.List.Basic
import Mathlib.Tactic

/-!
# Fixed windows

Times that do not decrease are split into windows of one width: a window starts at its first time
and takes every time before its end, and the next time starts another one.
-/
namespace FixedWindows

variable {T : Type*}

structure Window (T : Type*) where
  start : T
  later : List T

def Window.times (w : Window T) : List T := w.start :: w.later

/-- The times of windows that are listed from the newest to the oldest. -/
def flatten : List (Window T) → List T
  | [] => []
  | w :: ws => flatten ws ++ w.times

theorem start_mem (w : Window T) : w.start ∈ w.times := List.mem_cons_self

theorem mem_flatten {windows : List (Window T)} {t : T} :
    t ∈ flatten windows ↔ ∃ w ∈ windows, t ∈ w.times := by
  induction windows with
  | nil => simp [flatten]
  | cons w ws ih => simp [flatten, ih, or_comm]

theorem flatten_eq_nil {windows : List (Window T)} (h : flatten windows = []) : windows = [] := by
  cases windows with
  | nil => rfl
  | cons w ws => simp [flatten, Window.times] at h

variable [AddCommGroup T] [LinearOrder T]

/-- A time goes to the newest window or starts another one. -/
def place (width : T) : List (Window T) → T → List (Window T)
  | [], t => [⟨t, []⟩]
  | w :: ws, t =>
    if w.start + width ≤ t then ⟨t, []⟩ :: w :: ws else ⟨w.start, w.later ++ [t]⟩ :: ws

/-- The window that a time goes to: how many times it has and when it starts. -/
def newest (width : T) : List (Window T) → T → ℕ × T
  | [], t => (0, t)
  | w :: _, t => if w.start + width ≤ t then (0, t) else (w.times.length, w.start)

/-- The windows are disjoint and each has all times between its start and its end. -/
structure Split (width : T) (times : List T) (windows : List (Window T)) : Prop where
  times : flatten windows = times
  within : ∀ w ∈ windows, ∀ t ∈ w.times, w.start ≤ t ∧ t < w.start + width
  apart : windows.Pairwise fun newer older => older.start + width ≤ newer.start

variable {width t : T} {times : List T} {w : Window T} {windows : List (Window T)}

theorem flatten_place : flatten (place width windows t) = flatten windows ++ [t] := by
  cases windows with
  | nil => rfl
  | cons w ws =>
    rw [place]
    split_ifs
    · rfl
    · simp [flatten, Window.times]

variable (width windows t) in
/-- A time becomes the last one of the newest window. -/
theorem place_newest : ∃ w rest, place width windows t = w :: rest ∧
    w.times.length = (newest width windows t).1 + 1 ∧ w.start = (newest width windows t).2 ∧
      t ∈ w.times ∧ ∀ u ∈ rest, u ∈ windows := by
  cases windows with
  | nil => exact ⟨⟨t, []⟩, [], rfl, rfl, rfl, List.mem_cons_self, fun _ h => h⟩
  | cons v ws =>
    rw [place, newest]
    split_ifs
    · exact ⟨⟨t, []⟩, v :: ws, rfl, rfl, rfl, List.mem_cons_self, fun _ h => h⟩
    · exact ⟨⟨v.start, v.later ++ [t]⟩, ws, rfl, by simp [Window.times], rfl,
        by simp [Window.times], fun u hu => List.mem_cons_of_mem v hu⟩

theorem Split.nil : Split width ([] : List T) [] :=
  ⟨rfl, fun _ h => absurd h List.not_mem_nil, List.Pairwise.nil⟩

variable [IsOrderedAddMonoid T]

/-- The next time keeps the windows disjoint. -/
theorem Split.place (h : Split width times windows) (hwidth : 0 < width)
    (hlast : ∀ s ∈ times, s ≤ t) :
    Split width (times ++ [t]) (place width windows t) := by
  have hsingle : t < t + width := lt_add_of_pos_right t hwidth
  refine ⟨by rw [flatten_place, h.times], ?_, ?_⟩
  · cases windows with
    | nil =>
      intro w hw s hs
      obtain rfl := List.mem_singleton.1 hw
      obtain rfl : s = t := by simpa [Window.times] using hs
      exact ⟨le_rfl, hsingle⟩
    | cons v ws =>
      have hv := h.within v List.mem_cons_self
      have hstart : v.start ≤ t := hlast _ (by
        rw [← h.times]
        exact List.mem_append_right _ (start_mem v))
      rw [FixedWindows.place]
      split_ifs with hend
      · intro w hw s hs
        rcases List.mem_cons.1 hw with rfl | hw
        · obtain rfl : s = t := by simpa [Window.times] using hs
          exact ⟨le_rfl, hsingle⟩
        · exact h.within w hw s hs
      · intro w hw s hs
        rcases List.mem_cons.1 hw with rfl | hw
        · have hcases : s ∈ v.times ∨ s = t := by simpa [Window.times, or_assoc] using hs
          rcases hcases with hs | rfl
          · exact hv s hs
          · exact ⟨hstart, not_le.1 hend⟩
        · exact h.within w (List.mem_cons_of_mem _ hw) s hs
  · cases windows with
    | nil => exact List.pairwise_singleton _ _
    | cons v ws =>
      have hapart := List.pairwise_cons.1 h.apart
      rw [FixedWindows.place]
      split_ifs with hend
      · refine List.pairwise_cons.2 ⟨fun w hw => ?_, h.apart⟩
        rcases List.mem_cons.1 hw with rfl | hw
        · exact hend
        · have hstart := (h.within v List.mem_cons_self v.start (start_mem v)).1
          calc w.start + width ≤ v.start := hapart.1 w hw
            _ ≤ v.start + width := le_add_of_nonneg_right hwidth.le
            _ ≤ t := hend
      · exact List.pairwise_cons.2 ⟨hapart.1, hapart.2⟩

omit [IsOrderedAddMonoid T] in
/-- The windows of all times but the last one, which took its place in them. -/
theorem Split.unplace (h : Split width (times ++ [t]) windows) :
    ∃ earlier, Split width times earlier ∧ windows = FixedWindows.place width earlier t := by
  cases windows with
  | nil =>
    have hnil : ([] : List T) = times ++ [t] := h.times
    simp at hnil
  | cons w ws =>
    have hapart := List.pairwise_cons.1 h.apart
    rcases List.eq_nil_or_concat w.later with hlater | ⟨later, s, hlater⟩
    · -- the last time is the only one of its window
      have hw : w.times = [w.start] := by rw [Window.times, hlater]
      have htimes : flatten ws ++ [w.start] = times ++ [t] := by rw [← hw]; exact h.times
      obtain ⟨hrest, hlast⟩ := List.append_inj' htimes rfl
      have hstart : w.start = t := List.singleton_inj.1 hlast
      refine ⟨ws, ⟨hrest, fun u hu => h.within u (List.mem_cons_of_mem _ hu), hapart.2⟩, ?_⟩
      have hnew : w = ⟨t, []⟩ := by
        cases w
        cases hstart
        cases hlater
        rfl
      cases ws with
      | nil => rw [hnew, FixedWindows.place]
      | cons v vs =>
        have hend : v.start + width ≤ t := hstart ▸ hapart.1 v List.mem_cons_self
        rw [hnew, FixedWindows.place, if_pos hend]
    · have htimes : (flatten ws ++ w.start :: later) ++ [s] = times ++ [t] := by
        rw [← h.times, flatten, Window.times, hlater]
        simp
      obtain ⟨hrest, hlast⟩ := List.append_inj' htimes rfl
      obtain rfl : s = t := List.singleton_inj.1 hlast
      have hmem : ∀ u ∈ w.start :: later, u ∈ w.times := by
        intro u hu
        rw [Window.times, hlater]
        simpa [or_assoc] using Or.inl hu
      refine ⟨⟨w.start, later⟩ :: ws, ⟨hrest, ?_, List.pairwise_cons.2 hapart⟩, ?_⟩
      · intro u hu v hv
        rcases List.mem_cons.1 hu with rfl | hu
        · exact h.within w List.mem_cons_self v (hmem v hv)
        · exact h.within u (List.mem_cons_of_mem _ hu) v hv
      · have hopen : s < w.start + width :=
          (h.within w List.mem_cons_self s (by simp [Window.times, hlater])).2
        rw [FixedWindows.place, if_neg (not_le.2 hopen)]
        cases w
        cases hlater
        rw [List.concat_eq_append]

omit [IsOrderedAddMonoid T] in
/-- The times determine their windows. -/
theorem Split.unique {windows' : List (Window T)} (h : Split width times windows)
    (h' : Split width times windows') : windows = windows' := by
  induction times using List.reverseRecOn generalizing windows windows' with
  | nil => rw [flatten_eq_nil h.times, flatten_eq_nil h'.times]
  | append_singleton times t ih =>
    obtain ⟨earlier, hearlier, rfl⟩ := h.unplace
    obtain ⟨earlier', hearlier', rfl⟩ := h'.unplace
    rw [ih hearlier hearlier']

omit [IsOrderedAddMonoid T] in
/-- The times between the start of a window and its end are the times of that window. -/
theorem Split.filter_window (h : Split width times windows) (hw : w ∈ windows) :
    (times.filter fun t => w.start ≤ t ∧ t < w.start + width) = w.times := by
  rw [← h.times]
  have hwithin := h.within
  have hapart := h.apart
  clear h
  induction windows with
  | nil => cases hw
  | cons v ws ih =>
    have hapart' := List.pairwise_cons.1 hapart
    rw [flatten, List.filter_append]
    rcases List.mem_cons.1 hw with rfl | hw
    · have hold : (flatten ws).filter (fun t => w.start ≤ t ∧ t < w.start + width) = [] := by
        refine List.filter_eq_nil_iff.2 fun t ht => ?_
        obtain ⟨u, hu, htu⟩ := mem_flatten.1 ht
        have hend := (hwithin u (List.mem_cons_of_mem _ hu) t htu).2
        have hbefore : t < w.start := hend.trans_le (hapart'.1 u hu)
        simp [not_le.2 hbefore]
      have hown : w.times.filter (fun t => w.start ≤ t ∧ t < w.start + width) = w.times := by
        refine List.filter_eq_self.2 fun t ht => ?_
        simpa using hwithin w List.mem_cons_self t ht
      rw [hold, hown, List.nil_append]
    · have hnew : v.times.filter (fun t => w.start ≤ t ∧ t < w.start + width) = [] := by
        refine List.filter_eq_nil_iff.2 fun t ht => ?_
        have hafter : w.start + width ≤ t :=
          (hapart'.1 w hw).trans (hwithin v List.mem_cons_self t ht).1
        simp [hafter]
      rw [hnew, List.append_nil]
      exact ih hw (fun u hu => hwithin u (List.mem_cons_of_mem _ hu)) hapart'.2

end FixedWindows
