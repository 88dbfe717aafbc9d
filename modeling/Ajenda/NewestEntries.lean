import Mathlib.Data.List.MinMax

/-!
# What the newest entries say

Entries carry a time. A list of entries stands when all can be read and every newest entry is
good. Whether appending older knowledge `xs` to `ys` changes what `ys` says is decided by the
two verdicts and by which list holds the newest entry.
-/
namespace NewestEntries
variable {α τ : Type*} [LinearOrder τ] (time : α → τ) (readable good : α → Prop)

def Newest (xs : List α) (x : α) : Prop := x ∈ xs ∧ ∀ y ∈ xs, time y ≤ time x

structure Stands (xs : List α) : Prop where
  nonempty : xs ≠ []
  readable : ∀ x ∈ xs, readable x
  newest : ∀ x, Newest time xs x → good x

/-- Where the verdicts on `xs` and `ys` differ, `ys` is newer: not older than `xs` when it is
the one that does not stand, and strictly newer when it stands. -/
structure Overtakes (xs ys : List α) : Prop where
  fallen : Stands time readable good xs → ¬ Stands time readable good ys →
    (∀ y ∈ ys, readable y) → ∃ y ∈ ys, ∀ x ∈ xs, time x ≤ time y
  risen : xs ≠ [] → ¬ Stands time readable good xs → Stands time readable good ys →
    (∀ x ∈ xs, readable x) ∧ ∃ y ∈ ys, ∀ x ∈ xs, time x < time y

variable {time readable good} {xs ys : List α}

theorem newest_exists (h : xs ≠ []) : ∃ x, Newest time xs x := by
  cases hmax : xs.argmax time with
  | none => exact absurd (List.argmax_eq_none.1 hmax) h
  | some x => exact ⟨x, List.argmax_mem hmax, fun y hy => List.le_of_mem_argmax hy hmax⟩

/-- Entries some newer entry of `ys` outdates whenever there are any. -/
theorem Overtakes.of_newer (h : xs ≠ [] →
    (∀ x ∈ xs, readable x) ∧ ∃ y ∈ ys, ∀ x ∈ xs, time x < time y) :
    Overtakes time readable good xs ys := by
  refine ⟨fun hstands _ _ => ?_, fun hne _ _ => h hne⟩
  obtain ⟨-, y, hy, hnewer⟩ := h hstands.nonempty
  exact ⟨y, hy, fun x hx => (hnewer x hx).le⟩

theorem newest_append_left {x : α} (hx : Newest time xs x)
    (hys : ∀ y ∈ ys, time y ≤ time x) : Newest time (xs ++ ys) x := by
  refine ⟨List.mem_append_left _ hx.1, fun y hy => ?_⟩
  rcases List.mem_append.1 hy with hy | hy
  · exact hx.2 y hy
  · exact hys y hy

theorem newest_append_right {y : α} (hy : Newest time ys y)
    (hxs : ∀ x ∈ xs, time x ≤ time y) : Newest time (xs ++ ys) y := by
  refine ⟨List.mem_append_right _ hy.1, fun x hx => ?_⟩
  rcases List.mem_append.1 hx with hx | hx
  · exact hxs x hx
  · exact hy.2 x hx

/-- A newest entry of an append is a newest entry of its own list. -/
theorem newest_of_append {x : α} (hx : Newest time (xs ++ ys) x) :
    Newest time xs x ∨ Newest time ys x := by
  rcases List.mem_append.1 hx.1 with hmem | hmem
  · exact .inl ⟨hmem, fun y hy => hx.2 y (List.mem_append_left _ hy)⟩
  · exact .inr ⟨hmem, fun y hy => hx.2 y (List.mem_append_right _ hy)⟩

/-- A readable list that does not stand has a newest entry that is not good. -/
theorem fallen_newest (hne : xs ≠ []) (hread : ∀ x ∈ xs, readable x)
    (h : ¬ Stands time readable good xs) : ∃ x, Newest time xs x ∧ ¬ good x := by
  by_contra hall
  push Not at hall
  exact h ⟨hne, hread, hall⟩

theorem Stands.append (hx : Stands time readable good xs) (hy : Stands time readable good ys) :
    Stands time readable good (xs ++ ys) := by
  refine ⟨fun hnil => hx.nonempty (List.append_eq_nil_iff.1 hnil).1, fun x hmem => ?_,
    fun x hnew => ?_⟩
  · rcases List.mem_append.1 hmem with hmem | hmem
    · exact hx.readable x hmem
    · exact hy.readable x hmem
  · rcases newest_of_append hnew with hnew | hnew
    · exact hx.newest x hnew
    · exact hy.newest x hnew

/-- One list stands and the other is strictly older: the append stands. -/
theorem Stands.append_older (hy : Stands time readable good ys) (hread : ∀ x ∈ xs, readable x)
    (holder : ∃ y ∈ ys, ∀ x ∈ xs, time x < time y) : Stands time readable good (xs ++ ys) := by
  obtain ⟨y, hy', holder⟩ := holder
  refine ⟨fun hnil => hy.nonempty (List.append_eq_nil_iff.1 hnil).2, fun x hmem => ?_,
    fun x hnew => ?_⟩
  · rcases List.mem_append.1 hmem with hmem | hmem
    · exact hread x hmem
    · exact hy.readable x hmem
  · rcases newest_of_append hnew with hx | hx
    · have hle := hnew.2 y (List.mem_append_right _ hy')
      exact absurd (holder x hx.1) (not_lt.2 hle)
    · exact hy.newest x hx

theorem fallen_append_left {x : α} (hx : Newest time xs x) (hbad : ¬ good x)
    (hys : ∀ y ∈ ys, time y ≤ time x) : ¬ Stands time readable good (xs ++ ys) := fun h =>
  hbad (h.newest x (newest_append_left hx hys))

theorem fallen_append_right {y : α} (hy : Newest time ys y) (hbad : ¬ good y)
    (hxs : ∀ x ∈ xs, time x ≤ time y) : ¬ Stands time readable good (xs ++ ys) := fun h =>
  hbad (h.newest y (newest_append_right hy hxs))

theorem Stands.append_swap (h : Stands time readable good (xs ++ ys)) :
    Stands time readable good (ys ++ xs) := by
  refine ⟨fun hnil => h.nonempty ?_, fun x hx => h.readable x ?_, fun x hx => h.newest x ⟨?_, ?_⟩⟩
  · rw [List.append_eq_nil_iff] at hnil ⊢
    exact hnil.symm
  · exact List.mem_append.2 (List.mem_append.1 hx).symm
  · exact List.mem_append.2 (List.mem_append.1 hx.1).symm
  · exact fun y hy => hx.2 y (List.mem_append.2 (List.mem_append.1 hy).symm)

/-- Appending `xs` to `ys` leaves the verdict of `ys` exactly when `ys` overtakes `xs`. -/
theorem stands_append_iff : (Stands time readable good (xs ++ ys) ↔
    Stands time readable good ys) ↔ Overtakes time readable good xs ys := by
  by_cases hx : Stands time readable good xs
  · by_cases hy : Stands time readable good ys
    · exact ⟨fun _ => ⟨fun _ hn => absurd hy hn, fun _ hn => absurd hx hn⟩,
        fun _ => ⟨fun _ => hy, fun _ => hx.append hy⟩⟩
    constructor
    · intro hiff
      refine ⟨fun _ _ hread => ?_, fun _ hn => absurd hx hn⟩
      by_contra hnone
      push Not at hnone
      obtain ⟨x, hnew⟩ : ∃ x, Newest time xs x := newest_exists hx.nonempty
      have holder : ∃ x ∈ xs, ∀ y ∈ ys, time y < time x := by
        refine ⟨x, hnew.1, fun y hmem => ?_⟩
        obtain ⟨x', hx', hlt⟩ := hnone y hmem
        exact hlt.trans_le (hnew.2 x' hx')
      exact hy (hiff.1 (hx.append_older hread holder).append_swap)
    · intro hover
      refine ⟨fun h => ?_, fun h => absurd h hy⟩
      have hread : ∀ y ∈ ys, readable y := fun y hmem =>
        h.readable y (List.mem_append_right _ hmem)
      obtain ⟨y₀, hy₀, hle⟩ := hover.fallen hx hy hread
      obtain ⟨y, hnew, hbad⟩ := fallen_newest (List.ne_nil_of_mem hy₀) hread hy
      exact absurd h (fallen_append_right hnew hbad fun x hmem =>
        (hle x hmem).trans (hnew.2 y₀ hy₀))
  · by_cases hy : Stands time readable good ys
    · constructor
      · intro hiff
        refine ⟨fun h => absurd h hx, fun hne _ _ => ?_⟩
        have h := hiff.2 hy
        have hread : ∀ x ∈ xs, readable x := fun x hmem =>
          h.readable x (List.mem_append_left _ hmem)
        refine ⟨hread, ?_⟩
        by_contra hnone
        push Not at hnone
        obtain ⟨x, hnew, hbad⟩ := fallen_newest hne hread hx
        refine absurd h (fallen_append_left hnew hbad fun y hmem => ?_)
        obtain ⟨x', hx', hle⟩ := hnone y hmem
        exact hle.trans (hnew.2 x' hx')
      · intro hover
        refine ⟨fun _ => hy, fun _ => ?_⟩
        by_cases hne : xs = []
        · rw [hne]
          exact hy
        · obtain ⟨hread, holder⟩ := hover.risen hne hx hy
          exact hy.append_older hread holder
    · refine ⟨fun _ => ⟨fun h => absurd h hx, fun _ _ h => absurd h hy⟩, fun _ => ?_⟩
      refine ⟨fun h => ?_, fun h => absurd h hy⟩
      by_cases hnx : xs = []
      · rw [hnx] at h
        exact h
      by_cases hny : ys = []
      · rw [hny, List.append_nil] at h
        exact absurd h hx
      have hreadx : ∀ x ∈ xs, readable x := fun x hmem =>
        h.readable x (List.mem_append_left _ hmem)
      have hready : ∀ y ∈ ys, readable y := fun y hmem =>
        h.readable y (List.mem_append_right _ hmem)
      obtain ⟨x, hnewx, hbadx⟩ := fallen_newest hnx hreadx hx
      obtain ⟨y, hnewy, hbady⟩ := fallen_newest hny hready hy
      rcases le_total (time x) (time y) with hle | hle
      · exact absurd h (fallen_append_right hnewy hbady fun x' hmem =>
          (hnewx.2 x' hmem).trans hle)
      · exact absurd h (fallen_append_left hnewx hbadx fun y' hmem =>
          (hnewy.2 y' hmem).trans hle)

end NewestEntries
