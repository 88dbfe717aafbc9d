import Mathlib.Data.List.Nodup
import Mathlib.Tactic

/-!
# Chains of revisions

Rows carry a key, a number, an identity and the identity of the row before. A list of rows is a
chain when the numbers under each key are 1, 2, .. in the order of the list and each row names the
one before it. Chains grow by one row, shrink to prefixes and merge when their keys are apart.
-/
namespace RevisionChains

structure Layout (ρ κ ι : Type*) where
  key : ρ → κ
  number : ρ → ℕ
  ident : ρ → ι
  prior : ρ → Option ι

variable {ρ κ ι : Type*} [DecidableEq κ] (L : Layout ρ κ ι)

/-- The numbers under a key. -/
def Layout.numbers (rows : List ρ) (k : κ) : List ℕ :=
  (rows.filter fun row => L.key row = k).map L.number

structure Chain (rows : List ρ) : Prop where
  numbered : ∀ k, ∃ n, L.numbers rows k = List.range' 1 n
  linked : ∀ row ∈ rows, ∀ q ∈ rows, L.key q = L.key row → L.number q + 1 = L.number row →
    L.prior row = some (L.ident q)
  first : ∀ row ∈ rows, L.number row = 1 → L.prior row = none

variable {L} {rows xs ys zs : List ρ} {row q : ρ} {k : κ}

theorem mem_numbers {n : ℕ} : n ∈ L.numbers rows k ↔ ∃ q ∈ rows, L.key q = k ∧ L.number q = n := by
  simp [Layout.numbers, and_assoc]

theorem numbers_append : L.numbers (xs ++ ys) k = L.numbers xs k ++ L.numbers ys k := by
  rw [Layout.numbers, List.filter_append, List.map_append, Layout.numbers, Layout.numbers]

theorem numbers_of_forall_ne (h : ∀ q ∈ rows, L.key q ≠ k) : L.numbers rows k = [] := by
  rw [Layout.numbers, List.filter_eq_nil_iff.2 fun q hq => by simpa using h q hq, List.map_nil]

theorem Chain.nil : Chain L ([] : List ρ) :=
  ⟨fun _ => ⟨0, rfl⟩, fun _ h => absurd h List.not_mem_nil, fun _ h => absurd h List.not_mem_nil⟩

theorem Chain.number_pos (h : Chain L rows) (hrow : row ∈ rows) : 0 < L.number row := by
  obtain ⟨n, hn⟩ := h.numbered (L.key row)
  have hmem : L.number row ∈ L.numbers rows (L.key row) := mem_numbers.2 ⟨row, hrow, rfl, rfl⟩
  rw [hn, List.mem_range'_1] at hmem
  exact hmem.1

/-- A key and a number determine the row. -/
theorem Chain.unique (h : Chain L rows) (hrow : row ∈ rows) (hq : q ∈ rows)
    (hkey : L.key q = L.key row) (hnumber : L.number q = L.number row) : q = row := by
  obtain ⟨n, hn⟩ := h.numbered (L.key row)
  have hnodup : (L.numbers rows (L.key row)).Nodup := by
    rw [hn]
    exact List.nodup_range'
  refine List.inj_on_of_nodup_map hnodup ?_ ?_ hnumber
  · exact List.mem_filter.2 ⟨hq, by simpa using hkey⟩
  · exact List.mem_filter.2 ⟨hrow, by simp⟩

/-- Every later row names the one before it. -/
theorem Chain.prior_row (h : Chain L rows) (hrow : row ∈ rows) (hlater : 1 < L.number row) :
    ∃ q ∈ rows, L.key q = L.key row ∧ L.number q + 1 = L.number row ∧
      L.prior row = some (L.ident q) := by
  obtain ⟨n, hn⟩ := h.numbered (L.key row)
  have hmem : L.number row ∈ L.numbers rows (L.key row) := mem_numbers.2 ⟨row, hrow, rfl, rfl⟩
  rw [hn, List.mem_range'_1] at hmem
  have hbefore : L.number row - 1 ∈ L.numbers rows (L.key row) := by
    rw [hn, List.mem_range'_1]
    omega
  obtain ⟨q, hq, hkey, hnumber⟩ := mem_numbers.1 hbefore
  have hsucc : L.number q + 1 = L.number row := by omega
  exact ⟨q, hq, hkey, hsucc, h.linked row hrow q hq hkey hsucc⟩

theorem Chain.of_prefix (h : Chain L ys) (hinitial : xs <+: ys) : Chain L xs := by
  refine ⟨fun k => ?_, fun row hrow q hq => ?_, fun row hrow => ?_⟩
  · obtain ⟨n, hn⟩ := h.numbered k
    obtain ⟨rest, hrest⟩ := hinitial
    rw [← hrest, numbers_append] at hn
    obtain ⟨m, -, hm, -⟩ := List.range'_eq_append_iff.1 hn.symm
    exact ⟨m, hm⟩
  · exact h.linked row (hinitial.subset hrow) q (hinitial.subset hq)
  · exact h.first row (hinitial.subset hrow)

/-- Below the number of a row every number is there. -/
theorem Chain.exists_of_le (h : Chain L rows) (hq : q ∈ rows) {n : ℕ} (hpos : 0 < n)
    (hle : n ≤ L.number q) : ∃ row ∈ rows, L.key row = L.key q ∧ L.number row = n := by
  obtain ⟨m, hm⟩ := h.numbered (L.key q)
  have hmem : L.number q ∈ L.numbers rows (L.key q) := mem_numbers.2 ⟨q, hq, rfl, rfl⟩
  rw [hm, List.mem_range'_1] at hmem
  have hn : n ∈ L.numbers rows (L.key q) := by
    rw [hm, List.mem_range'_1]
    omega
  exact mem_numbers.1 hn

/-- What comes later in the list has the larger number. -/
theorem Chain.lt_of_append (h : Chain L (xs ++ ys)) (hrow : row ∈ xs) (hq : q ∈ ys)
    (hkey : L.key q = L.key row) : L.number row < L.number q := by
  obtain ⟨n, hn⟩ := h.numbered (L.key row)
  have hpairwise : (L.numbers (xs ++ ys) (L.key row)).Pairwise (· < ·) := by
    rw [hn]
    exact List.pairwise_lt_range'
  rw [numbers_append, List.pairwise_append] at hpairwise
  exact hpairwise.2.2 _ (mem_numbers.2 ⟨row, hrow, rfl, rfl⟩) _ (mem_numbers.2 ⟨q, hq, hkey, rfl⟩)

/-- The first row of a key, or the row after a last one. -/
theorem Chain.append_row (h : Chain L rows)
    (hnew : ∀ q ∈ rows, L.key q = L.key row → L.number q ≠ L.number row)
    (hprior : (L.number row = 1 ∧ L.prior row = none) ∨ ∃ q ∈ rows, L.key q = L.key row ∧
      L.number q + 1 = L.number row ∧ L.prior row = some (L.ident q)) :
    Chain L (rows ++ [row]) := by
  obtain ⟨n, hn⟩ := h.numbered (L.key row)
  have hfresh : L.number row ∉ L.numbers rows (L.key row) := by
    intro hmem
    obtain ⟨q, hq, hkey, hnumber⟩ := mem_numbers.1 hmem
    exact hnew q hq hkey hnumber
  have hlast : L.number row = n + 1 := by
    rw [hn, List.mem_range'_1] at hfresh
    rcases hprior with ⟨hone, -⟩ | ⟨q, hq, hkey, hsucc, -⟩
    · omega
    · have hmem : L.number q ∈ L.numbers rows (L.key row) := mem_numbers.2 ⟨q, hq, hkey, rfl⟩
      rw [hn, List.mem_range'_1] at hmem
      omega
  have hbelow : ∀ q ∈ rows, L.key q = L.key row → L.number q ≤ n := by
    intro q hq hkey
    have hmem : L.number q ∈ L.numbers rows (L.key row) := mem_numbers.2 ⟨q, hq, hkey, rfl⟩
    rw [hn, List.mem_range'_1] at hmem
    omega
  refine ⟨fun k => ?_, fun r hr q hq hkey hsucc => ?_, fun r hr hone => ?_⟩
  · by_cases hk : L.key row = k
    · refine ⟨n + 1, ?_⟩
      have hsingle : L.numbers [row] k = [n + 1] := by simp [Layout.numbers, hk, hlast]
      rw [numbers_append, ← hk, hn, hk, hsingle, List.range'_concat]
      simp [Nat.add_comm]
    · obtain ⟨m, hm⟩ := h.numbered k
      refine ⟨m, ?_⟩
      rw [numbers_append, hm, numbers_of_forall_ne fun q hq => by
        rwa [List.mem_singleton.1 hq], List.append_nil]
  · rcases List.mem_append.1 hr with hr' | hr' <;> rcases List.mem_append.1 hq with hq' | hq'
    · exact h.linked r hr' q hq' hkey hsucc
    · obtain rfl := List.mem_singleton.1 hq'
      have := hbelow r hr' hkey.symm
      omega
    · obtain rfl := List.mem_singleton.1 hr'
      rcases hprior with ⟨hone, -⟩ | ⟨p, hp, hpkey, hpsucc, hlink⟩
      · have := h.number_pos hq'
        omega
      · rw [hlink, h.unique hq' hp (hpkey.trans hkey.symm) (by omega)]
    · obtain rfl := List.mem_singleton.1 hr'
      obtain rfl := List.mem_singleton.1 hq'
      omega
  · rcases List.mem_append.1 hr with hr' | hr'
    · exact h.first r hr' hone
    · obtain rfl := List.mem_singleton.1 hr'
      rcases hprior with ⟨-, hnone⟩ | ⟨p, hp, -, hpsucc, -⟩
      · exact hnone
      · have := h.number_pos hp
        omega

/-- Two continuations of a chain whose keys are apart. -/
theorem Chain.merge (hy : Chain L (xs ++ ys)) (hz : Chain L (xs ++ zs))
    (hapart : ∀ y ∈ ys, ∀ z ∈ zs, L.key y ≠ L.key z) : Chain L (xs ++ ys ++ zs) := by
  have hboth : ∀ r ∈ xs ++ ys ++ zs, ∀ q ∈ xs ++ ys ++ zs, L.key q = L.key r →
      (r ∈ xs ++ ys ∧ q ∈ xs ++ ys) ∨ (r ∈ xs ++ zs ∧ q ∈ xs ++ zs) := by
    intro r hr q hq hkey
    simp only [List.mem_append] at hr hq ⊢
    rcases hr with (hr | hr) | hr <;> rcases hq with (hq | hq) | hq
    · exact .inl ⟨.inl hr, .inl hq⟩
    · exact .inl ⟨.inl hr, .inr hq⟩
    · exact .inr ⟨.inl hr, .inr hq⟩
    · exact .inl ⟨.inr hr, .inl hq⟩
    · exact .inl ⟨.inr hr, .inr hq⟩
    · exact absurd hkey.symm (hapart r hr q hq)
    · exact .inr ⟨.inr hr, .inl hq⟩
    · exact absurd hkey (hapart q hq r hr)
    · exact .inr ⟨.inr hr, .inr hq⟩
  refine ⟨fun k => ?_, fun r hr q hq hkey hsucc => ?_, fun r hr hone => ?_⟩
  · by_cases hk : ∃ z ∈ zs, L.key z = k
    · obtain ⟨z, hz', hzk⟩ := hk
      obtain ⟨n, hn⟩ := hz.numbered k
      refine ⟨n, ?_⟩
      rw [← hn, numbers_append, numbers_append, numbers_append,
        numbers_of_forall_ne fun y hy' heq => hapart y hy' z hz' (heq.trans hzk.symm),
        List.append_nil]
    · obtain ⟨n, hn⟩ := hy.numbered k
      refine ⟨n, ?_⟩
      rw [numbers_append, hn, numbers_of_forall_ne fun z hz' heq => hk ⟨z, hz', heq⟩,
        List.append_nil]
  · rcases hboth r hr q hq hkey with ⟨hr, hq⟩ | ⟨hr, hq⟩
    · exact hy.linked r hr q hq hkey hsucc
    · exact hz.linked r hr q hq hkey hsucc
  · rcases hboth r hr r hr rfl with ⟨hr, -⟩ | ⟨hr, -⟩
    · exact hy.first r hr hone
    · exact hz.first r hr hone

end RevisionChains
