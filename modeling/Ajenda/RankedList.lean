import Ajenda.FiniteTable

/-!
# A ranked set in the order of a list

`z.Ranked ms` says that the members of `z` are those of the list `ms` and that their ranks
grow along the list. Taking the first member, adding one with a rank above all others and
removing one are then the operations on the list.
-/
namespace FiniteTable.RankedSet

structure Ranked (z : RankedSet) (ms : List String) : Prop where
  members : ∀ m, z.has m = true ↔ m ∈ ms
  ascending : ms.Pairwise fun a b => ∃ r q, z.get a = some r ∧ z.get b = some q ∧ r < q

variable {ms : List String} {z : RankedSet} {m : String}

theorem Ranked.empty : Ranked ∅ [] where
  members m := by simp
  ascending := List.Pairwise.nil

theorem Ranked.nodup (h : z.Ranked ms) : ms.Nodup := by
  refine h.ascending.imp ?_
  rintro a b ⟨r, q, hr, hq, hlt⟩ rfl
  rw [hr] at hq
  have heq := Option.some.inj hq
  omega

theorem Ranked.first_nil (h : z.Ranked []) : z.first = none := by
  by_contra hfirst
  obtain ⟨m, hm⟩ := Option.ne_none_iff_exists'.mp hfirst
  obtain ⟨r, hr⟩ := get_of_first hm
  have hmem := (h.members m).mp (Table.has_iff.mpr ⟨r, hr⟩)
  simp at hmem

/-- The head of the list has the least rank. -/
theorem Ranked.first_cons (h : z.Ranked (m :: ms)) : z.first = some m := by
  obtain ⟨r, hr⟩ := Table.has_iff.mp ((h.members m).mpr List.mem_cons_self)
  obtain ⟨k, hk⟩ := first_exists hr
  obtain ⟨q, hq⟩ := get_of_first hk
  have hmem := (h.members k).mp (Table.has_iff.mpr ⟨q, hq⟩)
  rcases List.mem_cons.mp hmem with rfl | hmem
  · exact hk
  · obtain ⟨r', q', hr', hq', hlt⟩ := (List.pairwise_cons.mp h.ascending).1 k hmem
    have hle := first_le hk hq hr
    rw [hr] at hr'
    rw [hq] at hq'
    have hr'' := Option.some.inj hr'
    have hq'' := Option.some.inj hq'
    omega

/-- A member with a rank above all others comes last. -/
theorem Ranked.push {n : ℕ} (h : z.Ranked ms) (hm : m ∉ ms)
    (hn : ∀ k r, z.get k = some r → r < n) : Ranked (z.put m n) (ms ++ [m]) where
  members k := by
    rw [Table.has_put, Bool.or_eq_true, decide_eq_true_eq, h.members, List.mem_append,
      List.mem_singleton, or_comm]
  ascending := by
    rw [List.pairwise_append]
    refine ⟨?_, List.pairwise_singleton _ _, ?_⟩
    · refine h.ascending.imp_of_mem fun {a b} ha hb hab => ?_
      have ham : a ≠ m := fun heq => hm (heq ▸ ha)
      have hbm : b ≠ m := fun heq => hm (heq ▸ hb)
      rwa [Table.get_put_ne _ _ ham, Table.get_put_ne _ _ hbm]
    · intro a ha b hb
      obtain rfl := List.mem_singleton.mp hb
      obtain ⟨r, hr⟩ := Table.has_iff.mp ((h.members a).mpr ha)
      have ham : a ≠ b := fun heq => hm (heq ▸ ha)
      exact ⟨r, n, by rw [Table.get_put_ne _ _ ham, hr], Table.get_put_self _ _ _, hn a r hr⟩

theorem Ranked.del (h : z.Ranked ms) (m : String) : Ranked (z.del m) (ms.filter (· ≠ m)) where
  members k := by
    rw [Table.has_del, Bool.and_eq_true, h.members, List.mem_filter]
    simp [and_comm]
  ascending := by
    refine (h.ascending.filter _).imp_of_mem fun {a b} ha hb hab => ?_
    have ham : a ≠ m := by simpa using (List.mem_filter.mp ha).2
    have hbm : b ≠ m := by simpa using (List.mem_filter.mp hb).2
    rwa [Table.get_del_ne _ ham, Table.get_del_ne _ hbm]

end FiniteTable.RankedSet
