import Mathlib.Data.List.Dedup
import Mathlib.Data.List.Sort
import Mathlib.Logic.Relation
import Mathlib.Logic.Function.Basic
import Mathlib.Order.MinMax

/-!
# Disjoint sets

A forest of parent pointers with path compression, in which the smaller of two roots becomes
the root of a union. `components` groups a list of elements by their roots, and
`mem_components` says that the groups are the classes of the equivalence the edges generate.
-/
namespace DisjointSets

variable {α : Type*}

/-- The equivalence the edges generate. -/
def Linked (edges : List (α × α)) : α → α → Prop :=
  Relation.EqvGen fun x y => (x, y) ∈ edges

theorem linked_nil (x y : α) : x = y ↔ Linked [] x y := by
  constructor
  · rintro rfl
    exact Relation.EqvGen.refl _
  · intro h
    induction h with
    | rel a b hab => simp at hab
    | refl a => rfl
    | symm a b _ ih => exact ih.symm
    | trans a b c _ _ ihab ihbc => exact ihab.trans ihbc

theorem linked_mono {edges more : List (α × α)} (h : ∀ e ∈ edges, e ∈ more) {x y : α}
    (hxy : Linked edges x y) : Linked more x y :=
  Relation.EqvGen.mono (fun a b hab => h (a, b) hab) _ _ hxy

theorem linked_refl (edges : List (α × α)) (x : α) : Linked edges x x := Relation.EqvGen.refl x

/-- An element without edges is alone in its class. -/
theorem linked_isolated {edges : List (α × α)} {x y : α}
    (h : ∀ e ∈ edges, e.1 ≠ x ∧ e.2 ≠ x) (hxy : Linked edges x y) : y = x := by
  have hsame : ∀ {a b}, Linked edges a b → (a = x ↔ b = x) := by
    intro a b hab
    induction hab with
    | rel a b hab => simp [(h _ hab).1, (h _ hab).2]
    | refl a => rfl
    | symm a b _ ih => exact ih.symm
    | trans a b c _ _ ihab ihbc => exact ihab.trans ihbc
  exact (hsame hxy).1 rfl

/-- The elements of the list in the class of an element. -/
noncomputable def classOf (ids : List α) (edges : List (α × α)) (x : α) : List α :=
  open Classical in ids.filter fun y => Linked edges x y

theorem mem_classOf {ids : List α} {edges : List (α × α)} {x y : α} :
    y ∈ classOf ids edges x ↔ y ∈ ids ∧ Linked edges x y := by
  simp [classOf]

theorem self_mem_classOf {ids : List α} (edges : List (α × α)) {x : α} (hx : x ∈ ids) :
    x ∈ classOf ids edges x :=
  mem_classOf.2 ⟨hx, linked_refl edges x⟩

variable [LinearOrder α]

/-- Follow the parents to the root and point every element on the way at it. The fuel covers
every chain; a program that recurses here needs a frame for each of its elements. -/
def find : ℕ → (α → α) → α → α × (α → α)
  | 0, p, x => (p x, p)
  | n + 1, p, x =>
    if p x = x then (x, p)
    else
      let found := find n p (p x)
      (found.1, Function.update found.2 x found.1)

def union (n : ℕ) (p : α → α) (l r : α) : α → α :=
  let left := find n p l
  let right := find n left.2 r
  if left.1 = right.1 then right.2
  else Function.update right.2 (max left.1 right.1) (min left.1 right.1)

def unionAll (n : ℕ) (p : α → α) (edges : List (α × α)) : α → α :=
  edges.foldl (fun p e => union n p e.1 e.2) p

/-- Each element with its root; looking the roots up compresses the forest further. -/
def roots (n : ℕ) : (α → α) → List α → List (α × α)
  | _, [] => []
  | p, x :: xs => (x, (find n p x).1) :: roots n (find n p x).2 xs

def firstLe : List α → List α → Prop
  | x :: _, y :: _ => x ≤ y
  | _, _ => True

instance : DecidableRel (firstLe : List α → List α → Prop)
  | x :: _, y :: _ => inferInstanceAs (Decidable (x ≤ y))
  | [], _ => isTrue trivial
  | _ :: _, [] => isTrue trivial

/-- The elements grouped by root, the groups in the order of their first elements. -/
def components (ids : List α) (edges : List (α × α)) : List (List α) :=
  let rooted := roots ids.length (unionAll ids.length id edges) ids
  (((rooted.map Prod.snd).dedup).map fun root =>
    (rooted.filter (·.2 = root)).map Prod.fst).insertionSort firstLe

/-- The elements of the list below an element: the steps a search from it may take. -/
def below (ids : List α) (x : α) : ℕ := (ids.filter (· < x)).length

/-- `rep` gives the root of every element of the forest `p` over `ids`. -/
structure Represents (ids : List α) (p rep : α → α) : Prop where
  down : ∀ x, p x ≤ x
  closed : ∀ x ∈ ids, p x ∈ ids
  root : ∀ x, p x = x → rep x = x
  step : ∀ x, rep (p x) = rep x

theorem below_lt {ids : List α} {x y : α} (hy : y ∈ ids) (hlt : y < x) :
    below ids y < below ids x := by
  have hsub : (ids.filter (· < y)).Sublist ((ids.filter (· < x)).filter (· < y)) := by
    rw [List.filter_filter]
    apply List.monotone_filter_right
    intro z hz
    have hzy : z < y := by simpa using hz
    simpa using ⟨hzy, hzy.trans hlt⟩
  have hmem : y ∈ ids.filter (· < x) := by simpa using ⟨hy, hlt⟩
  have hless : ((ids.filter (· < x)).filter (· < y)).length < (ids.filter (· < x)).length := by
    apply List.length_filter_lt_length_iff_exists.2
    exact ⟨y, hmem, by simp⟩
  exact hsub.length_le.trans_lt hless

theorem below_le (ids : List α) (x : α) : below ids x ≤ ids.length :=
  List.length_filter_le _ _

namespace Represents
variable {ids : List α} {p rep : α → α}

theorem parent_lt (h : Represents ids p rep) {x : α} (hx : p x ≠ x) : p x < x :=
  lt_of_le_of_ne (h.down x) hx

theorem rep_spec (h : Represents ids p rep) {x : α} (hx : x ∈ ids) :
    p (rep x) = rep x ∧ rep x ∈ ids ∧ rep x ≤ x := by
  induction hn : below ids x using Nat.strong_induction_on generalizing x with
  | _ n ih =>
    by_cases hroot : p x = x
    · rw [h.root x hroot]
      exact ⟨hroot, hx, le_rfl⟩
    · have hlt := below_lt (h.closed x hx) (h.parent_lt hroot)
      have hup := ih (below ids (p x)) (hn ▸ hlt) (h.closed x hx) rfl
      rw [h.step x] at hup
      exact ⟨hup.1, hup.2.1, hup.2.2.trans (h.down x)⟩

theorem rep_rep (h : Represents ids p rep) {x : α} (hx : x ∈ ids) : rep (rep x) = rep x :=
  h.root _ (h.rep_spec hx).1

/-- Pointing an element at its root changes no root. -/
theorem compress (h : Represents ids p rep) {x : α} (hx : x ∈ ids) :
    Represents ids (Function.update p x (rep x)) rep where
  down z := by
    by_cases hz : z = x
    · simpa [hz] using (h.rep_spec hx).2.2
    · simpa [hz] using h.down z
  closed z hz := by
    by_cases hzx : z = x
    · simpa [hzx] using (h.rep_spec hx).2.1
    · simpa [hzx] using h.closed z hz
  root z hz := by
    by_cases hzx : z = x
    · subst hzx
      simpa using hz
    · exact h.root z (by simpa [hzx] using hz)
  step z := by
    by_cases hzx : z = x
    · simpa [hzx] using h.rep_rep hx
    · simpa [hzx] using h.step z

/-- Enough fuel finds the root, and the compressed forest has the same roots. -/
theorem find_spec (h : Represents ids p rep) {x : α} (hx : x ∈ ids) {n : ℕ}
    (hn : below ids x ≤ n) :
    (find n p x).1 = rep x ∧ Represents ids (find n p x).2 rep := by
  induction n generalizing x with
  | zero =>
    have hroot : p x = x := by
      by_contra hne
      have := below_lt (h.closed x hx) (h.parent_lt hne)
      omega
    exact ⟨by rw [find, hroot, h.root x hroot], h⟩
  | succ n ih =>
    rw [find]
    split
    · rename_i hroot
      exact ⟨(h.root x hroot).symm, h⟩
    · rename_i hne
      have hlt := below_lt (h.closed x hx) (h.parent_lt hne)
      have hfound := ih (h.closed x hx) (by omega)
      rw [h.step x] at hfound
      refine ⟨hfound.1, ?_⟩
      dsimp only
      rw [hfound.1]
      exact hfound.2.compress hx

theorem find_root (h : Represents ids p rep) {x : α} (hx : x ∈ ids) :
    (find ids.length p x).1 = rep x ∧ Represents ids (find ids.length p x).2 rep :=
  h.find_spec hx (below_le ids x)

/-- The larger root is pointed at the smaller one. -/
theorem link (h : Represents ids p rep) {child root : α} (hc : rep child = child)
    (hr : rep root = root) (hroot : root ∈ ids) (hlt : root < child) :
    Represents ids (Function.update p child root)
      (fun x => if rep x = child then root else rep x) where
  down z := by
    by_cases hz : z = child
    · simpa [hz] using hlt.le
    · simpa [hz] using h.down z
  closed z hz := by
    by_cases hzc : z = child
    · simpa [hzc] using hroot
    · simpa [hzc] using h.closed z hz
  root z hz := by
    by_cases hzc : z = child
    · subst hzc
      simp only [Function.update_self] at hz
      exact absurd hz hlt.ne
    · have hzz : rep z = z := h.root z (by simpa [hzc] using hz)
      simp [hzz, hzc]
  step z := by
    by_cases hzc : z = child
    · simp [hzc, hr, hc, hlt.ne]
    · simp [hzc, h.step z]

theorem union (h : Represents ids p rep) {l r : α} (hl : l ∈ ids) (hr : r ∈ ids) :
    Represents ids (DisjointSets.union ids.length p l r)
      (fun x => if rep x = max (rep l) (rep r) then min (rep l) (rep r) else rep x) := by
  have hleft := h.find_root hl
  have hright := hleft.2.find_root hr
  simp only [DisjointSets.union, hleft.1, hright.1]
  split
  · rename_i heq
    have hsame : (fun x => if rep x = max (rep l) (rep r) then min (rep l) (rep r) else rep x)
        = rep := by
      funext x
      rw [heq, max_self, min_self]
      split <;> simp_all
    rw [hsame]
    exact hright.2
  · rename_i hne
    have hroots : ∀ y, y = rep l ∨ y = rep r → rep y = y ∧ y ∈ ids := by
      intro y hy
      rcases hy with rfl | rfl
      · exact ⟨h.rep_rep hl, (h.rep_spec hl).2.1⟩
      · exact ⟨h.rep_rep hr, (h.rep_spec hr).2.1⟩
    have hmax := hroots (max (rep l) (rep r)) (max_choice _ _)
    have hmin := hroots (min (rep l) (rep r)) (min_choice _ _)
    exact hright.2.link hmax.1 hmin.1 hmin.2 (min_lt_max.2 hne)

end Represents

theorem represents_id (ids : List α) : Represents ids (id : α → α) id :=
  ⟨fun _ => le_rfl, fun _ h => h, fun _ h => h, fun _ => rfl⟩

/-- Merging two roots adds exactly the edge between their classes. -/
theorem merged_linked {edges : List (α × α)} {rep : α → α} {l r : α}
    (h : ∀ x y, rep x = rep y ↔ Linked edges x y) (x y : α) :
    (if rep x = max (rep l) (rep r) then min (rep l) (rep r) else rep x) =
        (if rep y = max (rep l) (rep r) then min (rep l) (rep r) else rep y) ↔
      Linked (edges ++ [(l, r)]) x y := by
  have hmono : ∀ {a b}, rep a = rep b → Linked (edges ++ [(l, r)]) a b := by
    intro a b hab
    exact linked_mono (fun e he => List.mem_append_left _ he) ((h a b).1 hab)
  have hedge : Linked (edges ++ [(l, r)]) l r := Relation.EqvGen.rel _ _ (by simp)
  -- both roots are linked through the new edge
  have hboth : ∀ {a b}, rep a = max (rep l) (rep r) → rep b = min (rep l) (rep r) →
      Linked (edges ++ [(l, r)]) a b := by
    intro a b ha hb
    rcases le_total (rep l) (rep r) with hle | hle
    · rw [max_eq_right hle] at ha
      rw [min_eq_left hle] at hb
      exact ((hmono ha).trans _ _ _ (hedge.symm _ _)).trans _ _ _ (hmono hb.symm)
    · rw [max_eq_left hle] at ha
      rw [min_eq_right hle] at hb
      exact ((hmono ha).trans _ _ _ hedge).trans _ _ _ (hmono hb.symm)
  constructor
  · intro heq
    split_ifs at heq with hx hy hy
    · exact hmono (hx.trans hy.symm)
    · exact hboth hx heq.symm
    · exact (hboth hy heq).symm _ _
    · exact hmono heq
  · intro hlink
    induction hlink with
    | rel a b hab =>
      rcases List.mem_append.1 hab with hold | hnew
      · rw [(h a b).2 (Relation.EqvGen.rel _ _ hold)]
      · obtain ⟨rfl, rfl⟩ : a = l ∧ b = r := by simpa using hnew
        rcases le_total (rep a) (rep b) with hle | hle
        · simp [max_eq_right hle, min_eq_left hle]
        · simp [max_eq_left hle, min_eq_right hle]
    | refl a => rfl
    | symm a b _ ih => exact ih.symm
    | trans a b c _ _ ihab ihbc => exact ihab.trans ihbc

theorem unionAll_linked {ids : List α} (edges : List (α × α))
    (hmem : ∀ e ∈ edges, e.1 ∈ ids ∧ e.2 ∈ ids) (done : List (α × α)) {p rep : α → α}
    (hp : Represents ids p rep) (hdone : ∀ x y, rep x = rep y ↔ Linked done x y) :
    ∃ rep', Represents ids (unionAll ids.length p edges) rep' ∧
      ∀ x y, rep' x = rep' y ↔ Linked (done ++ edges) x y := by
  induction edges generalizing done p rep with
  | nil => exact ⟨rep, hp, by simpa using hdone⟩
  | cons e edges ih =>
    have he := hmem e (by simp)
    have hnext := ih (fun f hf => hmem f (by simp [hf])) (done ++ [(e.1, e.2)])
      (hp.union he.1 he.2) (merged_linked hdone)
    simpa [unionAll] using hnext

theorem roots_eq {ids : List α} {p rep : α → α} (h : Represents ids p rep) (xs : List α)
    (hxs : ∀ x ∈ xs, x ∈ ids) : roots ids.length p xs = xs.map fun x => (x, rep x) := by
  induction xs generalizing p with
  | nil => rfl
  | cons x xs ih =>
    have hfound := h.find_root (hxs x (by simp))
    rw [roots, ih hfound.2 fun y hy => hxs y (by simp [hy]), hfound.1, List.map_cons]

/-- The groups are the classes of the equivalence the edges generate. -/
theorem mem_components {ids : List α} {edges : List (α × α)}
    (hmem : ∀ e ∈ edges, e.1 ∈ ids ∧ e.2 ∈ ids) {g : List α} :
    g ∈ components ids edges ↔ ∃ x ∈ ids, g = classOf ids edges x := by
  obtain ⟨rep, hrep, hlink⟩ := unionAll_linked edges hmem [] (represents_id ids) linked_nil
  have hclass : ∀ x, (ids.filter fun y => rep y = rep x) = classOf ids edges x := by
    intro x
    apply List.filter_congr
    intro y _
    have := hlink x y
    simp only [List.nil_append] at this
    simp [← this, eq_comm]
  simp only [components, List.mem_insertionSort, roots_eq hrep ids fun _ h => h, List.map_map,
    List.mem_map, List.mem_dedup, List.filter_map]
  constructor
  · rintro ⟨_, ⟨x, hx, rfl⟩, rfl⟩
    exact ⟨x, hx, by simpa [Function.comp_def] using hclass x⟩
  · rintro ⟨x, hx, rfl⟩
    exact ⟨_, ⟨x, hx, rfl⟩, by simpa [Function.comp_def] using hclass x⟩

/-- No group is listed twice. -/
theorem components_nodup {ids : List α} {edges : List (α × α)}
    (hmem : ∀ e ∈ edges, e.1 ∈ ids ∧ e.2 ∈ ids) : (components ids edges).Nodup := by
  obtain ⟨rep, hrep, _⟩ := unionAll_linked edges hmem [] (represents_id ids) linked_nil
  simp only [components, roots_eq hrep ids fun _ h => h]
  rw [(List.perm_insertionSort _ _).nodup_iff]
  refine (List.nodup_dedup _).map_on ?_
  intro a ha b hb heq
  obtain ⟨x, hx, rfl⟩ : ∃ x ∈ ids, rep x = a := by simpa using ha
  have hxa : x ∈ (((ids.map fun y => (y, rep y)).filter (·.2 = rep x)).map Prod.fst) := by
    simpa using hx
  rw [heq] at hxa
  have : x ∈ ids ∧ rep x = b := by simpa using hxa
  exact this.2

end DisjointSets
