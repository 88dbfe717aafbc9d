import Mathlib.Data.Finset.Basic
import Mathlib.Data.Set.Lattice
import Mathlib.Logic.Relation
import Mathlib.Tactic

/-!
# Depth-first search with a bounded stack

The search marks a node as it enters it and as it leaves it, and fails at a node it has
entered and not left. `stack` is the number of calls that may be nested. A search that returns
has found its graph acyclic. On an acyclic graph it can only run out of stack, and it does
exactly when calls nest deeper than the stack: `Nested` describes the calls by reachability,
without the marks.
-/
namespace DepthFirst
open Relation

inductive Failure
  | cycle
  | overflow
  deriving DecidableEq

section Search
variable {α : Type*} [DecidableEq α]

structure Marks (α : Type*) where
  visiting : Finset α
  visited : Finset α

def visit (adj : α → List α) : ℕ → Marks α → α → Except Failure (Marks α)
  | 0, _, _ => .error .overflow
  | stack + 1, marks, v =>
    if v ∈ marks.visiting then .error .cycle
    else if v ∈ marks.visited then .ok marks
    else do
      let marks ← (adj v).foldlM (visit adj stack) { marks with visiting := insert v marks.visiting }
      pure ⟨marks.visiting.erase v, insert v marks.visited⟩

def search (adj : α → List α) (stack : ℕ) (roots : List α) : Except Failure (Marks α) :=
  roots.foldlM (visit adj stack) ⟨∅, ∅⟩

end Search

section Graph
variable {α : Type*} (adj : α → List α)

def Edge (v u : α) : Prop := u ∈ adj v

def reach (v : α) : Set α := {u | ReflTransGen (Edge adj) v u}

def Acyclic : Prop := ∀ v, ¬TransGen (Edge adj) v v

/-- While `calls` are made in order, after the nodes in `done` have been left, `n` calls nest.
A call leaves everything it reaches, and enters its node only if no earlier call reached it. -/
inductive Nested : Set α → List α → ℕ → Prop
  | here {done v vs} : Nested done (v :: vs) 1
  | later {done v vs n} (h : Nested (done ∪ reach adj v) vs n) : Nested done (v :: vs) n
  | deeper {done v vs n} (hv : v ∉ done) (h : Nested done (adj v) n) : Nested done (v :: vs) (n + 1)

variable {adj}

theorem self_mem_reach (v : α) : v ∈ reach adj v := ReflTransGen.refl

theorem reach_of_edge {v u : α} (h : u ∈ adj v) : reach adj u ⊆ reach adj v :=
  fun _ hw => ReflTransGen.head h hw

/-- A set that holds the successors of its nodes. -/
def Closed (adj : α → List α) (done : Set α) : Prop := ∀ v ∈ done, ∀ u ∈ adj v, u ∈ done

theorem Closed.reach_subset {done : Set α} (h : Closed adj done) {v : α} (hv : v ∈ done) :
    reach adj v ⊆ done := by
  intro u hu
  induction hu with
  | refl => exact hv
  | tail _ hedge ih => exact h _ ih _ hedge

/-- A node reaches itself and what its successors reach. -/
theorem reach_eq (v : α) : reach adj v = insert v (⋃ u ∈ adj v, reach adj u) := by
  ext w
  simp only [Set.mem_insert_iff, Set.mem_iUnion, exists_prop]
  constructor
  · intro h
    rcases ReflTransGen.cases_head h with rfl | ⟨u, hu, hw⟩
    · exact .inl rfl
    · exact .inr ⟨u, hu, hw⟩
  · rintro (rfl | ⟨u, hu, hw⟩)
    · exact self_mem_reach w
    · exact reach_of_edge hu hw

/-- Edges that climb make no cycle. -/
theorem acyclic_of_rank (rank : α → ℕ) (h : ∀ v, ∀ u ∈ adj v, rank v < rank u) : Acyclic adj := by
  have hpath : ∀ {v u}, TransGen (Edge adj) v u → rank v < rank u := by
    intro v u hp
    induction hp with
    | single hedge => exact h _ _ hedge
    | tail _ hedge ih => exact ih.trans (h _ _ hedge)
  exact fun v hv => lt_irrefl _ (hpath hv)

theorem nested_cons {done : Set α} {v : α} {vs : List α} {n : ℕ} :
    Nested adj done (v :: vs) n ↔ Nested adj done [v] n ∨ Nested adj (done ∪ reach adj v) vs n := by
  constructor
  · intro h
    cases h with
    | here => exact .inl .here
    | later h => exact .inr h
    | deeper hv h => exact .inl (.deeper hv h)
  · rintro (h | h)
    · cases h with
      | here => exact .here
      | later h => cases h
      | deeper hv h => exact .deeper hv h
    · exact .later h

/-- Calls that nest are calls of nodes of a path. -/
theorem Nested.path {done : Set α} {calls : List α} {n : ℕ} (h : Nested adj done calls n) :
    ∃ path : List α, path.length = n ∧ path.IsChain (Edge adj) ∧ ∃ v ∈ calls, path.head? = some v := by
  induction h with
  | here =>
    rename_i done v vs
    exact ⟨[v], rfl, by simp, v, by simp, rfl⟩
  | later h ih =>
    obtain ⟨path, hlength, hchain, u, hu, hhead⟩ := ih
    exact ⟨path, hlength, hchain, u, List.mem_cons_of_mem _ hu, hhead⟩
  | deeper hv h ih =>
    rename_i done v vs n
    obtain ⟨path, hlength, hchain, u, hu, hhead⟩ := ih
    refine ⟨v :: path, by simp [hlength], ?_, v, List.mem_cons_self, rfl⟩
    refine List.isChain_cons.2 ⟨fun w hw => ?_, hchain⟩
    rw [hhead, Option.mem_some_iff] at hw
    exact hw ▸ hu

end Graph

section Results
variable {α : Type*} [DecidableEq α] {adj : α → List α} {marks marks' : Marks α} {stack : ℕ}

/-- The nodes that have been left are closed and on no cycle. -/
structure Marks.Ready (adj : α → List α) (marks : Marks α) : Prop where
  closed : Closed adj (marks.visited : Set α)
  disjoint : Disjoint marks.visiting marks.visited
  acyclic : ∀ v ∈ marks.visited, ¬TransGen (Edge adj) v v

omit [DecidableEq α] in
theorem Marks.Ready.start : Marks.Ready adj ⟨∅, ∅⟩ :=
  ⟨by simp [Closed], Finset.disjoint_empty_left _, by simp⟩

/-- What calls that return have done: they have left what they reach. -/
structure Left (adj : α → List α) (marks marks' : Marks α) (calls : List α) : Prop where
  ready : marks'.Ready adj
  visiting : marks'.visiting = marks.visiting
  visited : (marks'.visited : Set α) = (marks.visited : Set α) ∪ ⋃ v ∈ calls, reach adj v

omit [DecidableEq α] in
theorem Left.cons {v : α} {vs : List α} {marks₁ : Marks α} (h : Left adj marks marks₁ [v])
    (g : Left adj marks₁ marks' vs) : Left adj marks marks' (v :: vs) := by
  refine ⟨g.ready, g.visiting.trans h.visiting, ?_⟩
  rw [g.visited, h.visited]
  ext u
  simp [or_assoc]

theorem calls_left {vs : List α}
    (hvisit : ∀ v ∈ vs, ∀ {marks marks' : Marks α}, marks.Ready adj →
      visit adj stack marks v = .ok marks' → Left adj marks marks' [v])
    (hready : marks.Ready adj) (h : vs.foldlM (visit adj stack) marks = .ok marks') :
    Left adj marks marks' vs := by
  induction vs generalizing marks with
  | nil =>
    obtain rfl := Except.ok.inj h
    exact ⟨hready, rfl, by simp⟩
  | cons v vs ih =>
    rw [List.foldlM_cons] at h
    cases hfirst : visit adj stack marks v with
    | error e =>
      rw [hfirst] at h
      cases h
    | ok marks₁ =>
      rw [hfirst] at h
      have hleft := hvisit v List.mem_cons_self hready hfirst
      exact hleft.cons (ih (fun u hu => hvisit u (List.mem_cons_of_mem _ hu)) hleft.ready h)

theorem Marks.Ready.enter (h : marks.Ready adj) {v : α} (hv : v ∉ marks.visited) :
    Marks.Ready adj { marks with visiting := insert v marks.visiting } :=
  ⟨h.closed, Finset.disjoint_insert_left.2 ⟨hv, h.disjoint⟩, h.acyclic⟩

/-- A node is left after its successors: no path leads back to it. -/
theorem Left.leave {v : α} (hvisiting : v ∉ marks.visiting)
    (h : Left adj { marks with visiting := insert v marks.visiting } marks' (adj v)) :
    Left adj marks ⟨marks'.visiting.erase v, insert v marks'.visited⟩ [v] := by
  have hentered : marks'.visiting = insert v marks.visiting := h.visiting
  have hnew : v ∉ marks'.visited := fun hv =>
    Finset.disjoint_left.1 h.ready.disjoint (hentered ▸ Finset.mem_insert_self v _) hv
  have hchildren : ∀ u ∈ adj v, reach adj u ⊆ marks'.visited := by
    intro u hu w hw
    rw [h.visited]
    exact .inr (Set.mem_biUnion hu hw)
  refine ⟨⟨?_, ?_, ?_⟩, ?_, ?_⟩
  · intro w hw u hu
    rw [Finset.coe_insert] at hw ⊢
    rcases hw with rfl | hw
    · exact .inr (hchildren u hu (self_mem_reach u))
    · exact .inr (h.ready.closed w hw u hu)
  · rw [Finset.disjoint_insert_right]
    exact ⟨Finset.notMem_erase v _, h.ready.disjoint.mono_left (Finset.erase_subset _ _)⟩
  · intro w hw
    rcases Finset.mem_insert.1 hw with rfl | hw
    · intro hcycle
      obtain ⟨u, hu, hback⟩ := TransGen.head'_iff.1 hcycle
      exact hnew (hchildren u hu hback)
    · exact h.ready.acyclic w hw
  · rw [hentered, Finset.erase_insert hvisiting]
  · rw [Finset.coe_insert, h.visited]
    ext w
    simp only [List.mem_singleton, Set.iUnion_iUnion_eq_left]
    rw [reach_eq v]
    simp only [Set.mem_insert_iff, Set.mem_union, or_left_comm]

/-- A call that returns has left what its node reaches, and found no cycle there. -/
theorem visit_left {v : α} (hready : marks.Ready adj)
    (h : visit adj stack marks v = .ok marks') : Left adj marks marks' [v] := by
  induction stack generalizing marks marks' v with
  | zero => cases h
  | succ stack ih =>
    unfold visit at h
    split_ifs at h with hvisiting hvisited
    · obtain rfl := Except.ok.inj h
      refine ⟨hready, rfl, ?_⟩
      simpa using (Set.union_eq_self_of_subset_right (hready.closed.reach_subset hvisited)).symm
    · cases hcalls : (adj v).foldlM (visit adj stack)
          { marks with visiting := insert v marks.visiting } with
      | error e =>
        rw [hcalls] at h
        cases h
      | ok marks₁ =>
        rw [hcalls] at h
        obtain rfl := Except.ok.inj h
        exact (calls_left (fun u _ _ _ hr hu => ih hr hu) (hready.enter hvisited) hcalls).leave
          hvisiting

theorem search_left {roots : List α} (h : search adj stack roots = .ok marks') :
    Left adj ⟨∅, ∅⟩ marks' roots :=
  calls_left (fun _ _ _ _ hready hv => visit_left hready hv) .start h

/-- A search that returns finds no cycle among the nodes its roots reach. -/
theorem search_acyclic {roots : List α} (h : search adj stack roots = .ok marks') {v : α}
    (hv : v ∈ roots) : ¬TransGen (Edge adj) v v := by
  have hleft := search_left h
  refine hleft.ready.acyclic v ?_
  rw [← Finset.mem_coe, hleft.visited]
  exact .inr (Set.mem_biUnion hv (self_mem_reach v))

variable (stack) in
/-- Calls run out of stack exactly when they nest deeper than it. -/
theorem calls_cases (vs : List α)
    (hvisit : ∀ v ∈ vs, ∀ {marks : Marks α}, marks.Ready adj →
      (∀ a ∈ marks.visiting, TransGen (Edge adj) a v) →
      visit adj stack marks v = .error .overflow ∧ Nested adj marks.visited [v] (stack + 1) ∨
        (∃ marks', visit adj stack marks v = .ok marks') ∧
          ¬Nested adj marks.visited [v] (stack + 1))
    (hready : marks.Ready adj)
    (hpath : ∀ v ∈ vs, ∀ a ∈ marks.visiting, TransGen (Edge adj) a v) :
    vs.foldlM (visit adj stack) marks = .error .overflow ∧
        Nested adj marks.visited vs (stack + 1) ∨
      (∃ marks', vs.foldlM (visit adj stack) marks = .ok marks') ∧
        ¬Nested adj marks.visited vs (stack + 1) := by
  induction vs generalizing marks with
  | nil => exact .inr ⟨⟨marks, rfl⟩, fun h => by cases h⟩
  | cons v vs ih =>
    rw [List.foldlM_cons, nested_cons]
    rcases hvisit v List.mem_cons_self hready (hpath v List.mem_cons_self) with
      ⟨hover, hnested⟩ | ⟨⟨marks₁, hok⟩, hfits⟩
    · rw [hover]
      exact .inl ⟨rfl, .inl hnested⟩
    · have hleft := visit_left hready hok
      have hvisited : (marks₁.visited : Set α) = (marks.visited : Set α) ∪ reach adj v := by
        simpa using hleft.visited
      rw [hok, ← hvisited]
      have hrest := ih (fun u hu => hvisit u (List.mem_cons_of_mem _ hu)) hleft.ready
        fun u hu a ha => hpath u (List.mem_cons_of_mem _ hu) a (hleft.visiting ▸ ha)
      rcases hrest with ⟨hover, hnested⟩ | ⟨hok', hfits'⟩
      · exact .inl ⟨hover, .inr hnested⟩
      · exact .inr ⟨hok', fun h => h.elim hfits hfits'⟩

theorem visit_cases (hacyclic : Acyclic adj) {v : α} (hready : marks.Ready adj)
    (hpath : ∀ a ∈ marks.visiting, TransGen (Edge adj) a v) :
    visit adj stack marks v = .error .overflow ∧ Nested adj marks.visited [v] (stack + 1) ∨
      (∃ marks', visit adj stack marks v = .ok marks') ∧
        ¬Nested adj marks.visited [v] (stack + 1) := by
  induction stack generalizing marks v with
  | zero => exact .inl ⟨rfl, .here⟩
  | succ stack ih =>
    have hvisiting : v ∉ marks.visiting := fun hv => hacyclic v (hpath v hv)
    unfold visit
    rw [if_neg hvisiting]
    split_ifs with hvisited
    · refine .inr ⟨⟨marks, rfl⟩, fun h => ?_⟩
      cases h with
      | later h => cases h
      | deeper hv h => exact hv hvisited
    · have hcalls := calls_cases stack (adj v)
        (fun u _ _ hr hp => ih hr hp) (hready.enter hvisited) fun u hu a ha => ?_
      · rcases hcalls with ⟨hover, hnested⟩ | ⟨⟨marks₁, hok⟩, hfits⟩
        · rw [hover]
          exact .inl ⟨rfl, .deeper hvisited hnested⟩
        · rw [hok]
          refine .inr ⟨⟨_, rfl⟩, fun h => ?_⟩
          cases h with
          | later h => cases h
          | deeper hv h => exact hfits h
      · rcases Finset.mem_insert.1 ha with rfl | ha
        · exact .single hu
        · exact (hpath a ha).tail hu

variable (stack) in
theorem search_cases (hacyclic : Acyclic adj) (roots : List α) :
    search adj stack roots = .error .overflow ∧ Nested adj ∅ roots (stack + 1) ∨
      (∃ marks, search adj stack roots = .ok marks) ∧ ¬Nested adj ∅ roots (stack + 1) := by
  have hstart : Marks.Ready adj ⟨∅, ∅⟩ := .start
  have hcases := calls_cases stack roots (fun v _ _ hr hp => visit_cases hacyclic hr hp) hstart
    (by simp)
  rwa [Finset.coe_empty] at hcases

/-- The search of an acyclic graph returns exactly when its calls fit the stack. -/
theorem search_returns_iff (hacyclic : Acyclic adj) (roots : List α) :
    (∃ marks, search adj stack roots = .ok marks) ↔ ¬Nested adj ∅ roots (stack + 1) := by
  rcases search_cases stack hacyclic roots with ⟨hover, hnested⟩ | ⟨hok, hfits⟩
  · refine iff_of_false ?_ fun h => h hnested
    rintro ⟨marks, hok⟩
    rw [hover] at hok
    cases hok
  · exact iff_of_true hok hfits

/-- The search of an acyclic graph fails by its stack alone. -/
theorem search_overflow (hacyclic : Acyclic adj) {roots : List α}
    (h : Nested adj ∅ roots (stack + 1)) : search adj stack roots = .error .overflow := by
  rcases search_cases stack hacyclic roots with ⟨hover, -⟩ | ⟨-, hfits⟩
  · exact hover
  · exact (hfits h).elim

end Results
end DepthFirst
