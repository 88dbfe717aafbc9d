import Mathlib.Data.List.Basic
import Mathlib.Data.List.Nodup
import Mathlib.Logic.Function.Iterate
import Mathlib.Tactic.Common

/-!
# Failure propagation in a dependency graph

The nodes of a graph wait, have failed, or are held because something below them failed. One
pass admits the held nodes that are ready again and then holds every waiting node with a
failing key among its dependencies. Passes repeat as long as they hold a node. Whether a node
is ready does not depend on what is held, so it is a column of the node.
-/
namespace FailurePropagation

inductive Phase
  | waiting | held | failed | inert
  deriving DecidableEq

def Phase.failing : Phase → Bool
  | .held | .failed => true
  | _ => false

structure Node (ι κ : Type*) where
  id : ι
  key : Option κ
  deps : List κ
  ready : Bool
  phase : Phase

variable {ι κ : Type*}

/-! ## One pass -/

def Node.freed (n : Node ι κ) : Node ι κ :=
  if n.phase = .held ∧ n.ready = true then { n with phase := .waiting } else n

/-- Some failing node is filed under the key. -/
def Failing (nodes : List (Node ι κ)) (k : κ) : Prop :=
  ∃ n ∈ nodes, n.phase.failing = true ∧ n.key = some k

/-- A waiting node above a failure. -/
def Impossible (nodes : List (Node ι κ)) (n : Node ι κ) : Prop :=
  n.phase = .waiting ∧ ∃ d ∈ n.deps, Failing nodes d

open Classical in
noncomputable def Node.hold (nodes : List (Node ι κ)) (n : Node ι κ) : Node ι κ :=
  if Impossible nodes n then { n with phase := .held } else n

def admitted (nodes : List (Node ι κ)) : List (Node ι κ) := nodes.map Node.freed

noncomputable def held (nodes : List (Node ι κ)) : List (Node ι κ) :=
  nodes.map (Node.hold nodes)

noncomputable def pass (nodes : List (Node ι κ)) : List (Node ι κ) := held (admitted nodes)

/-- Passes from the first list end in the second, where nothing is left to hold. -/
inductive SettlesTo : List (Node ι κ) → List (Node ι κ) → Prop
  | last {nodes : List (Node ι κ)} (hnone : ∀ n ∈ admitted nodes, ¬Impossible (admitted nodes) n) :
      SettlesTo nodes (admitted nodes)
  | again {nodes nodes' : List (Node ι κ)}
      (hsome : ∃ n ∈ admitted nodes, Impossible (admitted nodes) n)
      (hrest : SettlesTo (pass nodes) nodes') : SettlesTo nodes nodes'

/-! ## Lost keys -/

/-- A node that is waiting or about to wait. -/
def Node.Open (n : Node ι κ) : Prop := n.phase = .waiting ∨ n.phase = .held ∧ n.ready = true

/-- A node that has failed for good. -/
def Node.Dead (n : Node ι κ) : Prop := n.phase = .failed ∨ n.phase = .held ∧ n.ready = false

/-- The keys that fail whatever is admitted again. -/
inductive Lost (nodes : List (Node ι κ)) : κ → Prop
  | dead {n : Node ι κ} {k : κ} (hn : n ∈ nodes) (hdead : n.Dead) (hkey : n.key = some k) :
      Lost nodes k
  | above {n : Node ι κ} {d k : κ} (hn : n ∈ nodes) (hwaiting : n.phase = .waiting)
      (hready : n.ready = false) (hd : d ∈ n.deps) (hlost : Lost nodes d)
      (hkey : n.key = some k) : Lost nodes k

/-- Some node above a lost key would always be admitted again. -/
def Torn (nodes : List (Node ι κ)) : Prop :=
  ∃ n ∈ nodes, n.Open ∧ n.ready = true ∧ ∃ d ∈ n.deps, Lost nodes d

section Columns
variable (nodes : List (Node ι κ)) (n : Node ι κ)

@[simp] theorem freed_id : n.freed.id = n.id := by unfold Node.freed; split_ifs <;> rfl
@[simp] theorem freed_key : n.freed.key = n.key := by unfold Node.freed; split_ifs <;> rfl
@[simp] theorem freed_deps : n.freed.deps = n.deps := by unfold Node.freed; split_ifs <;> rfl
@[simp] theorem freed_ready : n.freed.ready = n.ready := by unfold Node.freed; split_ifs <;> rfl

@[simp] theorem hold_id : (n.hold nodes).id = n.id := by unfold Node.hold; split_ifs <;> rfl
@[simp] theorem hold_key : (n.hold nodes).key = n.key := by unfold Node.hold; split_ifs <;> rfl
@[simp] theorem hold_deps : (n.hold nodes).deps = n.deps := by unfold Node.hold; split_ifs <;> rfl
@[simp] theorem hold_ready : (n.hold nodes).ready = n.ready := by
  unfold Node.hold; split_ifs <;> rfl

variable {nodes n}

theorem freed_of_ready (hphase : n.phase = .held) (hready : n.ready = true) :
    n.freed.phase = .waiting := by
  simp [Node.freed, hphase, hready]

theorem freed_of_ne (h : n.phase ≠ .held) : n.freed = n := by simp [Node.freed, h]

theorem freed_of_not_ready (h : n.ready = false) : n.freed = n := by simp [Node.freed, h]

/-- After admission the held nodes are not ready. -/
theorem freed_held (h : n.freed.phase = .held) : n.ready = false := by
  by_contra hready
  rw [Bool.not_eq_false] at hready
  by_cases hphase : n.phase = .held
  · rw [freed_of_ready hphase hready] at h
    cases h
  · rw [freed_of_ne hphase] at h
    exact hphase h

theorem open_freed : n.freed.Open ↔ n.Open := by
  unfold Node.freed Node.Open
  split_ifs with h
  · simp [h]
  · rfl

theorem freed_dead : n.freed.Dead ↔ n.Dead := by
  unfold Node.freed Node.Dead
  split_ifs with h
  · simp [h]
  · rfl

theorem hold_of_impossible (h : Impossible nodes n) : (n.hold nodes).phase = .held := by
  simp [Node.hold, h]

theorem hold_of_not_impossible (h : ¬Impossible nodes n) : n.hold nodes = n := by
  simp [Node.hold, h]

theorem open_of_hold (h : (n.hold nodes).Open) : n.Open := by
  by_cases himpossible : Impossible nodes n
  · exact .inl himpossible.1
  · rwa [hold_of_not_impossible himpossible] at h

end Columns

/-! ## What a pass does to lost keys -/

section Passes
variable {nodes : List (Node ι κ)} {k : κ}

theorem mem_admitted {m : Node ι κ} : m ∈ admitted nodes ↔ ∃ n ∈ nodes, n.freed = m :=
  List.mem_map

theorem mem_held {m : Node ι κ} : m ∈ held nodes ↔ ∃ n ∈ nodes, n.hold nodes = m := List.mem_map

/-- No held node is ready. -/
def Clear (nodes : List (Node ι κ)) : Prop := ∀ n ∈ nodes, n.phase = .held → n.ready = false

theorem clear_admitted (nodes : List (Node ι κ)) : Clear (admitted nodes) := by
  intro m hm hphase
  obtain ⟨n, hn, rfl⟩ := mem_admitted.1 hm
  rw [freed_ready]
  exact freed_held hphase

theorem waiting_of_open (hclear : Clear nodes) {n : Node ι κ} (hn : n ∈ nodes) (h : n.Open) :
    n.phase = .waiting := by
  rcases h with h | ⟨hphase, hready⟩
  · exact h
  · rw [hclear n hn hphase] at hready
    cases hready

theorem lost_admitted : Lost (admitted nodes) k ↔ Lost nodes k := by
  constructor
  · intro h
    induction h with
    | dead hm hdead hkey =>
      obtain ⟨n, hn, rfl⟩ := mem_admitted.1 hm
      exact .dead hn (freed_dead.1 hdead) (by simpa using hkey)
    | above hm hwaiting hready hd _ hkey ih =>
      obtain ⟨n, hn, rfl⟩ := mem_admitted.1 hm
      rw [freed_ready] at hready
      rw [freed_of_not_ready hready] at hwaiting hd hkey
      exact .above hn hwaiting hready hd ih hkey
  · intro h
    induction h with
    | dead hn hdead hkey =>
      exact .dead (mem_admitted.2 ⟨_, hn, rfl⟩) (freed_dead.2 hdead) (by simpa using hkey)
    | above hn hwaiting hready hd _ hkey ih =>
      have hmem := mem_admitted.2 ⟨_, hn, rfl⟩
      rw [freed_of_not_ready hready] at hmem
      exact .above hmem hwaiting hready hd ih hkey

theorem torn_admitted : Torn (admitted nodes) ↔ Torn nodes := by
  constructor
  · rintro ⟨m, hm, hopen, hready, d, hd, hlost⟩
    obtain ⟨n, hn, rfl⟩ := mem_admitted.1 hm
    exact ⟨n, hn, open_freed.1 hopen, by simpa using hready, d, by simpa using hd,
      lost_admitted.1 hlost⟩
  · rintro ⟨n, hn, hopen, hready, d, hd, hlost⟩
    exact ⟨n.freed, mem_admitted.2 ⟨n, hn, rfl⟩, open_freed.2 hopen, by simpa using hready, d,
      by simpa using hd, lost_admitted.2 hlost⟩

/-- Once the ready nodes are admitted, what fails is lost. -/
theorem lost_of_failing (hclear : Clear nodes) (h : Failing nodes k) : Lost nodes k := by
  obtain ⟨n, hn, hphase, hkey⟩ := h
  refine .dead hn ?_ hkey
  cases hn' : n.phase with
  | held => exact .inr ⟨hn', hclear n hn hn'⟩
  | failed => exact .inl hn'
  | waiting => simp [hn', Phase.failing] at hphase
  | inert => simp [hn', Phase.failing] at hphase

theorem failing_of_dead {n : Node ι κ} (hn : n ∈ nodes) (hdead : n.Dead) (hkey : n.key = some k) :
    Failing nodes k := by
  refine ⟨n, hn, ?_, hkey⟩
  rcases hdead with h | ⟨h, -⟩ <;> simp [h, Phase.failing]

/-- Where nothing is left to hold, every lost key fails. -/
theorem failing_of_lost (hnone : ∀ n ∈ nodes, ¬Impossible nodes n) (h : Lost nodes k) :
    Failing nodes k := by
  induction h with
  | dead hn hdead hkey => exact failing_of_dead hn hdead hkey
  | above hn hwaiting _ hd _ _ ih => exact absurd ⟨hwaiting, _, hd, ih⟩ (hnone _ hn)

/-- Holding nodes loses no lost key. -/
theorem Lost.held (h : Lost nodes k) : Lost (held nodes) k := by
  induction h with
  | @dead n k hn hdead hkey =>
    have hsame : n.hold nodes = n := by
      refine hold_of_not_impossible fun himpossible => ?_
      rcases hdead with h | ⟨h, -⟩ <;> rw [himpossible.1] at h <;> cases h
    exact .dead (mem_held.2 ⟨n, hn, hsame⟩) hdead hkey
  | @above n d k hn hwaiting hready hd _ hkey ih =>
    by_cases himpossible : Impossible nodes n
    · refine .dead (mem_held.2 ⟨n, hn, rfl⟩) (.inr ⟨hold_of_impossible himpossible, ?_⟩) ?_
      · rw [hold_ready, hready]
      · rw [hold_key, hkey]
    · exact .above (mem_held.2 ⟨n, hn, hold_of_not_impossible himpossible⟩) hwaiting hready hd ih
        hkey

theorem Torn.held (h : Torn nodes) : Torn (held nodes) := by
  obtain ⟨n, hn, hopen, hready, d, hd, hlost⟩ := h
  refine ⟨n.hold nodes, mem_held.2 ⟨n, hn, rfl⟩, ?_, by simpa using hready, d, by simpa using hd,
    hlost.held⟩
  by_cases himpossible : Impossible nodes n
  · exact .inr ⟨hold_of_impossible himpossible, by simpa using hready⟩
  · rwa [hold_of_not_impossible himpossible]

/-- In a list that is not torn, holding nodes loses no other key either. -/
theorem lost_of_held (hclear : Clear nodes) (htorn : ¬Torn nodes) (h : Lost (held nodes) k) :
    Lost nodes k := by
  induction h with
  | dead hm hdead hkey =>
    obtain ⟨n, hn, rfl⟩ := mem_held.1 hm
    rw [hold_key] at hkey
    by_cases himpossible : Impossible nodes n
    · obtain ⟨hwaiting, d, hd, hfailing⟩ := himpossible
      have hlost := lost_of_failing hclear hfailing
      have hready : n.ready = false := by
        by_contra hready
        exact htorn ⟨n, hn, .inl hwaiting, by simpa using hready, d, hd, hlost⟩
      exact .above hn hwaiting hready hd hlost hkey
    · rw [hold_of_not_impossible himpossible] at hdead
      exact .dead hn hdead hkey
  | above hm hwaiting hready hd _ hkey ih =>
    obtain ⟨n, hn, rfl⟩ := mem_held.1 hm
    rw [hold_ready] at hready
    rw [hold_deps] at hd
    rw [hold_key] at hkey
    by_cases himpossible : Impossible nodes n
    · rw [hold_of_impossible himpossible] at hwaiting
      cases hwaiting
    · rw [hold_of_not_impossible himpossible] at hwaiting
      exact .above hn hwaiting hready hd ih hkey

theorem torn_of_held (hclear : Clear nodes) (h : Torn (held nodes)) : Torn nodes := by
  by_contra htorn
  obtain ⟨m, hm, hopen, hready, d, hd, hlost⟩ := h
  obtain ⟨n, hn, rfl⟩ := mem_held.1 hm
  exact htorn ⟨n, hn, open_of_hold hopen, by simpa using hready, d, by simpa using hd,
    lost_of_held hclear htorn hlost⟩

theorem torn_pass : Torn (pass nodes) ↔ Torn nodes := by
  have hheld : Torn (pass nodes) ↔ Torn (admitted nodes) :=
    ⟨torn_of_held (clear_admitted nodes), Torn.held⟩
  exact hheld.trans torn_admitted

theorem lost_pass (htorn : ¬Torn nodes) : Lost (pass nodes) k ↔ Lost nodes k := by
  rw [← torn_admitted] at htorn
  have hheld : Lost (pass nodes) k ↔ Lost (admitted nodes) k :=
    ⟨lost_of_held (clear_admitted nodes) htorn, Lost.held⟩
  exact hheld.trans lost_admitted

end Passes

section Termination
variable {nodes nodes' : List (Node ι κ)}

open Classical in
/-- The number of open nodes. -/
noncomputable def openCount (nodes : List (Node ι κ)) : ℕ := nodes.countP fun n => n.Open

open Classical in
theorem openCount_admitted (nodes : List (Node ι κ)) :
    openCount (admitted nodes) = openCount nodes := by
  simp only [openCount, admitted, List.countP_map, Function.comp_def, open_freed]

theorem openCount_held_lt (hclear : Clear nodes) (htorn : ¬Torn nodes)
    (hsome : ∃ n ∈ nodes, Impossible nodes n) : openCount (held nodes) < openCount nodes := by
  classical
  obtain ⟨n, hn, himpossible⟩ := hsome
  have hclosed : ∀ m ∈ nodes, Impossible nodes m → ¬(m.hold nodes).Open := by
    intro m hm ⟨hwaiting, d, hd, hfailing⟩ hopen
    have hlost := lost_of_failing hclear hfailing
    rcases hopen with h | ⟨-, hready⟩
    · rw [hold_of_impossible ⟨hwaiting, d, hd, hfailing⟩] at h
      cases h
    · rw [hold_ready] at hready
      exact htorn ⟨m, hm, .inl hwaiting, hready, d, hd, hlost⟩
  obtain ⟨before, after, rfl⟩ := List.append_of_mem hn
  have hle : ∀ l : List (Node ι κ), (l.map (Node.hold (before ++ n :: after))).countP
      (fun n => n.Open) ≤ l.countP fun n => n.Open := by
    intro l
    rw [List.countP_map]
    apply List.countP_mono_left
    intro m _ hm
    simpa using open_of_hold (by simpa using hm)
  simp only [openCount, held, List.map_append, List.map_cons, List.countP_append, List.countP_cons]
  have hbefore := hle before
  have hafter := hle after
  have hlast : ¬(n.hold (before ++ n :: after)).Open := hclosed n (by simp) himpossible
  have hfirst : n.Open := .inl himpossible.1
  simp only [hlast, hfirst, decide_true, decide_false, if_true, Bool.false_eq_true, if_false]
  omega

theorem settles_of_not_torn (htorn : ¬Torn nodes) : ∃ nodes', SettlesTo nodes nodes' := by
  induction hcount : openCount nodes using Nat.strongRecOn generalizing nodes with
  | ind count ih =>
    by_cases hsome : ∃ n ∈ admitted nodes, Impossible (admitted nodes) n
    · have hless := openCount_held_lt (clear_admitted nodes) (torn_admitted.not.2 htorn) hsome
      rw [openCount_admitted, hcount] at hless
      obtain ⟨nodes', hrest⟩ := ih _ hless (torn_pass.not.2 htorn) rfl
      exact ⟨nodes', .again hsome hrest⟩
    · push Not at hsome
      exact ⟨_, .last hsome⟩

/-- In a torn list every pass has a node to hold. -/
theorem Torn.impossible (h : Torn nodes) :
    ∃ n ∈ admitted nodes, Impossible (admitted nodes) n := by
  by_contra hnone
  push Not at hnone
  rw [← torn_admitted] at h
  obtain ⟨n, hn, hopen, -, d, hd, hlost⟩ := h
  exact hnone n hn ⟨waiting_of_open (clear_admitted _) hn hopen, d, hd,
    failing_of_lost hnone hlost⟩

/-- In a list that is not torn no ready node is held. -/
theorem not_impossible_of_ready (htorn : ¬Torn nodes) {n : Node ι κ} (hn : n ∈ admitted nodes)
    (hready : n.ready = true) : ¬Impossible (admitted nodes) n := by
  rintro ⟨hwaiting, d, hd, hfailing⟩
  rw [← torn_admitted] at htorn
  exact htorn ⟨n, hn, .inl hwaiting, hready, d, hd, lost_of_failing (clear_admitted nodes) hfailing⟩

theorem SettlesTo.not_torn (h : SettlesTo nodes nodes') : ¬Torn nodes := by
  induction h with
  | last hnone =>
    intro htorn
    obtain ⟨n, hn, himpossible⟩ := htorn.impossible
    exact hnone n hn himpossible
  | again _ _ ih => rwa [torn_pass] at ih

/-- Passes come to an end exactly where no open node above a lost key is ready. -/
theorem settles_iff : (∃ nodes', SettlesTo nodes nodes') ↔ ¬Torn nodes :=
  ⟨fun ⟨_, h⟩ => h.not_torn, settles_of_not_torn⟩

end Termination

/-! ## What becomes of a node -/

section Outcome
variable {nodes nodes' : List (Node ι κ)} {n : Node ι κ}

/-- An open node above a lost key. -/
def Doomed (nodes : List (Node ι κ)) (n : Node ι κ) : Prop :=
  n.Open ∧ ∃ d ∈ n.deps, Lost nodes d

open Classical in
/-- The node as the last pass leaves it. -/
noncomputable def outcome (nodes : List (Node ι κ)) (n : Node ι κ) : Node ι κ :=
  if Doomed nodes n then { n with phase := .held } else n.freed

theorem outcome_pass (htorn : ¬Torn nodes) (hn : n ∈ nodes) :
    outcome (pass nodes) (n.freed.hold (admitted nodes)) = outcome nodes n := by
  have hclear := clear_admitted nodes
  have hmem : n.freed ∈ admitted nodes := mem_admitted.2 ⟨n, hn, rfl⟩
  have hready : (∃ d ∈ n.deps, Lost nodes d) → n.Open → n.ready = false := by
    intro ⟨d, hd, hlost⟩ hopen
    by_contra hready
    exact htorn ⟨n, hn, hopen, by simpa using hready, d, hd, hlost⟩
  by_cases himpossible : Impossible (admitted nodes) n.freed
  · obtain ⟨hwaiting, d, hd, hfailing⟩ := himpossible
    rw [freed_deps] at hd
    have hlost := lost_admitted.1 (lost_of_failing hclear hfailing)
    have hopen : n.Open := open_freed.1 (.inl hwaiting)
    have hdoomed : Doomed nodes n := ⟨hopen, d, hd, hlost⟩
    have hnot := hready ⟨d, hd, hlost⟩ hopen
    have hstays : n.freed.hold (admitted nodes) = { n with phase := .held } := by
      rw [Node.hold, if_pos ⟨hwaiting, d, by simpa using hd, hfailing⟩, freed_of_not_ready hnot]
    have hsettled : ¬Doomed (pass nodes) { n with phase := .held } := by
      rintro ⟨h | ⟨-, h⟩, -⟩
      · cases h
      · rw [show n.ready = true from h] at hnot
        cases hnot
    rw [hstays, outcome, if_neg hsettled, outcome, if_pos hdoomed]
    exact freed_of_not_ready hnot
  · rw [hold_of_not_impossible himpossible]
    have hsame : Doomed (pass nodes) n.freed ↔ Doomed nodes n := by
      simp only [Doomed, open_freed, freed_deps, lost_pass htorn]
    have hidem : n.freed.freed = n.freed := by
      by_cases hphase : n.freed.phase = .held
      · exact freed_of_not_ready (by rw [freed_ready]; exact freed_held hphase)
      · exact freed_of_ne hphase
    rw [outcome, outcome]
    by_cases hdoomed : Doomed nodes n
    · rw [if_pos hdoomed, if_pos (hsame.2 hdoomed)]
      rw [freed_of_not_ready (hready hdoomed.2 hdoomed.1)]
    · rw [if_neg hdoomed, if_neg (hsame.not.2 hdoomed), hidem]

/-- Where passes settle: the doomed nodes are held, the others as the first pass admits them. -/
theorem SettlesTo.eq_outcome (h : SettlesTo nodes nodes') : nodes' = nodes.map (outcome nodes) := by
  induction h with
  | @last nodes hnone =>
    refine List.map_congr_left fun n hn => ?_
    rw [outcome, if_neg]
    rintro ⟨hopen, d, hd, hlost⟩
    have hmem : n.freed ∈ admitted nodes := mem_admitted.2 ⟨n, hn, rfl⟩
    exact hnone _ hmem ⟨waiting_of_open (clear_admitted nodes) hmem (open_freed.2 hopen), d,
      by simpa using hd, failing_of_lost hnone (lost_admitted.2 hlost)⟩
  | @again nodes nodes' _ hrest ih =>
    have htorn : ¬Torn nodes := torn_pass.not.1 hrest.not_torn
    rw [ih, pass, held, admitted, List.map_map, List.map_map]
    refine List.map_congr_left fun n hn => ?_
    exact outcome_pass htorn hn

theorem freed_failing : n.freed.phase.failing = true ↔ n.Dead := by
  rw [← freed_dead, Node.Dead]
  cases hphase : n.freed.phase with
  | held => simpa [Phase.failing] using freed_held hphase
  | failed => simp [Phase.failing]
  | waiting => simp [Phase.failing]
  | inert => simp [Phase.failing]

theorem freed_waiting : n.freed.phase = .waiting ↔ n.Open := by
  rw [← open_freed, Node.Open]
  refine ⟨Or.inl, ?_⟩
  rintro (h | ⟨h, hready⟩)
  · exact h
  · rw [freed_ready, freed_held h] at hready
    cases hready

/-- A node ends failing when it was dead or doomed. -/
theorem outcome_failing : (outcome nodes n).phase.failing = true ↔ n.Dead ∨ Doomed nodes n := by
  unfold outcome
  split_ifs with h
  · simp [Phase.failing, h]
  · simp [freed_failing, h]

/-- A node ends waiting when it was open and not doomed. -/
theorem outcome_waiting : (outcome nodes n).phase = .waiting ↔ n.Open ∧ ¬Doomed nodes n := by
  unfold outcome
  split_ifs with h
  · simp [h]
  · simp [freed_waiting, h]

/-- In a list that is not torn the keys of dead and doomed nodes are lost. -/
theorem lost_key (htorn : ¬Torn nodes) (hn : n ∈ nodes) (h : n.Dead ∨ Doomed nodes n) {k : κ}
    (hkey : n.key = some k) : Lost nodes k := by
  rcases h with hdead | ⟨hopen, d, hd, hlost⟩
  · exact .dead hn hdead hkey
  · have hready : n.ready = false := by
      by_contra hready
      exact htorn ⟨n, hn, hopen, by simpa using hready, d, hd, hlost⟩
    rcases hopen with hwaiting | ⟨-, habsurd⟩
    · exact .above hn hwaiting hready hd hlost hkey
    · rw [hready] at habsurd
      cases habsurd

end Outcome

/-! ## No way back -/

section Back
variable {nodes : List (Node ι κ)}

/-- After any number of passes a node has the columns it started with, and is open only if it
was. -/
theorem mem_passes {k : ℕ} {m : Node ι κ} (hm : m ∈ pass^[k] nodes) :
    ∃ n ∈ nodes, m.id = n.id ∧ m.deps = n.deps ∧ m.ready = n.ready ∧ (m.Open → n.Open) := by
  induction k generalizing m with
  | zero => exact ⟨m, hm, rfl, rfl, rfl, id⟩
  | succ k ih =>
    rw [Function.iterate_succ_apply'] at hm
    obtain ⟨m', hm', rfl⟩ := mem_held.1 hm
    obtain ⟨m₀, hm₀, rfl⟩ := mem_admitted.1 hm'
    obtain ⟨n, hn, hid, hdeps, hready, hopen⟩ := ih hm₀
    refine ⟨n, hn, by simpa using hid, by simpa using hdeps, by simpa using hready, fun h => ?_⟩
    exact hopen (open_freed.1 (open_of_hold h))

theorem passes_torn {k : ℕ} : Torn (pass^[k] nodes) ↔ Torn nodes := by
  induction k with
  | zero => rfl
  | succ k ih => rw [Function.iterate_succ_apply', torn_pass, ih]

theorem passes_lost (htorn : ¬Torn nodes) {k : ℕ} {key : κ} :
    Lost (pass^[k] nodes) key ↔ Lost nodes key := by
  induction k with
  | zero => rfl
  | succ k ih => rw [Function.iterate_succ_apply', lost_pass (passes_torn.not.2 htorn), ih]

/-- Where passes come to an end, no node is both admitted and held again. -/
theorem not_back (htorn : ¬Torn nodes) (hids : (nodes.map Node.id).Nodup) {j k : ℕ}
    {m m' : Node ι κ} (hm : m ∈ pass^[j] nodes) (hheld : m.phase = .held) (hready : m.ready = true)
    (hm' : m' ∈ admitted (pass^[k] nodes)) (himpossible : Impossible (admitted (pass^[k] nodes)) m') :
    m.id ≠ m'.id := by
  intro heq
  obtain ⟨n, hn, hid, -, hready₀, hopen⟩ := mem_passes hm
  obtain ⟨m₀, hm₀, rfl⟩ := mem_admitted.1 hm'
  obtain ⟨n', hn', hid', hdeps', -, -⟩ := mem_passes hm₀
  rw [freed_id] at heq
  obtain rfl : n = n' := List.inj_on_of_nodup_map hids hn hn' (hid.symm.trans (heq.trans hid'))
  obtain ⟨-, d, hd, hfailing⟩ := himpossible
  rw [freed_deps, hdeps'] at hd
  have hlost := lost_admitted.1 (lost_of_failing (clear_admitted _) hfailing)
  exact htorn ⟨n, hn, hopen (.inr ⟨hheld, hready⟩), hready₀ ▸ hready, d, hd,
    (passes_lost htorn).1 hlost⟩

end Back

end FailurePropagation
