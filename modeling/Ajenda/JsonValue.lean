import Mathlib.Data.Rat.Defs
import Mathlib.Data.List.Basic
import Mathlib.Tactic

/-!
# JSON documents

A document is its syntax tree. A number is the exact rational its literal denotes, or one
of the three tokens that are no JSON but that Python's and Lua's codecs read and write.
Object fields keep an order that carries no meaning; `Fields` has the dictionary operations.
-/
namespace JsonValue

inductive JsonNumber
  | finite (value : ℚ)
  | infinity (negative : Bool)
  | nan
  deriving DecidableEq, Repr

inductive Json
  | null
  | bool (b : Bool)
  | num (n : JsonNumber)
  | str (s : String)
  | arr (items : List Json)
  | obj (fields : List (String × Json))
  deriving Repr, Inhabited

abbrev Fields := List (String × Json)

mutual
def Json.decEq : (a b : Json) → Decidable (a = b)
  | .null, .null => isTrue rfl
  | .bool a, .bool b => decidable_of_iff (a = b) (by simp)
  | .num a, .num b => decidable_of_iff (a = b) (by simp)
  | .str a, .str b => decidable_of_iff (a = b) (by simp)
  | .arr a, .arr b => @decidable_of_iff _ (a = b) (by simp) (Json.decEqItems a b)
  | .obj a, .obj b => @decidable_of_iff _ (a = b) (by simp) (Json.decEqFields a b)
  | .null, .bool _ | .null, .num _ | .null, .str _ | .null, .arr _ | .null, .obj _
  | .bool _, .null | .bool _, .num _ | .bool _, .str _ | .bool _, .arr _ | .bool _, .obj _
  | .num _, .null | .num _, .bool _ | .num _, .str _ | .num _, .arr _ | .num _, .obj _
  | .str _, .null | .str _, .bool _ | .str _, .num _ | .str _, .arr _ | .str _, .obj _
  | .arr _, .null | .arr _, .bool _ | .arr _, .num _ | .arr _, .str _ | .arr _, .obj _
  | .obj _, .null | .obj _, .bool _ | .obj _, .num _ | .obj _, .str _ | .obj _, .arr _ =>
      isFalse (by simp)
def Json.decEqItems : (a b : List Json) → Decidable (a = b)
  | [], [] => isTrue rfl
  | [], _ :: _ | _ :: _, [] => isFalse (by simp)
  | a :: as, b :: bs =>
      @decidable_of_iff _ (a = b ∧ as = bs) (by simp)
        (@instDecidableAnd _ _ (Json.decEq a b) (Json.decEqItems as bs))
def Json.decEqFields : (a b : List (String × Json)) → Decidable (a = b)
  | [], [] => isTrue rfl
  | [], _ :: _ | _ :: _, [] => isFalse (by simp)
  | (k, a) :: as, (j, b) :: bs =>
      @decidable_of_iff _ (k = j ∧ a = b ∧ as = bs) (by simp [and_assoc])
        (@instDecidableAnd _ _ (instDecidableEqString k j)
          (@instDecidableAnd _ _ (Json.decEq a b) (Json.decEqFields as bs)))
end

instance : DecidableEq Json := Json.decEq

mutual
/-- The number of arrays and objects around the most deeply nested value. -/
def Json.depth : Json → ℕ
  | .arr xs => Json.depthItems xs + 1
  | .obj fs => Json.depthFields fs + 1
  | _ => 0
def Json.depthItems : List Json → ℕ
  | [] => 0
  | x :: xs => max x.depth (Json.depthItems xs)
def Json.depthFields : List (String × Json) → ℕ
  | [] => 0
  | (_, x) :: fs => max x.depth (Json.depthFields fs)
end

namespace Fields

def get : Fields → String → Option Json
  | [], _ => none
  | (j, v) :: fs, k => if j = k then some v else get fs k

/-- Assignment in a dictionary: an existing key keeps its place. -/
def set : Fields → String → Json → Fields
  | [], k, v => [(k, v)]
  | (j, w) :: fs, k, v => if j = k then (j, v) :: fs else (j, w) :: set fs k v

def pop (fs : Fields) (k : String) : Fields := fs.filter fun f => f.1 ≠ k

/-- `dict.update`. -/
def update (fs extra : Fields) : Fields := extra.foldl (fun fs f => set fs f.1 f.2) fs

@[simp] theorem get_nil (k : String) : get [] k = none := rfl

theorem get_cons (j : String) (v : Json) (fs : Fields) (k : String) :
    get ((j, v) :: fs) k = if j = k then some v else get fs k := rfl

theorem get_set (fs : Fields) (k j : String) (v : Json) :
    (set fs k v).get j = if j = k then some v else fs.get j := by
  induction fs with
  | nil => simp [set, get, eq_comm]
  | cons f fs ih =>
    obtain ⟨i, w⟩ := f
    by_cases hik : i = k
    · subst i
      by_cases hj : j = k
      · simp [set, get_cons, hj]
      · simp [set, get_cons, hj, Ne.symm hj]
    · simp only [set, if_neg hik, get_cons, ih]
      by_cases hij : i = j
      · subst i
        simp [hik]
      · simp [hij]

theorem get_pop (fs : Fields) (k j : String) :
    (pop fs k).get j = if j = k then none else fs.get j := by
  induction fs with
  | nil => simp [pop]
  | cons f fs ih =>
    obtain ⟨i, w⟩ := f
    by_cases hik : i = k
    · subst i
      have hp : pop ((k, w) :: fs) k = pop fs k := by simp [pop]
      rw [hp, ih, get_cons]
      by_cases hj : j = k
      · simp [hj]
      · simp [hj, Ne.symm hj]
    · have hp : pop ((i, w) :: fs) k = (i, w) :: pop fs k := by simp [pop, hik]
      rw [hp, get_cons, get_cons, ih]
      by_cases hij : i = j
      · subst i
        simp [hik]
      · simp [hij]

@[simp] theorem get_set_self (fs : Fields) (k : String) (v : Json) :
    (set fs k v).get k = some v := by
  simp [get_set]

theorem get_set_ne (fs : Fields) {k j : String} (v : Json) (h : j ≠ k) :
    (set fs k v).get j = fs.get j := by
  simp [get_set, h]

@[simp] theorem get_pop_self (fs : Fields) (k : String) : (pop fs k).get k = none := by
  simp [get_pop]

theorem get_pop_ne (fs : Fields) {k j : String} (h : j ≠ k) : (pop fs k).get j = fs.get j := by
  simp [get_pop, h]

theorem get_update_of_forall_ne {fs extra : Fields} {k : String} (h : ∀ f ∈ extra, f.1 ≠ k) :
    (update fs extra).get k = fs.get k := by
  unfold update
  induction extra generalizing fs with
  | nil => rfl
  | cons f extra ih =>
    rw [List.foldl_cons, ih fun g hg => h g (List.mem_cons_of_mem _ hg)]
    exact get_set_ne fs f.2 (Ne.symm (h f List.mem_cons_self))

section Assignments
variable {fs extra : Fields} {f : String × Json} {k : String} {v : Json}

theorem mem_set (h : f ∈ set fs k v) : f = (k, v) ∨ f ∈ fs := by
  induction fs with
  | nil => exact .inl (List.mem_singleton.1 h)
  | cons g fs ih =>
    obtain ⟨j, w⟩ := g
    rw [set] at h
    split_ifs at h with hj
    · rcases List.mem_cons.1 h with rfl | h
      · exact .inl (by rw [hj])
      · exact .inr (List.mem_cons_of_mem _ h)
    · rcases List.mem_cons.1 h with rfl | h
      · exact .inr List.mem_cons_self
      · exact (ih h).imp_right (List.mem_cons_of_mem _)

theorem mem_update (h : f ∈ update fs extra) : f ∈ fs ∨ f ∈ extra := by
  unfold update at h
  induction extra generalizing fs with
  | nil => exact .inl h
  | cons g extra ih =>
    rcases ih h with h | h
    · rcases mem_set h with rfl | h
      · exact .inr List.mem_cons_self
      · exact .inl h
    · exact .inr (List.mem_cons_of_mem _ h)

theorem set_of_new (h : k ∉ fs.map (·.1)) : set fs k v = fs ++ [(k, v)] := by
  induction fs with
  | nil => rfl
  | cons g fs ih =>
    obtain ⟨j, w⟩ := g
    simp only [List.map_cons, List.mem_cons, not_or] at h
    rw [set, if_neg (Ne.symm h.1), ih h.2, List.cons_append]

theorem keys_set : (set fs k v).map (·.1) =
    if k ∈ fs.map (·.1) then fs.map (·.1) else fs.map (·.1) ++ [k] := by
  induction fs with
  | nil => rfl
  | cons g fs ih =>
    obtain ⟨j, w⟩ := g
    by_cases hj : j = k
    · simp [set, hj]
    · simp only [set, if_neg hj, List.map_cons, ih, List.mem_cons, Ne.symm hj, false_or]
      split_ifs
      · rfl
      · rfl

theorem nodup_update (h : (fs.map (·.1)).Nodup) : ((update fs extra).map (·.1)).Nodup := by
  unfold update
  induction extra generalizing fs with
  | nil => exact h
  | cons g extra ih =>
    refine ih ?_
    rw [keys_set]
    split_ifs with hg
    · exact h
    · rw [List.nodup_append]
      refine ⟨h, List.nodup_singleton _, fun a ha b hb hab => hg ?_⟩
      rw [← List.mem_singleton.1 hb, ← hab]
      exact ha

/-- New fields are put after the others. -/
theorem update_of_new (h : ((fs ++ extra).map (·.1)).Nodup) : update fs extra = fs ++ extra := by
  unfold update
  induction extra generalizing fs with
  | nil => exact (List.append_nil fs).symm
  | cons g extra ih =>
    have hg : g.1 ∉ fs.map (·.1) := by
      rw [List.map_append, List.nodup_append] at h
      exact fun hmem => h.2.2 g.1 hmem g.1 List.mem_cons_self rfl
    rw [List.foldl_cons, set_of_new hg, ih (by rwa [List.append_assoc]), List.append_assoc]
    rfl

/-- The value that a key is assigned last. -/
def last : Fields → String → Option Json
  | [], _ => none
  | (j, v) :: fs, k => (last fs k).or (if j = k then some v else none)

theorem get_update : (update fs extra).get k = (last extra k).or (fs.get k) := by
  unfold update
  induction extra generalizing fs with
  | nil => rfl
  | cons g extra ih =>
    obtain ⟨j, w⟩ := g
    rw [List.foldl_cons, ih, last, Option.or_assoc, get_set]
    by_cases hj : j = k
    · simp [hj]
    · simp [hj, Ne.symm hj]

theorem last_eq_none : last fs k = none ↔ k ∉ fs.map (·.1) := by
  induction fs with
  | nil => simp [last]
  | cons g fs ih =>
    obtain ⟨j, w⟩ := g
    simp only [last, Option.or_eq_none_iff, ih, List.map_cons, List.mem_cons, not_or]
    split_ifs with hj
    · simp [hj]
    · simp [Ne.symm hj]

theorem mem_of_get (h : fs.get k = some v) : (k, v) ∈ fs := by
  induction fs with
  | nil => cases h
  | cons g fs ih =>
    obtain ⟨j, w⟩ := g
    rw [get] at h
    split_ifs at h with hj
    · obtain rfl := Option.some.inj h
      rw [hj]
      exact List.mem_cons_self
    · exact List.mem_cons_of_mem _ (ih h)

theorem get_of_mem (hnodup : (fs.map (·.1)).Nodup) (h : (k, v) ∈ fs) : fs.get k = some v := by
  induction fs with
  | nil => cases h
  | cons g fs ih =>
    obtain ⟨j, w⟩ := g
    rw [List.map_cons, List.nodup_cons] at hnodup
    rw [get]
    rcases List.mem_cons.1 h with heq | h
    · obtain ⟨rfl, rfl⟩ := Prod.mk.inj heq
      rw [if_pos rfl]
    · rw [if_neg, ih hnodup.2 h]
      rintro rfl
      exact hnodup.1 (List.mem_map.2 ⟨_, h, rfl⟩)

end Assignments

end Fields

/-- Field access on a value that may be no object, as `value.get(key)` guarded by an
`isinstance` check. -/
def Json.field (j : Json) (k : String) : Option Json :=
  match j with
  | .obj fs => Fields.get fs k
  | _ => none

/-- Python's truth value. -/
def Json.truthy : Json → Bool
  | .null => false
  | .bool b => b
  | .num n => n ≠ .finite 0
  | .str s => s ≠ ""
  | .arr xs => !xs.isEmpty
  | .obj fs => !fs.isEmpty

end JsonValue
