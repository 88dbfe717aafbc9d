import Mathlib.Data.List.Infix
import Mathlib.Tactic

/-!
# Replacing a word in a text

`replaceAll` puts one word in the place of another, from the left and without overlaps. What lies
between the places has no occurrence of the old word, and a word that shares no letter with the new
one occurs nowhere but between them: replacing leaves no old word and makes none of the others.
-/
namespace TextReplacement

variable {α : Type*} [DecidableEq α]

/-- The text after `skip` letters of the old word that was met. -/
def replaceFrom (old new : List α) : ℕ → List α → List α
  | _, [] => []
  | skip + 1, _ :: text => replaceFrom old new skip text
  | 0, c :: text =>
    if old.isPrefixOf (c :: text) then new ++ replaceFrom old new (old.length - 1) text
    else c :: replaceFrom old new 0 text

/-- Every occurrence of a word, which is not empty, is replaced. -/
def replaceAll (old new text : List α) : List α := replaceFrom old new 0 text

/-- The text between the places has no old word. -/
inductive Replaced (old new : List α) : List α → List α → Prop
  | done (gap : List α) (clean : ¬old <:+: gap) : Replaced old new gap gap
  | hit (gap rest rest' : List α) (clean : ¬old <:+: gap) (h : Replaced old new rest rest') :
      Replaced old new (gap ++ (old ++ rest)) (gap ++ (new ++ rest'))

variable {old new word text text' : List α} {c : α}

omit [DecidableEq α] in
theorem Replaced.cons (h : Replaced old new text text') (hc : ¬old <+: c :: text) :
    Replaced old new (c :: text) (c :: text') := by
  cases h with
  | done _ clean =>
    refine .done _ fun hwithin => ?_
    rcases List.infix_cons_iff.1 hwithin with hstart | hwithin
    · exact hc hstart
    · exact clean hwithin
  | hit gap rest rest' clean h =>
    refine .hit (c :: gap) rest rest' (fun hwithin => ?_) h
    rcases List.infix_cons_iff.1 hwithin with hstart | hwithin
    · exact hc (hstart.trans (List.prefix_append (c :: gap) _))
    · exact clean hwithin

theorem replaceFrom_replaced (hold : old ≠ []) (skip : ℕ) (text : List α) :
    Replaced old new (text.drop skip) (replaceFrom old new skip text) := by
  induction text generalizing skip with
  | nil =>
    rw [List.drop_nil, replaceFrom]
    exact .done [] fun h => hold (List.infix_nil.1 h)
  | cons c text ih =>
    cases skip with
    | succ skip => exact ih skip
    | zero =>
      rw [List.drop_zero, replaceFrom]
      split_ifs with hstart
      · obtain ⟨rest, hrest⟩ := List.isPrefixOf_iff_prefix.1 hstart
        obtain ⟨a, old', rfl⟩ := List.exists_cons_of_ne_nil hold
        have htext : text.drop ((a :: old').length - 1) = rest := by
          obtain rfl := (List.cons.inj hrest).2
          simp
        have hrest' := ih ((a :: old').length - 1)
        rw [htext] at hrest'
        rw [← hrest]
        exact .hit [] rest _ (fun h => hold (List.infix_nil.1 h)) hrest'
      · exact (ih 0).cons fun h => hstart (List.isPrefixOf_iff_prefix.2 h)

theorem replaceAll_replaced (hold : old ≠ []) (text : List α) :
    Replaced old new text (replaceAll old new text) :=
  replaceFrom_replaced hold 0 text

omit [DecidableEq α] in
/-- A word without a letter of the new one is not in it and does not reach over it. -/
theorem infix_around (hnew : new ≠ []) (hapart : ∀ c ∈ word, c ∉ new) (before after : List α)
    (h : word <:+: before ++ (new ++ after)) : word <:+: before ∨ word <:+: after := by
  have houtside : ∀ part : List α, part ≠ [] → part ⊆ word → ¬part ⊆ new := by
    intro part hpart hword hin
    obtain ⟨c, part', rfl⟩ := List.exists_cons_of_ne_nil hpart
    exact hapart c (hword List.mem_cons_self) (hin List.mem_cons_self)
  by_cases hword : word = []
  · subst hword
    exact .inl List.nil_infix
  rcases List.infix_append_iff_ne_nil.1 h with h | h | ⟨left, right, -, hright, rfl, -, hstart⟩
  · exact .inl h
  · rcases List.infix_append_iff_ne_nil.1 h with h | h | ⟨left, right, hleft, -, rfl, hend, -⟩
    · exact absurd h.subset (houtside word hword (List.Subset.refl _))
    · exact .inr h
    · exact absurd hend.subset (houtside left hleft (List.subset_append_left _ _))
  -- the part that reaches the new word starts with its first letter
  · obtain ⟨n, new', rfl⟩ := List.exists_cons_of_ne_nil hnew
    obtain ⟨c, right', rfl⟩ := List.exists_cons_of_ne_nil hright
    rw [List.cons_append, List.cons_prefix_cons] at hstart
    obtain rfl := hstart.1
    exact absurd List.mem_cons_self (hapart c (List.mem_append_right _ List.mem_cons_self))

section Words
variable (hnew : new ≠ [])
include hnew

omit [DecidableEq α] in
/-- No old word is left. -/
theorem Replaced.no_old (hapart : ∀ c ∈ old, c ∉ new) (h : Replaced old new text text') :
    ¬old <:+: text' := by
  induction h with
  | done _ clean => exact clean
  | hit gap rest rest' clean _ ih =>
    intro hwithin
    rcases infix_around hnew hapart gap rest' hwithin with hwithin | hwithin
    · exact clean hwithin
    · exact ih hwithin

omit [DecidableEq α] in
/-- No other word comes up. -/
theorem Replaced.no_other (hapart : ∀ c ∈ word, c ∉ new) (h : Replaced old new text text')
    (hword : ¬word <:+: text) : ¬word <:+: text' := by
  induction h with
  | done _ _ => exact hword
  | hit gap rest rest' _ _ ih =>
    intro hwithin
    rcases infix_around hnew hapart gap rest' hwithin with hwithin | hwithin
    · exact hword (hwithin.trans (List.prefix_append _ _).isInfix)
    · refine ih (fun hrest => hword ?_) hwithin
      exact hrest.trans ((List.suffix_append _ _).trans (List.suffix_append _ _)).isInfix

end Words

omit [DecidableEq α] in
/-- A text without the old word stays as it is. -/
theorem Replaced.same (h : Replaced old new text text') (hold : ¬old <:+: text) :
    text' = text := by
  cases h with
  | done _ _ => rfl
  | hit gap rest rest' _ _ =>
    refine absurd ?_ hold
    exact (List.prefix_append old rest).isInfix.trans (List.suffix_append _ _).isInfix

end TextReplacement
