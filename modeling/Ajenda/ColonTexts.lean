import Mathlib.Data.String.Basic

/-!
# Texts joined by colons

A text is taken apart again at its first colon when what stands before it has none.
-/
namespace ColonTexts

theorem colon_inj {l l' r r' : List Char} (hl : ':' ∉ l) (hl' : ':' ∉ l')
    (h : l ++ ':' :: r = l' ++ ':' :: r') : l = l' ∧ r = r' := by
  induction l generalizing l' with
  | nil =>
    cases l' with
    | nil => exact ⟨rfl, (List.cons.inj h).2⟩
    | cons c l' =>
      obtain rfl := (List.cons.inj h).1
      exact absurd List.mem_cons_self hl'
  | cons c l ih =>
    cases l' with
    | nil =>
      obtain rfl := (List.cons.inj h).1
      exact absurd List.mem_cons_self hl
    | cons c' l' =>
      obtain ⟨rfl, htail⟩ := List.cons.inj h
      obtain ⟨rfl, rfl⟩ := ih (fun hmem => hl (List.mem_cons_of_mem c hmem))
        (fun hmem => hl' (List.mem_cons_of_mem c hmem)) htail
      exact ⟨rfl, rfl⟩

end ColonTexts
