import Mathlib.Data.List.Infix
import Mathlib.Data.List.Basic

/-! Texts split at a separator: when a text contains a word, told from the pieces between the separators. -/
namespace Tokens
variable {α : Type} [DecidableEq α] {separator : α} {word text : List α}

theorem splitCons (separator c : α) (text : List α) : ∃ first others, text.splitOn separator = first :: others ∧
    (c :: text).splitOn separator = if c = separator then [] :: first :: others else (c :: first) :: others := by
  obtain ⟨first,others,shape⟩ := List.exists_cons_of_ne_nil (List.splitOn_ne_nil separator text)
  refine ⟨first,others,shape,?_⟩
  rw [List.splitOn_cons_eq_if_modifyHead,shape]
  by_cases same : c = separator <;> simp [same]

theorem prefixSplit (plain : separator ∉ word) {first : List α} {others : List (List α)}
    (split : text.splitOn separator = first :: others) : word <+: text ↔ word <+: first := by
  induction text generalizing word first others with
  | nil =>
      rw [List.splitOn_nil] at split
      cases split
      exact Iff.rfl
  | cons c text ih =>
      obtain ⟨head,tail,shape,cut⟩ := splitCons separator c text
      rw [cut] at split
      cases word with
      | nil => simp
      | cons letter word =>
          simp only [List.mem_cons,not_or] at plain
          obtain ⟨different,plain⟩ := plain
          by_cases same : c = separator
          · rw [if_pos same] at split
            cases split
            simp only [List.cons_prefix_cons,List.prefix_nil,reduceCtorEq,iff_false]
            exact fun start => different (same ▸ start.1.symm)
          · rw [if_neg same] at split
            cases split
            simp only [List.cons_prefix_cons,ih plain shape]

theorem infixSplit (plain : separator ∉ word) :
    word <:+: text ↔ ∃ piece ∈ text.splitOn separator, word <:+: piece := by
  induction text with
  | nil => simp [List.splitOn_nil]
  | cons c text ih =>
      obtain ⟨head,tail,shape,cut⟩ := splitCons separator c text
      have start := prefixSplit plain shape
      rw [List.infix_cons_iff,ih,cut,shape]
      by_cases same : c = separator
      · rw [if_pos same]
        cases word with
        | nil => simp
        | cons letter word =>
            have different : letter ≠ separator := fun eq => plain (eq ▸ List.mem_cons_self)
            simp [same,different]
      · rw [if_neg same]
        cases word with
        | nil => simp
        | cons letter word =>
            have rest := prefixSplit (fun inside => plain (List.mem_cons_of_mem _ inside)) shape
            simp only [List.mem_cons,exists_eq_or_imp,List.infix_cons_iff,List.cons_prefix_cons,rest]
            rw [or_assoc]

theorem afterSeparator (plain : separator ∉ word) :
    (separator :: word) <:+: text ↔ ∃ piece ∈ (text.splitOn separator).tail, word <+: piece := by
  induction text with
  | nil => simp [List.splitOn_nil]
  | cons c text ih =>
      obtain ⟨head,tail,shape,cut⟩ := splitCons separator c text
      rw [List.infix_cons_iff,ih,cut,shape,List.cons_prefix_cons,prefixSplit plain shape]
      by_cases same : c = separator
      · simp [same]
      · simp [same,Ne.symm same]

end Tokens
