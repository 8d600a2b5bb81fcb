import Passmower.Patterns.Reading

/-! A text split at the places where a pattern can be read, from left to right. -/
namespace Patterns
variable {α : Type} {separator : Pattern α} {s : List α} {pieces : List (List α)}

def splitFrom (separator : Pattern α) : Nat → List α → List α → List (List α)
  | _, piece, [] => [piece.reverse]
  | skip + 1, piece, _ :: s => splitFrom separator skip piece s
  | 0, piece, c :: s =>
      match read separator (c :: s) with
      | none => splitFrom separator 0 (c :: piece) s
      | some (texts,_) =>
          match texts.flatten.length with
          | 0 => if piece.isEmpty then splitFrom separator 0 [c] s else piece.reverse :: splitFrom separator 0 [c] s
          | skip + 1 => piece.reverse :: splitFrom separator skip [] s

def split (separator : Pattern α) (s : List α) : List (List α) :=
  if s.isEmpty && (read separator []).isSome then [] else splitFrom separator 0 [] s

def Apart (separator : Pattern α) (piece tail : List α) : Prop :=
  ∀ before after, piece = before ++ after → after ≠ [] → read separator (after ++ tail) = none

inductive Splits (separator : Pattern α) : List (List α) → List α → Prop where
  | last {piece} (apart : Apart separator piece []) : Splits separator [piece] piece
  | cons {piece texts rest pieces} (apart : Apart separator piece (texts.flatten ++ rest))
      (here : read separator (texts.flatten ++ rest) = some (texts,rest)) (tail : Splits separator pieces rest) :
      Splits separator (piece :: pieces) (piece ++ (texts.flatten ++ rest))

def Proper (separator : Pattern α) : Prop := ∀ s texts rest, read separator s = some (texts,rest) → texts.flatten ≠ []

theorem splitFromSkipped (text rest : List α) :
    splitFrom separator text.length [] (text ++ rest) = splitFrom separator 0 [] rest := by
  induction text with
  | nil => rfl
  | cons c text ih => exact ih

theorem splitFromApart {piece tail : List α} (apart : Apart separator piece tail) (taken : List α) :
    splitFrom separator 0 taken (piece ++ tail) = splitFrom separator 0 (piece.reverse ++ taken) tail := by
  induction piece generalizing taken with
  | nil => rfl
  | cons c piece ih =>
      have none : read separator (c :: (piece ++ tail)) = none := apart [] (c :: piece) rfl nofun
      have later : Apart separator piece tail := fun before after same => apart (c :: before) after (by rw [same,List.cons_append])
      simp only [List.cons_append,splitFrom,none]
      rw [ih later,List.reverse_cons,List.append_assoc,List.singleton_append]

theorem splitExact (proper : Proper separator) (splits : Splits separator pieces s) : split separator s = pieces := by
  have started : split separator s = splitFrom separator 0 [] s := by
    apply if_neg
    intro empty
    obtain ⟨-,found⟩ := Bool.and_eq_true_iff.mp empty
    obtain ⟨⟨texts,rest⟩,found⟩ := Option.isSome_iff_exists.mp found
    exact proper [] texts rest found (List.append_eq_nil_iff.mp (readSound found).2.symm).1
  rw [started]
  clear started
  induction splits with
  | @last piece apart =>
      have walked := splitFromApart apart []
      rw [List.append_nil,List.append_nil] at walked
      rw [walked,splitFrom,List.reverse_reverse]
  | @cons piece texts rest pieces apart here tail ih =>
      rw [splitFromApart apart,List.append_nil]
      cases text : texts.flatten with
      | nil => exact absurd text (proper _ _ _ here)
      | cons c text' =>
          rw [text,List.cons_append] at here
          simp only [List.cons_append,splitFrom,here,text,List.length_cons,List.reverse_reverse,splitFromSkipped]
          rw [ih]

theorem splitsExist (proper : Proper separator) (n : Nat) (piece s : List α) (short : s.length ≤ n)
    (apart : Apart separator piece s) : ∃ pieces, Splits separator pieces (piece ++ s) := by
  induction n generalizing piece s with
  | zero =>
      obtain rfl := List.length_eq_zero_iff.mp (Nat.le_zero.mp short)
      exact ⟨[piece],by rw [List.append_nil]; exact .last apart⟩
  | succ n ih =>
      cases s with
      | nil => exact ⟨[piece],by rw [List.append_nil]; exact .last apart⟩
      | cons c s =>
          cases found : read separator (c :: s) with
          | none =>
              have further : Apart separator (piece ++ [c]) s := by
                intro before after same some
                rcases List.append_eq_append_iff.mp same with ⟨front,rfl,ends⟩ | ⟨back,rfl,rfl⟩
                · cases front with
                  | nil =>
                      obtain rfl : [c] = after := ends
                      exact found
                  | cons d front =>
                      have nothing := (List.cons.inj ends).2
                      exact absurd (List.append_eq_nil_iff.mp nothing.symm).2 some
                · cases back with
                  | nil => exact found
                  | cons d back => simpa using apart before (d :: back) rfl nofun
              obtain ⟨pieces,splits⟩ := ih (piece ++ [c]) s (by simpa using short) further
              exact ⟨pieces,by simpa using splits⟩
          | some entry =>
              obtain ⟨texts,rest⟩ := entry
              have same := (readSound found).2
              have taken : 0 < texts.flatten.length := List.length_pos_of_ne_nil (proper _ _ _ found)
              have lengths := congrArg List.length same
              simp only [List.length_cons,List.length_append] at lengths short
              obtain ⟨pieces,splits⟩ := ih [] rest (by omega) fun before after same some =>
                absurd (List.append_eq_nil_iff.mp same.symm).2 some
              rw [same] at apart found ⊢
              exact ⟨piece :: pieces,.cons apart found splits⟩

theorem splitSound (proper : Proper separator) (s : List α) : Splits separator (split separator s) s := by
  obtain ⟨pieces,splits⟩ := splitsExist proper s.length [] s (Nat.le_refl _) fun before after same some =>
    absurd (List.append_eq_nil_iff.mp same.symm).2 some
  rw [splitExact (s := s) proper splits]
  exact splits

end Patterns
