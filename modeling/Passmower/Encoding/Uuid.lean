import Mathlib.Data.List.TakeWhile
import Passmower.Encoding.JsonWriting

/-! UUIDs as they are printed, and that none is JSON: a number has one sign in it at most. -/
namespace Encoding

structure Uuid where
  digits : List (Fin 16)
  full : digits.length = 32
  deriving DecidableEq

def hexText (digits : List (Fin 16)) : Utf16 := digits.map fun digit => hexUnit digit.val

def Uuid.text (uuid : Uuid) : Utf16 :=
  hexText (uuid.digits.take 8) ++ 0x2D :: (hexText ((uuid.digits.drop 8).take 4) ++
    0x2D :: (hexText ((uuid.digits.drop 12).take 4) ++ 0x2D :: (hexText ((uuid.digits.drop 16).take 4) ++
      0x2D :: hexText (uuid.digits.drop 20))))

section Dashes
variable {text rest : Utf16}

def dashes (text : Utf16) : Nat := text.count 0x2D

theorem digitsDashes {digits : Utf16} (found : readDigits text = some (digits,rest)) : dashes text = dashes rest := by
  simp only [readDigits] at found
  split at found
  · cases found
  · obtain ⟨rfl,rfl⟩ := Prod.mk.inj (Option.some.inj found)
    have none : (text.takeWhile isDigit).count 0x2D = 0 := by
      rw [List.count_eq_zero]
      intro inside
      have digit : isDigit 0x2D = true := List.mem_takeWhile_imp inside
      cases digit
    have whole := congrArg (List.count 0x2D) (List.takeWhile_append_dropWhile (p := isDigit) (l := text))
    rw [List.count_append,none] at whole
    unfold dashes
    omega

theorem fractionDashes {fraction : Utf16} (found : readFraction text = some (fraction,rest)) : dashes text = dashes rest := by
  unfold readFraction at found
  split at found
  · have same := digitsDashes found
    simpa [dashes] using same
  · cases found
    rfl

theorem exponentDashes {exponent : Int} (found : readExponent text = some (exponent,rest)) : dashes text ≤ dashes rest + 1 := by
  have signed {more : Utf16} {f : Utf16 × Utf16 → Int}
      (found : (readDigits more).map (fun read => (f read,read.2)) = some (exponent,rest)) : dashes more = dashes rest := by
    obtain ⟨⟨digits,rest'⟩,digitsFound,same⟩ := Option.map_eq_some_iff.mp found
    cases same
    exact digitsDashes digitsFound
  have cons (c : UInt16) (more : Utf16) : dashes (c :: more) ≤ dashes more + 1 := by
    unfold dashes
    rw [List.count_cons]
    split <;> omega
  unfold readExponent at found
  split at found
  · cases found
    simp [dashes]
  · rename_i e more
    split at found
    · rename_i letter
      have plain : dashes (e :: more) = dashes more := by
        rcases letter with rfl | rfl <;> rfl
      rw [plain]
      split at found
      · rename_i more
        rw [← signed found]
        exact cons _ more
      · rename_i more
        rw [← signed found]
        exact cons _ more
      · rw [signed found]
        exact Nat.le_succ _
    · cases found
      exact Nat.le_succ _

theorem sizeDashes {size : Rat} (found : readSize text = some (size,rest)) : dashes text ≤ dashes rest + 1 := by
  simp only [readSize,readWhole,Option.bind_eq_bind,Option.bind_eq_some_iff,Option.some.injEq,Prod.mk.injEq,
    Prod.exists] at found
  obtain ⟨whole,rest₁,wholeFound,fraction,rest₂,fractionFound,exponent,rest₃,exponentFound,_,rfl⟩ := found
  obtain ⟨digits,rest₀,digitsFound,same⟩ := wholeFound
  have first := digitsDashes digitsFound
  have second := fractionDashes fractionFound
  have third := exponentDashes exponentFound
  split at same
  · cases same
  · cases same
    omega

theorem numberDashes {number : Number} (found : readNumber text = some (number,rest)) : dashes text ≤ dashes rest + 2 := by
  unfold readNumber at found
  split at found
  all_goals
    obtain ⟨⟨size,rest'⟩,sizeFound,same⟩ := Option.map_eq_some_iff.mp found
    simp only [Prod.mk.injEq] at same
    obtain ⟨_,rfl⟩ := same
    have fewer := sizeDashes sizeFound
  · unfold dashes at fewer ⊢
    rw [List.count_cons_self]
    omega
  · exact Nat.le_succ_of_le fewer

end Dashes

section Text
variable (uuid : Uuid)

theorem hexPlain : ∀ digit : Fin 16, hexUnit digit.val ≠ 0x2D ∧ hexUnit digit.val ≠ 0x6C ∧ hexUnit digit.val ≠ 0x74 ∧
    (hexUnit digit.val).toNat < 0x80 ∧ isSpace (hexUnit digit.val) = false ∧ hexUnit digit.val ≠ 0x22 ∧
    hexUnit digit.val ≠ 0x5B ∧ hexUnit digit.val ≠ 0x7B := by decide

theorem hexDashes (digits : List (Fin 16)) : dashes (hexText digits) = 0 := by
  unfold dashes hexText
  rw [List.count_eq_zero]
  intro inside
  obtain ⟨digit,_,same⟩ := List.mem_map.mp inside
  exact (hexPlain digit).1 same

theorem uuidDashes : dashes uuid.text = 4 := by
  have none := hexDashes
  unfold dashes at none
  simp only [dashes,Uuid.text,List.count_append,List.count_cons_self,none]

theorem uuidUnit {c : UInt16} (inside : c ∈ uuid.text) : c = 0x2D ∨ ∃ digit : Fin 16, c = hexUnit digit.val := by
  have hex {digits : List (Fin 16)} (inside : c ∈ hexText digits) : ∃ digit : Fin 16, c = hexUnit digit.val := by
    obtain ⟨digit,_,same⟩ := List.mem_map.mp inside
    exact ⟨digit,same.symm⟩
  simp only [Uuid.text,List.mem_append,List.mem_cons] at inside
  rcases inside with inside | same | inside | same | inside | same | inside | same | inside
  all_goals first | exact .inl same | exact .inr (hex inside)

theorem uuidAscii : Ascii uuid.text := by
  intro c inside
  rcases uuidUnit uuid inside with rfl | ⟨digit,rfl⟩
  · decide
  · exact (hexPlain digit).2.2.2.1

theorem uuidStarts : ∃ digit : Fin 16, ∃ rest, uuid.text = hexUnit digit.val :: rest := by
  rcases digits : uuid.digits with _ | ⟨digit,rest⟩
  · have full := uuid.full
    rw [digits] at full
    cases full
  · rw [Uuid.text,digits]
    exact ⟨digit,_,rfl⟩

theorem uuidNoLiteral : readLiteral uuid.text = none := by
  rw [readLiteral,Option.map_eq_none_iff,List.find?_eq_none]
  intro literal inside prefixed
  have part := (List.isPrefixOf_iff_prefix.mp prefixed).subset
  have odd : ∀ literal ∈ literals, (0x6C : UInt16) ∈ literal.1 ∨ (0x74 : UInt16) ∈ literal.1 := by
    intro literal inside
    simp only [literals,List.mem_cons,List.not_mem_nil,or_false] at inside
    rcases inside with rfl | rfl | rfl
    · exact .inl (by decide)
    · exact .inr (by decide)
    · exact .inl (by decide)
  rcases odd literal inside with l | t
  · rcases uuidUnit uuid (part l) with same | ⟨digit,same⟩
    · cases same
    · exact (hexPlain digit).2.1 same.symm
  · rcases uuidUnit uuid (part t) with same | ⟨digit,same⟩
    · cases same
    · exact (hexPlain digit).2.2.1 same.symm

theorem uuidNoJson : parse uuid.text = none := by
  obtain ⟨digit,rest,starts⟩ := uuidStarts uuid
  obtain ⟨_,_,_,_,plain,quote,bracket,brace⟩ := hexPlain digit
  rw [Option.eq_none_iff_forall_ne_some]
  intro value found
  simp only [parse,Option.bind_eq_bind,Option.bind_eq_some_iff,Prod.exists] at found
  obtain ⟨read,after,readFound,ends⟩ := found
  have unspaced : skipSpace uuid.text = hexUnit digit.val :: rest := by
    rw [starts]
    exact List.dropWhile_cons_of_neg (by rw [plain]; decide)
  unfold readValue at readFound
  rw [unspaced] at readFound
  simp only [if_neg quote,if_neg bracket,if_neg brace] at readFound
  split at readFound
  · obtain ⟨⟨number,more⟩,numberFound,same⟩ := Option.map_eq_some_iff.mp readFound
    cases same
    rw [← starts] at numberFound
    have fewer := numberDashes numberFound
    rw [uuidDashes] at fewer
    split at ends
    · rename_i blank
      -- what is left would have no dash
      have spaces : ∀ c ∈ more, isSpace c = true := by
        intro c inside
        exact List.dropWhile_eq_nil_iff.mp blank c inside
      have none : dashes more = 0 := by
        unfold dashes
        rw [List.count_eq_zero]
        intro inside
        cases spaces _ inside
      omega
    · cases ends
  · rw [← starts,uuidNoLiteral] at readFound
    cases readFound

end Text
end Encoding
