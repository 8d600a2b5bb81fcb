import Passmower.Encoding.JsonWriting

/-! JSON texts that were written are read as what they were written from: strings, whole numbers and the fields of an
object. -/
namespace Encoding

section Numbers
variable {n : Nat} {rest : Utf16}

theorem halfEvenWhole (n : Int) : halfEven (n : Rat) = n := by
  have none : (n : Rat) - ((n : Rat).floor : Rat) = 0 := by rw [Rat.floor_intCast,sub_self]
  simp only [halfEven,none]
  rw [if_pos (by norm_num),Rat.floor_intCast]

theorem wholeExponent (small : n < 2 ^ 53) (some : n ≠ 0) :
    ∃ shift : Nat, binaryExponent (n : Rat) = 52 - shift ∧ shift ≤ 52 := by
  have top : Nat.log2 n < 53 := (Nat.log2_lt some).mpr small
  have one : Nat.log2 1 = 0 := by decide
  refine ⟨52 - Nat.log2 n,?_,by omega⟩
  have below : ((2 : Rat) ^ (Nat.log2 n : Int)) ≤ n := by
    rw [zpow_natCast]
    exact_mod_cast Nat.log2_self_le some
  have estimate : ((Nat.log2 ((n : Rat).num.natAbs) : Int) - (Nat.log2 (n : Rat).den : Int)) = Nat.log2 n := by
    simp [one]
  simp only [binaryExponent,estimate]
  rw [if_pos below]
  omega

theorem nearestWhole {z : Int} (small : z.natAbs < 2 ^ 53) : Number.nearest z = .finite z := by
  by_cases zero : z = 0
  · rw [zero]
    rfl
  obtain ⟨shift,exponent,within⟩ := wholeExponent small (Int.natAbs_ne_zero.mpr zero)
  have size : |(z : Rat)| = (z.natAbs : Rat) := by
    rw [Nat.cast_natAbs,Int.cast_abs]
  have ulp : max (binaryExponent (z.natAbs : Rat) - 52) (-1074) = -(shift : Int) := by omega
  have power : ((2 : Rat) ^ (-(shift : Int))) = (2 ^ shift)⁻¹ := by rw [zpow_neg,zpow_natCast]
  have scaled : (z.natAbs : Rat) / (2 ^ shift)⁻¹ = ((z.natAbs * 2 ^ shift : Nat) : Int) := by
    push_cast
    rw [div_inv_eq_mul,size]
  have restored : (((z.natAbs * 2 ^ shift : Nat) : Int) : Rat) * (2 ^ shift)⁻¹ = (z.natAbs : Rat) := by
    push_cast
    rw [mul_assoc,mul_inv_cancel₀ (by positivity),mul_one,size]
  have finite : (z.natAbs : Rat) < (2 : Rat) ^ (1024 : Int) := by
    have bound : (z.natAbs : Rat) < 2 ^ 53 := by exact_mod_cast small
    refine lt_of_lt_of_le bound ?_
    rw [show (1024 : Int) = ((1024 : Nat) : Int) from rfl,zpow_natCast]
    exact pow_le_pow_right₀ (by norm_num) (by norm_num)
  have signed : (if (z : Rat) < 0 then -(z.natAbs : Rat) else z.natAbs) = z := by
    rw [← size]
    split
    · rename_i negative
      rw [abs_of_neg negative,neg_neg]
    · rename_i positive
      exact abs_of_nonneg (not_lt.mp positive)
  simp only [Number.nearest,if_neg (show ¬ (z : Rat) = 0 by exact_mod_cast zero),size,ulp,power,scaled,halfEvenWhole,
    restored,if_pos finite,signed]

theorem digitsBack (n : Nat) : digitsValue (digitUnits n) = n := by
  have same (chars : List Char) (start : Nat) (digits : ∀ c ∈ chars, c.toNat < 0x10000) :
      (chars.map fun c => UInt16.ofNat c.toNat).foldl (fun n c => n * 10 + (c.toNat - 0x30)) start =
        Nat.ofDigitChars 10 chars start := by
    induction chars generalizing start with
    | nil => rfl
    | cons c chars ih =>
        rw [List.map_cons,List.foldl_cons,Nat.ofDigitChars_cons,
          ih _ fun d inside => digits d (List.mem_cons_of_mem c inside),unitNat (digits c List.mem_cons_self),Nat.mul_comm 10]
        rfl
  rw [digitsValue,digitUnits,same _ _ fun c inside => by have := digitChar inside; omega,Nat.ofDigitChars_ten_toDigits]

theorem digitsSome (n : Nat) : digitUnits n ≠ [] := by
  simp [digitUnits,Nat.toDigits_ne_nil]

theorem digitUnit {c : UInt16} (inside : c ∈ digitUnits n) : isDigit c = true := by
  have range := digitRange inside
  simp [isDigit,range]

theorem digitsLead : (digitUnits n).head? = some 0x30 → n = 0 := by
  induction n using Nat.strongRecOn with
  | ind n ih =>
      intro lead
      by_cases small : n < 10
      · have all : ∀ n < 10, (digitUnits n).head? = some 0x30 → n = 0 := by decide
        exact all n small lead
      · have more : digitUnits n = digitUnits (n / 10) ++ [UInt16.ofNat (n % 10).digitChar.toNat] := by
          rw [digitUnits,Nat.toDigits_of_base_le (by decide) (by omega),List.map_append]
          rfl
        rw [more,List.head?_append_of_ne_nil _ (digitsSome _)] at lead
        have := ih (n / 10) (by omega) lead
        omega

def Closing (rest : Utf16) : Prop := ∃ c more, rest = c :: more ∧ (c = 0x2C ∨ c = 0x7D ∨ c = 0x5D)

theorem digitsRead (closing : Closing rest) : readDigits (digitUnits n ++ rest) = some (digitUnits n,rest) := by
  obtain ⟨c,more,rfl,shape⟩ := closing
  have apart : isDigit c = false := by
    rcases shape with rfl | rfl | rfl <;> rfl
  have taken : (digitUnits n ++ c :: more).takeWhile isDigit = digitUnits n := by
    rw [List.takeWhile_append_of_pos fun d inside => digitUnit inside,List.takeWhile_cons_of_neg (by simp [apart]),
      List.append_nil]
  have dropped : (digitUnits n ++ c :: more).dropWhile isDigit = c :: more := by
    rw [List.dropWhile_append_of_pos fun d inside => digitUnit inside,List.dropWhile_cons_of_neg (by simp [apart])]
  simp only [readDigits,taken,dropped,if_neg (digitsSome n)]

theorem sizeRead (closing : Closing rest) : readSize (digitUnits n ++ rest) = some ((n : Rat),rest) := by
  have whole : readWhole (digitUnits n ++ rest) = some (digitUnits n,rest) := by
    rw [readWhole,digitsRead closing]
    simp only [Option.bind_eq_bind,Option.bind_some]
    rw [if_neg]
    intro lead
    exact lead.2 (by rw [digitsLead lead.1]; rfl)
  have fraction : readFraction rest = some ([],rest) := by
    obtain ⟨c,more,rfl,shape⟩ := closing
    rcases shape with rfl | rfl | rfl <;> rfl
  have exponent : readExponent rest = some (0,rest) := by
    obtain ⟨c,more,rfl,shape⟩ := closing
    rcases shape with rfl | rfl | rfl <;> rfl
  simp only [readSize,whole,fraction,exponent,Option.bind_eq_bind,Option.bind_some]
  simp [digitsBack]

theorem wholeText {z : Int} (small : z.natAbs < 2 ^ 53) :
    finiteText z = (if z < 0 then [0x2D] else []) ++ digitUnits z.natAbs := by
  have shape : (z : Rat).den = 1 ∧ (z : Rat).num.natAbs < 2 ^ 53 := ⟨rfl,small⟩
  simp only [finiteText,if_pos shape]
  simp

theorem wholeLead {z : Int} (small : z.natAbs < 2 ^ 53) :
    ∃ c more, finiteText z = c :: more ∧ (c = 0x2D ∨ isDigit c = true) := by
  obtain ⟨c,more,digits⟩ := List.exists_cons_of_ne_nil (digitsSome z.natAbs)
  rw [wholeText small]
  split
  · exact ⟨_,_,rfl,.inl rfl⟩
  · exact ⟨c,more,digits,.inr (digitUnit (digits ▸ List.mem_cons_self : c ∈ digitUnits z.natAbs))⟩

theorem wholeRead {z : Int} (small : z.natAbs < 2 ^ 53) (closing : Closing rest) :
    readNumber (finiteText z ++ rest) = some (.finite z,rest) := by
  rw [wholeText small]
  split
  · rename_i negative
    have sign : -(z.natAbs : Rat) = z := by
      rw [Nat.cast_natAbs,abs_of_neg negative]
      push_cast
      ring
    rw [List.append_assoc,List.singleton_append,readNumber,sizeRead closing]
    simp only [Option.map_some,sign,nearestWhole small]
  · rename_i positive
    have sign : (z.natAbs : Rat) = z := by
      rw [Nat.cast_natAbs,abs_of_nonneg (not_lt.mp positive)]
    rw [List.nil_append,readNumber.eq_def]
    split
    · rename_i shape
      obtain ⟨c,more,digits⟩ := List.exists_cons_of_ne_nil (digitsSome z.natAbs)
      rw [digits,List.cons_append] at shape
      have range := digitRange (digits ▸ List.mem_cons_self : c ∈ digitUnits z.natAbs)
      rw [(List.cons.inj shape).1] at range
      exact absurd range (by decide)
    · rw [sizeRead closing]
      simp only [Option.map_some,sign,nearestWhole small]

end Numbers

section Objects
variable {fuel : Nat} {rest : Utf16}

theorem skipPlain {c : UInt16} (rest : Utf16) (plain : isSpace c = false) : skipSpace (c :: rest) = c :: rest :=
  List.dropWhile_cons_of_neg (by simp [plain])

theorem keyRead (key rest : Utf16) : readKey (quote key ++ 0x3A :: rest) = some (key,rest) := by
  have shape : quote key ++ 0x3A :: rest = 0x22 :: (quoteBody key ++ 0x22 :: 0x3A :: rest) := by simp [quote]
  rw [shape,readKey,skipPlain _ (by decide)]
  simp only [bodyRead,Option.bind_eq_bind,Option.bind_some,skipPlain rest (show isSpace 0x3A = false by decide)]

def Reads (value : JsonValue) : Prop := ∀ fuel rest, Closing rest →
  readValue (fuel + 1) (stringify value ++ rest) = some (value,rest)

theorem stringReads (text : Utf16) : Reads (.string text) := by
  intro fuel rest _
  have shape : stringify (.string text) ++ rest = 0x22 :: (quoteBody text ++ 0x22 :: rest) := by simp [stringify,quote]
  rw [shape,readValue,skipPlain _ (by decide)]
  simp only [bodyRead,Option.map_some,if_true]

theorem wholeReads {z : Int} (small : z.natAbs < 2 ^ 53) : Reads (.number (.finite z)) := by
  intro fuel rest closing
  have read := wholeRead small closing
  obtain ⟨c,more,text,lead⟩ := wholeLead small
  have solid : isSpace c = false ∧ c ≠ 0x22 ∧ c ≠ 0x5B ∧ c ≠ 0x7B := by
    rcases lead with rfl | digit
    · decide
    · simp only [isDigit,Bool.and_eq_true,decide_eq_true_eq] at digit
      refine ⟨?_,?_,?_,?_⟩
      · simp only [isSpace,Bool.or_eq_false_iff,decide_eq_false_iff_not]
        refine ⟨⟨⟨?_,?_⟩,?_⟩,?_⟩ <;> rintro rfl <;> exact absurd digit (by decide)
      all_goals
        rintro rfl
        exact absurd digit (by decide)
  obtain ⟨space,quotes,bracket,brace⟩ := solid
  rw [text] at read
  rw [stringify,numberText,text,List.cons_append,readValue,skipPlain _ space]
  simp only [if_neg quotes,if_neg bracket,if_neg brace,if_pos lead]
  rw [← List.cons_append,read]
  rfl

def fieldsText (fields : List (Utf16 × JsonValue)) : Utf16 :=
  commas ((fieldTexts fields).map fun field => quote field.1 ++ 0x3A :: field.2)

theorem fieldsTextOne (field : Utf16 × JsonValue) (rest : Utf16) :
    fieldsText [field] ++ rest = quote field.1 ++ 0x3A :: (stringify field.2 ++ rest) := by
  simp [fieldsText,commas,fieldTexts,List.intercalate]

theorem fieldsTextCons (field other : Utf16 × JsonValue) (fields : List (Utf16 × JsonValue)) (rest : Utf16) :
    fieldsText (field :: other :: fields) ++ rest =
      quote field.1 ++ 0x3A :: (stringify field.2 ++ 0x2C :: (fieldsText (other :: fields) ++ rest)) := by
  simp only [fieldsText,fieldTexts,List.map_cons,commasCons]
  simp

theorem fieldsRead {fields before : List (Utf16 × JsonValue)} (some : fields ≠ []) (each : ∀ field ∈ fields, Reads field.2)
    (unique : ((before ++ fields).map Prod.fst).Nodup) (enough : fields.length < fuel) :
    readFields fuel before (fieldsText fields ++ 0x7D :: rest) = Option.some (before ++ fields,rest) := by
  induction fields generalizing before fuel with
  | nil => exact absurd rfl some
  | cons field fields ih =>
      obtain ⟨fuel,rfl⟩ : ∃ n, fuel = n + 2 := ⟨fuel - 2,by simp only [List.length_cons] at enough; omega⟩
      have fresh : assign before field.1 field.2 = before ++ [field] := by
        rw [assign,if_neg]
        rw [List.map_append,List.map_cons] at unique
        have apart := List.nodup_middle.mp unique
        rw [List.any_eq_true]
        rintro ⟨earlier,inside,same⟩
        refine (List.nodup_cons.mp apart).1 (List.mem_append_left _ ?_)
        rw [← decide_eq_true_eq.mp same]
        exact List.mem_map_of_mem inside
      have read := each field List.mem_cons_self fuel
      cases fields with
      | nil =>
          rw [fieldsTextOne,readFields,keyRead]
          simp only [Option.bind_eq_bind,Option.bind_some,read _ ⟨_,_,rfl,.inr (.inl rfl)⟩,
            skipPlain rest (show isSpace 0x7D = false by decide)]
          rw [if_pos trivial,fresh]
      | cons other fields =>
          have others := @ih (fuel + 1) (before ++ [field]) (List.cons_ne_nil _ _)
            (fun next inside => each next (List.mem_cons_of_mem _ inside)) (by simpa using unique)
            (by simp only [List.length_cons] at enough ⊢; omega)
          rw [fieldsTextCons,readFields,keyRead]
          simp only [Option.bind_eq_bind,Option.bind_some,read _ ⟨_,_,rfl,.inl rfl⟩,
            skipPlain _ (show isSpace 0x2C = false by decide)]
          rw [if_neg (by decide),if_pos trivial,fresh,others,List.append_assoc]
          rfl

theorem fieldTextsMap (fields : List (Utf16 × JsonValue)) :
    fieldTexts fields = fields.map fun field => (field.1,stringify field.2) := by
  induction fields with
  | nil => rfl
  | cons field fields ih => rw [fieldTexts,ih,List.map_cons]

theorem orderedPlain {α : Type} {fields : List (Utf16 × α)} (plain : ∀ field ∈ fields, arrayIndex? field.1 = none) :
    ordered fields = fields := by
  have indices : fields.filter (fun field => (arrayIndex? field.1).isSome) = [] :=
    List.filter_eq_nil_iff.mpr fun field inside => by simp [plain field inside]
  have others : fields.filter (fun field => (arrayIndex? field.1).isNone) = fields :=
    List.filter_eq_self.mpr fun field inside => by simp [plain field inside]
  rw [ordered,indices,others]
  rfl

theorem objectRead {fields : List (Utf16 × JsonValue)} (some : fields ≠ [])
    (plain : ∀ field ∈ fields, arrayIndex? field.1 = none) (unique : (fields.map Prod.fst).Nodup) (each : ∀ field ∈ fields, Reads field.2) :
    parse (stringify (.object fields)) = Option.some (.object fields) := by
  have inOrder : ordered (fieldTexts fields) = fieldTexts fields := by
    refine orderedPlain fun field inside => ?_
    rw [fieldTextsMap] at inside
    obtain ⟨source,sourceInside,rfl⟩ := List.mem_map.mp inside
    exact plain source sourceInside
  have text : stringify (.object fields) = 0x7B :: (fieldsText fields ++ [0x7D]) := by
    rw [stringify,inOrder]
    rfl
  have lead : ∃ more, fieldsText fields ++ [0x7D] = 0x22 :: more := by
    cases fields with
    | nil => exact absurd rfl some
    | cons field fields =>
        cases fields with
        | nil => exact ⟨_,fieldsTextOne field [0x7D]⟩
        | cons other fields => exact ⟨_,fieldsTextCons field other fields [0x7D]⟩
  have read := @fieldsRead (2 * (stringify (.object fields)).length + 2 + fields.length) [] fields [] some each unique
    (by omega)
  obtain ⟨more,lead⟩ := lead
  rw [parseFuel (show 2 * (stringify (.object fields)).length + 2 ≤
    (2 * (stringify (.object fields)).length + 2 + fields.length) + 1 by omega),readValue]
  generalize 2 * (stringify (.object fields)).length + 2 + fields.length = fuel at read ⊢
  rw [text,skipPlain _ (by decide)]
  have notEmpty : (skipSpace (fieldsText fields ++ [0x7D])).head? ≠ Option.some 0x7D := by
    rw [lead,skipPlain _ (by decide)]
    exact fun same => absurd (Option.some.inj same) (by decide)
  simp only [if_neg notEmpty,read,Option.map_some]
  rfl

end Objects
end Encoding
