import Mathlib.Data.List.Sort
import Passmower.Encoding.Numbers

/-! JSON texts: `JSON.parse` and `JSON.stringify`. -/
namespace Encoding

inductive JsonValue where
  | null
  | bool (value : Bool)
  | number (value : Number)
  | string (text : Utf16)
  | array (items : List JsonValue)
  | object (fields : List (Utf16 × JsonValue))

def isSpace (c : UInt16) : Bool := c = 0x20 || c = 0x9 || c = 0xA || c = 0xD

def skipSpace (text : Utf16) : Utf16 := text.dropWhile isSpace

def hexDigit? (c : UInt16) : Option Nat :=
  let n := c.toNat
  if 0x30 ≤ n ∧ n ≤ 0x39 then some (n - 0x30)
  else if 0x61 ≤ n ∧ n ≤ 0x66 then some (n - 0x61 + 10)
  else if 0x41 ≤ n ∧ n ≤ 0x46 then some (n - 0x41 + 10)
  else none

def escaped? (c : UInt16) : Option UInt16 :=
  if c = 0x22 ∨ c = 0x5C ∨ c = 0x2F then some c
  else if c = 0x62 then some 0x8
  else if c = 0x66 then some 0xC
  else if c = 0x6E then some 0xA
  else if c = 0x72 then some 0xD
  else if c = 0x74 then some 0x9
  else none

def readString : Utf16 → Option (Utf16 × Utf16)
  | [] => none
  | c :: rest =>
      if c = 0x22 then some ([],rest)
      else if c = 0x5C then
        match rest with
        | 0x75 :: p :: q :: r :: s :: more => do
            let p ← hexDigit? p
            let q ← hexDigit? q
            let r ← hexDigit? r
            let s ← hexDigit? s
            let (text,after) ← readString more
            some (UInt16.ofNat (((p * 16 + q) * 16 + r) * 16 + s) :: text,after)
        | e :: more => do
            let unit ← escaped? e
            let (text,after) ← readString more
            some (unit :: text,after)
        | [] => none
      else if c.toNat < 0x20 then none
      else do
        let (text,after) ← readString rest
        some (c :: text,after)

def readDigits (text : Utf16) : Option (Utf16 × Utf16) :=
  let digits := text.takeWhile isDigit
  if digits = [] then none else some (digits,text.dropWhile isDigit)

/- Without a leading zero. -/
def readWhole (text : Utf16) : Option (Utf16 × Utf16) := do
  let (digits,rest) ← readDigits text
  if digits.head? = some 0x30 ∧ digits.length ≠ 1 then none else some (digits,rest)

def readFraction : Utf16 → Option (Utf16 × Utf16)
  | 0x2E :: rest => readDigits rest
  | rest => some ([],rest)

def readExponent : Utf16 → Option (Int × Utf16)
  | [] => some (0,[])
  | e :: rest =>
      if e = 0x65 ∨ e = 0x45 then
        match rest with
        | 0x2D :: more => (readDigits more).map fun read => (-(digitsValue read.1 : Int),read.2)
        | 0x2B :: more => (readDigits more).map fun read => ((digitsValue read.1 : Int),read.2)
        | more => (readDigits more).map fun read => ((digitsValue read.1 : Int),read.2)
      else some (0,e :: rest)

def readSize (text : Utf16) : Option (Rat × Utf16) := do
  let (whole,rest) ← readWhole text
  let (fraction,rest) ← readFraction rest
  let (exponent,rest) ← readExponent rest
  some ((digitsValue (whole ++ fraction) : Rat) * (10 : Rat) ^ (exponent - fraction.length),rest)

def readNumber : Utf16 → Option (Number × Utf16)
  | 0x2D :: rest => (readSize rest).map fun read => (Number.nearest (-read.1),read.2)
  | text => (readSize text).map fun read => (Number.nearest read.1,read.2)

def readKey (text : Utf16) : Option (Utf16 × Utf16) := match skipSpace text with
  | 0x22 :: rest => do
      let (key,rest) ← readString rest
      match skipSpace rest with
      | 0x3A :: rest => some (key,rest)
      | _ => none
  | _ => none

def assign (fields : List (Utf16 × JsonValue)) (key : Utf16) (value : JsonValue) : List (Utf16 × JsonValue) :=
  if fields.any (·.1 = key) then fields.map fun field => if field.1 = key then (key,value) else field
  else fields ++ [(key,value)]

def literals : List (Utf16 × JsonValue) := [(units "null",.null),(units "true",.bool true),(units "false",.bool false)]

def readLiteral (text : Utf16) : Option (JsonValue × Utf16) :=
  (literals.find? fun literal => literal.1.isPrefixOf text).map fun literal => (literal.2,text.drop literal.1.length)

mutual
def readValue : Nat → Utf16 → Option (JsonValue × Utf16)
  | 0, _ => none
  | fuel + 1, text =>
      match skipSpace text with
      | [] => none
      | c :: rest =>
          if c = 0x22 then (readString rest).map fun read => (.string read.1,read.2)
          else if c = 0x5B then
            if (skipSpace rest).head? = some 0x5D then some (.array [],(skipSpace rest).drop 1)
            else (readItems fuel rest).map fun read => (.array read.1,read.2)
          else if c = 0x7B then
            if (skipSpace rest).head? = some 0x7D then some (.object [],(skipSpace rest).drop 1)
            else (readFields fuel [] rest).map fun read => (.object read.1,read.2)
          else if c = 0x2D ∨ isDigit c = true then
            (readNumber (c :: rest)).map fun read => (.number read.1,read.2)
          else readLiteral (c :: rest)
def readItems : Nat → Utf16 → Option (List JsonValue × Utf16)
  | 0, _ => none
  | fuel + 1, text => do
      let (item,rest) ← readValue fuel text
      match skipSpace rest with
      | [] => none
      | c :: rest =>
          if c = 0x5D then some ([item],rest)
          else if c = 0x2C then
            let (items,after) ← readItems fuel rest
            some (item :: items,after)
          else none
def readFields : Nat → List (Utf16 × JsonValue) → Utf16 → Option (List (Utf16 × JsonValue) × Utf16)
  | 0, _, _ => none
  | fuel + 1, fields, text => do
      let (key,rest) ← readKey text
      let (value,rest) ← readValue fuel rest
      match skipSpace rest with
      | [] => none
      | c :: rest =>
          if c = 0x7D then some (assign fields key value,rest)
          else if c = 0x2C then readFields fuel (assign fields key value) rest
          else none
end

/- `JSON.parse`; every value and every item takes at most two of the fuel and at least one unit of the text. -/
def parse (text : Utf16) : Option JsonValue := do
  let (value,rest) ← readValue (2 * text.length + 2) text
  if skipSpace rest = [] then some value else none

def hexUnit (n : Nat) : UInt16 := UInt16.ofNat (if n < 10 then 0x30 + n else 0x61 + (n - 10))

def unicodeEscape (c : UInt16) : Utf16 :=
  let n := c.toNat
  [0x5C,0x75,hexUnit (n / 0x1000),hexUnit (n / 0x100 % 0x10),hexUnit (n / 0x10 % 0x10),hexUnit (n % 0x10)]

def quoteUnit (c : UInt16) : Utf16 :=
  if c = 0x22 ∨ c = 0x5C then [0x5C,c]
  else if c = 0x8 then [0x5C,0x62]
  else if c = 0x9 then [0x5C,0x74]
  else if c = 0xA then [0x5C,0x6E]
  else if c = 0xC then [0x5C,0x66]
  else if c = 0xD then [0x5C,0x72]
  else if c.toNat < 0x20 ∨ isSurrogate c = true then unicodeEscape c
  else [c]

def quoteBody : Utf16 → Utf16
  | [] => []
  | [c] => quoteUnit c
  | high :: low :: rest =>
      if isHigh high && isLow low then high :: low :: quoteBody rest else quoteUnit high ++ quoteBody (low :: rest)

def quote (text : Utf16) : Utf16 := 0x22 :: (quoteBody text ++ [0x22])

def numberText : Number → Utf16
  | .finite value => finiteText value
  | .infinite _ => units "null"

def arrayIndex? (key : Utf16) : Option Nat :=
  let n := digitsValue key
  if n < 2 ^ 32 - 1 ∧ digitUnits n = key then some n else none

/- The fields in the order `Object.keys` has them: the array indices first, by size. -/
def ordered {α : Type} (fields : List (Utf16 × α)) : List (Utf16 × α) :=
  ((fields.filter fun field => (arrayIndex? field.1).isSome).insertionSort fun a b =>
      (arrayIndex? a.1).getD 0 ≤ (arrayIndex? b.1).getD 0) ++
    fields.filter fun field => (arrayIndex? field.1).isNone

def commas (texts : List Utf16) : Utf16 := [0x2C].intercalate texts

mutual
def stringify : JsonValue → Utf16
  | .null => units "null"
  | .bool value => if value then units "true" else units "false"
  | .number value => numberText value
  | .string text => quote text
  | .array items => 0x5B :: (commas (itemTexts items) ++ [0x5D])
  | .object fields =>
      0x7B :: (commas ((ordered (fieldTexts fields)).map fun field => quote field.1 ++ 0x3A :: field.2) ++ [0x7D])
def itemTexts : List JsonValue → List Utf16
  | [] => []
  | item :: items => stringify item :: itemTexts items
def fieldTexts : List (Utf16 × JsonValue) → List (Utf16 × Utf16)
  | [] => []
  | (key,value) :: fields => (key,stringify value) :: fieldTexts fields
end

section Lengths
variable {text rest : Utf16}

theorem skipLength (text : Utf16) : (skipSpace text).length ≤ text.length := (List.dropWhile_suffix isSpace).length_le

theorem stringLength {read : Utf16} (found : readString text = some (read,rest)) :
    read.length + rest.length < text.length := by
  induction text using readString.induct generalizing read rest with
  | case1 => cases found
  | case2 more =>
      unfold readString at found
      rw [if_pos rfl] at found
      cases found
      simp
  | case3 p q r s more other ih =>
      unfold readString at found
      rw [if_neg other,if_pos rfl] at found
      simp only [Option.bind_eq_bind,Option.bind_eq_some_iff,Option.some.injEq,Prod.mk.injEq,Prod.exists] at found
      obtain ⟨_,_,_,_,_,_,_,_,read',rest',tail,rfl,rfl⟩ := found
      have shorter := ih tail
      simp only [List.length_cons]
      omega
  | case4 e more plain other ih =>
      unfold readString at found
      rw [if_neg other,if_pos rfl] at found
      simp only [Option.bind_eq_bind,Option.bind_eq_some_iff,Option.some.injEq,Prod.mk.injEq,Prod.exists] at found
      obtain ⟨_,_,read',rest',tail,rfl,rfl⟩ := found
      have shorter := ih tail
      simp only [List.length_cons]
      omega
  | case5 other => cases found
  | case6 c more other other' control =>
      unfold readString at found
      rw [if_neg other,if_neg other',if_pos control] at found
      cases found
  | case7 c more other other' plain ih =>
      unfold readString at found
      rw [if_neg other,if_neg other',if_neg plain] at found
      simp only [Option.bind_eq_bind,Option.bind_eq_some_iff,Option.some.injEq,Prod.mk.injEq,Prod.exists] at found
      obtain ⟨read',rest',tail,rfl,rfl⟩ := found
      have shorter := ih tail
      simp only [List.length_cons]
      omega

theorem digitsLength {digits : Utf16} (found : readDigits text = some (digits,rest)) : rest.length < text.length := by
  simp only [readDigits] at found
  split at found
  · cases found
  · rename_i some
    obtain ⟨rfl,rfl⟩ := Prod.mk.inj (Option.some.inj found)
    have whole := congrArg List.length (List.takeWhile_append_dropWhile (p := isDigit) (l := text))
    have positive := List.length_pos_iff.mpr some
    rw [List.length_append] at whole
    omega

theorem fractionLength {fraction : Utf16} (found : readFraction text = some (fraction,rest)) :
    rest.length ≤ text.length := by
  unfold readFraction at found
  split at found
  · have shorter := digitsLength found
    simp only [List.length_cons]
    omega
  · cases found
    exact Nat.le_refl _

theorem exponentLength {exponent : Int} (found : readExponent text = some (exponent,rest)) :
    rest.length ≤ text.length := by
  have signed {more : Utf16} {f : Utf16 × Utf16 → Int}
      (found : (readDigits more).map (fun read => (f read,read.2)) = some (exponent,rest)) : rest.length < more.length := by
    obtain ⟨⟨digits,rest'⟩,digitsFound,same⟩ := Option.map_eq_some_iff.mp found
    cases same
    exact digitsLength digitsFound
  unfold readExponent at found
  split at found
  · cases found
    exact Nat.le_refl _
  · split at found
    · split at found
      · have shorter := signed found
        simp only [List.length_cons]
        omega
      · have shorter := signed found
        simp only [List.length_cons]
        omega
      · have shorter := signed found
        simp only [List.length_cons]
        omega
    · cases found
      exact Nat.le_refl _

theorem sizeLength {size : Rat} (found : readSize text = some (size,rest)) : rest.length < text.length := by
  simp only [readSize,readWhole,Option.bind_eq_bind,Option.bind_eq_some_iff,Option.some.injEq,Prod.mk.injEq,
    Prod.exists] at found
  obtain ⟨whole,rest₁,wholeFound,fraction,rest₂,fractionFound,exponent,rest₃,exponentFound,_,rfl⟩ := found
  obtain ⟨digits,rest₀,digitsFound,same⟩ := wholeFound
  have first := digitsLength digitsFound
  have second := fractionLength fractionFound
  have third := exponentLength exponentFound
  split at same
  · cases same
  · cases same
    omega

theorem numberLength {number : Number} (found : readNumber text = some (number,rest)) : rest.length < text.length := by
  unfold readNumber at found
  split at found
  all_goals
    obtain ⟨⟨size,rest'⟩,sizeFound,same⟩ := Option.map_eq_some_iff.mp found
    cases same
    have shorter := sizeLength sizeFound
  · exact Nat.lt_succ_of_lt shorter
  · exact shorter

theorem literalLength {value : JsonValue} (found : readLiteral text = some (value,rest)) : rest.length < text.length := by
  obtain ⟨literal,literalFound,same⟩ := Option.map_eq_some_iff.mp found
  cases same
  have prefixed : literal.1.isPrefixOf text = true := by simpa using List.find?_some literalFound
  have inside := List.mem_of_find?_eq_some literalFound
  have positive : ∀ literal ∈ literals, 0 < literal.1.length := by decide
  have fits := (List.isPrefixOf_iff_prefix.mp prefixed).length_le
  have some := positive literal inside
  rw [List.length_drop]
  omega

theorem skipCons {c : UInt16} (found : skipSpace text = c :: rest) : rest.length < text.length := by
  have shorter := skipLength text
  rw [found] at shorter
  exact shorter

theorem keyLength {key : Utf16} (found : readKey text = some (key,rest)) : rest.length + 1 < text.length := by
  unfold readKey at found
  split at found
  · rename_i more shape
    have first := skipCons shape
    simp only [Option.bind_eq_bind,Option.bind_eq_some_iff,Prod.exists] at found
    obtain ⟨key',after,keyFound,found⟩ := found
    have second := stringLength keyFound
    split at found
    · rename_i rest' shape'
      have third := skipCons shape'
      cases found
      omega
    · cases found
  · cases found

theorem valueCases {fuel : Nat} {value : JsonValue} (found : readValue (fuel + 1) text = some (value,rest)) :
    ∃ c more, skipSpace text = c :: more ∧
      ((∃ read, readString more = some (read,rest) ∧ value = .string read) ∨
        (rest = (skipSpace more).drop 1 ∧ (value = .array [] ∨ value = .object [])) ∨
        (∃ items, readItems fuel more = some (items,rest) ∧ value = .array items) ∨
        (∃ fields, readFields fuel [] more = some (fields,rest) ∧ value = .object fields) ∨
        (∃ number, readNumber (c :: more) = some (number,rest) ∧ value = .number number) ∨
        readLiteral (c :: more) = some (value,rest)) := by
  unfold readValue at found
  split at found
  · cases found
  · rename_i c more shape
    refine ⟨c,more,shape,?_⟩
    split at found
    · obtain ⟨read,readFound,same⟩ := Option.map_eq_some_iff.mp found
      cases same
      exact .inl ⟨_,readFound,rfl⟩
    split at found
    · split at found
      · cases found
        exact .inr (.inl ⟨rfl,.inl rfl⟩)
      · obtain ⟨read,readFound,same⟩ := Option.map_eq_some_iff.mp found
        cases same
        exact .inr (.inr (.inl ⟨_,readFound,rfl⟩))
    split at found
    · split at found
      · cases found
        exact .inr (.inl ⟨rfl,.inr rfl⟩)
      · obtain ⟨read,readFound,same⟩ := Option.map_eq_some_iff.mp found
        cases same
        exact .inr (.inr (.inr (.inl ⟨_,readFound,rfl⟩)))
    split at found
    · obtain ⟨read,readFound,same⟩ := Option.map_eq_some_iff.mp found
      cases same
      exact .inr (.inr (.inr (.inr (.inl ⟨_,readFound,rfl⟩))))
    · exact .inr (.inr (.inr (.inr (.inr found))))

theorem readLength (fuel : Nat) :
    (∀ {text value rest}, readValue fuel text = some (value,rest) → rest.length < text.length) ∧
    (∀ {text items rest}, readItems fuel text = some (items,rest) → rest.length < text.length) ∧
    (∀ {fields text fields' rest}, readFields fuel fields text = some (fields',rest) → rest.length < text.length) := by
  induction fuel with
  | zero =>
      refine ⟨fun found => ?_,fun found => ?_,fun found => ?_⟩
      · cases found
      · cases found
      · cases found
  | succ fuel ih =>
      obtain ⟨ofValue,ofItems,ofFields⟩ := ih
      refine ⟨?_,?_,?_⟩
      · intro text value rest found
        obtain ⟨c,more,shape,cases⟩ := valueCases found
        have first := skipCons shape
        have whole := shape ▸ skipLength text
        rcases cases with ⟨_,readFound,_⟩ | ⟨rfl,_⟩ | ⟨_,readFound,_⟩ | ⟨_,readFound,_⟩ | ⟨_,readFound,_⟩ | readFound
        · have shorter := stringLength readFound
          omega
        · have shorter := skipLength more
          rw [List.length_drop]
          omega
        · exact Nat.lt_trans (ofItems readFound) first
        · exact Nat.lt_trans (ofFields readFound) first
        · exact Nat.lt_of_lt_of_le (numberLength readFound) whole
        · exact Nat.lt_of_lt_of_le (literalLength readFound) whole
      · intro text items rest found
        unfold readItems at found
        simp only [Option.bind_eq_bind,Option.bind_eq_some_iff,Prod.exists] at found
        obtain ⟨item,more,itemFound,found⟩ := found
        have first := ofValue itemFound
        split at found
        · cases found
        · rename_i c after shape
          have second := skipCons shape
          split at found
          · cases found
            omega
          split at found
          · simp only [Option.bind_eq_some_iff,Prod.exists] at found
            obtain ⟨items',rest',itemsFound,same⟩ := found
            cases same
            have third := ofItems itemsFound
            omega
          · cases found
      · intro fields text fields' rest found
        unfold readFields at found
        simp only [Option.bind_eq_bind,Option.bind_eq_some_iff,Prod.exists] at found
        obtain ⟨key,more,keyFound,value,after,valueFound,found⟩ := found
        have first := keyLength keyFound
        have second := ofValue valueFound
        split at found
        · cases found
        · rename_i c last shape
          have third := skipCons shape
          split at found
          · cases found
            omega
          split at found
          · have fourth := ofFields found
            omega
          · cases found

theorem fuelSame (fuel : Nat) :
    (∀ {more text}, 2 * text.length + 1 ≤ fuel → 2 * text.length + 1 ≤ more → readValue fuel text = readValue more text) ∧
    (∀ {more text}, 2 * text.length + 2 ≤ fuel → 2 * text.length + 2 ≤ more → readItems fuel text = readItems more text) ∧
    (∀ {more fields text}, 2 * text.length + 2 ≤ fuel → 2 * text.length + 2 ≤ more →
      readFields fuel fields text = readFields more fields text) := by
  induction fuel with
  | zero => exact ⟨fun enough => by omega,fun enough => by omega,fun enough => by omega⟩
  | succ fuel ih =>
      obtain ⟨ofValue,ofItems,ofFields⟩ := ih
      refine ⟨?_,?_,?_⟩
      · intro more text enough enough'
        obtain ⟨more,rfl⟩ : ∃ n, more = n + 1 := ⟨more - 1,by omega⟩
        simp only [readValue]
        cases shape : skipSpace text with
        | nil => rfl
        | cons c rest =>
            have shorter := skipCons shape
            have items := @ofItems more rest (by omega) (by omega)
            have fields := @ofFields more [] rest (by omega) (by omega)
            simp only [items,fields]
      · intro more text enough enough'
        obtain ⟨more,rfl⟩ : ∃ n, more = n + 1 := ⟨more - 1,by omega⟩
        simp only [readItems,@ofValue more text (by omega) (by omega)]
        cases found : readValue more text with
        | none => rfl
        | some read =>
            have first := (readLength more).1 found
            simp only [Option.bind_eq_bind,Option.bind_some]
            cases shape : skipSpace read.2 with
            | nil => rfl
            | cons c rest =>
                have second := skipCons shape
                simp only [@ofItems more rest (by omega) (by omega)]
      · intro more fields text enough enough'
        obtain ⟨more,rfl⟩ : ∃ n, more = n + 1 := ⟨more - 1,by omega⟩
        simp only [readFields]
        cases found : readKey text with
        | none => rfl
        | some read =>
            have first := keyLength found
            simp only [Option.bind_eq_bind,Option.bind_some,@ofValue more read.2 (by omega) (by omega)]
            cases valueFound : readValue more read.2 with
            | none => rfl
            | some read' =>
                have second := (readLength more).1 valueFound
                simp only [Option.bind_some]
                cases shape : skipSpace read'.2 with
                | nil => rfl
                | cons c rest =>
                    have third := skipCons shape
                    simp only [@ofFields more (assign fields read.1 read'.1) rest (by omega) (by omega)]

theorem parseFuel {fuel : Nat} (enough : 2 * text.length + 2 ≤ fuel) : parse text =
    (readValue fuel text).bind fun read => if skipSpace read.2 = [] then some read.1 else none := by
  have same := (@fuelSame (2 * text.length + 2)).1 (by omega) (show 2 * text.length + 1 ≤ fuel by omega)
  rw [parse,same]
  rfl

end Lengths
end Encoding
