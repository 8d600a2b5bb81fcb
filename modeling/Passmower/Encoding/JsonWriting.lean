import Passmower.Encoding.JsonText

/-! What `JSON.stringify` writes: well-formed texts, that `JSON.parse` reads again. -/
namespace Encoding

def Ascii (text : Utf16) : Prop := ∀ c ∈ text, c.toNat < 0x80

section Plain
variable {text more : Utf16}

theorem asciiAppend (first : Ascii text) (second : Ascii more) : Ascii (text ++ more) := by
  intro c inside
  rcases List.mem_append.mp inside with inside | inside
  · exact first c inside
  · exact second c inside

theorem asciiCons {c : UInt16} (first : c.toNat < 0x80) (second : Ascii text) : Ascii (c :: text) := by
  intro d inside
  rcases List.mem_cons.mp inside with rfl | inside
  · exact first
  · exact second d inside

theorem asciiUnit {c : UInt16} (ascii : c.toNat < 0x80) : isSurrogate c = false := by
  rw [Bool.eq_false_iff]
  intro surrogate
  simp only [isSurrogate,Bool.or_eq_true,highRange,lowRange] at surrogate
  omega

theorem asciiWellFormed (ascii : Ascii text) : toWellFormed text = text :=
  wellFormedPlain fun c inside => asciiUnit (ascii c inside)

theorem wellFormedJoin (first : toWellFormed text = text) (second : toWellFormed more = more) :
    toWellFormed (text ++ more) = text ++ more := by
  rw [wellFormedAppend more first,second]

theorem digitChar {n : Nat} {c : Char} (inside : c ∈ Nat.toDigits 10 n) : 48 ≤ c.toNat ∧ c.toNat ≤ 57 := by
  have digit := Nat.isDigit_of_mem_toDigits (by decide) (by decide) inside
  simp only [Char.isDigit,Bool.and_eq_true,decide_eq_true_eq,UInt32.le_iff_toNat_le,ge_iff_le] at digit
  exact digit

theorem digitRange {n : Nat} {c : UInt16} (inside : c ∈ digitUnits n) : 0x30 ≤ c.toNat ∧ c.toNat ≤ 0x39 := by
  obtain ⟨char,charInside,rfl⟩ := List.mem_map.mp inside
  have range := digitChar charInside
  rw [unitNat (by omega)]
  exact range

theorem digitsAscii (n : Nat) : Ascii (digitUnits n) := by
  intro c inside
  have range := digitRange inside
  omega

theorem repeatAscii {c : UInt16} (n : Nat) (ascii : c.toNat < 0x80) : Ascii (List.replicate n c) := by
  intro d inside
  rw [List.eq_of_mem_replicate inside]
  exact ascii

theorem partAscii (ascii : Ascii text) (part : ∀ c ∈ more, c ∈ text) : Ascii more :=
  fun c inside => ascii c (part c inside)

theorem placedAscii (point : Int) (ascii : Ascii text) : Ascii (placed text point) := by
  have first (n : Nat) : Ascii (text.take n) := partAscii ascii fun _ inside => List.mem_of_mem_take inside
  have last (n : Nat) : Ascii (text.drop n) := partAscii ascii fun _ inside => List.mem_of_mem_drop inside
  simp only [placed]
  split
  · exact asciiAppend ascii (repeatAscii _ (by decide))
  split
  · exact asciiAppend (first _) (asciiCons (by decide) (last _))
  split
  · exact asciiCons (by decide) (asciiCons (by decide) (asciiAppend (repeatAscii _ (by decide)) ascii))
  · apply asciiAppend
    · split
      · exact ascii
      · exact asciiAppend (first _) (asciiCons (by decide) (last _))
    · refine asciiCons (by decide) (asciiCons ?_ (digitsAscii _))
      split <;> decide

theorem positiveAscii (size : Rat) : Ascii (positiveText size) := by
  refine placedAscii _ (partAscii (digitsAscii (shortest size).1) fun c inside => ?_)
  exact List.mem_reverse.mp ((List.dropWhile_sublist _).subset (List.mem_reverse.mp inside))

theorem finiteAscii (value : Rat) : Ascii (finiteText value) := by
  have sign : Ascii (if value < 0 then [0x2D] else []) := by
    split
    · exact asciiCons (by decide) (fun c inside => absurd inside List.not_mem_nil)
    · exact fun c inside => absurd inside List.not_mem_nil
  unfold finiteText
  dsimp only
  split
  · exact asciiAppend sign (digitsAscii _)
  · exact asciiAppend sign (positiveAscii _)

theorem numberAscii (number : Number) : Ascii (numberText number) := by
  cases number with
  | finite value => exact finiteAscii value
  | infinite negative =>
      have all : (units "null").all (fun c => c.toNat < 0x80) = true := by decide
      exact fun c inside => by simpa using List.all_eq_true.mp all c inside

end Plain

section Quoting
variable {text : Utf16}

theorem hexRead {n : Nat} (small : n < 16) : hexDigit? (hexUnit n) = some n := by
  have all : ∀ n < 16, hexDigit? (hexUnit n) = some n := by decide
  exact all n small

theorem hexAscii {n : Nat} (small : n < 16) : (hexUnit n).toNat < 0x80 := by
  have all : ∀ n < 16, (hexUnit n).toNat < 0x80 := by decide
  exact all n small

theorem unicodeRead (c : UInt16) (rest : Utf16) :
    readString (unicodeEscape c ++ rest) = (readString rest).map fun read => (c :: read.1,read.2) := by
  have bound := unitBound c
  have whole : ((c.toNat / 0x1000 * 16 + c.toNat / 0x100 % 0x10) * 16 + c.toNat / 0x10 % 0x10) * 16 + c.toNat % 0x10 =
      c.toNat := by omega
  simp only [unicodeEscape,List.cons_append,List.nil_append]
  rw [readString,if_neg (by decide),if_pos rfl]
  simp only [hexRead (show c.toNat / 0x1000 < 16 by omega),hexRead (show c.toNat / 0x100 % 0x10 < 16 by omega),
    hexRead (show c.toNat / 0x10 % 0x10 < 16 by omega),hexRead (show c.toNat % 0x10 < 16 by omega),
    Option.bind_eq_bind,Option.bind_some,whole,UInt16.ofNat_toNat]
  cases readString rest <;> rfl

theorem plainRead {c : UInt16} (rest : Utf16) (quotes : c ≠ 0x22) (escapes : c ≠ 0x5C) (control : ¬ c.toNat < 0x20) :
    readString (c :: rest) = (readString rest).map fun read => (c :: read.1,read.2) := by
  rw [readString.eq_def]
  simp only [if_neg quotes,if_neg escapes,if_neg control]
  cases readString rest <;> rfl

theorem escapeRead {e c : UInt16} (rest : Utf16) (found : escaped? e = some c) :
    readString (0x5C :: e :: rest) = (readString rest).map fun read => (c :: read.1,read.2) := by
  rw [readString.eq_def]
  simp only [if_neg (show (0x5C : UInt16) ≠ 0x22 by decide),if_true]
  split
  · rename_i shape
    rw [(List.cons.inj shape).1] at found
    cases found
  · rename_i more other shape
    obtain ⟨rfl,rfl⟩ := List.cons.inj shape
    rw [found]
    cases readString rest <;> rfl
  · rename_i shape
    cases shape

theorem unitRead (c : UInt16) (rest : Utf16) :
    readString (quoteUnit c ++ rest) = (readString rest).map fun read => (c :: read.1,read.2) := by
  unfold quoteUnit
  split
  · rename_i special
    refine escapeRead rest ?_
    rcases special with rfl | rfl <;> rfl
  split
  · rename_i same
    exact escapeRead rest (same ▸ rfl)
  split
  · rename_i same
    exact escapeRead rest (same ▸ rfl)
  split
  · rename_i same
    exact escapeRead rest (same ▸ rfl)
  split
  · rename_i same
    exact escapeRead rest (same ▸ rfl)
  split
  · rename_i same
    exact escapeRead rest (same ▸ rfl)
  split
  · exact unicodeRead c rest
  · rename_i special _ _ _ _ _ plain
    exact plainRead rest (fun same => special (.inl same)) (fun same => special (.inr same))
      fun control => plain (.inl control)

theorem surrogatePlain {c : UInt16} (surrogate : isSurrogate c = true) : c ≠ 0x22 ∧ c ≠ 0x5C ∧ ¬ c.toNat < 0x20 := by
  simp only [isSurrogate,Bool.or_eq_true,highRange,lowRange] at surrogate
  refine ⟨?_,?_,by omega⟩
  · rintro rfl
    exact absurd surrogate (by decide)
  · rintro rfl
    exact absurd surrogate (by decide)

theorem bodyRead (text rest : Utf16) : readString (quoteBody text ++ 0x22 :: rest) = some (text,rest) := by
  have close : readString (0x22 :: rest) = some ([],rest) := by
    rw [readString.eq_def]
    exact if_pos rfl
  induction text using quoteBody.induct with
  | case1 => exact close
  | case2 c =>
      rw [quoteBody,unitRead,close]
      rfl
  | case3 high low more isPair ih =>
      have pair := isPair
      simp only [Bool.and_eq_true] at pair
      obtain ⟨a,b,d⟩ := surrogatePlain (show isSurrogate high = true by simp [isSurrogate,pair.1])
      obtain ⟨a',b',d'⟩ := surrogatePlain (show isSurrogate low = true by simp [isSurrogate,pair.2])
      rw [quoteBody,if_pos isPair,List.cons_append,List.cons_append,plainRead _ a b d,plainRead _ a' b' d',ih]
      rfl
  | case4 high low more apart ih =>
      rw [quoteBody,if_neg apart,List.append_assoc,unitRead,ih]
      rfl

theorem unitWellFormed (c : UInt16) : toWellFormed (quoteUnit c) = quoteUnit c := by
  unfold quoteUnit
  split
  · rename_i special
    rcases special with rfl | rfl <;> rfl
  split
  · rfl
  split
  · rfl
  split
  · rfl
  split
  · rfl
  split
  · rfl
  split
  · have bound := unitBound c
    refine asciiWellFormed fun d inside => ?_
    simp only [unicodeEscape,List.mem_cons,List.not_mem_nil,or_false] at inside
    rcases inside with rfl | rfl | rfl | rfl | rfl | rfl
    · decide
    · decide
    · exact hexAscii (by omega)
    · exact hexAscii (by omega)
    · exact hexAscii (by omega)
    · exact hexAscii (by omega)
  · rename_i plain
    refine wellFormedPlain fun d inside => ?_
    rw [List.mem_singleton.mp inside]
    exact Bool.eq_false_iff.mpr fun surrogate => plain (.inr surrogate)

theorem bodyWellFormed (text : Utf16) : toWellFormed (quoteBody text) = quoteBody text := by
  induction text using quoteBody.induct with
  | case1 => rfl
  | case2 c => exact unitWellFormed c
  | case3 high low more isPair ih => rw [quoteBody,if_pos isPair,toWellFormed,if_pos isPair,ih]
  | case4 high low more apart ih =>
      rw [quoteBody,if_neg apart]
      exact wellFormedJoin (unitWellFormed high) ih

theorem quoteWellFormed (text : Utf16) : toWellFormed (quote text) = quote text := by
  rw [quote,wellFormedCons _ (by decide),wellFormedJoin (bodyWellFormed text) rfl]

end Quoting

section Stringify

theorem commasCons (text other : Utf16) (texts : List Utf16) :
    commas (text :: other :: texts) = text ++ 0x2C :: commas (other :: texts) := by
  simp [commas,List.intercalate]

theorem commasWellFormed {texts : List Utf16} (each : ∀ text ∈ texts, toWellFormed text = text) :
    toWellFormed (commas texts) = commas texts := by
  induction texts with
  | nil => rfl
  | cons text texts ih =>
      have first := each text List.mem_cons_self
      have others := ih fun other inside => each other (List.mem_cons_of_mem text inside)
      cases texts with
      | nil => simpa [commas,List.intercalate] using first
      | cons other texts =>
          rw [commasCons]
          refine wellFormedJoin first ?_
          rw [wellFormedCons _ (by decide),others]

theorem orderedInside {α : Type} {fields : List (Utf16 × α)} {field : Utf16 × α} (inside : field ∈ ordered fields) :
    field ∈ fields := by
  simp only [ordered,List.mem_append,List.mem_insertionSort,List.mem_filter] at inside
  rcases inside with inside | inside
  · exact inside.1
  · exact inside.1

mutual
theorem stringifyWellFormed : (value : JsonValue) → toWellFormed (stringify value) = stringify value
  | .null => rfl
  | .bool value => by cases value <;> rfl
  | .number value => asciiWellFormed (numberAscii value)
  | .string text => quoteWellFormed text
  | .array items => by
      rw [stringify,wellFormedCons _ (by decide)]
      rw [wellFormedJoin (commasWellFormed (itemsWellFormed items)) rfl]
  | .object fields => by
      rw [stringify,wellFormedCons _ (by decide)]
      refine congrArg _ (wellFormedJoin (commasWellFormed fun text inside => ?_) rfl)
      obtain ⟨field,fieldInside,rfl⟩ := List.mem_map.mp inside
      refine wellFormedJoin (quoteWellFormed _) ?_
      rw [wellFormedCons _ (by decide),fieldsWellFormed fields field (orderedInside fieldInside)]
theorem itemsWellFormed : (items : List JsonValue) → ∀ text ∈ itemTexts items, toWellFormed text = text
  | [] => fun _ inside => absurd inside List.not_mem_nil
  | item :: items => fun text inside => by
      rcases List.mem_cons.mp inside with rfl | inside
      · exact stringifyWellFormed item
      · exact itemsWellFormed items text inside
theorem fieldsWellFormed : (fields : List (Utf16 × JsonValue)) → ∀ field ∈ fieldTexts fields, toWellFormed field.2 = field.2
  | [] => fun _ inside => absurd inside List.not_mem_nil
  | (key,value) :: fields => fun field inside => by
      rcases List.mem_cons.mp inside with rfl | inside
      · exact stringifyWellFormed value
      · exact fieldsWellFormed fields field inside
end

end Stringify
end Encoding
