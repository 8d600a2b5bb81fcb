import Mathlib.Data.List.Basic
import Mathlib.Tactic.Common

/-! Texts as UTF-16 code units, and UTF-8: as `Buffer` writes texts and reads them. -/
namespace Encoding

abbrev Utf16 := List UInt16
abbrev Bytes := List UInt8

def isHigh (c : UInt16) : Bool := 0xD800 ≤ c.toNat && c.toNat ≤ 0xDBFF

def isLow (c : UInt16) : Bool := 0xDC00 ≤ c.toNat && c.toNat ≤ 0xDFFF

def isSurrogate (c : UInt16) : Bool := isHigh c || isLow c

def pairPoint (high low : UInt16) : Nat := 0x10000 + (high.toNat - 0xD800) * 0x400 + (low.toNat - 0xDC00)

def pointUnits (point : Nat) : Utf16 :=
  if point < 0x10000 then [UInt16.ofNat point]
  else [UInt16.ofNat (0xD800 + (point - 0x10000) / 0x400),UInt16.ofNat (0xDC00 + (point - 0x10000) % 0x400)]

def units (text : String) : Utf16 := text.toList.flatMap fun c => pointUnits c.toNat

def scalar (c : UInt16) : UInt16 := if isSurrogate c then 0xFFFD else c

def toWellFormed : Utf16 → Utf16
  | [] => []
  | [c] => [scalar c]
  | high :: low :: rest =>
      if isHigh high && isLow low then high :: low :: toWellFormed rest else scalar high :: toWellFormed (low :: rest)

def pointBytes (point : Nat) : Bytes :=
  if point < 0x80 then [UInt8.ofNat point]
  else if point < 0x800 then [UInt8.ofNat (0xC0 + point / 0x40),UInt8.ofNat (0x80 + point % 0x40)]
  else if point < 0x10000 then
    [UInt8.ofNat (0xE0 + point / 0x1000),UInt8.ofNat (0x80 + point / 0x40 % 0x40),UInt8.ofNat (0x80 + point % 0x40)]
  else
    [UInt8.ofNat (0xF0 + point / 0x40000),UInt8.ofNat (0x80 + point / 0x1000 % 0x40),
      UInt8.ofNat (0x80 + point / 0x40 % 0x40),UInt8.ofNat (0x80 + point % 0x40)]

def utf8 : Utf16 → Bytes
  | [] => []
  | [c] => pointBytes (scalar c).toNat
  | high :: low :: rest =>
      if isHigh high && isLow low then pointBytes (pairPoint high low) ++ utf8 rest
      else pointBytes (scalar high).toNat ++ utf8 (low :: rest)

structure Pending where
  point : Nat
  needed : Nat
  lower : Nat := 0x80
  upper : Nat := 0xBF
  deriving DecidableEq, Repr

def firstByte (byte : UInt8) : Utf16 × Option Pending :=
  let b := byte.toNat
  if b < 0x80 then ([UInt16.ofNat b],none)
  else if 0xC2 ≤ b ∧ b ≤ 0xDF then ([],some {point := b - 0xC0, needed := 1})
  else if b = 0xE0 then ([],some {point := 0, needed := 2, lower := 0xA0})
  else if b = 0xED then ([],some {point := 0xD, needed := 2, upper := 0x9F})
  else if 0xE1 ≤ b ∧ b ≤ 0xEF then ([],some {point := b - 0xE0, needed := 2})
  else if b = 0xF0 then ([],some {point := 0, needed := 3, lower := 0x90})
  else if b = 0xF4 then ([],some {point := 4, needed := 3, upper := 0x8F})
  else if 0xF1 ≤ b ∧ b ≤ 0xF3 then ([],some {point := b - 0xF0, needed := 3})
  else ([0xFFFD],none)

def nextByte : Option Pending → UInt8 → Utf16 × Option Pending
  | none, byte => firstByte byte
  | some pending, byte =>
      let b := byte.toNat
      if pending.lower ≤ b ∧ b ≤ pending.upper then
        let point := pending.point * 0x40 + (b - 0x80)
        if pending.needed = 1 then (pointUnits point,none) else ([],some {point := point, needed := pending.needed - 1})
      else (0xFFFD :: (firstByte byte).1,(firstByte byte).2)

def utf8From : Option Pending → Bytes → Utf16
  | none, [] => []
  | some _, [] => [0xFFFD]
  | pending, byte :: rest => (nextByte pending byte).1 ++ utf8From (nextByte pending byte).2 rest

def utf8Text (bytes : Bytes) : Utf16 := utf8From none bytes

theorem byteNat {n : Nat} (small : n < 0x100) : (UInt8.ofNat n).toNat = n := by
  simp [Nat.mod_eq_of_lt small]

theorem unitNat {n : Nat} (small : n < 0x10000) : (UInt16.ofNat n).toNat = n := by
  simp [Nat.mod_eq_of_lt small]

theorem highRange {c : UInt16} : isHigh c = true ↔ 0xD800 ≤ c.toNat ∧ c.toNat ≤ 0xDBFF := by
  simp [isHigh]

theorem lowRange {c : UInt16} : isLow c = true ↔ 0xDC00 ≤ c.toNat ∧ c.toNat ≤ 0xDFFF := by
  simp [isLow]

theorem unitBound (c : UInt16) : c.toNat < 0x10000 := c.toNat_lt

theorem scalarRange (c : UInt16) : (scalar c).toNat < 0xD800 ∨ 0xDFFF < (scalar c).toNat := by
  unfold scalar isSurrogate
  split
  · right
    decide
  · rename_i plain
    simp only [Bool.or_eq_true,highRange,lowRange] at plain
    omega

theorem pairRange {high low : UInt16} (isPair : (isHigh high && isLow low) = true) :
    0x10000 ≤ pairPoint high low ∧ pairPoint high low < 0x110000 := by
  simp only [Bool.and_eq_true,highRange,lowRange] at isPair
  unfold pairPoint
  omega

theorem pairUnits {high low : UInt16} (isPair : (isHigh high && isLow low) = true) :
    pointUnits (pairPoint high low) = [high,low] := by
  have range := pairRange isPair
  simp only [Bool.and_eq_true,highRange,lowRange] at isPair
  have first : 0xD800 + (pairPoint high low - 0x10000) / 0x400 = high.toNat := by
    unfold pairPoint
    omega
  have second : 0xDC00 + (pairPoint high low - 0x10000) % 0x400 = low.toNat := by
    unfold pairPoint
    omega
  rw [pointUnits,if_neg (by omega),first,second,UInt16.ofNat_toNat,UInt16.ofNat_toNat]

theorem scalarUnits (c : UInt16) : pointUnits c.toNat = [c] := by
  rw [pointUnits,if_pos (unitBound c),UInt16.ofNat_toNat]

theorem readOn {pending : Pending} {b : Nat} (rest : Bytes) (small : b < 0x40)
    (within : pending.lower ≤ 0x80 + b ∧ 0x80 + b ≤ pending.upper) (more : pending.needed ≠ 1) :
    utf8From (some pending) (UInt8.ofNat (0x80 + b) :: rest) =
      utf8From (some {point := pending.point * 0x40 + b, needed := pending.needed - 1}) rest := by
  rw [utf8From,nextByte]
  simp only [byteNat (show 0x80 + b < 0x100 by omega)]
  rw [if_pos within,if_neg more,Nat.add_sub_cancel_left]
  rfl

theorem readLast {pending : Pending} {b : Nat} (rest : Bytes) (small : b < 0x40)
    (within : pending.lower ≤ 0x80 + b ∧ 0x80 + b ≤ pending.upper) (last : pending.needed = 1) :
    utf8From (some pending) (UInt8.ofNat (0x80 + b) :: rest) =
      pointUnits (pending.point * 0x40 + b) ++ utf8From none rest := by
  rw [utf8From,nextByte]
  simp only [byteNat (show 0x80 + b < 0x100 by omega)]
  rw [if_pos within,if_pos last,Nat.add_sub_cancel_left]

theorem readThree {b : Nat} (rest : Bytes) (small : b < 0x10) :
    utf8From none (UInt8.ofNat (0xE0 + b) :: rest) = utf8From (some {
      point := b
      needed := 2
      lower := if b = 0 then 0xA0 else 0x80
      upper := if b = 0xD then 0x9F else 0xBF}) rest := by
  rw [utf8From,nextByte,firstByte]
  simp only [byteNat (show 0xE0 + b < 0x100 by omega)]
  rw [if_neg (by omega),if_neg (by omega)]
  by_cases zero : b = 0
  · subst zero
    rfl
  · rw [if_neg (by omega),if_neg zero]
    by_cases thirteen : b = 0xD
    · subst thirteen
      rfl
    · rw [if_neg (by omega),if_pos (by omega),if_neg thirteen,Nat.add_sub_cancel_left]
      rfl

theorem readFour {b : Nat} (rest : Bytes) (small : b < 5) :
    utf8From none (UInt8.ofNat (0xF0 + b) :: rest) = utf8From (some {
      point := b
      needed := 3
      lower := if b = 0 then 0x90 else 0x80
      upper := if b = 4 then 0x8F else 0xBF}) rest := by
  have cases : b = 0 ∨ b = 1 ∨ b = 2 ∨ b = 3 ∨ b = 4 := by omega
  rcases cases with rfl | rfl | rfl | rfl | rfl <;> rfl

theorem pointRead {point : Nat} (rest : Bytes) (inside : point < 0x110000) (plain : point < 0xD800 ∨ 0xDFFF < point) :
    utf8From none (pointBytes point ++ rest) = pointUnits point ++ utf8From none rest := by
  unfold pointBytes
  split
  · rename_i ascii
    have single : pointUnits point = [UInt16.ofNat point] := if_pos (by omega)
    rw [List.singleton_append,utf8From,nextByte,firstByte]
    simp only [byteNat (show point < 0x100 by omega)]
    rw [if_pos ascii,single]
  split
  · have first : utf8From none (UInt8.ofNat (0xC0 + point / 0x40) :: UInt8.ofNat (0x80 + point % 0x40) :: rest) =
        utf8From (some {point := point / 0x40, needed := 1}) (UInt8.ofNat (0x80 + point % 0x40) :: rest) := by
      rw [utf8From,nextByte,firstByte]
      simp only [byteNat (show 0xC0 + point / 0x40 < 0x100 by omega)]
      rw [if_neg (by omega),if_pos (by omega),Nat.add_sub_cancel_left]
      rfl
    have whole : point / 0x40 * 0x40 + point % 0x40 = point := by omega
    simp only [List.cons_append,List.nil_append]
    rw [first,readLast rest (by omega) ⟨by show 0x80 ≤ _; omega,by show _ ≤ 0xBF; omega⟩ rfl]
    rw [whole]
  split
  · have whole : (point / 0x1000 * 0x40 + point / 0x40 % 0x40) * 0x40 + point % 0x40 = point := by omega
    simp only [List.cons_append,List.nil_append]
    rw [readThree _ (by omega),readOn _ (by omega) (by dsimp only; split <;> split <;> omega) (show 2 ≠ 1 by decide),
      readLast rest (by omega) ⟨by show 0x80 ≤ _; omega,by show _ ≤ 0xBF; omega⟩ rfl]
    rw [whole]
  · have whole : ((point / 0x40000 * 0x40 + point / 0x1000 % 0x40) * 0x40 + point / 0x40 % 0x40) * 0x40 +
        point % 0x40 = point := by omega
    simp only [List.cons_append,List.nil_append]
    rw [readFour _ (by omega),readOn _ (by omega) (by dsimp only; split <;> split <;> omega) (show 3 ≠ 1 by decide),
      readOn _ (by omega) ⟨by show 0x80 ≤ _; omega,by show _ ≤ 0xBF; omega⟩ (show 3 - 1 ≠ 1 by decide),
      readLast rest (by omega) ⟨by show 0x80 ≤ _; omega,by show _ ≤ 0xBF; omega⟩ rfl]
    rw [whole]

theorem scalarPlain {c : UInt16} (plain : isSurrogate c = false) : scalar c = c := by
  rw [scalar,if_neg (by simp [plain])]

theorem scalarSame {c : UInt16} (same : scalar c = c) : isSurrogate c = false := by
  have range := scalarRange c
  rw [same] at range
  rw [Bool.eq_false_iff]
  intro surrogate
  simp only [isSurrogate,Bool.or_eq_true,highRange,lowRange] at surrogate
  omega

theorem wellFormedCons {c : UInt16} (rest : Utf16) (plain : isSurrogate c = false) :
    toWellFormed (c :: rest) = c :: toWellFormed rest := by
  cases rest with
  | nil =>
      show [scalar c] = [c]
      rw [scalarPlain plain]
  | cons d rest =>
      have apart : ¬ (isHigh c && isLow d) = true := by
        simp only [isSurrogate,Bool.or_eq_false_iff] at plain
        simp [plain.1]
      rw [toWellFormed,if_neg apart,scalarPlain plain]

theorem wellFormedAppend {text : Utf16} (rest : Utf16) (same : toWellFormed text = text) :
    toWellFormed (text ++ rest) = text ++ toWellFormed rest := by
  induction text using toWellFormed.induct with
  | case1 => rfl
  | case2 c =>
      rw [toWellFormed] at same
      exact wellFormedCons rest (scalarSame (List.cons.inj same).1)
  | case3 high low more isPair ih =>
      rw [toWellFormed,if_pos isPair] at same
      simp only [List.cons_append,toWellFormed]
      rw [if_pos isPair,ih (List.cons.inj (List.cons.inj same).2).2]
  | case4 high low more apart ih =>
      rw [toWellFormed,if_neg apart] at same
      obtain ⟨head,tail⟩ := List.cons.inj same
      rw [List.cons_append,wellFormedCons _ (scalarSame head),ih tail]
      rfl

theorem wellFormedPlain {text : Utf16} (plain : ∀ c ∈ text, isSurrogate c = false) : toWellFormed text = text := by
  induction text with
  | nil => rfl
  | cons c rest ih =>
      rw [wellFormedCons rest (plain c List.mem_cons_self),ih fun d inside => plain d (List.mem_cons_of_mem c inside)]

theorem wellFormedLength (text : Utf16) : (toWellFormed text).length = text.length := by
  induction text using toWellFormed.induct with
  | case1 => rfl
  | case2 c => rfl
  | case3 high low more isPair ih => rw [toWellFormed,if_pos isPair,List.length_cons,List.length_cons,ih]; rfl
  | case4 high low more apart ih => rw [toWellFormed,if_neg apart,List.length_cons,ih]; rfl

theorem unreplaced {text : Utf16} (none : (0xFFFD : UInt16) ∉ toWellFormed text) : toWellFormed text = text := by
  have whole {c : UInt16} (other : (0xFFFD : UInt16) ≠ scalar c) : scalar c = c := by
    unfold scalar at other ⊢
    split
    · rename_i surrogate
      rw [if_pos surrogate] at other
      exact absurd rfl other
    · rfl
  induction text using toWellFormed.induct with
  | case1 => rfl
  | case2 c =>
      rw [toWellFormed,List.mem_singleton] at none
      rw [toWellFormed,whole none]
  | case3 high low rest isPair ih =>
      rw [toWellFormed,if_pos isPair] at none ⊢
      rw [ih fun inside => none (List.mem_cons_of_mem _ (List.mem_cons_of_mem _ inside))]
  | case4 high low rest apart ih =>
      rw [toWellFormed,if_neg apart] at none ⊢
      rw [whole fun same => none (same ▸ List.mem_cons_self),ih fun inside => none (List.mem_cons_of_mem _ inside)]

theorem utf8Read (text : Utf16) : utf8Text (utf8 text) = toWellFormed text := by
  have alone (c : UInt16) (rest : Bytes) :
      utf8From none (pointBytes (scalar c).toNat ++ rest) = scalar c :: utf8From none rest := by
    have bound := unitBound (scalar c)
    rw [pointRead rest (by omega) (scalarRange c),scalarUnits]
    rfl
  unfold utf8Text
  induction text using utf8.induct with
  | case1 => rfl
  | case2 c =>
      have one := alone c []
      rwa [List.append_nil] at one
  | case3 high low rest isPair ih =>
      have range := pairRange isPair
      rw [utf8,toWellFormed,if_pos isPair,if_pos isPair,pointRead _ range.2 (by omega),pairUnits isPair,ih]
      rfl
  | case4 high low rest apart ih => rw [utf8,toWellFormed,if_neg apart,if_neg apart,alone,ih]

end Encoding
