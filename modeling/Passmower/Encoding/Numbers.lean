import Mathlib.Algebra.Order.Ring.Abs
import Mathlib.Data.Rat.Floor
import Mathlib.Tactic.Linarith
import Mathlib.Tactic.Ring
import Passmower.Encoding.Utf8

/-! The numbers of JavaScript, as the text of a number stands for them and as they are printed. -/
namespace Encoding

inductive Number where
  | finite (value : Rat)
  | infinite (negative : Bool)
  deriving DecidableEq

def halfEven (q : Rat) : Int :=
  let below := q.floor
  let rest := q - below
  if rest < 1 / 2 then below
  else if 1 / 2 < rest then below + 1
  else if below % 2 = 0 then below else below + 1

def binaryExponent (size : Rat) : Int :=
  let estimate : Int := (Nat.log2 size.num.natAbs : Int) - (Nat.log2 size.den : Int)
  if (2 : Rat) ^ estimate ≤ size then estimate else estimate - 1

def Number.nearest (q : Rat) : Number :=
  if q = 0 then .finite 0
  else
    let size := |q|
    let ulp : Rat := (2 : Rat) ^ max (binaryExponent size - 52) (-1074)
    let rounded := halfEven (size / ulp) * ulp
    if rounded < (2 : Rat) ^ (1024 : Int) then .finite (if q < 0 then -rounded else rounded) else .infinite (q < 0)

def isDigit (c : UInt16) : Bool := 0x30 ≤ c.toNat && c.toNat ≤ 0x39

def digitUnits (n : Nat) : Utf16 := (Nat.toDigits 10 n).map fun c => UInt16.ofNat c.toNat

def digitsValue (digits : Utf16) : Nat := digits.foldl (fun n c => n * 10 + (c.toNat - 0x30)) 0

def decimalExponent (size : Rat) : Int :=
  let estimate : Int := ((Nat.toDigits 10 size.num.natAbs).length : Int) - ((Nat.toDigits 10 size.den).length : Int)
  if (10 : Rat) ^ estimate ≤ size then estimate + 1 else estimate

def significand (size : Rat) (digits : Nat) : Option Nat :=
  let place : Rat := (10 : Rat) ^ (decimalExponent size - digits)
  let below := (size / place).floor.toNat
  let closest := (halfEven (size / place)).toNat
  let other := if closest = below then below + 1 else below
  [closest,other].find? fun s => Number.nearest (s * place) = .finite size

/- The fewest digits that stand for a positive double, and how many they are; seventeen tell any two doubles apart. -/
def shortest (size : Rat) : Nat × Nat :=
  ((List.range 16).findSome? fun i => (significand size (i + 1)).map fun s => (s,i + 1)).getD
    ((halfEven (size / (10 : Rat) ^ (decimalExponent size - 17))).toNat,17)

def placed (digits : Utf16) (point : Int) : Utf16 :=
  let k := digits.length
  if k ≤ point ∧ point ≤ 21 then digits ++ List.replicate (point.toNat - k) 0x30
  else if 0 < point ∧ point ≤ 21 then digits.take point.toNat ++ 0x2E :: digits.drop point.toNat
  else if -6 < point ∧ point ≤ 0 then 0x30 :: 0x2E :: (List.replicate (-point).toNat 0x30 ++ digits)
  else
    let mantissa := if k ≤ 1 then digits else digits.take 1 ++ 0x2E :: digits.drop 1
    mantissa ++ 0x65 :: (if point < 1 then 0x2D else 0x2B) :: digitUnits (point - 1).natAbs

def positiveText (size : Rat) : Utf16 :=
  let (s,k) := shortest size
  let digits := digitUnits s
  placed (digits.reverse.dropWhile (· = 0x30)).reverse (decimalExponent size + (digits.length - k))

/- `String(number)` of a finite one; a whole number below 2⁵³ has all its digits. -/
def finiteText (value : Rat) : Utf16 :=
  let sign : Utf16 := if value < 0 then [0x2D] else []
  if value.den = 1 ∧ value.num.natAbs < 2 ^ 53 then sign ++ digitUnits value.num.natAbs
  else sign ++ positiveText |value|

end Encoding
