import Passmower.JavaScript

/-! Numbers read from text, and slices of arrays. -/
namespace JavaScript

def leadingDigits (text : List Char) : Option Nat :=
  let digits := text.takeWhile Char.isDigit
  if digits = [] then none else some (Nat.ofDigitChars 10 digits 0)

/- `Number.parseInt(text, 10)`, where `NaN` is none: exact up to 2^53. Of a larger number the source has the nearest double, and
`Infinity` from 2^1024 on; like the number itself these are beyond the end of every array. -/
def parseInt (text : String) : Option Int := match text.toList.dropWhile isTrimmed with
  | '-' :: rest => (leadingDigits rest).map fun n => -(n : Int)
  | '+' :: rest => (leadingDigits rest).map Int.ofNat
  | rest => (leadingDigits rest).map Int.ofNat

section Slices
variable {α : Type} {items : List α}

end Slices
end JavaScript
