import NamedRelay.Bytes

/-!
# Numbers in digits

A natural number is written in the digits of its base. A decimal fraction has a point or an
exponent or both, and is a number only where the double nearest to it is finite.
-/

namespace NamedRelay

namespace Decimal

/-- The value of one or more digits in a base. -/
def digits? (base : Nat) (chars : List Char) : Option Nat :=
  if chars.isEmpty then none
  else
    chars.foldlM (fun acc c =>
      ((Bytes.digitValue? c).filter (· < base)).map (acc * base + ·)) 0

end Decimal

/-- The digits on both sides of a point, and the power of ten that the last one counts. -/
structure Decimal where
  digits : List Char
  exponent : Int
deriving DecidableEq, Repr

namespace Decimal

/-- An exponent with its mark; where none is written it is zero. -/
def exponent? : List Char → Option Int
  | [] => some 0
  | mark :: rest =>
    if mark == 'e' || mark == 'E' then
      match rest with
      | '-' :: chars => (digits? 10 chars).map fun value => -Int.ofNat value
      | '+' :: chars => (digits? 10 chars).map Int.ofNat
      | chars => (digits? 10 chars).map Int.ofNat
    else none

/-- Reads a decimal fraction without a sign. -/
def ofChars? (chars : List Char) : Option Decimal :=
  let whole := chars.takeWhile Char.isDigit
  let (fraction, rest) := match chars.dropWhile Char.isDigit with
    | '.' :: rest => (rest.takeWhile Char.isDigit, rest.dropWhile Char.isDigit)
    | rest => ([], rest)
  if whole.isEmpty && fraction.isEmpty then none
  else (exponent? rest).map fun exponent => ⟨whole ++ fraction, exponent - fraction.length⟩

/-- Half a unit above the greatest double. What is not below it rounds to infinity. -/
def infinityBound : Nat :=
  1 <<< 1024 - 1 <<< 970

/-- The double nearest to the fraction is finite. The bound has 309 digits, so most numbers of
digits decide alone. -/
def isFinite (d : Decimal) : Bool :=
  let digits := d.digits.dropWhile (· == '0')
  let size := digits.length + d.exponent
  if digits.isEmpty || size < 309 then true
  else if 309 < size then false
  else
    let value := (digits? 10 digits).getD 0
    match d.exponent with
    | .ofNat up => value * Nat.pow 10 up < infinityBound
    | .negSucc down => value < infinityBound * Nat.pow 10 (down + 1)

end Decimal

end NamedRelay
