import NamedRelay.Decimal
import NamedRelay.Document.Basic

/-!
# What scalars stand for

The characters of a plain scalar decide what it stands for; a quoted scalar is always text. An
integer has decimal digits or the mark of another base, and one that fits no field is oversized.
-/

namespace NamedRelay

/-- What a scalar stands for. Integers that do not fit 64 bits are `oversized`. -/
inductive Atom where
  | null
  | bool (value : Bool)
  | natural (value : Nat)
  | negative (magnitude : Nat)
  | oversized
  | real
  | text (value : String)
deriving DecidableEq, Repr

namespace Scalar

/-- Digits after a zero are text, not a number. -/
def isZeroLed : List Char → Bool
  | '0' :: c :: rest => (c :: rest).all Char.isDigit
  | _ => false

/-- The value of digits if it is below a limit. -/
def digitsBelow? (base limit : Nat) (chars : List Char) : Option Nat :=
  (Decimal.digits? base chars).filter (· < limit)

/-- Digits after the mark of a base, or decimal digits. -/
def magnitude? (limit : Nat) (chars : List Char) : Option Nat :=
  let marked? :=
    match chars with
    | '0' :: 'x' :: rest => digitsBelow? 16 limit rest
    | '0' :: 'o' :: rest => digitsBelow? 8 limit rest
    | '0' :: 'b' :: rest => digitsBelow? 2 limit rest
    | _ => none
  marked?.or (if isZeroLed chars then none else digitsBelow? 10 limit chars)

/-- An integer without a minus sign, below a limit. -/
def unsigned? (limit : Nat) : List Char → Option Nat
  | '+' :: rest => magnitude? limit rest
  | chars => magnitude? limit chars

def negative? (limit : Nat) : List Char → Option Nat
  | '-' :: rest => magnitude? limit rest
  | _ => none

def withoutSign : List Char → List Char
  | '+' :: rest | '-' :: rest => rest
  | chars => chars

/-- A finite decimal fraction, infinity or no number at all. A fraction too large to be finite is
text. -/
def isReal (chars : List Char) : Bool :=
  [".nan", ".NaN", ".NAN"].contains (String.ofList chars)
    || [".inf", ".Inf", ".INF"].contains (String.ofList (withoutSign chars))
    || (Decimal.ofChars? (withoutSign chars)).any Decimal.isFinite

/-- The number of values of two 64-bit words. -/
def doubleWord : Nat :=
  UInt64.size * UInt64.size

/-- What a scalar stands for. -/
def atom : Scalar → Atom
  | quoted text => .text text
  | plain text =>
    if ["", "~", "null", "Null", "NULL"].contains text then .null
    else if ["true", "True", "TRUE"].contains text then .bool true
    else if ["false", "False", "FALSE"].contains text then .bool false
    else
      let chars := text.toList
      match unsigned? UInt64.size chars, negative? (UInt64.size / 2 + 1) chars with
      | some value, _ => .natural value
      | none, some magnitude => .negative magnitude
      | none, none =>
        if (unsigned? doubleWord chars).isSome || (negative? (doubleWord / 2 + 1) chars).isSome then
          .oversized
        else if !isZeroLed (withoutSign chars) && isReal chars then .real
        else .text text

end Scalar

end NamedRelay
