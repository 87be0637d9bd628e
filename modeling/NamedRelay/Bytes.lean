/-!
# Byte strings

Names, payloads and wire images are plain lists of bytes, so the list library reasons about them.
-/

namespace NamedRelay

abbrev Bytes := List UInt8

instance : LawfulBEq Bytes := inferInstance

namespace Bytes

def ofText (text : String) : Bytes :=
  text.toUTF8.data.toList

/-- The lower-case hexadecimal digit of a value below sixteen. -/
def hexDigit (value : UInt8) : Char :=
  if value < 10 then Char.ofNat (48 + value.toNat) else Char.ofNat (87 + value.toNat)

/-- Two digits, high half first. -/
def hexPair (byte : UInt8) : List Char :=
  [hexDigit (byte >>> 4), hexDigit (byte &&& 15)]

/-- Two lower-case hexadecimal digits for each byte. -/
def hex (bytes : Bytes) : String :=
  String.ofList (bytes.flatMap hexPair)

/-- The value of a hexadecimal digit of either case. -/
def digitValue? (c : Char) : Option Nat :=
  if '0' ≤ c ∧ c ≤ '9' then some (c.toNat - 48)
  else if 'a' ≤ c ∧ c ≤ 'f' then some (c.toNat - 87)
  else if 'A' ≤ c ∧ c ≤ 'F' then some (c.toNat - 55)
  else none

def ofHex? : List Char → Option Bytes
  | [] => some []
  | [_] => none
  | high :: low :: rest => do
    return UInt8.ofNat ((← digitValue? high) * 16 + (← digitValue? low)) :: (← ofHex? rest)

end Bytes

end NamedRelay
