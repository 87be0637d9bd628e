import NamedRelay.Bytes

/-!
# Socket addresses as text

An address and a port, `10.0.0.1:80` or `[fe80::1%3]:80`. Octets are decimal without leading
zeros, groups are up to four hexadecimal digits, one `::` may stand for one or more zero groups,
and the last two groups may be written as four octets. The text written has the longest run of at
least two zero groups as `::`, the first of equal runs.
-/

namespace NamedRelay

inductive SocketAddress where
  | v4 (octets : Vector UInt8 4) (port : UInt16)
  | v6 (groups : Vector UInt16 8) (scope : UInt32) (port : UInt16)
deriving DecidableEq, Repr

namespace SocketAddress

def isV4 : SocketAddress → Bool
  | v4 .. => true
  | v6 .. => false

/-! ## Reading -/

/-- The value of a digit in a base of at most sixteen. -/
def digitValue? (base : Nat) (c : Char) : Option Nat :=
  (Bytes.digitValue? c).filter (· < base)

/-- The digits in front, and what follows them. -/
def takeDigits (base : Nat) : List Char → List Nat × List Char
  | c :: rest =>
    match digitValue? base c with
    | some value => ((takeDigits base rest).map (value :: ·) id)
    | none => ([], c :: rest)
  | [] => ([], [])

def ofDigits (base : Nat) (digits : List Nat) : Nat :=
  digits.foldl (fun acc digit => acc * base + digit) 0

/-- A number of one or more digits below `limit`. -/
def readNumber (base limit : Nat) (maxDigits : Option Nat) (zeroFirst : Bool) (text : List Char) :
    Option (Nat × List Char) :=
  let (digits, rest) := takeDigits base text
  if digits.isEmpty then none
  else if maxDigits.any (· < digits.length) then none
  else if !zeroFirst && digits.head? == some 0 && 1 < digits.length then none
  else
    let value := ofDigits base digits
    if value < limit then some (value, rest) else none

def readChar (expected : Char) : List Char → Option (List Char)
  | c :: rest => if c = expected then some rest else none
  | [] => none

/-- The separator, which does not stand before the first item. -/
def readSeparator (separator : Char) (index : Nat) (text : List Char) : Option (List Char) :=
  if index = 0 then some text else readChar separator text

def readOctet (index : Nat) (text : List Char) : Option (UInt8 × List Char) := do
  let rest ← readSeparator '.' index text
  let (value, rest) ← readNumber 10 256 (some 3) false rest
  return (UInt8.ofNat value, rest)

def readOctets (text : List Char) : Option (Vector UInt8 4 × List Char) := do
  let (a, text) ← readOctet 0 text
  let (b, text) ← readOctet 1 text
  let (c, text) ← readOctet 2 text
  let (d, text) ← readOctet 3 text
  return (#v[a, b, c, d], text)

def joinOctets (high low : UInt8) : UInt16 :=
  high.toUInt16 <<< 8 ||| low.toUInt16

/-- Four octets in the place of two groups. -/
def readEmbedded (index : Nat) (text : List Char) : Option (List UInt16 × List Char) := do
  let rest ← readSeparator ':' index text
  let (octets, rest) ← readOctets rest
  return ([joinOctets octets[0] octets[1], joinOctets octets[2] octets[3]], rest)

def readGroup (index : Nat) (text : List Char) : Option (UInt16 × List Char) := do
  let rest ← readSeparator ':' index text
  let (value, rest) ← readNumber 16 65536 (some 4) true rest
  return (UInt16.ofNat value, rest)

/-- Up to `room` groups from the `index`-th on, whether they end in octets, and the rest. -/
def readGroups : Nat → Nat → List Char → List UInt16 × Bool × List Char
  | 0, _, text => ([], false, text)
  | room + 1, index, text =>
    match if room = 0 then none else readEmbedded index text with
    | some (groups, rest) => (groups, true, rest)
    | none =>
      match readGroup index text with
      | some (group, rest) =>
        let (groups, embedded, rest) := readGroups room (index + 1) rest
        (group :: groups, embedded, rest)
      | none => ([], false, text)

def ofGroups? (groups : List UInt16) : Option (Vector UInt16 8) :=
  if h : groups.length = 8 then some ⟨groups.toArray, by simpa using h⟩ else none

def readV6 (text : List Char) : Option (Vector UInt16 8 × List Char) :=
  let (head, embedded, rest) := readGroups 8 0 text
  if head.length = 8 then (ofGroups? head).map (·, rest)
  else if embedded then none
  else do
    let rest ← readChar ':' rest
    let rest ← readChar ':' rest
    let (tail, _, rest) := readGroups (7 - head.length) 0 rest
    let groups ← ofGroups? (head ++ List.replicate (8 - head.length - tail.length) 0 ++ tail)
    return (groups, rest)

def readPort (text : List Char) : Option (UInt16 × List Char) := do
  let rest ← readChar ':' text
  let (value, rest) ← readNumber 10 65536 none true rest
  return (UInt16.ofNat value, rest)

/-- A scope that cannot be read is no scope, and is left in the text. -/
def readScope (text : List Char) : UInt32 × List Char :=
  let scope? := do
    let rest ← readChar '%' text
    readNumber 10 4294967296 none true rest
  match scope? with
  | some (value, rest) => (UInt32.ofNat value, rest)
  | none => (0, text)

def readSocketV4 (text : List Char) : Option (SocketAddress × List Char) := do
  let (octets, rest) ← readOctets text
  let (port, rest) ← readPort rest
  return (v4 octets port, rest)

def readSocketV6 (text : List Char) : Option (SocketAddress × List Char) := do
  let rest ← readChar '[' text
  let (groups, rest) ← readV6 rest
  let (scope, rest) := readScope rest
  let rest ← readChar ']' rest
  let (port, rest) ← readPort rest
  return (v6 groups scope port, rest)

def ofText? (text : String) : Option SocketAddress :=
  match (readSocketV4 text.toList).or (readSocketV6 text.toList) with
  | some (address, []) => some address
  | _ => none

/-! ## Writing -/

def hexText (value : Nat) : String :=
  String.ofList (Nat.toDigits 16 value)

def octetsText (octets : List UInt8) : String :=
  ".".intercalate (octets.map fun octet => toString octet.toNat)

def groupsText (groups : List UInt16) : String :=
  ":".intercalate (groups.map fun group => hexText group.toNat)

def zerosInFront (groups : List UInt16) : Nat :=
  (groups.takeWhile (· == 0)).length

/-- Start and length of the longest run of zero groups, the first of equal runs. -/
def longestZeros (groups : List UInt16) : Nat × Nat :=
  (List.range groups.length).foldl (fun best start =>
    let run := zerosInFront (groups.drop start)
    if best.2 < run then (start, run) else best) (0, 0)

/-- The octets of an address that maps an IPv4 one. -/
def mapped? : List UInt16 → Option (List UInt8)
  | [0, 0, 0, 0, 0, 0xffff, high, low] =>
    some [(high >>> 8).toUInt8, high.toUInt8, (low >>> 8).toUInt8, low.toUInt8]
  | _ => none

def v6Text (groups : List UInt16) : String :=
  match mapped? groups with
  | some octets => "::ffff:" ++ octetsText octets
  | none =>
    let (start, run) := longestZeros groups
    if 1 < run then
      groupsText (groups.take start) ++ "::" ++ groupsText (groups.drop (start + run))
    else groupsText groups

def text : SocketAddress → String
  | v4 octets port => octetsText octets.toList ++ ":" ++ toString port.toNat
  | v6 groups scope port =>
    let scopeText := if scope = 0 then "" else "%" ++ toString scope.toNat
    "[" ++ v6Text groups.toList ++ scopeText ++ "]:" ++ toString port.toNat

end SocketAddress

end NamedRelay
