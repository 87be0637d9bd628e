import NamedRelay.Name.Basic

/-!
# Names as text

A path is a slash before each component. Bytes that are not printable ASCII are written as `%`
and two hexadecimal digits, and so is a slash inside a component if asked. Reading takes such
escapes back and leaves every other `%` alone.
-/

namespace NamedRelay

def slash : UInt8 := 0x2f

def percent : UInt8 := 0x25

/-- Whether a byte of a component is written as an escape. -/
def needsEscape (escapeSeparator : Bool) (byte : UInt8) : Bool :=
  byte < 0x20 || 0x7f ≤ byte || (escapeSeparator && byte == slash)

def hexCode (value : UInt8) : UInt8 :=
  if value < 10 then 48 + value else 87 + value

def escapeByte (escapeSeparator : Bool) (byte : UInt8) : Bytes :=
  if needsEscape escapeSeparator byte then
    [percent, hexCode (byte >>> 4), hexCode (byte &&& 15)]
  else [byte]

/-- The value of a hexadecimal digit of either case. -/
def hexValue? (code : UInt8) : Option UInt8 :=
  if 48 ≤ code ∧ code ≤ 57 then some (code - 48)
  else if 97 ≤ code ∧ code ≤ 102 then some (code - 87)
  else if 65 ≤ code ∧ code ≤ 70 then some (code - 55)
  else none

/-- Takes escapes back. A `%` without two hexadecimal digits stands for itself. -/
def unescape : Bytes → Bytes
  | a :: b :: c :: rest =>
    match (if a = percent then hexValue? b else none), hexValue? c with
    | some high, some low => (high <<< 4 ||| low) :: unescape rest
    | _, _ => a :: unescape (b :: c :: rest)
  | bytes => bytes

/-- The pieces between separators; one more than there are separators. -/
def splitAt (separator : UInt8) (bytes : Bytes) : List Bytes :=
  bytes.foldr (fun byte pieces =>
    if byte = separator then [] :: pieces
    else match pieces with
      | piece :: rest => (byte :: piece) :: rest
      | [] => [[byte]]) [[]]

/-- A buffer that is filled from the front. -/
structure BoundedWriter where
  buffer : Array UInt8
  length : Nat

namespace BoundedWriter

def ofBuffer (buffer : Array UInt8) : BoundedWriter :=
  ⟨buffer, 0⟩

def push? (w : BoundedWriter) (byte : UInt8) : Option BoundedWriter :=
  if h : w.length < w.buffer.size then some ⟨w.buffer.set w.length byte h, w.length + 1⟩ else none

/-- Writes bytes until the buffer is full. The flag tells whether all went in. -/
def pushAll (w : BoundedWriter) : Bytes → BoundedWriter × Bool
  | [] => (w, true)
  | byte :: rest =>
    match w.push? byte with
    | some w' => w'.pushAll rest
    | none => (w, false)

end BoundedWriter

def asciiText? (bytes : Bytes) : Option String :=
  if bytes.all (· < 0x80) then some (String.ofList (bytes.map fun b => Char.ofNat b.toNat))
  else none

namespace Name

def pathBytes (n : Name) (escapeSeparator : Bool) : Bytes :=
  n.components.flatMap fun component => slash :: component.flatMap (escapeByte escapeSeparator)

/-- Writes the path to the front of a buffer. Gives the length, and the buffer as it is left. -/
def writePath (n : Name) (buffer : Array UInt8) (escapeSeparator : Bool) :
    Except Error Nat × Array UInt8 :=
  match (BoundedWriter.ofBuffer buffer).pushAll (n.pathBytes escapeSeparator) with
  | (w, true) => (.ok w.length, w.buffer)
  | (w, false) => (.error (.bufferTooSmall buffer.size), w.buffer)

/-- The path as text, with slashes inside components left as they are. -/
def toPath (n : Name) : Except Error String :=
  let buffer := Array.replicate (3 * n.encodedLength + n.count) (0 : UInt8)
  match n.writePath buffer false with
  | (.error e, _) => .error e
  | (.ok length, written) =>
    match asciiText? (written.toList.take length) with
    | some text => .ok text
    | none => .error (.malformed .notText)

def displayByte (byte : UInt8) : List Char :=
  if needsEscape false byte then '%' :: Bytes.hexPair byte else [Char.ofNat byte.toNat]

/-- The text shown for a name: its path, and its chunk number if it has one. -/
def display (n : Name) : String :=
  String.ofList (n.components.flatMap fun component => '/' :: component.flatMap displayByte)
    ++ match n.chunk with
      | some number => " [chunk " ++ toString number.toNat ++ "]"
      | none => ""

/-- Reads a path. One slash in front and one at the end do not count. -/
def ofPath (suite : Suite) (path : Bytes) : Except Error Name :=
  let inner := if path.head? = some slash then path.tail else path
  if inner.isEmpty then .ok (root suite)
  else
    let trimmed := if inner.getLast? = some slash then inner.dropLast else inner
    ofComponents suite ((splitAt slash trimmed).map unescape)

def ofUri (suite : Suite) (uri : String) : Except Error Name :=
  ofPath suite (Bytes.ofText uri)

end Name

end NamedRelay
