import NamedRelay.Document.Atom

/-!
# Tokens

The text is YAML with block and flow collections, plain and quoted scalars, comments and a
version in front, and without anchors, tags and block scalars. Columns of block collections become
explicit start and end tokens here. A key is recognised only at the colon behind it, so the key
token and the start of its record are put before tokens already written: `KeyCandidate` says where.
-/

namespace NamedRelay

inductive Token where
  | version
  | documentStart
  | documentEnd
  | blockListStart
  | blockRecordStart
  | blockEnd
  | flowListStart
  | flowListEnd
  | flowRecordStart
  | flowRecordEnd
  | item
  | comma
  | key
  | value
  | scalar (value : Scalar)
deriving DecidableEq, Repr

/-- A place where a key may have begun. A required one has to turn out to be a key. -/
structure KeyCandidate where
  number : Nat
  index : Nat
  line : Nat
  column : Nat
  required : Bool

/-- What is left of the text, where that is, and the `count` tokens so far, last first. The index
is in bytes of UTF-8, the column in characters. -/
structure Scanner where
  rest : List Char
  index : Nat := 0
  line : Nat := 0
  column : Nat := 0
  indent : Int := -1
  indents : List Int := []
  keyAllowed : Bool := true
  candidate : Option KeyCandidate := none
  outer : List (Option KeyCandidate) := []
  count : Nat := 0
  reversed : List Token := []

namespace Scanner

/-! ## Characters -/

def isBlank (c : Char) : Bool :=
  c == ' ' || c == '\t'

def isBreak (c : Char) : Bool :=
  c == '\n' || c == '\r' || c == '\x85' || c == '\u2028' || c == '\u2029'

/-- The text ends here, or white space comes next. -/
def atSpace : List Char → Bool
  | [] => true
  | c :: _ => isBlank c || isBreak c

/-- The line break that a break character stands for inside a scalar. -/
def breakChar (c : Char) : Char :=
  if c == '\u2028' || c == '\u2029' then c else '\n'

/-- Three dashes or three dots on their own. -/
def atDocumentMark : List Char → Bool
  | '-' :: '-' :: '-' :: rest => atSpace rest
  | '.' :: '.' :: '.' :: rest => atSpace rest
  | _ => false

/-- The characters that end a plain scalar in a flow collection. -/
def flowMarks : List Char :=
  [',', '[', ']', '\x7b', '\x7d']

/-! ## Moving on -/

def inFlow (s : Scanner) : Bool :=
  !s.outer.isEmpty

/-- Passes one character, which does not end a line. -/
def skip (s : Scanner) : Scanner :=
  match s.rest with
  | [] => s
  | c :: rest => { s with rest, index := s.index + c.utf8Size, column := s.column + 1 }

def skipMany : Nat → Scanner → Scanner
  | 0, s => s
  | count + 1, s => skipMany count s.skip

/-- Passes one line break. -/
def skipLine (s : Scanner) : Scanner :=
  match s.rest with
  | [] => s
  | '\r' :: '\n' :: rest => { s with rest, index := s.index + 2, column := 0, line := s.line + 1 }
  | c :: rest => { s with rest, index := s.index + c.utf8Size, column := 0, line := s.line + 1 }

/-- Passes what is left of a line, but not its break. -/
def skipComment : Nat → Scanner → Scanner
  | 0, s => s
  | fuel + 1, s => if s.rest.head?.all isBreak then s else skipComment fuel s.skip

def push (s : Scanner) (token : Token) : Scanner :=
  { s with reversed := token :: s.reversed, count := s.count + 1 }

/-- Puts a token before all those but the first `number`. -/
def insertAt (s : Scanner) (number : Nat) (token : Token) : Scanner :=
  let later := s.count - number
  { s with
    reversed := s.reversed.take later ++ token :: s.reversed.drop later
    count := s.count + 1 }

/-- Passes white space, comments, line breaks, and a byte order mark at the start of a line. -/
def toNextToken : Nat → Scanner → Scanner
  | 0, s => s
  | fuel + 1, s =>
    match s.rest with
    | [] => s
    | c :: _ =>
      if c == ' ' || (c == '\t' && (s.inFlow || !s.keyAllowed)) then toNextToken fuel s.skip
      else if c == '\ufeff' && s.column == 0 then toNextToken fuel s.skip
      else if c == '#' then toNextToken fuel (skipComment (fuel + 1) s)
      else if isBreak c then
        let next := s.skipLine
        toNextToken fuel { next with keyAllowed := next.keyAllowed || !next.inFlow }
      else s

/-! ## Keys and columns -/

/-- A key is on one line, and its colon at most 1024 bytes behind its start. -/
def isStale (s : Scanner) (k : KeyCandidate) : Bool :=
  k.line < s.line || k.index + 1024 < s.index

/-- Gives up a stale candidate. None that is required may be stale. -/
def dropStale (s : Scanner) : Option Scanner :=
  if (s.candidate :: s.outer).any (Option.any fun k => k.required && s.isStale k) then none
  else some { s with candidate := s.candidate.filter fun k => !s.isStale k }

def removeCandidate (s : Scanner) : Option Scanner :=
  if s.candidate.any KeyCandidate.required then none else some { s with candidate := none }

/-- What comes next may be a key. -/
def saveCandidate (s : Scanner) : Option Scanner :=
  if s.keyAllowed then
    (removeCandidate s).map fun t => { t with
      candidate := some
        { number := t.count, index := t.index, line := t.line, column := t.column
          required := !t.inFlow && t.indent == t.column } }
  else some s

/-- Closes the block collections that are further right than `column`. -/
def unrollFrom (column : Int) : List Int → Scanner → Scanner
  | [], s => s
  | previous :: more, s =>
    if column < s.indent then
      unrollFrom column more ({ s with indent := previous, indents := more }.push .blockEnd)
    else s

def unroll (s : Scanner) (column : Int) : Scanner :=
  if s.inFlow then s else unrollFrom column s.indents s

/-- Opens a block collection if `column` is further right than the present one. -/
def roll (s : Scanner) (column number : Nat) (token : Token) : Scanner :=
  if !s.inFlow && s.indent < column then
    { s.insertAt number token with indent := column, indents := s.indent :: s.indents }
  else s

end Scanner

end NamedRelay
