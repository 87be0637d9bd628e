import NamedRelay.Document.Token.Basic

/-!
# The text of scalars

A plain scalar ends before a mark, a quoted one at its quote. White space between the words of
either is kept on one line, and a line break is folded: alone it is a space, and of several all but
the first are kept. Double quotes admit escapes.
-/

namespace NamedRelay

/-- The white space inside a scalar that has not been written yet. -/
inductive Gap where
  | none
  | spaces (reversed : List Char)
  | lines (first : Option Char) (reversed : List Char)

namespace Scanner

/-- The characters a gap adds to a scalar, last first. A single line break is a space. -/
def gapText : Gap → List Char
  | .none => []
  | .spaces reversed => reversed
  | .lines (some '\n') [] => [' ']
  | .lines (some '\n') reversed => reversed
  | .lines (some first) reversed => reversed ++ [first]
  | .lines none reversed => reversed

def Gap.widen (gap : Gap) (c : Char) : Gap :=
  match gap with
  | .none => if isBreak c then .lines (some (breakChar c)) [] else .spaces [c]
  | .spaces reversed =>
    if isBreak c then .lines (some (breakChar c)) [] else .spaces (c :: reversed)
  | .lines first reversed =>
    if isBreak c then .lines first (breakChar c :: reversed) else gap

def Gap.isLines : Gap → Bool
  | .lines .. => true
  | _ => false

def Gap.isNone : Gap → Bool
  | .none => true
  | _ => false

def skipSpace (s : Scanner) (c : Char) : Scanner :=
  if isBreak c then s.skipLine else s.skip

/-- Reads on in a plain scalar whose characters so far are `reversed`. -/
def plainText (floor : Int) : Nat → Scanner → Gap → List Char → Option (List Char × Scanner)
  | 0, _, _, _ => none
  | fuel + 1, s, gap, reversed =>
    let done : Option (List Char × Scanner) :=
      some (reversed, { s with keyAllowed := s.keyAllowed || Gap.isLines gap })
    match s.rest with
    | [] => done
    | c :: rest =>
      if isBlank c || isBreak c then
        if Gap.isLines gap && c == '\t' && (s.column : Int) < floor then none
        else plainText floor fuel (s.skipSpace c) (Gap.widen gap c) reversed
      else if !Gap.isNone gap && !s.inFlow && (s.column : Int) < floor then done
      else if !Gap.isNone gap && ((s.column == 0 && atDocumentMark s.rest) || c == '#') then done
      else if s.inFlow && c == ':' && (rest.head?.any fun d => d == '?' || flowMarks.contains d) then
        none
      else if (c == ':' && atSpace rest) || (s.inFlow && flowMarks.contains c) then done
      else plainText floor fuel s.skip .none (c :: (gapText gap ++ reversed))

/-- The character of an escape with `count` digits. -/
def hexEscape? (count : Nat) (digits : List Char) : Option Char :=
  if digits.length < count then none
  else
    match Decimal.digits? 16 (digits.take count) with
    | some code => if h : code.isValidChar then some (Char.ofNatAux code h) else none
    | none => none

/-- The character of an escape and the number of characters that make it up. -/
def escape? : List Char → Option (Char × Nat)
  | [] => none
  | c :: rest =>
    match c with
    | '0' => some ('\x00', 1)
    | 'a' => some ('\x07', 1)
    | 'b' => some ('\x08', 1)
    | 't' | '\t' => some ('\t', 1)
    | 'n' => some ('\n', 1)
    | 'v' => some ('\x0b', 1)
    | 'f' => some ('\x0c', 1)
    | 'r' => some ('\r', 1)
    | 'e' => some ('\x1b', 1)
    | ' ' => some (' ', 1)
    | '\x22' => some ('\x22', 1)
    | '/' => some ('/', 1)
    | '\x5c' => some ('\x5c', 1)
    | 'N' => some ('\x85', 1)
    | '_' => some ('\xa0', 1)
    | 'L' => some ('\u2028', 1)
    | 'P' => some ('\u2029', 1)
    | 'x' => (hexEscape? 2 rest).map (·, 3)
    | 'u' => (hexEscape? 4 rest).map (·, 5)
    | 'U' => (hexEscape? 8 rest).map (·, 9)
    | _ => none

/-- Reads on in a quoted scalar, up to and with the closing quote. -/
def quotedText (quote : Char) : Nat → Scanner → Gap → List Char → Option (List Char × Scanner)
  | 0, _, _, _ => none
  | fuel + 1, s, gap, reversed =>
    match s.rest with
    | [] => none
    | c :: rest =>
      if isBlank c || isBreak c then
        quotedText quote fuel (s.skipSpace c) (Gap.widen gap c) reversed
      else if s.column == 0 && atDocumentMark s.rest then none
      else
        let written := gapText gap ++ reversed
        if c == quote then
          if quote == '\x27' && rest.head? == some '\x27' then
            quotedText quote fuel (s.skipMany 2) .none ('\x27' :: written)
          else some (written, s.skip)
        else if quote == '\x22' && c == '\x5c' then
          if rest.head?.any isBreak then
            quotedText quote fuel s.skip.skipLine (.lines none []) written
          else
            match escape? rest with
            | some (d, count) => quotedText quote fuel (s.skipMany (count + 1)) .none (d :: written)
            | none => none
        else quotedText quote fuel s.skip .none (c :: written)

end Scanner

end NamedRelay
