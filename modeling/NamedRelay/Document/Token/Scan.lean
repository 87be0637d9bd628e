import NamedRelay.Document.Token.Text

/-!
# The tokens of a text
-/

namespace NamedRelay

namespace Scanner

/-! ## Versions -/

/-- Blanks in front are passed. -/
def skipBlanks : Nat → Scanner → Scanner
  | 0, s => s
  | fuel + 1, s => if s.rest.head?.any isBlank then skipBlanks fuel s.skip else s

/-- The number of at most nine digits in front. -/
def versionNumber? (s : Scanner) : Option (Nat × Scanner) :=
  let digits := s.rest.takeWhile Char.isDigit
  if 9 < digits.length then none
  else (Decimal.digits? 10 digits).map fun value => (value, s.skipMany digits.length)

/-- The end of the text, or a line break that is passed, behind blanks and a comment. -/
def endOfLine? (fuel : Nat) (s : Scanner) : Option Scanner :=
  let s := skipBlanks fuel s
  let s := if s.rest.head? == some '#' then skipComment fuel s else s
  match s.rest with
  | [] => some s
  | c :: _ => if isBreak c then some s.skipLine else none

/-- The versions that are read, 1.1 and 1.2, behind a percent sign and a name. -/
def skipVersion? (fuel : Nat) (s : Scanner) : Option Scanner :=
  match s.rest with
  | '%' :: 'Y' :: 'A' :: 'M' :: 'L' :: c :: _ =>
    if !isBlank c then none
    else
      match versionNumber? (skipBlanks fuel (s.skipMany 5)) with
      | some (1, next) =>
        if next.rest.head? != some '.' then none
        else
          match next.skip.versionNumber? with
          | some (minor, last) =>
            if minor == 1 || minor == 2 then endOfLine? fuel last else none
          | none => none
      | _ => none
  | _ => none

/-! ## Tokens

Each of these is given more fuel than there are characters left. -/

def scanPlain (fuel : Nat) (s : Scanner) : Option Scanner := do
  let s ← s.saveCandidate
  let (reversed, s) ← plainText (s.indent + 1) fuel { s with keyAllowed := false } .none []
  return s.push (.scalar (.plain (String.ofList reversed.reverse)))

def scanQuoted (fuel : Nat) (s : Scanner) (quote : Char) : Option Scanner := do
  let s ← s.saveCandidate
  let (reversed, s) ← quotedText quote fuel { s with keyAllowed := false }.skip .none []
  return s.push (.scalar (.quoted (String.ofList reversed.reverse)))

def scanVersion (fuel : Nat) (s : Scanner) : Option Scanner := do
  let s ← (s.unroll (-1)).removeCandidate
  let s ← skipVersion? fuel { s with keyAllowed := false }
  return s.push .version

def scanDocumentMark (s : Scanner) (token : Token) : Option Scanner := do
  let s ← (s.unroll (-1)).removeCandidate
  return ({ s with keyAllowed := false }.skipMany 3).push token

def scanFlowStart (s : Scanner) (token : Token) : Option Scanner := do
  let s ← s.saveCandidate
  let s := { s with candidate := none, outer := s.candidate :: s.outer, keyAllowed := true }
  return s.skip.push token

def scanFlowEnd (s : Scanner) (token : Token) : Option Scanner := do
  let s ← s.removeCandidate
  let s := match s.outer with
    | candidate :: outer => { s with candidate, outer }
    | [] => s
  return { s with keyAllowed := false }.skip.push token

def scanComma (s : Scanner) : Option Scanner := do
  let s ← s.removeCandidate
  return { s with keyAllowed := true }.skip.push .comma

/-- In block context an item or an explicit key stands only where a key may stand. -/
def scanMark (s : Scanner) (start token : Token) (allowInFlow : Bool) : Option Scanner := do
  if !s.inFlow && !s.keyAllowed then none
  else
    let s ← (s.roll s.column s.count start).removeCandidate
    return { s with keyAllowed := !s.inFlow || allowInFlow }.skip.push token

/-- A colon makes a key of the candidate. Without one it follows an explicit key. -/
def scanValue (s : Scanner) : Option Scanner :=
  match s.candidate with
  | some k =>
    let s := (s.insertAt k.number .key).roll k.column k.number .blockRecordStart
    some ({ s with candidate := none, keyAllowed := false }.skip.push .value)
  | none =>
    if !s.inFlow && !s.keyAllowed then none
    else
      let s := s.roll s.column s.count .blockRecordStart
      some ({ s with keyAllowed := !s.inFlow }.skip.push .value)

/-- Characters that never begin a plain scalar. -/
def indicators : List Char :=
  flowMarks ++ ['#', '&', '*', '!', '|', '>', '%', '@', '\x60']

def scanToken (fuel : Nat) (s : Scanner) (c : Char) (rest : List Char) : Option Scanner :=
  if s.column == 0 && c == '%' then scanVersion fuel s
  else if s.column == 0 && atDocumentMark s.rest then
    s.scanDocumentMark (if c == '-' then .documentStart else .documentEnd)
  else if c == '[' then s.scanFlowStart .flowListStart
  else if c == '\x7b' then s.scanFlowStart .flowRecordStart
  else if c == ']' then s.scanFlowEnd .flowListEnd
  else if c == '\x7d' then s.scanFlowEnd .flowRecordEnd
  else if c == ',' then s.scanComma
  else if c == '-' && atSpace rest then s.scanMark .blockListStart .item true
  else if c == '?' && (s.inFlow || atSpace rest) then s.scanMark .blockRecordStart .key false
  else if c == ':' && (s.inFlow || atSpace rest) then s.scanValue
  else if c == '\x27' || c == '\x22' then scanQuoted fuel s c
  else if indicators.contains c || isBlank c then none
  else scanPlain fuel s

/-- All tokens up to the end of the text. Each token takes a character at least, so the fuel stays
above the number of characters left. -/
def run : Nat → Scanner → Option (List Token)
  | 0, _ => none
  | fuel + 1, s => do
    let s ← (toNextToken (fuel + 1) s).dropStale
    let s := s.unroll s.column
    match s.rest with
    | [] => ((s.unroll (-1)).removeCandidate).map fun s => s.reversed.reverse
    | c :: rest => run fuel (← scanToken (fuel + 1) s c rest)

end Scanner

/-- Characters that a text may hold. -/
def isTextChar (c : Char) : Bool :=
  c == '\t' || c == '\n' || c == '\r' || (' ' ≤ c && c ≤ '~') || c == '\x85'
    || ('\xa0' ≤ c && c ≤ '\ufffd') || 0x10000 ≤ c.toNat

/-- The tokens of a text, if it can be cut into tokens. -/
def Token.ofText? (text : String) : Option (List Token) :=
  let chars := text.toList
  if chars.all isTextChar then Scanner.run (chars.length + 1) { rest := chars } else none

end NamedRelay
