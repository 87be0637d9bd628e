import NamedRelay.Document.Token.Scan

/-!
# Reading documents

A text holds at most one document. Where a value is missing, a blank scalar stands for it.
-/

namespace NamedRelay.Document

/-- The next token is one of these. -/
def nextIs (stops : List Token) (tokens : List Token) : Bool :=
  tokens.head?.any stops.contains

mutual

/-- A value. Lists and records in block form only where `block` says so, and list items without
an indentation of their own only where `flush` does. -/
def node : Nat → (block flush : Bool) → List Token → Option (Document × List Token)
  | 0, _, _, _ => none
  | fuel + 1, block, flush, tokens =>
    match tokens with
    | .item :: _ => if flush then (flushItems fuel tokens).map (Prod.map .list id) else none
    | .scalar value :: rest => some (.scalar value, rest)
    | .flowListStart :: rest => (flowItems fuel true rest).map (Prod.map .list id)
    | .flowRecordStart :: rest => (flowFields fuel true rest).map (Prod.map .record id)
    | .blockListStart :: rest =>
      if block then (blockItems fuel rest).map (Prod.map .list id) else none
    | .blockRecordStart :: rest =>
      if block then (blockFields fuel rest).map (Prod.map .record id) else none
    | _ => none

/-- A value in block form, or a blank before one of the tokens `stops`. -/
def nodeUnless : Nat → (stops : List Token) → (flush : Bool) → List Token →
    Option (Document × List Token)
  | 0, _, _, _ => none
  | fuel + 1, stops, flush, tokens =>
    if nextIs stops tokens then some (blank, tokens) else node fuel true flush tokens

/-- The items of a block list, and its end. -/
def blockItems : Nat → List Token → Option (List Document × List Token)
  | 0, _ => none
  | fuel + 1, tokens =>
    match tokens with
    | .item :: rest => do
      let (first, rest) ← nodeUnless fuel [.item, .blockEnd] false rest
      let (more, rest) ← blockItems fuel rest
      return (first :: more, rest)
    | .blockEnd :: rest => some ([], rest)
    | _ => none

/-- Items at the column of the key they belong to. They end where no item follows. -/
def flushItems : Nat → List Token → Option (List Document × List Token)
  | 0, _ => none
  | fuel + 1, tokens =>
    match tokens with
    | .item :: rest => do
      let (first, rest) ← nodeUnless fuel [.item, .key, .value, .blockEnd] false rest
      let (more, rest) ← flushItems fuel rest
      return (first :: more, rest)
    | _ => some ([], tokens)

/-- The fields of a block record, and its end. -/
def blockFields : Nat → List Token → Option (List (Document × Document) × List Token)
  | 0, _ => none
  | fuel + 1, tokens =>
    match tokens with
    | .key :: rest => do
      let (name, rest) ← nodeUnless fuel [.key, .value, .blockEnd] true rest
      let (value, rest) ← match rest with
        | .value :: rest => nodeUnless fuel [.key, .value, .blockEnd] true rest
        | _ => some (blank, rest)
      let (more, rest) ← blockFields fuel rest
      return ((name, value) :: more, rest)
    | .blockEnd :: rest => some ([], rest)
    | _ => none

/-- A value in a flow collection, or a blank before one of the tokens `stops`. -/
def flowNodeUnless : Nat → (stops : List Token) → List Token → Option (Document × List Token)
  | 0, _, _ => none
  | fuel + 1, stops, tokens =>
    if nextIs stops tokens then some (blank, tokens) else node fuel false false tokens

/-- The value of a key in a flow collection that `stop` ends. -/
def flowValue : Nat → (stop : Token) → List Token → Option (Document × List Token)
  | 0, _, _ => none
  | fuel + 1, stop, tokens =>
    match tokens with
    | .value :: rest => flowNodeUnless fuel [.comma, stop] rest
    | _ => some (blank, tokens)

/-- The items of a flow list, and its end. A key with its value is a record of one field; of a key
without a name the token that follows is passed. -/
def flowItems : Nat → (first : Bool) → List Token → Option (List Document × List Token)
  | 0, _, _ => none
  | fuel + 1, first, tokens =>
    match tokens with
    | .flowListEnd :: rest => some ([], rest)
    | _ => do
      let tokens ← match first, tokens with
        | true, _ => some tokens
        | false, .comma :: rest => some rest
        | false, _ => none
      match tokens with
      | .flowListEnd :: rest => some ([], rest)
      | .key :: rest =>
        let (name, rest) ←
          if nextIs [.value, .comma, .flowListEnd] rest then some (blank, rest.tail)
          else node fuel false false rest
        let (value, rest) ← flowValue fuel .flowListEnd rest
        let (more, rest) ← flowItems fuel false rest
        return (.record [(name, value)] :: more, rest)
      | _ =>
        let (item, rest) ← node fuel false false tokens
        let (more, rest) ← flowItems fuel false rest
        return (item :: more, rest)

/-- The fields of a flow record, and its end. -/
def flowFields : Nat → (first : Bool) → List Token →
    Option (List (Document × Document) × List Token)
  | 0, _, _ => none
  | fuel + 1, first, tokens =>
    match tokens with
    | .flowRecordEnd :: rest => some ([], rest)
    | _ => do
      let tokens ← match first, tokens with
        | true, _ => some tokens
        | false, .comma :: rest => some rest
        | false, _ => none
      match tokens with
      | .flowRecordEnd :: rest => some ([], rest)
      | .key :: rest =>
        let (name, rest) ← flowNodeUnless fuel [.value, .comma, .flowRecordEnd] rest
        let (value, rest) ← flowValue fuel .flowRecordEnd rest
        let (more, rest) ← flowFields fuel false rest
        return ((name, value) :: more, rest)
      | _ =>
        let (name, rest) ← node fuel false false tokens
        let (more, rest) ← flowFields fuel false rest
        return ((name, blank) :: more, rest)

end

/-- The document that the tokens of a text make up. A version has a start behind it. -/
def ofTokens? (tokens : List Token) : Option Document := do
  let fuel := 3 * tokens.length + 3
  let (document, rest) ← match tokens with
    | [] => some (blank, [])
    | .documentStart :: rest | .version :: .documentStart :: rest =>
      if rest.isEmpty then some (blank, [])
      else nodeUnless fuel [.documentStart, .documentEnd] false rest
    | _ => node fuel true false tokens
  if (rest.dropWhile (· == .documentEnd)).isEmpty then some document else none

def ofText? (text : String) : Option Document :=
  (Token.ofText? text).bind ofTokens?

end NamedRelay.Document
