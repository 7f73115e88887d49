import Decimation.Yaml.Lexer.Scalar
import Decimation.Yaml.Lexer.Property
/-!
# Finding the next token

At each step the lexer moves to the next token, closes the block collections indented deeper
than its column, and reads the token its first character announces. A `-`, `?` or `:`
followed by a blank is an indicator (in flow context `?` and `:` always are), and opens a
block collection at its column when it stands deeper than the current one. A `:` after a key
candidate makes the candidate a key: the `key` token, and if needed the start of a block
mapping, are put back before it. After `---`, `...` and a directive no key may start on the
same line.

The tokens are taken one by one (`Lex.peekToken`, `Lex.skipToken`). Before one is taken the
lexer reads ahead until at least three tokens wait, and further while the first of them may
still start a key.
-/

namespace Decimation.Yaml

namespace Lex

/-- Starts the stream. -/
def fetchStreamStart : Lex Unit := modify fun l =>
  { l with indent := -1, candidates := l.candidates.push ⟨false, false, 0, ⟨0, 0, 0⟩⟩,
           candidateOf := [], keyAllowed := true, started := true,
           queue := l.queue ++ [.streamStart] }

/-- Ends the stream, closing every block collection. -/
def fetchStreamEnd : Lex Unit := do
  modify fun l =>
    if l.mark.column ≠ 0 then { l with mark := ⟨l.mark.index, l.mark.line + 1, 0⟩ } else l
  unroll (-1)
  dropCandidate
  modify fun l => { l with keyAllowed := false }
  push .streamEnd

/-- Closes every block collection before a line-level marker. -/
def resetLevel : Lex Unit := do
  unroll (-1)
  dropCandidate
  modify fun l => { l with keyAllowed := false }

/-- Reads a directive. -/
def fetchDirective : Lex Unit := do
  resetLevel
  push (← directiveToken)

/-- Reads a document marker `---` or `...`. -/
def fetchDocumentMarker (t : Token) : Lex Unit := do
  resetLevel
  skip
  skip
  skip
  push t

/-- Reads `[` or `{`, which may start a key. -/
def fetchFlowStart (t : Token) : Lex Unit := do
  saveCandidate
  enterFlow
  modify fun l => { l with keyAllowed := true }
  skip
  push t

/-- Reads `]` or `}`. -/
def fetchFlowEnd (t : Token) : Lex Unit := do
  dropCandidate
  leaveFlow
  modify fun l => { l with keyAllowed := false }
  skip
  push t

/-- Reads `,`. -/
def fetchFlowEntry : Lex Unit := do
  dropCandidate
  modify fun l => { l with keyAllowed := true }
  skip
  push .flowEntry

/-- Reads the `-` of a block sequence entry. -/
def fetchBlockEntry : Lex Unit := do
  let l ← get
  if l.flowLevel = 0 then
    if !l.keyAllowed then throw "block sequence entries are not allowed in this context"
    rollIndent l.mark.column none .blockSequenceStart
  dropCandidate
  modify fun l => { l with keyAllowed := true }
  skip
  push .blockEntry

/-- Reads the `?` of a key. -/
def fetchKey : Lex Unit := do
  let l ← get
  if l.flowLevel = 0 then
    if !l.keyAllowed then throw "mapping keys are not allowed in this context"
    rollIndent l.mark.column none .blockMappingStart
  dropCandidate
  modify fun l => { l with keyAllowed := l.flowLevel = 0 }
  skip
  push .key

/-- Reads the `:` before a value, making the key candidate a key when it still may be one. -/
def fetchValue : Lex Unit := do
  let i := (← get).candidates.size - 1
  if ← candidateValid i then
    let k := (← get).candidates[i]!
    insertBefore k.tokenNumber .key
    rollIndent k.mark.column (some k.tokenNumber) .blockMappingStart
    modify fun l =>
      { l with candidates := l.candidates.set! i { k with possible := false },
               candidateOf := l.candidateOf.filter (·.1 != k.tokenNumber),
               keyAllowed := false }
  else
    let l ← get
    if l.flowLevel = 0 then
      if !l.keyAllowed then throw "mapping values are not allowed in this context"
      rollIndent l.mark.column none .blockMappingStart
    modify fun l => { l with keyAllowed := l.flowLevel = 0 }
  skip
  push .value

/-- Reads a token that may start a key: an anchor, an alias, a tag or a scalar. -/
def fetchKeyStart (read : Lex Token) : Lex Unit := do
  saveCandidate
  modify fun l => { l with keyAllowed := false }
  push (← read)

/-- Reads a block scalar, after which a key may start. -/
def fetchBlockScalar (literal : Bool) : Lex Unit := do
  dropCandidate
  modify fun l => { l with keyAllowed := true }
  push (← blockScalar literal)

/-- The character `c`, followed by `next`, starts a plain scalar. -/
def startsPlain (flow : Bool) (c next : Char) : Bool :=
  !(isBlankZ c || c == '-' || c == '?' || c == ':' || c == ',' || c == '[' || c == ']' ||
      c == '{' || c == '}' || c == '#' || c == '&' || c == '*' || c == '!' || c == '|' ||
      c == '>' || c == '\'' || c == '"' || c == '%' || c == '@' || c == '`') ||
    (c == '-' && !isBlank next) ||
    (!flow && (c == '?' || c == ':') && !isBlankZ next)

/-- Reads the token that starts with `c`, in the body of a document. -/
def fetchContent (c next : Char) : Lex Unit := do
  let flow := (← get).flowLevel > 0
  if c == '[' then fetchFlowStart .flowSequenceStart
  else if c == '{' then fetchFlowStart .flowMappingStart
  else if c == ']' then fetchFlowEnd .flowSequenceEnd
  else if c == '}' then fetchFlowEnd .flowMappingEnd
  else if c == ',' then fetchFlowEntry
  else if c == '-' && isBlankZ next then fetchBlockEntry
  else if c == '?' && (flow || isBlankZ next) then fetchKey
  else if c == ':' && (flow || isBlankZ next) then fetchValue
  else if c == '*' then fetchKeyStart (anchorToken true)
  else if c == '&' then fetchKeyStart (anchorToken false)
  else if c == '!' then fetchKeyStart tagToken
  else if c == '|' && !flow then fetchBlockScalar true
  else if c == '>' && !flow then fetchBlockScalar false
  else if c == '\'' then fetchKeyStart (quotedScalar true)
  else if c == '"' then fetchKeyStart (quotedScalar false)
  else if startsPlain flow c next then fetchKeyStart plainScalar
  else throw "found character that cannot start any token"

/-- Finds the next token and puts it, with any block starts and ends it implies, into the
queue. -/
def fetchNext : Lex Unit := do
  need 1
  if !(← get).started then
    fetchStreamStart
    return
  toNextToken (← room)
  unroll (← get).mark.column
  need 4
  let l ← get
  let c := l.peek 0
  let atLineStart := l.mark.column = 0
  if c == '\x00' then fetchStreamEnd
  else if atLineStart && c == '%' then fetchDirective
  else if atLineStart && markerAhead l && c == '-' then fetchDocumentMarker .documentStart
  else if atLineStart && markerAhead l && c == '.' then fetchDocumentMarker .documentEnd
  else
    fetchContent c (l.peek 1)
    match (← get).queue.getLast? with
    | some .blockEntry => pure ()
    | _ => lineComment

/-- Reads tokens until at least three wait and the first of them can no longer start a
key. -/
def fetchMore : Nat → Lex Unit
  | 0 => throw "the lexer made no progress"
  | fuel + 1 => do
    let l ← get
    let enough ←
      if l.queue.length > 2 then
        match l.candidateOf.lookup l.taken with
        | none => pure true
        | some i => do pure (!(← candidateValid i))
      else pure false
    if enough then modify fun l => { l with available := true }
    else
      fetchNext
      fetchMore fuel

/-- The next token, read ahead as needed. -/
def peekToken : Lex Token := do
  if !(← get).available then fetchMore ((← get).chars.size + 8)
  match (← get).queue with
  | t :: _ => return t
  | [] => throw "no token"

/-- Takes the next token. -/
def skipToken : Lex Unit := modify fun l =>
  match l.queue with
  | t :: rest =>
    { l with queue := rest, taken := l.taken + 1, available := false,
             ended := match t with
               | .streamEnd => true
               | _ => false }
  | [] => l

end Lex

end Decimation.Yaml
