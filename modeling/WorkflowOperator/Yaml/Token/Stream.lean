import WorkflowOperator.Yaml.Token

/-!
# From a text to its tokens

A text is read from the left.  Where a key might begin the place is remembered, and when its colon
is reached the marks of a key, and of a mapping if it is the first, are put in at that place.  If the
text stops being YAML, the tokens that were settled before that point remain.

A character that no text may have counts as if it stood at the start: wherever it is, there are no
tokens.  The parser that is followed here takes a text in pieces of 16384 bytes and looks through a
piece when it first needs it, so of a longer text it gives the tokens before the piece with such a
character.  Either way the document is not read to its end; it can differ which fault is reported.
-/

namespace WorkflowOperator.Yaml

/-- A place where a key may have begun. -/
structure KeyCandidate where
  /-- Whether the indentation allows nothing but a key here. -/
  required : Bool
  /-- The number of tokens before the place. -/
  count : Nat
  position : Position
deriving DecidableEq, Repr

/-- What has been read of a text. -/
structure Reader where
  rest : List Char
  position : Position
  /-- The tokens so far, latest first. -/
  tokens : List Token
  /-- The column of the innermost block collection, -1 outside of all. -/
  indent : Int
  /-- The columns of the block collections around it. -/
  outer : List Int
  /-- A candidate for each flow collection that is open, innermost first, and one for the block
  around them. -/
  candidate : Option KeyCandidate
  outerCandidates : List (Option KeyCandidate)
  /-- Whether a key may begin here. -/
  keyAllowed : Bool
deriving DecidableEq, Repr

namespace Reader

def start (text : List Char) : Reader := ⟨text, .start, [], -1, [], none, [], true⟩

def inFlow (r : Reader) : Bool := !r.outerCandidates.isEmpty

def moveTo (r : Reader) (rest : List Char) : Reader :=
  { r with
    rest
    position := r.position.after (r.rest.take (r.rest.length - rest.length)) }

def push (r : Reader) (t : Token) : Reader := { r with tokens := t :: r.tokens }

/-- Puts a token in after the first `count` tokens. -/
def putAt (r : Reader) (count : Nat) (t : Token) : Reader :=
  let n := r.tokens.length - count
  { r with tokens := r.tokens.take n ++ t :: r.tokens.drop n }

def pushChar (r : Reader) (t : Token) : Reader := (r.moveTo (r.rest.drop 1)).push t

/-- Skips blanks, comments and line breaks; gives the text after them and whether a key may begin
there.  Tabs are skipped only where no key may begin. -/
def skipBlank (flow : Bool) : List Char → Bool → Bool → List Char × Bool
  | [], _, allowed => ([], allowed)
  | '\r' :: '\n' :: rest, _, allowed => skipBlank flow rest false (allowed || !flow)
  | c :: rest, inComment, allowed =>
    if isBreak c then skipBlank flow rest false (allowed || !flow)
    else if inComment then skipBlank flow rest true allowed
    else if c == ' ' || (c == '\t' && (flow || !allowed)) then skipBlank flow rest false allowed
    else if c == '#' then skipBlank flow rest true allowed
    else (c :: rest, allowed)

def toNextToken (r : Reader) : Reader :=
  let r := if r.position.index = 0 && r.rest.head? == some byteOrderMark
    then r.moveTo (r.rest.drop 1) else r
  let (rest, allowed) := skipBlank r.inFlow r.rest false r.keyAllowed
  { r.moveTo rest with keyAllowed := allowed }

/-- Whether a candidate is out of reach: a key ends on its line and within 1024 characters. -/
def isStale (p : Position) (k : KeyCandidate) : Bool :=
  k.position.line < p.line || k.position.index + 1024 < p.index

/-- A candidate unless it is out of reach; a required one must not be. -/
def keepFresh? (p : Position) : Option KeyCandidate → Option (Option KeyCandidate)
  | none => some none
  | some k => if isStale p k then (if k.required then none else some none) else some (some k)

def dropStale? (r : Reader) : Option Reader := do
  let outerCandidates ← r.outerCandidates.mapM (keepFresh? r.position)
  let candidate ← keepFresh? r.position r.candidate
  return { r with candidate, outerCandidates }

/-- Gives up the candidate of the innermost collection, which must not be required. -/
def dropCandidate? (r : Reader) : Option Reader :=
  match r.candidate with
  | some k => if k.required then none else some { r with candidate := none }
  | none => some r

/-- Remembers that a key may begin here. -/
def noteCandidate? (r : Reader) : Option Reader :=
  if r.keyAllowed then
    r.dropCandidate?.map fun r' =>
      { r' with
        candidate := some
          ⟨!r.inFlow && r.indent == r.position.column, r.tokens.length, r.position⟩ }
  else some r

/-- Opens a block collection at a column, with its mark after the first `count` tokens, unless it
is open already. -/
def openBlock (r : Reader) (column : Nat) (count : Nat) (t : Token) : Reader :=
  if !r.inFlow && r.indent < column then
    { r.putAt count t with indent := column, outer := r.indent :: r.outer }
  else r

/-- Closes block collections while `tokens`, the columns around, lie right of a column. -/
def closing (column : Int) : Int → List Int → List Token → Int × List Int × List Token
  | indent, [], tokens =>
    if column < indent then (-1, [], .blockEnd :: tokens) else (indent, [], tokens)
  | indent, next :: outer, tokens =>
    if column < indent then closing column next outer (.blockEnd :: tokens)
    else (indent, next :: outer, tokens)

def closeBlocks (r : Reader) (column : Int) : Reader :=
  if r.inFlow then r
  else
    let (indent, outer, tokens) := closing column r.indent r.outer r.tokens
    { r with indent, outer, tokens }

def atEnd? (r : Reader) : Option Reader := do
  let r := if r.position.column = 0 then r
    else { r with position := { r.position with column := 0, line := r.position.line + 1 } }
  let r ← (r.closeBlocks (-1)).dropCandidate?
  return { r with keyAllowed := false }.push .streamEnd

/-- A mark of a document or a directive, which closes everything. -/
def closeAll? (r : Reader) : Option Reader :=
  (r.closeBlocks (-1)).dropCandidate?.map fun r => { r with keyAllowed := false }

def openFlow? (r : Reader) (t : Token) : Option Reader :=
  r.noteCandidate?.map fun r =>
    { r with
      candidate := none
      outerCandidates := r.candidate :: r.outerCandidates
      keyAllowed := true }.pushChar t

def closeFlow? (r : Reader) (t : Token) : Option Reader :=
  r.dropCandidate?.map fun r =>
    let r := match r.outerCandidates with
      | [] => r
      | candidate :: outerCandidates => { r with candidate, outerCandidates }
    { r with keyAllowed := false }.pushChar t

def flowEntry? (r : Reader) : Option Reader :=
  r.dropCandidate?.map fun r => { r with keyAllowed := true }.pushChar .flowEntry

def blockEntry? (r : Reader) : Option Reader :=
  if !r.inFlow && !r.keyAllowed then none
  else
    let r := r.openBlock r.position.column r.tokens.length .blockSequenceStart
    r.dropCandidate?.map fun r => { r with keyAllowed := true }.pushChar .blockEntry

def explicitKey? (r : Reader) : Option Reader :=
  if !r.inFlow && !r.keyAllowed then none
  else
    let r := r.openBlock r.position.column r.tokens.length .blockMappingStart
    r.dropCandidate?.map fun r => { r with keyAllowed := !r.inFlow }.pushChar .key

/-- A colon after a key, or before a value whose key was marked or is left out. -/
def value? (r : Reader) : Option Reader :=
  match r.candidate with
  | some k =>
    let r := (r.putAt k.count .key).openBlock k.position.column k.count .blockMappingStart
    some ({ r with candidate := none, keyAllowed := false }.pushChar .value)
  | none =>
    if !r.inFlow && !r.keyAllowed then none
    else
      let r := r.openBlock r.position.column r.tokens.length .blockMappingStart
      some ({ r with keyAllowed := !r.inFlow }.pushChar .value)

/-- An alias or an anchor, after its sign. -/
def named? (r : Reader) (t : List Char → Token) : Option Reader := do
  let r ← r.noteCandidate?
  let (name, rest) ← Token.readName? (r.rest.drop 1)
  return { r.moveTo rest with keyAllowed := false }.push (t name)

def tag? (r : Reader) : Option Reader := do
  let r ← r.noteCandidate?
  let (t, rest) ← Token.readTag? r.inFlow r.rest
  return { r.moveTo rest with keyAllowed := false }.push t

def blockScalar? (r : Reader) (style : Style) : Option Reader := do
  let r ← r.dropCandidate?
  let (text, rest) ← readBlock? (style == .folded) r.indent (r.rest.drop 1)
  return { r.moveTo rest with keyAllowed := true }.push (.scalar style text)

def quotedScalar? (r : Reader) (style : Style) : Option Reader := do
  let r ← r.noteCandidate?
  let (text, rest) ← match style with
    | .singleQuoted => readSingleQuoted? (r.rest.drop 1) .none []
    | _ => readDoubleQuoted? 0 (r.rest.drop 1) .none []
  return { r.moveTo rest with keyAllowed := false }.push (.scalar style text)

def plainScalar? (r : Reader) : Option Reader := do
  let r ← r.noteCandidate?
  let p ← readPlain? r.inFlow (r.indent + 1) r.rest .none []
  return { r.moveTo p.rest with keyAllowed := p.broken }.push (.scalar .plain p.value)

/-- Whether a plain scalar may start with the first character of a text. -/
def startsPlain (flow : Bool) (c : Char) (rest : List Char) : Bool :=
  if c == '-' then
    match rest with
    | [] => true
    | d :: _ => !isBlank d
  else if c == '?' || c == ':' then !flow && !startsBlank rest
  else !(isBlank c || isBreak c) &&
    !(c ∈ [',', '[', ']', Char.ofNat 0x7B, Char.ofNat 0x7D, '#', '&', '*', '!', '|', '>', '\'',
      '"', '%', '@', '\x60'])

def dispatch? (r : Reader) (c : Char) (rest : List Char) : Option Reader :=
  let lineStart := r.position.column == 0
  if lineStart && c == '%' then do
    let r ← r.closeAll?
    let (t, after) ← Token.readDirective? rest
    return (r.moveTo after).push t
  else if lineStart && startsMark '-' (c :: rest) then
    r.closeAll?.map fun r => (r.moveTo (rest.drop 2)).push .documentStart
  else if lineStart && startsMark '.' (c :: rest) then
    r.closeAll?.map fun r => (r.moveTo (rest.drop 2)).push .documentEnd
  else if c == '[' then r.openFlow? .flowSequenceStart
  else if c == Char.ofNat 0x7B then r.openFlow? .flowMappingStart
  else if c == ']' then r.closeFlow? .flowSequenceEnd
  else if c == Char.ofNat 0x7D then r.closeFlow? .flowMappingEnd
  else if c == ',' then r.flowEntry?
  else if c == '-' && startsBlank rest then r.blockEntry?
  else if c == '?' && (r.inFlow || startsBlank rest) then r.explicitKey?
  else if c == ':' && (r.inFlow || startsBlank rest) then r.value?
  else if c == '*' then r.named? .alias
  else if c == '&' then r.named? .anchor
  else if c == '!' then r.tag?
  else if c == '|' && !r.inFlow then r.blockScalar? .literal
  else if c == '>' && !r.inFlow then r.blockScalar? .folded
  else if c == '\'' then r.quotedScalar? .singleQuoted
  else if c == '"' then r.quotedScalar? .doubleQuoted
  else if startsPlain r.inFlow c rest then r.plainScalar?
  else none

def step? (r : Reader) : Option Reader := do
  let r ← r.toNextToken.dropStale?
  let r := r.closeBlocks r.position.column
  match r.rest with
  | [] => r.atEnd?
  | c :: rest => r.dispatch? c rest

/-- The tokens that no later character can change: those before the first candidate. -/
def settled (r : Reader) : List Token :=
  let counts := (r.candidate :: r.outerCandidates).filterMap fun k => k.map (·.count)
  r.tokens.reverse.take (counts.foldl min r.tokens.length)

/-- The tokens of the rest of a text; the mark of the end is missing if the text stops being
YAML. -/
def finish (r : Reader) : List Token :=
  match r.dropStale? with
  | none => r.settled
  | some fresh =>
    match fresh.step? with
    | none => fresh.settled
    | some next =>
      if next.tokens.head? = some .streamEnd then next.tokens.reverse
      else if next.rest.length < r.rest.length then finish next
      else next.settled
termination_by r.rest.length

end Reader

/-- The tokens of a text; none if it has a character that no text may have. -/
def tokens (text : List Char) : List Token :=
  if text.all isReadable then (Reader.start text).finish else []

end WorkflowOperator.Yaml
