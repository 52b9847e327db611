import Manuscript.Decimal.Integer
import Manuscript.Yaml.Scalar

/-! # Tokens of a metadata text

A metadata text is read as a sequence of tokens. Indentation is made explicit:
a block collection has a token where it starts and one where it ends. A key
that is not marked as such is only recognized by the colon after it, so the
places where a key may have started are remembered; a key has to lie on one
line, and before a block mapping's colon it has to be short. Where the text
cannot be read on, the tokens before that place can still be taken.
-/

namespace Manuscript.Yaml

/-- A tag as it is written: a handle, if there is one, and what follows it. -/
structure WrittenTag where
  handle : Option String
  suffix : String
  deriving DecidableEq, Repr

/-- A line that tells how to read the document after it. -/
inductive Directive where
  | version (major : Nat)
  | tag (handle tagPrefix : String)
  | other
  deriving DecidableEq, Repr

/-- A token. -/
inductive Token where
  | directive (directive : Directive)
  | documentStart
  | documentEnd
  | blockSequenceStart
  | blockMappingStart
  | blockEnd
  | flowSequenceStart
  | flowSequenceEnd
  | flowMappingStart
  | flowMappingEnd
  | blockEntry
  | flowEntry
  | key
  | value
  | anchor (name : String)
  | alias (name : String)
  | tag (tag : WrittenTag)
  | scalar (text : LooseText) (plain : Bool)
  | streamEnd
  deriving DecidableEq, Repr

/-- Why a text is no sequence of tokens: it is malformed, it names a code point that does not
exist, or the number of a version has too many digits. -/
inductive ScanError where
  | malformed
  | noCodePoint (code : Nat)
  | tooLong (digits : Nat)
  deriving DecidableEq, Repr

/-- A place where a key may have started: the number of its first token, and where it stands. -/
structure KeyPlace where
  token : Nat
  required : Bool
  index : Nat
  line : Nat
  column : Nat

/-- The state of reading tokens. Key places are kept by flow level, the innermost first. -/
structure Scanner where
  cursor : Cursor
  tokens : Array Token := #[]
  flowLevel : Nat := 0
  indent : Int := -1
  outerIndents : List Int := []
  keyAllowed : Bool := true
  keys : List (Nat × KeyPlace) := []

namespace Scanner

/-- A step of reading tokens. -/
abbrev Scan (α : Type) := StateT Scanner (Except ScanError) α

private def fail {α : Type} : Scan α := throw .malformed

private def need (condition : Bool) : Scan Unit := if condition then pure () else fail

/-- Continue with what a reader gives. -/
private def take {α : Type} (read : Cursor → Option (α × Cursor)) : Scan α := do
  match read (← get).cursor with
  | some (a, cursor) =>
    modify ({ · with cursor })
    return a
  | none => fail

private def push (token : Token) : Scan Unit :=
  modify fun s => { s with tokens := s.tokens.push token }

private def skip (count : Nat) : Scan Unit :=
  modify fun s => { s with cursor := s.cursor.advance count }

private def allowKey (keyAllowed : Bool) : Scan Unit := modify ({ · with keyAllowed })

/-! ## Places of keys -/

/-- Forget the places of keys that have become too long. -/
def dropStaleKeys : Scan Unit := do
  let s ← get
  let isStale (place : KeyPlace) :=
    place.line != s.cursor.line || place.index + 1024 < s.cursor.index
  need (s.keys.all fun (_, place) => !(isStale place && place.required))
  set { s with keys := s.keys.filter fun (_, place) => !isStale place }

/-- Forget the place of a key at the current level. -/
def dropKey : Scan Unit := do
  let s ← get
  need (s.keys.all fun (level, place) => !(level == s.flowLevel && place.required))
  set { s with keys := s.keys.filter fun (level, _) => level != s.flowLevel }

/-- Remember this place, where a key may start. -/
def saveKey : Scan Unit := do
  if (← get).keyAllowed then
    dropKey
    let s ← get
    let place : KeyPlace := {
      token := s.tokens.size
      required := s.flowLevel == 0 && s.indent == (s.cursor.column : Int)
      index := s.cursor.index
      line := s.cursor.line
      column := s.cursor.column }
    set { s with keys := (s.flowLevel, place) :: s.keys }

/-! ## Indentation -/

/-- End the block collections that are indented further than a column. -/
def closeBlocks (column : Int) : Scan Unit :=
  modify fun s =>
    if s.flowLevel != 0 then s
    else close s.outerIndents s
where
  close : List Int → Scanner → Scanner
    | [], s => s
    | outer :: rest, s =>
      if column < s.indent then
        close rest
          { s with indent := outer, outerIndents := rest, tokens := s.tokens.push .blockEnd }
      else s

/-- Indent to a column; the answer says whether it is further than before. -/
def openBlock (column : Nat) : Scan Bool := do
  let s ← get
  if s.indent < column then
    set { s with indent := (column : Int), outerIndents := s.indent :: s.outerIndents }
    return true
  else return false

/-! ## Tokens -/

/-- Pass over blanks, comments and line breaks. In block context a break allows a key. -/
def skipBlank : Nat → Scan Unit
  | 0 => pure ()
  | fuel + 1 => do
    modify fun s => { s with cursor := s.cursor.dropSpaces.dropComment }
    let s ← get
    match s.cursor.takeBreak with
    | some (_, cursor) =>
      set { s with cursor, keyAllowed := s.keyAllowed || s.flowLevel == 0 }
      skipBlank fuel
    | none => pure ()

/-- Read a name of letters, digits, hyphens and underscores. -/
def takeName : Scan String :=
  take fun cursor =>
    let (name, cursor) := cursor.takeWhile isWordChar
    if name.isEmpty then none else some (String.ofList name, cursor)

/-- Read a tag handle: an exclamation mark, or a name between two. -/
def takeHandle : Scan String :=
  take fun cursor =>
    if cursor.peek != '!' then none
    else if cursor.peek 1 == ' ' then some ("!", cursor.next)
    else
      let (name, after) := cursor.next.takeWhile isWordChar
      if after.peek == '!' then some (String.ofList ('!' :: name ++ ['!']), after.next) else none

private def isUriChar (c : Char) : Bool :=
  c.isAlphanum || "-;/?:@&=+$,_.!~*'()[]".toList.contains c

/-- Read the bytes written by escapes at the start of a text, and what follows them. -/
def takeEscapedBytes : List Char → Option (List UInt8 × List Char)
  | '%' :: high :: low :: rest => do
    let high ← Text.hexValue? high
    let low ← Text.hexValue? low
    let (bytes, rest) ← takeEscapedBytes rest
    return (UInt8.ofNat (high * 16 + low) :: bytes, rest)
  | '%' :: _ => none
  | rest => some ([], rest)

/-- Read the text of a resource name, where escapes write bytes. -/
def takeUriText : Nat → List Char → Option (List Char × List Char)
  | 0, rest => some ([], rest)
  | fuel + 1, cs =>
    match cs with
    | '%' :: _ => do
      let (bytes, rest) ← takeEscapedBytes cs
      let text ← String.fromUTF8? ⟨bytes.toArray⟩
      let (following, rest) ← takeUriText fuel rest
      return (text.toList ++ following, rest)
    | c :: rest =>
      if isUriChar c then
        (takeUriText fuel rest).map fun (following, rest) => (c :: following, rest)
      else some ([], cs)
    | [] => some ([], [])

/-- Read a resource name. -/
def takeUri : Scan String :=
  take fun cursor =>
    match takeUriText cursor.rest.length cursor.rest with
    | some (text, rest) =>
      let length := cursor.rest.length - rest.length
      if length = 0 then none else some (String.ofList text, cursor.advance length)
    | none => none

/-- Check that a word ends here. -/
def wordEnds : Scan Unit := do
  need (endsWord (← get).cursor.peek)

/-- Read a tag, from its exclamation mark. -/
def takeTag : Scan WrittenTag := do
  let cursor := (← get).cursor
  let c := cursor.peek 1
  let tag : WrittenTag ←
    if c == '<' then do
      skip 2
      let suffix ← takeUri
      need ((← get).cursor.peek == '>')
      skip 1
      pure ⟨none, suffix⟩
    else if endsToken c then do
      skip 1
      pure ⟨none, "!"⟩
    else do
      let word := cursor.next.rest.takeWhile (!endsWord ·)
      let handle ← if word.contains '!' then takeHandle else do skip 1; pure "!"
      pure ⟨some handle, ← takeUri⟩
  wordEnds
  return tag

/-- Read the number of a version. -/
def takeNumber : Scan Nat := do
  let digits ← take fun cursor =>
    let (digits, cursor) := cursor.takeWhile Text.isAsciiDigit
    if digits.isEmpty then none else some (digits, cursor)
  if Decimal.digitLimit < digits.length then throw (.tooLong digits.length)
  return Text.decimalValue digits

/-- Pass over spaces. -/
def skipSpaces : Scan Unit := modify fun s => { s with cursor := s.cursor.dropSpaces }

/-- Read a directive. -/
def takeDirective : Scan Directive := do
  skip 1
  let name ← takeName
  wordEnds
  let directive ←
    if name == "YAML" then do
      skipSpaces
      let major ← takeNumber
      need ((← get).cursor.peek == '.')
      skip 1
      discard takeNumber
      wordEnds
      pure (Directive.version major)
    else if name == "TAG" then do
      skipSpaces
      let handle ← takeHandle
      need ((← get).cursor.peek == ' ')
      skipSpaces
      let tagPrefix ← takeUri
      wordEnds
      pure (Directive.tag handle tagPrefix)
    else do
      modify fun s => { s with cursor := s.cursor.dropWhile (!endsLine ·) }
      pure Directive.other
  match (← get).cursor.endLine with
  | some cursor => modify ({ · with cursor })
  | none => fail
  return directive

/-- Start a directive or a document mark at the start of a line. -/
def startDocumentPart : Scan Unit := do
  closeBlocks (-1)
  dropKey
  allowKey false

/-- A dash before an entry of a sequence. -/
def readBlockEntry : Scan Unit := do
  let s ← get
  if s.flowLevel == 0 then
    need s.keyAllowed
    if ← openBlock s.cursor.column then push .blockSequenceStart
  allowKey true
  dropKey
  skip 1
  push .blockEntry

/-- A question mark before a key. -/
def readKey : Scan Unit := do
  let s ← get
  if s.flowLevel == 0 then
    need s.keyAllowed
    if ← openBlock s.cursor.column then push .blockMappingStart
  allowKey (s.flowLevel == 0)
  dropKey
  skip 1
  push .key

/-- A colon before a value. If a key may have started earlier, that was a key. -/
def readValue : Scan Unit := do
  let s ← get
  match s.keys.lookup s.flowLevel with
  | some place =>
    let opens := s.flowLevel == 0 && s.indent < (place.column : Int)
    let marks := if opens then #[Token.blockMappingStart, .key] else #[.key]
    let before := s.tokens.extract 0 place.token
    let after := s.tokens.extract place.token s.tokens.size
    set { s with
      keys := s.keys.filter fun (level, _) => level != s.flowLevel
      tokens := before ++ marks ++ after
      indent := if opens then (place.column : Int) else s.indent
      outerIndents := if opens then s.indent :: s.outerIndents else s.outerIndents
      keyAllowed := false }
  | none =>
    if s.flowLevel == 0 then
      need s.keyAllowed
      if ← openBlock s.cursor.column then push .blockMappingStart
    allowKey (s.flowLevel == 0)
    dropKey
  skip 1
  push .value

/-- A bracket or brace that opens a collection. -/
def readFlowStart (token : Token) : Scan Unit := do
  saveKey
  modify fun s => { s with flowLevel := s.flowLevel + 1, keyAllowed := true }
  skip 1
  push token

/-- A bracket or brace that closes a collection. -/
def readFlowEnd (token : Token) : Scan Unit := do
  dropKey
  need (0 < (← get).flowLevel)
  modify fun s => { s with flowLevel := s.flowLevel - 1, keyAllowed := false }
  skip 1
  push token

/-- An anchor or alias name, from its indicator. -/
def readAnchor (token : String → Token) : Scan Unit := do
  saveKey
  allowKey false
  skip 1
  let name ← takeName
  let c := (← get).cursor.peek
  need (endsToken c || "?:,]\x7d%@`".toList.contains c)
  push (token name)

/-- A scalar between quotes. -/
def readQuoted (double : Bool) : Scan Unit := do
  saveKey
  allowKey false
  let cursor := (← get).cursor.next
  match quotedText double cursor.rest.length.succ cursor with
  | .ok (text, cursor) =>
    modify ({ · with cursor })
    push (.scalar ⟨text⟩ false)
  | .error .malformed => fail
  | .error (.noCodePoint code) => throw (.noCodePoint code)

/-- A scalar in a block. -/
def readBlock (fold : Bool) : Scan Unit := do
  allowKey true
  dropKey
  let outer := (← get).indent
  let text ← take fun cursor => blockScalar fold outer cursor.next
  push (.scalar (String.ofList text) false)

/-- A plain scalar. -/
def readPlain : Scan Unit := do
  saveKey
  let s ← get
  let (text, brokeLine, cursor) :=
    plainScalar (s.flowLevel != 0) (s.indent + 1) s.cursor.rest.length.succ [] false s.cursor
  set { s with cursor, keyAllowed := brokeLine }
  push (.scalar (String.ofList text) true)

/-- Whether a plain scalar may start with these two characters. -/
def startsPlain (inFlow : Bool) (c next : Char) : Bool :=
  !(endsToken c || "-?:,[]\x7b\x7d#&*!|>'\"%@`".toList.contains c) ||
    (!endsToken next && (c == '-' || (!inFlow && (c == '?' || c == ':'))))

/-- Read the next token. The answer says whether the text goes on. -/
def readToken : Scan Bool := do
  skipBlank ((← get).cursor.rest.length.succ)
  dropStaleKeys
  closeBlocks (← get).cursor.column
  let s ← get
  let c := s.cursor.peek
  let next := s.cursor.peek 1
  let inFlow := s.flowLevel != 0
  let atStart := s.cursor.column == 0
  if c == '\x00' then
    closeBlocks (-1)
    dropKey
    push .streamEnd
    return false
  if c == '%' && atStart then
    startDocumentPart
    push (.directive (← takeDirective))
  else if atStart && s.cursor.atMark '-' then
    startDocumentPart
    skip 3
    push .documentStart
  else if atStart && s.cursor.atMark '.' then
    startDocumentPart
    skip 3
    push .documentEnd
  else if c == '[' then readFlowStart .flowSequenceStart
  else if c == '\x7b' then readFlowStart .flowMappingStart
  else if c == ']' then readFlowEnd .flowSequenceEnd
  else if c == '\x7d' then readFlowEnd .flowMappingEnd
  else if c == ',' then
    allowKey true
    dropKey
    skip 1
    push .flowEntry
  else if c == '-' && endsToken next then readBlockEntry
  else if c == '?' && (inFlow || endsToken next) then readKey
  else if c == ':' && (inFlow || endsToken next) then readValue
  else if c == '*' then readAnchor .alias
  else if c == '&' then readAnchor .anchor
  else if c == '!' then
    saveKey
    allowKey false
    push (.tag (← takeTag))
  else if c == '|' && !inFlow then readBlock false
  else if c == '>' && !inFlow then readBlock true
  else if c == '\'' then readQuoted false
  else if c == '"' then readQuoted true
  else if startsPlain inFlow c next then readPlain
  else fail
  return true

/-- The tokens that no later one can change: those before the first that may still be a key. -/
def settled (s : Scanner) : List Token :=
  let isOpen (place : KeyPlace) :=
    place.line == s.cursor.line && s.cursor.index ≤ place.index + 1024
  let places := (s.keys.filter fun (_, place) => isOpen place).map (·.2.token)
  s.tokens.toList.take (places.foldl min s.tokens.size)

end Scanner

/-- The tokens that can be taken from a text, and why no further one can be read, if the reading
ended early. -/
structure Tokens where
  tokens : List Token
  fault : Option ScanError := none

/-- Read the tokens that are left. -/
def Scanner.readTokens : Nat → Scanner → Tokens
  | 0, s => { tokens := s.tokens.toList }
  | fuel + 1, s =>
    match readToken.run s with
    | .ok (true, s) => readTokens fuel s
    | .ok (false, s) => { tokens := s.tokens.toList }
    | .error fault => { tokens := s.settled, fault }

/-- The tokens of a text. -/
def Tokens.ofText (text : List Char) : Tokens :=
  if !text.all isAllowed then { tokens := [], fault := some .malformed }
  else
    let start : Cursor := { rest := text }
    let start := if start.peek == '\ufeff' then start.next else start
    Scanner.readTokens (text.length + 1) { cursor := start }

end Manuscript.Yaml
