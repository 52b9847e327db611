import Manuscript.Text.Loose
import Manuscript.Yaml.Cursor

/-! # Scalars of a metadata text

A scalar is a text value. It stands plainly, between apostrophes or double
quotes, or as an indented block of lines. Line breaks inside plain and quoted
scalars fold into spaces: a single one becomes a space, and of several the
first is dropped. Blocks keep their breaks or fold them, as their header says.
-/

namespace Manuscript.Yaml

/-! ## Quoted scalars -/

/-- The characters that an escape letter stands for. -/
def escapes : List (Char × Char) := [
  ('0', '\x00'), ('a', '\x07'), ('b', '\x08'), ('t', '\t'), ('\t', '\t'), ('n', '\n'),
  ('v', '\x0b'), ('f', '\x0c'), ('r', '\r'), ('e', '\x1b'), (' ', ' '), ('"', '"'),
  ('\\', '\\'), ('/', '/'), ('N', '\x85'), ('_', '\xa0'), ('L', '\u2028'), ('P', '\u2029')]

/-- How many hexadecimal digits follow an escape letter. -/
def escapeWidth (c : Char) : Option Nat :=
  if c == 'x' then some 2 else if c == 'u' then some 4 else if c == 'U' then some 8 else none

/-- Why quoted text cannot be read: it is malformed, or it names a code point that does not
exist. -/
inductive QuoteError where
  | malformed
  | noCodePoint (code : Nat)
  deriving DecidableEq, Repr

/-- Line breaks between the lines of quoted text, with the indentation after them. A document mark
must not start a line. -/
def quotedBreaks : Nat → Cursor → Option (List Char × Cursor)
  | 0, _ => none
  | fuel + 1, cursor =>
    if cursor.atDocumentMark then none
    else
      let cursor := cursor.dropWhile fun c => c == ' ' || c == '\t'
      match cursor.takeBreak with
      | some (c, cursor) => (quotedBreaks fuel cursor).map fun (cs, rest) => (c :: cs, rest)
      | none => some ([], cursor)

/-- What stands for a line break that is followed by further ones. -/
def folded (c : Char) (further : List Char) : List Char :=
  if c != '\n' then c :: further else if further.isEmpty then [' '] else further

/-- Read quoted text up to the closing quote. Escapes may name halves of surrogate pairs. -/
def quotedText (double : Bool) : Nat → Cursor → Except QuoteError (List CodePoint × Cursor)
  | 0, _ => .error .malformed
  | fuel + 1, cursor =>
    let continueFrom (front : List CodePoint) (cursor : Cursor) :
        Except QuoteError (List CodePoint × Cursor) := do
      let (back, rest) ← quotedText double fuel cursor
      return (front ++ back, rest)
    let continueWith (front : List Char) := continueFrom (front.map .char)
    let breaks (cursor : Cursor) : Except QuoteError (List Char × Cursor) :=
      match quotedBreaks cursor.rest.length.succ cursor with
      | some result => .ok result
      | none => .error .malformed
    let c := cursor.peek
    if c == '\x00' then .error .malformed
    else if c == ' ' || c == '\t' then
      let (blanks, after) := cursor.takeWhile fun c => c == ' ' || c == '\t'
      if after.peek == '\x00' then .error .malformed
      else if isBreak after.peek then continueWith [] after
      else continueWith blanks after
    else if isBreak c then
      match cursor.takeBreak with
      | some (c, after) => do
        let (further, after) ← breaks after
        continueWith (folded c further) after
      | none => .error .malformed
    else if !double && c == '\'' then
      if cursor.peek 1 == '\'' then continueWith ['\''] (cursor.advance 2)
      else .ok ([], cursor.next)
    else if double && c == '"' then .ok ([], cursor.next)
    else if double && c == '\\' then
      let after := cursor.next
      let letter := after.peek
      match escapes.lookup letter, escapeWidth letter with
      | some c, _ => continueWith [c] after.next
      | none, some width =>
        let digits := after.next.rest.take width
        if digits.length == width && digits.all fun c => (Text.hexValue? c).isSome then
          let code := Text.valueInBase 16 digits
          if 0x10ffff < code then .error (.noCodePoint code)
          else continueFrom [.ofNat code] (after.next.advance width)
        else .error .malformed
      | none, none =>
        match after.takeBreak with
        | some (_, after) => do
          let (further, after) ← breaks after
          continueWith further after
        | none => .error .malformed
    else continueWith [c] cursor.next

/-! ## Block scalars -/

/-- How the breaks at the end of a block are treated: all dropped, one kept, all kept. -/
inductive Chomp where
  | strip
  | clip
  | keep
  deriving DecidableEq, Repr

private def chomp? (c : Char) : Option Chomp :=
  if c == '+' then some .keep else if c == '-' then some .strip else none

private def increment? (c : Char) : Option Nat :=
  if Text.isAsciiDigit c then some (c.toNat - 0x30) else none

/-- The header of a block: how it ends and how far it is indented, in either order. -/
def blockHeader (cursor : Cursor) : Option (Chomp × Option Nat × Cursor) := do
  let (chomp, increment, cursor) :=
    match chomp? cursor.peek with
    | some chomp =>
      match increment? (cursor.peek 1) with
      | some n => (chomp, some n, cursor.advance 2)
      | none => (chomp, none, cursor.next)
    | none =>
      match increment? cursor.peek with
      | some n =>
        match chomp? (cursor.peek 1) with
        | some chomp => (chomp, some n, cursor.advance 2)
        | none => (Chomp.clip, some n, cursor.next)
      | none => (Chomp.clip, none, cursor)
  if increment == some 0 || !endsWord cursor.peek then none
  else return (chomp, increment, ← cursor.endLine)

/-- The empty lines before a block whose indentation is not given, and the widest indentation
among them and the first other line. -/
def blockIndent : Nat → Nat → Cursor → List Char × Nat × Cursor
  | 0, widest, cursor => ([], widest, cursor)
  | fuel + 1, widest, cursor =>
    if cursor.peek == ' ' then
      let cursor := cursor.next
      blockIndent fuel (max widest cursor.column) cursor
    else
      match cursor.takeBreak with
      | some (c, cursor) =>
        let (cs, widest, cursor) := blockIndent fuel widest cursor
        (c :: cs, widest, cursor)
      | none => ([], widest, cursor)

/-- The empty lines inside a block, and the indentation of the next line. -/
def blockBreaks (indent : Int) : Nat → Cursor → List Char × Cursor
  | 0, cursor => ([], cursor)
  | fuel + 1, cursor =>
    let cursor := cursor.dropIndent indent
    match cursor.takeBreak with
    | some (c, cursor) =>
      let (cs, cursor) := blockBreaks indent fuel cursor
      (c :: cs, cursor)
    | none => ([], cursor)

/-- The lines of a block, after the breaks before them. The last break and the empty lines after
it are added as the header says. -/
def blockLines (fold : Bool) (chomp : Chomp) (indent : Int) :
    Nat → List Char → Cursor → List Char × Cursor
  | 0, _, cursor => ([], cursor)
  | fuel + 1, before, cursor =>
    let isBlank (c : Char) := c == ' ' || c == '\t'
    let startsBlank := isBlank cursor.peek
    let (line, cursor) := cursor.takeWhile (!endsLine ·)
    let (lineBreak, cursor) :=
      match cursor.takeBreak with
      | some (c, cursor) => ([c], cursor)
      | none => ([], cursor)
    let (breaks, cursor) := blockBreaks indent cursor.rest.length.succ cursor
    if (cursor.column : Int) == indent && cursor.peek != '\x00' then
      let between :=
        if fold && lineBreak == ['\n'] && !startsBlank && !isBlank cursor.peek then
          if breaks.isEmpty then [' '] else []
        else lineBreak
      let (following, cursor) := blockLines fold chomp indent fuel breaks cursor
      (before ++ line ++ between ++ following, cursor)
    else
      let tail :=
        match chomp with
        | .strip => []
        | .clip => lineBreak
        | .keep => lineBreak ++ breaks
      (before ++ line ++ tail, cursor)

/-- Read a block, from after its indicator, inside a collection with an indentation. -/
def blockScalar (fold : Bool) (outer : Int) (cursor : Cursor) : Option (List Char × Cursor) := do
  let (chomp, increment, cursor) ← blockHeader cursor
  let least := max (outer + 1) 1
  let fuel := cursor.rest.length.succ
  let (breaks, indent, cursor) :=
    match increment with
    | none =>
      let (breaks, widest, cursor) := blockIndent fuel 0 cursor
      (breaks, max least (widest : Int), cursor)
    | some n =>
      let indent := least + n - 1
      let (breaks, cursor) := blockBreaks indent fuel cursor
      (breaks, indent, cursor)
  if (cursor.column : Int) == indent && cursor.peek != '\x00' then
    return blockLines fold chomp indent fuel breaks cursor
  else
    return (if chomp == .keep then breaks else [], cursor)

/-! ## Plain scalars -/

/-- What stands between the words of a plain scalar: the text for it, whether a line ended, and
whether a document mark ends the scalar there. -/
structure Gap where
  text : List Char
  brokeLine : Bool
  atMark : Bool
  cursor : Cursor

/-- The breaks and spaces after the first break between lines of a plain scalar. -/
def plainBreaks : Nat → Cursor → List Char × Bool × Cursor
  | 0, cursor => ([], false, cursor)
  | fuel + 1, cursor =>
    if cursor.peek == ' ' then plainBreaks fuel cursor.next
    else
      match cursor.takeBreak with
      | some (c, cursor) =>
        if cursor.atDocumentMark then ([], true, cursor)
        else
          let (cs, atMark, cursor) := plainBreaks fuel cursor
          (c :: cs, atMark, cursor)
      | none => ([], false, cursor)

/-- Read what stands between words of a plain scalar. -/
def plainGap (cursor : Cursor) : Gap :=
  let (spaces, cursor) := cursor.takeWhile (· == ' ')
  match cursor.takeBreak with
  | some (c, cursor) =>
    if cursor.atDocumentMark then ⟨[], true, true, cursor⟩
    else
      let (further, atMark, cursor) := plainBreaks cursor.rest.length.succ cursor
      if atMark then ⟨[], true, true, cursor⟩
      else ⟨folded c further, true, false, cursor⟩
  | none => ⟨spaces, false, false, cursor⟩

/-- The run of characters of a plain scalar up to a blank or an indicator that ends it. -/
def plainRun (inFlow : Bool) : List Char → List Char
  | [] => []
  | c :: rest =>
    let next := rest.headD '\x00'
    let inner (c : Char) := c == ',' || c == '[' || c == ']' || c == '\x7b' || c == '\x7d'
    if endsToken c then []
    else if c == ':' && (endsToken next || (inFlow && inner next)) then []
    else if inFlow && (inner c || c == '?') then []
    else c :: plainRun inFlow rest

/-- Read a plain scalar: its text, whether it reached the start of a line, and the place after. -/
def plainScalar (inFlow : Bool) (indent : Int) :
    Nat → List Char → Bool → Cursor → List Char × Bool × Cursor
  | 0, _, brokeLine, cursor => ([], brokeLine, cursor)
  | fuel + 1, before, brokeLine, cursor =>
    if cursor.peek == '#' then ([], brokeLine, cursor)
    else
      let run := plainRun inFlow cursor.rest
      if run.isEmpty then ([], brokeLine, cursor)
      else
        let gap := plainGap (cursor.advance run.length)
        if gap.text.isEmpty || gap.cursor.peek == '#' ||
            (!inFlow && (gap.cursor.column : Int) < indent) then
          (before ++ run, gap.brokeLine, gap.cursor)
        else
          let (following, brokeLine, cursor) :=
            plainScalar inFlow indent fuel gap.text gap.brokeLine gap.cursor
          (before ++ run ++ following, brokeLine, cursor)

end Manuscript.Yaml
