import Manuscript.Markdown.Cursor
import Manuscript.Text.Letter

/-! # Embedded markup

Markup that stands between angle brackets is kept as it is: tags, comments,
instructions, declarations and character data within a line of text, and whole
blocks of lines, which start and end in one of seven ways.
-/

namespace Manuscript.Markdown

/-- A blank of markup. -/
def isMarkupBlank (c : Char) : Bool := isGap c || c == '\n'

/-- What follows the first occurrence of a text. -/
def after (mark : List Char) : List Char → Option (List Char)
  | [] => if mark.isEmpty then some [] else none
  | c :: cs =>
    if mark.isPrefixOf (c :: cs) then some ((c :: cs).drop mark.length) else after mark cs

/-- Pass over the name of a tag. -/
def skipTagName : List Char → Option (List Char)
  | c :: cs => if c.isAlpha then some (cs.dropWhile fun d => d.isAlphanum || d == '-') else none
  | [] => none

/-- Whether a character may start the name of an attribute. -/
def startsAttribute (c : Char) : Bool := c.isAlpha || c == '_' || c == ':'

/-- Whether a character may go on in the name of an attribute. -/
def inAttributeName (c : Char) : Bool :=
  c.isAlphanum || c == '_' || c == '.' || c == ':' || c == '-'

/-- Whether a character may stand in a value without quotes. -/
def inBareValue (c : Char) : Bool :=
  !(isMarkupBlank c || c == '"' || c == '\'' || c == '=' || c == '<' || c == '>' || c == '\x60')

/-- Pass over the value of an attribute. -/
def skipAttributeValue : List Char → Option (List Char)
  | '"' :: cs => after ['"'] cs
  | '\'' :: cs => after ['\''] cs
  | cs =>
    let rest := cs.dropWhile inBareValue
    if rest.length < cs.length then some rest else none

/-- Pass over a value and the sign before it, if there is one. -/
def skipOptionalValue (cs : List Char) : Option (List Char) :=
  match cs.dropWhile isMarkupBlank with
  | '=' :: rest => skipAttributeValue (rest.dropWhile isMarkupBlank)
  | _ => some cs

/-- Pass over the attributes of a tag, of which there are no more than a number, and its end. -/
def skipAttributes : Nat → List Char → Option (List Char)
  | most, cs =>
    match cs.dropWhile isMarkupBlank with
    | '>' :: rest => some rest
    | '/' :: '>' :: rest => some rest
    | c :: rest =>
      if startsAttribute c && (cs.head?.map isMarkupBlank).getD false then
        match most with
        | 0 => none
        | most + 1 =>
          (skipOptionalValue (rest.dropWhile inAttributeName)).bind (skipAttributes most)
      else none
    | [] => none

/-- Pass over an opening or closing tag, given what follows its bracket. -/
def skipTag : List Char → Option (List Char)
  | '/' :: cs => do
    match (← skipTagName cs).dropWhile isMarkupBlank with
    | '>' :: rest => some rest
    | _ => none
  | cs => (skipTagName cs).bind (skipAttributes cs.length)

/-- Pass over a comment, given what follows its first mark. -/
def skipComment : List Char → Option (List Char)
  | '>' :: rest => some rest
  | '-' :: '>' :: rest => some rest
  | cs => after "-->".toList cs

/-- Pass over markup within a text, given what follows its bracket. -/
def skipMarkup : List Char → Option (List Char)
  | '!' :: '-' :: '-' :: rest => skipComment rest
  | '?' :: rest => after "?>".toList rest
  | '!' :: '[' :: 'C' :: 'D' :: 'A' :: 'T' :: 'A' :: '[' :: rest => after "]]>".toList rest
  | '!' :: c :: rest => if c.isAlpha then after ['>'] rest else none
  | cs => skipTag cs

/-- Take what a reader passes over, with a character that stood before it. -/
def takeSkipped (first : Char) (skip : List Char → Option (List Char)) (cs : List Char) :
    Option (List Char × List Char) :=
  (skip cs).map fun rest => (first :: cs.take (cs.length - rest.length), rest)

/-! ## Addresses in angle brackets -/

/-- Whether a text is an absolute address: the name of a scheme, a colon, and no spaces. -/
def isAbsoluteAddress (cs : List Char) : Bool :=
  let scheme := cs.takeWhile fun c => c.isAlphanum || c == '+' || c == '.' || c == '-'
  let rest := cs.drop scheme.length
  2 ≤ scheme.length && scheme.length ≤ 32 && (scheme.head?.map Char.isAlpha).getD false &&
    rest.head? == some ':' && rest.all fun c => 0x20 < c.toNat && c.toNat ≠ 0x7f

/-- Whether a character may stand in the local part of a mail address. -/
def inLocalPart (c : Char) : Bool :=
  c.isAlphanum || ".!#$%&'*+/=?^_`\x7b|\x7d~-".toList.contains c

/-- Whether a text is one part of a domain name. -/
def isDomainPart (cs : List Char) : Bool :=
  !cs.isEmpty && cs.length ≤ 63 && (cs.all fun c => c.isAlphanum || c == '-') &&
    cs.head? != some '-' && cs.getLast? != some '-'

/-- Whether a text is a mail address. -/
def isMailAddress (cs : List Char) : Bool :=
  match Text.splitBy (· == '@') cs with
  | [name, domain] =>
    !name.isEmpty && name.all inLocalPart && (Text.splitBy (· == '.') domain).all isDomainPart
  | _ => false

/-- Take an address up to the closing bracket: the address of the link and its text. -/
def takeAutolink (cs : List Char) : Option ((List Char × List Char) × List Char) :=
  let inner := cs.takeWhile fun c => c != '>' && c != '<'
  match cs.drop inner.length with
  | '>' :: rest =>
    if isAbsoluteAddress inner then some ((inner, inner), rest)
    else if isMailAddress inner then some (("mailto:".toList ++ inner, inner), rest)
    else none
  | _ => none

/-! ## Blocks of markup -/

/-- How a block of markup ends. -/
inductive HtmlEnd where
  /-- With the line that holds one of some marks, in any letter case. -/
  | mark (marks : List String)
  /-- Before a blank line. -/
  | blankLine
  deriving DecidableEq, Repr

/-- The tags whose content is no markup. -/
def rawTags : List String := ["script", "pre", "style", "textarea"]

/-- The tags that always start a block. -/
def blockTags : List String := [
  "address", "article", "aside", "base", "basefont", "blockquote", "body", "caption", "center",
  "col", "colgroup", "dd", "details", "dialog", "dir", "div", "dl", "dt", "fieldset",
  "figcaption", "figure", "footer", "form", "frame", "frameset", "h1", "h2", "h3", "h4", "h5",
  "h6", "head", "header", "hr", "html", "iframe", "legend", "li", "link", "main", "menu",
  "menuitem", "nav", "noframes", "ol", "optgroup", "option", "p", "param", "search", "section",
  "summary", "table", "tbody", "td", "tfoot", "th", "thead", "title", "tr", "track", "ul"]

/-- Whether a text ends the name of a tag. -/
def endsName (selfClosing : Bool) : List Char → Bool
  | [] => true
  | '/' :: '>' :: _ => selfClosing
  | c :: _ => isMarkupBlank c || c == '>'

/-- How a block that starts with a line ends, if the line starts one. A tag of no special name
starts a block only where `anyTag` allows it, and only if nothing else is on its line. -/
def htmlStart? (anyTag : Bool) : List Char → Option HtmlEnd
  | '<' :: '!' :: '-' :: '-' :: _ => some (.mark ["-->"])
  | '<' :: '?' :: _ => some (.mark ["?>"])
  | '<' :: '!' :: '[' :: 'C' :: 'D' :: 'A' :: 'T' :: 'A' :: '[' :: _ => some (.mark ["]]>"])
  | '<' :: '!' :: c :: _ => if c.isAlpha then some (.mark [">"]) else none
  | '<' :: cs =>
    let closing := cs.head? == some '/'
    let tag := if closing then cs.drop 1 else cs
    let name := String.ofList (Text.lowered (tag.takeWhile Char.isAlphanum))
    let rest := tag.dropWhile Char.isAlphanum
    if rawTags.contains name && !closing && endsName false rest then
      some (.mark (rawTags.map fun name => "</" ++ name ++ ">"))
    else if blockTags.contains name && endsName true rest then some .blankLine
    else if anyTag && !rawTags.contains name then
      match skipTag cs with
      | some rest => if rest.all isGap then some .blankLine else none
      | none => none
    else none
  | _ => none

/-- Whether a line holds a mark, in any letter case. -/
def holdsMark (marks : List String) (line : List Char) : Bool :=
  marks.any fun mark => (after mark.toList (Text.lowered line)).isSome

end Manuscript.Markdown
