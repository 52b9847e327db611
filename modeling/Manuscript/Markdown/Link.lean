import Manuscript.Markdown.Address
import Manuscript.Markdown.Cursor

/-! # Links

A link has an address, which follows its text in parentheses or is defined
elsewhere under a label. Each reader here takes a part of a link from the
front of a text and gives what is left.
-/

namespace Manuscript.Markdown

/-- Put a character before what was taken. -/
def keep (c : Char) : Option (List Char × List Char) → Option (List Char × List Char)
  | some (taken, rest) => some (c :: taken, rest)
  | none => none

/-- Take the address up to a closing angle bracket. -/
def takeAngled : List Char → Option (List Char × List Char)
  | [] => none
  | '>' :: rest => some ([], rest)
  | '<' :: _ | '\n' :: _ => none
  | '\\' :: c :: rest =>
    if isPunctuation c then keep '\\' (keep c (takeAngled rest))
    else keep '\\' (takeAngled (c :: rest))
  | c :: rest => keep c (takeAngled rest)

/-- Take an address up to a space or a parenthesis that closes none of it. -/
def takeBare (depth : Nat) : List Char → Option (List Char × List Char)
  | [] => if depth = 0 then some ([], []) else none
  | '(' :: rest => if depth < 32 then keep '(' (takeBare (depth + 1) rest) else none
  | ')' :: rest =>
    if depth = 0 then some ([], ')' :: rest) else keep ')' (takeBare (depth - 1) rest)
  | '\\' :: c :: rest =>
    if isPunctuation c then keep '\\' (keep c (takeBare depth rest))
    else keep '\\' (takeBare depth (c :: rest))
  | c :: rest =>
    if c.toNat ≤ 0x20 || c.toNat == 0x7f then if depth = 0 then some ([], c :: rest) else none
    else keep c (takeBare depth rest)

/-- Take an address in either form. -/
def takeAddress : List Char → Option (List Char × List Char)
  | '<' :: rest => takeAngled rest
  | cs => takeBare 0 cs

/-- Pass over spaces and at most one line end. -/
def skipSpaces (cs : List Char) : List Char :=
  match cs.dropWhile isGap with
  | '\n' :: rest => rest.dropWhile isGap
  | rest => rest

/-- Pass over a title up to its closing mark. -/
def skipTitleTo (closing : Char) : List Char → Option (List Char)
  | [] => none
  | '\\' :: c :: rest =>
    if isPunctuation c then skipTitleTo closing rest else skipTitleTo closing (c :: rest)
  | c :: rest =>
    if c == closing then some rest
    else if c == '(' && closing == ')' then none
    else skipTitleTo closing rest

/-- Pass over a title. -/
def skipTitle : List Char → Option (List Char)
  | '"' :: rest => skipTitleTo '"' rest
  | '\'' :: rest => skipTitleTo '\'' rest
  | '(' :: rest => skipTitleTo ')' rest
  | _ => none

/-- Pass over a title that is set apart by spaces, if there is one. -/
def skipOptionalTitle (cs : List Char) : List Char :=
  let title := skipSpaces cs
  if title.length == cs.length then cs else (skipTitle title).getD cs

/-- Take the address in parentheses that makes the text before it a link. -/
def takeTarget : List Char → Option (String × List Char)
  | '(' :: rest =>
    match takeAddress (skipSpaces rest) with
    | some (written, rest) =>
      match skipSpaces (skipOptionalTitle rest) with
      | ')' :: rest => some (address written, rest)
      | _ => none
    | none => none
  | _ => none

/-! ## Labels and definitions -/

/-- Take the text of a label up to its closing bracket. -/
def takeLabelText : List Char → Option (List Char × List Char)
  | [] | '[' :: _ => none
  | ']' :: rest => some ([], rest)
  | '\\' :: c :: rest => keep '\\' (keep c (takeLabelText rest))
  | c :: rest => keep c (takeLabelText rest)

/-- Labels that differ in case and in spaces only are the same. -/
def labelKey (label : List Char) : Option String :=
  let key := Text.collapse (String.ofList (Text.lowered label))
  if key.isEmpty || 999 < label.length then none else some key

/-- Take a label in brackets. -/
def takeLabel : List Char → Option (String × List Char)
  | '[' :: rest => do
    let (label, rest) ← takeLabelText rest
    return (← labelKey label, rest)
  | _ => none

/-- The address of a label. -/
structure Definition where
  label : String
  target : String
  deriving DecidableEq, Repr

/-- What follows a line whose rest is empty. -/
def afterLineEnd (cs : List Char) : Option (List Char) :=
  match cs.dropWhile isGap with
  | [] => some []
  | '\n' :: rest => some rest
  | _ => none

/-- Take a definition, which ends with its line. -/
def takeDefinition (cs : List Char) : Option (Definition × List Char) := do
  let (label, rest) ← takeLabel cs
  match rest with
  | ':' :: rest =>
    let start := skipSpaces rest
    let (written, rest) ← takeAddress start
    if written.isEmpty && start.head? != some '<' then none
    let rest ← (afterLineEnd (skipOptionalTitle rest)) <|> afterLineEnd rest
    return (⟨label, address written⟩, rest)
  | _ => none

/-- Take the definitions that a text starts with, of which there are no more than a number. -/
def takeDefinitions : Nat → List Char → List Definition × List Char
  | 0, cs => ([], cs)
  | most + 1, cs =>
    match takeDefinition cs with
    | some (definition, rest) =>
      let (more, rest) := takeDefinitions most rest
      (definition :: more, rest)
    | none => ([], cs)

/-- The address that the first definition of a label gives. -/
def targetOf (definitions : List Definition) (label : String) : Option String :=
  (definitions.find? (·.label == label)).map (·.target)

end Manuscript.Markdown
