import Manuscript.Failure
import Manuscript.Markdown.Tokens
import Manuscript.Render.Renderer

/-! # From markdown to formatter source

A document is read and its tree is rendered. The reports of both stages are
kept in order, also when one of them fails.

A document is written in two languages: markdown, and that of the metadata. What
reads them is given to a conversion.
-/

namespace Manuscript

/-- What reads the two languages of a document. -/
structure Readers where
  tokenize : Markdown.Tokenizer := Markdown.tokenize
  metadata : FrontMatter.Reader := Yaml.load

/-- What a conversion gave and what it reported. -/
structure Conversion (α : Type) where
  result : Except Failure α
  log : List Log.Record

/-- The formatter source of a tree that was read, given how front matter is loaded. -/
def Markdown.Reading.toTroff (load : Render.Loader) (reading : Markdown.Reading)
    (options : Render.Options) : Conversion String :=
  match reading.tree with
  | .error error => { result := .error (.tree error), log := reading.log }
  | .ok tree =>
    let rendering := Renderer.renderWith load { options } tree
    { result :=
        match rendering.result with
        | .ok () => .ok (Troff.textOf rendering.written)
        | .error error => .error (.render error)
      log := reading.log ++ rendering.log }

/-- The formatter source of a markdown document. -/
def convert (readers : Readers) (reading : Markdown.Options) (rendering : Render.Options)
    (source : Markdown.Source) : Conversion String :=
  (Markdown.readSourceWith readers.tokenize reading source).toTroff
    (FrontMatter.loadWith readers.metadata) rendering

end Manuscript
