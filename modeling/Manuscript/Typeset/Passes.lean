import Manuscript.Document.Walk
import Manuscript.Log
import Manuscript.Typeset.Program

/-! # Typesetting

Three passes turn formatter source into a finished document, each of them a
run of one program on the output of the pass before. The first pass that fails
is the last that is made.
-/

namespace Manuscript.Typeset

/-- The programs of the three passes and the time that each of them may take. -/
structure Options where
  /-- From formatter source to the formatter's own page description. -/
  formatter : Program := ⟨"/usr/lib/plan9/bin/troff", ["-Tutf", "-ms", "-mpictures"]⟩
  /-- From the formatter's page description to a printer's. -/
  converter : Program := ⟨"tr2post", []⟩
  /-- From the printer's page description to the finished document. -/
  finisher : Program := ⟨"ps2pdf", ["-", "-"]⟩
  timeout : Option Seconds := none

/-- The runs that were made and what was reported. -/
structure Progress where
  calls : Array Command := #[]
  log : Array Log.Record := #[]

/-- A part of typesetting. -/
abbrev Typesetter := Action ToolError Progress

/-- Report for those who look for faults. -/
def report (message : String) : Typesetter Unit :=
  modify fun progress => { progress with log := progress.log.push ⟨Log.debug, message⟩ }

/-- Run a program on an input. -/
def pass (tools : Tools) (program : Program) (timeout : Option Seconds) (input : ByteArray) :
    Typesetter ByteArray := do
  let arguments := Text.bracketed ((program.binary :: program.args).map Text.quoted)
  report s!"Running {program.binary}: {arguments}"
  let command : Command := { program, input, timeout }
  let position := (← get).calls.size
  modify fun progress => { progress with calls := progress.calls.push command }
  let output ← (tools position command).output command
  report s!"{program.binary} produced {output.size} bytes"
  return output

/-- The pass of the formatter. -/
def format (tools : Tools) (options : Options) (source : ByteArray) : Typesetter ByteArray :=
  pass tools options.formatter options.timeout source

/-- The pass of the converter. -/
def convert (tools : Tools) (options : Options) (pages : ByteArray) : Typesetter ByteArray :=
  pass tools options.converter options.timeout pages

/-- The pass of the finisher. -/
def finish (tools : Tools) (options : Options) (pages : ByteArray) : Typesetter ByteArray :=
  pass tools options.finisher options.timeout pages

/-- All three passes. -/
def typeset (tools : Tools) (options : Options) (source : ByteArray) : Typesetter ByteArray := do
  let pages ← format tools options source
  let printerPages ← convert tools options pages
  finish tools options printerPages

/-- Typeset formatter source that was made from a document. -/
def typesetRendered (tools : Tools) (options : Options) (source : ByteArray) :
    Typesetter ByteArray := do
  report s!"Typesetting {source.size} bytes of ms macros"
  typeset tools options source

end Manuscript.Typeset
