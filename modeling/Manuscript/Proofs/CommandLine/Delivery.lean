import Manuscript.Proofs.CommandLine.Perform
import Manuscript.Proofs.Document.Walk
import Manuscript.Proofs.Typeset.Passes

/-! # All or nothing

A command either delivers its whole result, once and to one place, or leaves the
output and all files but the log as they were (`run_all_or_nothing`). It delivers a
result exactly if every stage gives one.
-/

namespace Manuscript.CommandLine

/-! ## Results -/

section

variable (readers : Readers) (tools : Typeset.Tools) (arguments : Arguments)
  (options : Typeset.Options) (document : ByteArray)

/-- A document is made into a result: its formatter source, or what the three passes make of it. -/
inductive Makes : ByteArray → Prop where
  | source {text : String} (htypeset : arguments.typeset = false)
      (htext : (convert readers arguments.reading arguments.rendering (.bytes document)).result =
        .ok text) :
      Makes text.toUTF8
  | pages {text : String} {pages printerPages content : ByteArray}
      (htypeset : arguments.typeset = true)
      (htext : (convert readers arguments.reading arguments.rendering (.bytes document)).result =
        .ok text)
      (hformat : Typeset.Gives tools 0 options.formatter options.timeout text.toUTF8 pages)
      (hconvert : Typeset.Gives tools 1 options.converter options.timeout pages printerPages)
      (hfinish : Typeset.Gives tools 2 options.finisher options.timeout printerPages content) :
      Makes content

/-- What comes of a document that is converted and, if that is asked for, typeset. -/
theorem content_produce :
    (produce readers tools arguments options document).content =
      (convert readers arguments.reading arguments.rendering (.bytes document)).result.bind
        fun text =>
          if arguments.typeset then
            ((Typeset.typeset tools options text.toUTF8).runFrom {}).1.mapError .tool
          else .ok text.toUTF8 := by
  unfold produce
  dsimp only
  cases (convert readers arguments.reading arguments.rendering (.bytes document)).result with
  | error failure => rfl
  | ok text =>
      dsimp only [Except.bind]
      split <;> rfl

theorem mapError_ok_iff {α β γ : Type} (result : Except α γ) (f : α → β) (value : γ) :
    result.mapError f = .ok value ↔ result = .ok value := by
  constructor <;>
    · intro hresult
      cases result <;> cases hresult
      rfl

/-- A document is produced exactly if every stage gives a result. -/
theorem produce_ok_iff (content : ByteArray) :
    (produce readers tools arguments options document).content = .ok content ↔
      Makes readers tools arguments options document content := by
  rw [content_produce]
  constructor
  · intro hcontent
    cases htext :
      (convert readers arguments.reading arguments.rendering (.bytes document)).result with
    | error failure =>
        rw [htext] at hcontent
        cases hcontent
    | ok text =>
        rw [htext, Except.bind] at hcontent
        split at hcontent
        next htypeset =>
          rw [mapError_ok_iff, Typeset.typeset_ok_iff] at hcontent
          obtain ⟨pages, hformat, printerPages, hconvert, hfinish⟩ := hcontent
          exact .pages htypeset htext hformat hconvert hfinish
        next htypeset =>
          cases hcontent
          exact .source (by simpa using htypeset) htext
  · intro hmakes
    cases hmakes with
    | source htypeset htext => rw [htext, htypeset]; rfl
    | pages htypeset htext hformat hconvert hfinish =>
        have htypesets := (Typeset.typeset_ok_iff tools options _ _).mpr
          ⟨_, hformat, _, hconvert, hfinish⟩
        rw [htext, htypeset, Except.bind, if_pos rfl, mapError_ok_iff, htypesets]

/-- Without typesetting no program is run. -/
theorem calls_produce (htypeset : arguments.typeset = false) :
    (produce readers tools arguments options document).calls = [] := by
  unfold produce
  dsimp only
  cases (convert readers arguments.reading arguments.rendering (.bytes document)).result with
  | error failure => rfl
  | ok text => simp [htypeset]

end

/-! ## Places -/

namespace World

variable (world : World) (arguments : Arguments)

/-- The log file is neither the file of the document nor that of the result. -/
structure LogApart : Prop where
  input : ∀ name, world.logFile? arguments = some name → world.inputFile? arguments ≠ some name
  output : ∀ name, world.logFile? arguments = some name → world.outputFile? arguments ≠ some name

/-- A result can be delivered. -/
def CanDeliver : Prop := arguments.output.isEmpty ∨ (world.outputFile? arguments).isSome

end World

/-- A result was delivered and nothing else has changed but the log: it follows what was written to
the output before, or it is the content of the file that is named for it. -/
inductive Delivered (arguments : Arguments) (content : ByteArray) (world after : World) : Prop where
  | output (houtput : arguments.output.isEmpty) (hwritten : after.output = world.output ++ content)
      (hfiles : ∀ name, world.logFile? arguments ≠ some name →
        after.content? name = world.content? name)
  | file {file : String} (hfile : world.outputFile? arguments = some file)
      (hwritten : after.content? file = some content) (houtput : after.output = world.output)
      (hfiles : ∀ name ≠ file, world.logFile? arguments ≠ some name →
        after.content? name = world.content? name)

section

variable {arguments : Arguments} {world started ready received after : World}
  {content document : ByteArray}

/-- Logging does not change the document if it goes to another file. -/
theorem Logged.document_ok_iff (hapart : world.LogApart arguments)
    (hlogged : Logged (world.logFile? arguments) world started) (document : ByteArray) :
    started.document arguments = .ok document ↔ world.document arguments = .ok document := by
  unfold World.document
  split
  next => rw [hlogged.input]
  next hinput =>
    rw [World.read_ok_iff, World.read_ok_iff, hlogged.fileAt?]
    refine exists_congr fun name => and_congr_right fun hname => ?_
    rw [hlogged.content? name fun hlog => hapart.input name hlog ?_]
    rw [World.inputFile?, if_neg hinput, hname]

/-- Whether a result can be delivered does not depend on the result. -/
theorem deliver_ok_iff :
    (∃ received, world.deliver arguments content = .ok received) ↔ world.CanDeliver arguments := by
  unfold World.deliver World.CanDeliver World.outputFile?
  split
  next houtput => simp [houtput]
  next houtput =>
    cases hname : world.fileAt? .write (tidyPath arguments.output) with
    | none =>
        obtain ⟨e, herror⟩ := world.change_error hname fun _ => content
        simp [herror, houtput]
    | some name => simp [world.change_eq hname]

/-- Logging does not change whether a result can be delivered. -/
theorem Logged.canDeliver_iff {log? : Option String} (hlogged : Logged log? world after)
    (arguments : Arguments) : after.CanDeliver arguments ↔ world.CanDeliver arguments := by
  unfold World.CanDeliver World.outputFile?
  rw [hlogged.fileAt?]

/-- A result that was delivered after some logging and before some more. -/
theorem Delivered.of_deliver (hapart : world.LogApart arguments)
    (hready : Logged (world.logFile? arguments) world ready)
    (hdeliver : ready.deliver arguments content = .ok received)
    (hlogged : Logged (world.logFile? arguments) received after) :
    Delivered arguments content world after := by
  rcases ready.eq_of_deliver arguments hdeliver with ⟨houtput, rfl⟩ | ⟨name, houtput, hname, rfl⟩
  · refine .output houtput ?_ fun name hname => ?_
    · rw [hlogged.output, hready.output]
    · rw [hlogged.content? name hname]
      exact hready.content? name hname
  · have hfile : world.outputFile? arguments = some name := by
      rw [World.outputFile?, if_neg houtput, ← hready.fileAt?, hname]
    refine .file hfile ?_ ?_ fun other hne hother => ?_
    · rw [hlogged.content? name fun hlog => hapart.output name hlog hfile,
        World.content?_put, if_pos rfl]
    · rw [hlogged.output, World.put_output, hready.output]
    · rw [hlogged.content? other hother, World.content?_put, if_neg hne,
        hready.content? other hother]

end

/-- What a command line gives if nothing fails. -/
def World.Yields (world : World) (readers : Readers) (tools : Typeset.Tools)
    (surroundings : Option String) (arguments : Arguments) (content : ByteArray) : Prop :=
  ∃ document options, world.document arguments = .ok document ∧
    typesetOptions arguments surroundings = .ok options ∧
    Makes readers tools arguments options document content

section

variable {readers : Readers} {tools : Typeset.Tools} {surroundings : Option String}
  {arguments : Arguments} {log? : Option String} {world started after : World} {ending : Ending}

/-- There is at most one result. -/
theorem World.Yields.unique {content other : ByteArray}
    (hcontent : world.Yields readers tools surroundings arguments content)
    (hother : world.Yields readers tools surroundings arguments other) : content = other := by
  obtain ⟨document, options, hdocument, hoptions, hmakes⟩ := hcontent
  obtain ⟨document', options', hdocument', hoptions', hmakes'⟩ := hother
  cases hdocument.symm.trans hdocument'
  cases hoptions.symm.trans hoptions'
  rw [← produce_ok_iff] at hmakes hmakes'
  cases hmakes.symm.trans hmakes'
  rfl

/-- A command that ends with success has delivered its result. -/
theorem Performed.success (hapart : world.LogApart arguments)
    (hstarted : Logged (world.logFile? arguments) world started)
    (hperformed : Performed readers tools surroundings arguments (world.logFile? arguments)
      started ending after) (hsuccess : ending.status = .success) :
    ∃ content, world.Yields readers tools surroundings arguments content ∧
      world.CanDeliver arguments ∧ Delivered arguments content world after := by
  cases hperformed with
  | @unread e => exact absurd hsuccess e.status_endingUnread
  | refused | failed | undelivered => exact absurd hsuccess (Failure.status_ending _ _)
  | delivered hdocument hoptions hcontent hready hdeliver hlogged =>
      have hbefore := hstarted.trans hready
      have hopen := deliver_ok_iff.mp ⟨_, hdeliver⟩
      rw [hbefore.canDeliver_iff] at hopen
      exact ⟨_, ⟨_, _, (hstarted.document_ok_iff hapart _).mp hdocument, hoptions,
        (produce_ok_iff ..).mp hcontent⟩, hopen, .of_deliver hapart hbefore hdeliver hlogged⟩

/-- A command that ends with a failure has only logged. -/
theorem Performed.untouched (hstarted : Logged (world.logFile? arguments) world started)
    (hperformed : Performed readers tools surroundings arguments (world.logFile? arguments)
      started ending after) (hfails : ending.status ≠ .success) :
    Logged (world.logFile? arguments) world after := by
  cases hperformed with
  | unread _ hlogged | refused _ _ hlogged | failed _ _ _ hlogged => exact hstarted.trans hlogged
  | undelivered _ _ _ hready _ hlogged => exact hstarted.trans (hready.trans hlogged)
  | delivered => exact absurd rfl hfails

/-- A command that can read its document, has its options and can deliver a result ends with
success, unless it makes no result of the document. -/
theorem Performed.made (hopen : started.CanDeliver arguments)
    (hperformed : Performed readers tools surroundings arguments log? started ending after)
    {document : ByteArray} (hdocument : started.document arguments = .ok document)
    {options : Typeset.Options} (hoptions : typesetOptions arguments surroundings = .ok options) :
    (∃ failure, (produce readers tools arguments options document).content = .error failure ∧
        ending = failure.ending (produce readers tools arguments options document).calls) ∨
      ∃ content, (produce readers tools arguments options document).content = .ok content ∧
        ending = { status := .success
                   calls := (produce readers tools arguments options document).calls } := by
  cases hperformed with
  | unread herror => cases herror.symm.trans hdocument
  | refused _ herror => cases herror.symm.trans hoptions
  | failed hdocument' hoptions' hcontent =>
      cases hdocument'.symm.trans hdocument
      cases hoptions'.symm.trans hoptions
      exact .inl ⟨_, hcontent, rfl⟩
  | undelivered _ _ _ hready herror =>
      obtain ⟨received, hdeliver⟩ := deliver_ok_iff.mpr ((hready.canDeliver_iff _).mpr hopen)
      cases herror.symm.trans hdeliver
  | delivered hdocument' hoptions' hcontent =>
      cases hdocument'.symm.trans hdocument
      cases hoptions'.symm.trans hoptions
      exact .inr ⟨_, hcontent, rfl⟩

/-- A command ends with success if every stage gives a result that can be delivered. -/
theorem Performed.success_of_yields (hapart : world.LogApart arguments)
    (hstarted : Logged (world.logFile? arguments) world started)
    (hperformed : Performed readers tools surroundings arguments (world.logFile? arguments)
      started ending after) {content : ByteArray}
    (hyields : world.Yields readers tools surroundings arguments content)
    (hopen : world.CanDeliver arguments) : ending.status = .success := by
  obtain ⟨document, options, hdocument, hoptions, hmakes⟩ := hyields
  have hread := (hstarted.document_ok_iff hapart document).mpr hdocument
  rcases hperformed.made ((hstarted.canDeliver_iff _).mpr hopen) hread hoptions with
    ⟨failure, hfails, rfl⟩ | ⟨-, -, rfl⟩
  · cases hfails.symm.trans ((produce_ok_iff ..).mpr hmakes)
  · rfl

theorem Performed.calls_eq_nil (htypeset : arguments.typeset = false)
    (hperformed : Performed readers tools surroundings arguments log? started ending after) :
    ending.calls = [] := by
  cases hperformed with
  | @unread e => exact e.calls_endingUnread
  | refused => exact Failure.calls_ending _ _
  | failed | undelivered =>
      rw [Failure.calls_ending]
      exact calls_produce _ _ _ _ _ htypeset
  | delivered => exact calls_produce _ _ _ _ _ htypeset

end

/-- A command line that is accepted ends with success exactly if logging can start, every stage
gives a result and the result can be delivered. Then it has been delivered, once and to one place;
otherwise nothing has been written but diagnostics and the log. Programs are run only to typeset. -/
theorem run_all_or_nothing (readers : Readers) (tools : Typeset.Tools)
    (surroundings : Option String) (world : World) {words : List String} {arguments : Arguments}
    (hwords : Arguments.ofList words = .ok arguments) (hapart : world.LogApart arguments) :
    ∃ ending after,
      (run (World.host tools surroundings readers) words).run world = (ending, after) ∧
      (ending.status = .success ↔ arguments.logPathHoldsZero = false ∧
        (∃ content, world.Yields readers tools surroundings arguments content) ∧
          world.CanDeliver arguments) ∧
      (∀ content, world.Yields readers tools surroundings arguments content →
        ending.status = .success → Delivered arguments content world after) ∧
      (ending.status ≠ .success → after.output = world.output ∧
        ∀ name, world.logFile? arguments ≠ some name →
          after.content? name = world.content? name) ∧
      (arguments.typeset = false → ending.calls = []) := by
  rw [run, hwords]
  dsimp only
  cases hlogs : arguments.logPathHoldsZero with
  | true =>
      have hrun := perform_unlogged readers tools surroundings hlogs world
      exact ⟨_, _, hrun, ⟨nofun, nofun⟩, nofun, fun _ => ⟨rfl, fun _ _ => rfl⟩, fun _ => rfl⟩
  | false =>
      obtain ⟨started, ending, after, hstarted, hrun, hperformed⟩ :=
        performed readers tools surroundings hlogs world
      refine ⟨ending, after, hrun, ⟨fun hsuccess => ?_, ?_⟩, fun content hyields hsuccess => ?_,
        fun hfails => ?_, fun htypeset => hperformed.calls_eq_nil htypeset⟩
      · obtain ⟨content, hyields, hopen, -⟩ := hperformed.success hapart hstarted hsuccess
        exact ⟨rfl, ⟨content, hyields⟩, hopen⟩
      · rintro ⟨-, ⟨content, hyields⟩, hopen⟩
        exact hperformed.success_of_yields hapart hstarted hyields hopen
      · obtain ⟨content', hyields', -, hdelivered⟩ := hperformed.success hapart hstarted hsuccess
        rw [hyields.unique hyields']
        exact hdelivered
      · have hlogged := hperformed.untouched hstarted hfails
        exact ⟨hlogged.output, hlogged.content?⟩

/-- A document of one letter in a directory below the root, which a command is not run in. -/
def letterWorld : World := {
  here := ["work", "home"]
  files := [("tmp/letters/in.md", "a\n".toUTF8)] }

/-- It is to be converted into a file that is named by a path from the root, with a log beside the
working directory. -/
def letterArguments : Arguments where
  input := "/tmp/letters/in.md"
  output := "../../tmp/out.ms"
  logFile := "../notes.log"

theorem convert_letter :
    (convert {} {} {} (.bytes "a\n".toUTF8)).result = .ok "\na\n.SG\n" := by
  have htree : (Markdown.readSourceWith Markdown.tokenize {} (.bytes "a\n".toUTF8)).tree =
      .ok (.document [.paragraph [.text "a"]]) := rfl
  unfold convert Markdown.Reading.toTroff
  rw [htree]
  simp only [Renderer.renderWith, Renderer.document, walk_eq_descend]
  rfl

unseal gather in
/-- Paths from the root and paths above the working directory lead to the files of a command. -/
theorem run_all_or_nothing_letter :
    ∃ ending after, (run (World.host (fun _ _ => .timedOut) none)
        ["--log-file", "../notes.log", "-o", "../../tmp/out.ms", "/tmp/letters/in.md"]).run
          letterWorld = (ending, after) ∧
      ending.status = .success ∧ ending.calls = [] ∧ after.output = .empty ∧
      after.content? "tmp/letters/in.md" = some "a\n".toUTF8 ∧
      after.content? "tmp/out.ms" = some "\na\n.SG\n".toUTF8 := by
  have hwords : Arguments.ofList
      ["--log-file", "../notes.log", "-o", "../../tmp/out.ms", "/tmp/letters/in.md"] =
        .ok letterArguments := rfl
  have hapart : letterWorld.LogApart letterArguments := by
    constructor <;>
      · intro name hlog
        cases (show some "home/notes.log" = some name from hlog)
        decide
  have hyields : letterWorld.Yields {} (fun _ _ => .timedOut) none letterArguments
      "\na\n.SG\n".toUTF8 := ⟨"a\n".toUTF8, {}, rfl, rfl, .source rfl convert_letter⟩
  obtain ⟨ending, after, hrun, hiff, hdelivers, -, hcalls⟩ :=
    run_all_or_nothing {} (fun _ _ => .timedOut) none letterWorld hwords hapart
  have hsuccess := hiff.mpr ⟨rfl, ⟨_, hyields⟩, .inr rfl⟩
  refine ⟨ending, after, hrun, hsuccess, hcalls rfl, ?_⟩
  cases hdelivers _ hyields hsuccess with
  | output houtput => cases houtput
  | file hfile hwritten houtput hfiles =>
      cases (show some "tmp/out.ms" = some _ from hfile)
      exact ⟨houtput, hfiles "tmp/letters/in.md" (by decide) (by decide), hwritten⟩

end Manuscript.CommandLine
