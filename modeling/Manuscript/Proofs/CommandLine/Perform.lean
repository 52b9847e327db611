import Manuscript.CommandLine.Run
import Manuscript.Proofs.CommandLine.Logging

/-! # What a command does

In a world, a command that was accepted starts to log and then ends in one of five
ways (`Performed`): without a document, without options, with a document that cannot be
made into a result, with a result that cannot be delivered, or with one that is. In
between it only logs. If it cannot even start to log, it does nothing.
-/

namespace Manuscript

/-- How a command ends with a failure. -/
def Failure.ending (failure : Failure) (calls : List Typeset.Command) : CommandLine.Ending :=
  if failure.origin = .unforeseen then .ofUnforeseen failure calls
  else { status := failure.origin.exitStatus, calls }

theorem Failure.calls_ending (failure : Failure) (calls : List Typeset.Command) :
    (failure.ending calls).calls = calls := by
  unfold ending
  split <;> rfl

/-- No failure ends like a success. -/
theorem Failure.status_ending (failure : Failure) (calls : List Typeset.Command) :
    (failure.ending calls).status ≠ .success := by
  unfold ending CommandLine.Ending.ofUnforeseen FailureOrigin.exitStatus
  grind

/-- How a command ends that cannot use a document: nobody foresaw the character zero in its path. -/
def FileError.endingUnread : FileError → CommandLine.Ending
  | .system _ => { status := .file }
  | .zeroInPath => .ofUnforeseen (.file .zeroInPath)

theorem FileError.calls_endingUnread (e : FileError) : e.endingUnread.calls = [] := by
  cases e <;> rfl

theorem FileError.status_endingUnread (e : FileError) : e.endingUnread.status ≠ .success := by
  cases e <;> nofun

namespace CommandLine

namespace World

variable (world : World) (arguments : Arguments)

/-- The log file, if one is named and can be written. -/
def logFile? : Option String :=
  if arguments.logFile.isEmpty then none else world.fileAt? .write (settledPath arguments.logFile)

/-- The file of the document, unless the document is the input. -/
def inputFile? : Option String :=
  if arguments.input == inputWord then none else world.fileAt? .read (tidyPath arguments.input)

/-- The file of the result, unless the result goes to the output. -/
def outputFile? : Option String :=
  if arguments.output.isEmpty then none else world.fileAt? .write (tidyPath arguments.output)

/-- The document. -/
def document : Except FileError ByteArray :=
  if arguments.input == inputWord then .ok world.input else world.read (tidyPath arguments.input)

/-- The world after a result was delivered. -/
def deliver (content : ByteArray) : Except FileError World :=
  if arguments.output.isEmpty then .ok { world with output := world.output ++ content }
  else world.change (tidyPath arguments.output) fun _ => content

/-- Without a name there is no log file: its path is that of the directory. -/
theorem logFile?_eq :
    world.fileAt? .write (settledPath arguments.logFile) = world.logFile? arguments := by
  unfold logFile?
  split
  next hempty =>
    rw [String.isEmpty_iff.mp hempty]
    rfl
  next => rfl

/-- A result that was delivered follows the output, or it is the content of the file that is named
for it. -/
theorem eq_of_deliver {content : ByteArray} {received : World}
    (hdeliver : world.deliver arguments content = .ok received) :
    (arguments.output.isEmpty ∧ received = { world with output := world.output ++ content }) ∨
      ∃ name, ¬ arguments.output.isEmpty ∧
        world.fileAt? .write (tidyPath arguments.output) = some name ∧
        received = world.put name content := by
  unfold deliver at hdeliver
  split at hdeliver
  next houtput =>
    cases hdeliver
    exact .inl ⟨houtput, rfl⟩
  next houtput =>
    cases hname : world.fileAt? .write (tidyPath arguments.output) with
    | none =>
        obtain ⟨e, herror⟩ := world.change_error hname fun _ => content
        rw [herror] at hdeliver
        cases hdeliver
    | some name =>
        rw [world.change_eq hname] at hdeliver
        cases hdeliver
        exact .inr ⟨name, houtput, rfl, rfl⟩

/-- Delivering a result changes no path. -/
theorem fileAt?_deliver {content : ByteArray} {received : World}
    (hdeliver : world.deliver arguments content = .ok received) (access : Access)
    (path : String) : received.fileAt? access path = world.fileAt? access path := by
  rcases world.eq_of_deliver arguments hdeliver with ⟨-, rfl⟩ | ⟨name, -, hname, rfl⟩
  · exact world.fileAt?_congr { world with output := world.output ++ content } rfl rfl
      (fun _ => rfl) access path
  · exact world.fileAt?_put hname content access path

end World

/-- Whether the character zero stands in the path of the log file, so that logging cannot start. -/
def Arguments.logPathHoldsZero (arguments : Arguments) : Bool :=
  holdsZero (settledPath arguments.logFile)

section

variable (readers : Readers) (tools : Typeset.Tools) (surroundings : Option String)
  (arguments : Arguments) (log? : Option String)

/-- What comes of arguments in a world in which logging, perhaps to a file, has started. -/
inductive Performed (started : World) : Ending → World → Prop where
  | unread {e : FileError} {after : World} (hdocument : started.document arguments = .error e)
      (hlogged : Logged log? started after) :
      Performed started (FileError.endingUnread e) after
  | refused {document : ByteArray} {e : SettingError} {after : World}
      (hdocument : started.document arguments = .ok document)
      (hoptions : typesetOptions arguments surroundings = .error e)
      (hlogged : Logged log? started after) :
      Performed started ((Failure.setting e).ending []) after
  | failed {document : ByteArray} {options : Typeset.Options} {failure : Failure} {after : World}
      (hdocument : started.document arguments = .ok document)
      (hoptions : typesetOptions arguments surroundings = .ok options)
      (hcontent : (produce readers tools arguments options document).content = .error failure)
      (hlogged : Logged log? started after) :
      Performed started (failure.ending (produce readers tools arguments options document).calls)
        after
  | undelivered {document content : ByteArray} {options : Typeset.Options} {e : FileError}
      {ready after : World} (hdocument : started.document arguments = .ok document)
      (hoptions : typesetOptions arguments surroundings = .ok options)
      (hcontent : (produce readers tools arguments options document).content = .ok content)
      (hready : Logged log? started ready)
      (hdeliver : ready.deliver arguments content = .error e)
      (hlogged : Logged log? ready after) :
      Performed started
        ((Failure.file e).ending (produce readers tools arguments options document).calls) after
  | delivered {document content : ByteArray} {options : Typeset.Options}
      {ready received after : World} (hdocument : started.document arguments = .ok document)
      (hoptions : typesetOptions arguments surroundings = .ok options)
      (hcontent : (produce readers tools arguments options document).content = .ok content)
      (hready : Logged log? started ready)
      (hdeliver : ready.deliver arguments content = .ok received)
      (hlogged : Logged log? received after) :
      Performed started
        { status := .success, calls := (produce readers tools arguments options document).calls }
        after

end

section

variable (readers : Readers) (tools : Typeset.Tools) (surroundings : Option String)
  {arguments : Arguments} {logger : Logger} {path : String} {world : World}

@[simp] theorem host_formatter :
    (World.host tools surroundings readers).formatter = surroundings := rfl

@[simp] theorem host_tools : (World.host tools surroundings readers).tools = tools := rfl

@[simp] theorem host_readers : (World.host tools surroundings readers).readers = readers := rfl

/-- Reading the document changes nothing. -/
theorem run_readDocument :
    (readDocument (World.host tools surroundings readers) arguments).run world =
      (world.document arguments, world) := by
  unfold readDocument World.document
  split <;> rfl

theorem run_writeFile (path : String) (content : ByteArray) (world : World) :
    ((World.host tools surroundings readers).writeFile path content).run world =
      match world.change path fun _ => content with
      | .ok after => (.ok (), after)
      | .error e => (.error e, world) :=
  world.run_tryChange path fun _ => content

/-- A failure is told to those who ask for it and changes nothing else. -/
theorem run_fail (hlogger : logger.LogsTo path) (calls : List Typeset.Command) (failure : Failure)
    (world : World) :
    ∃ after, (fail (World.host tools surroundings readers) logger calls failure).run world =
      (failure.ending calls, after) ∧ Logged (world.fileAt? .write path) world after := by
  unfold fail Failure.ending
  split
  next => exact ⟨_, rfl, .refl _ _⟩
  next =>
    exact ⟨_, rfl, (LogsOnly.bind (Logger.logsOnly_log hlogger _) fun _ =>
      LogsOnly.bind (Logger.logsOnly_diagnostics tools surroundings readers _ _) fun _ =>
        .pure ()) world⟩

/-- Reporting what a stage logged changes nothing but the log. -/
theorem run_logAll (hlogger : logger.LogsTo path) (records : List Log.Record) (world : World) :
    ∃ after,
      (logger.logAll (World.host tools surroundings readers) records).run world = ((), after) ∧
        Logged (world.fileAt? .write path) world after :=
  ⟨_, rfl, Logger.logsOnly_logAll hlogger records world⟩

/-- After a result was delivered, there may be a record of it. -/
theorem run_writeResult_ok {content : ByteArray} {received : World}
    (hlogger : logger.LogsTo path) (hdeliver : world.deliver arguments content = .ok received) :
    ∃ after,
      (writeResult (World.host tools surroundings readers) logger arguments.output content).run
          world = (.ok (), after) ∧
        Logged (received.fileAt? .write path) received after := by
  unfold World.deliver at hdeliver
  unfold writeResult
  split
  next houtput =>
    rw [if_pos houtput] at hdeliver
    cases hdeliver
    exact ⟨_, rfl, .refl _ _⟩
  next houtput =>
    rw [if_neg houtput] at hdeliver
    have hwrite :=
      run_writeFile readers tools surroundings (tidyPath arguments.output) content world
    rw [hdeliver] at hwrite
    rw [run_bind hwrite]
    exact ⟨_, rfl, (LogsOnly.bind (Logger.logsOnly_log hlogger _) fun _ => .pure ()) received⟩

/-- A result that cannot be delivered leaves everything as it was. -/
theorem run_writeResult_error {content : ByteArray} {e : FileError}
    (hdeliver : world.deliver arguments content = .error e) :
    (writeResult (World.host tools surroundings readers) logger arguments.output content).run
      world = (.error e, world) := by
  unfold World.deliver at hdeliver
  unfold writeResult
  split
  next houtput =>
    rw [if_pos houtput] at hdeliver
    cases hdeliver
  next houtput =>
    rw [if_neg houtput] at hdeliver
    have hwrite :=
      run_writeFile readers tools surroundings (tidyPath arguments.output) content world
    rw [hdeliver] at hwrite
    rw [run_bind hwrite]
    rfl

/-- A command that cannot start to log does nothing. -/
theorem perform_unlogged (hzero : arguments.logPathHoldsZero = true) (world : World) :
    (perform (World.host tools surroundings readers) arguments).run world =
      (.ofUnforeseen (.file .zeroInPath), world) := by
  rcases Logger.run_start tools surroundings readers arguments.logging arguments.logFile world with
    ⟨hnone, -⟩ | ⟨-, hstart⟩
  · cases hnone.symm.trans hzero
  · rw [perform, run_bind hstart]
    rfl

end

section

variable {readers : Readers} {tools : Typeset.Tools} {surroundings : Option String}
  {arguments : Arguments} {logger : Logger} {log? : Option String} {path : String}
  {started : World} {document : ByteArray} {options : Typeset.Options}

/-- What came of a document is logged and delivered, if there is a result that can be. -/
theorem performed_finish (hlogger : logger.LogsTo path)
    (hlog : ∀ {later}, Logged log? started later → later.fileAt? .write path = log?)
    (hdocument : started.document arguments = .ok document)
    (hoptions : typesetOptions arguments surroundings = .ok options) :
    ∃ ending after,
      (finish (World.host tools surroundings readers) logger arguments
        (produce readers tools arguments options document)).run started = (ending, after) ∧
      Performed readers tools surroundings arguments log? started ending after := by
  obtain ⟨ready, hall, hready⟩ := run_logAll readers tools surroundings hlogger
    (produce readers tools arguments options document).log started
  rw [hlog (.refl _ _)] at hready
  unfold finish
  rw [run_bind hall]
  cases hcontent : (produce readers tools arguments options document).content with
  | error failure =>
      obtain ⟨after, hrun, hlogged⟩ := run_fail readers tools surroundings hlogger
        (produce readers tools arguments options document).calls failure ready
      rw [hlog hready] at hlogged
      exact ⟨_, after, hrun, .failed hdocument hoptions hcontent (hready.trans hlogged)⟩
  | ok content =>
      dsimp only
      cases hdeliver : ready.deliver arguments content with
      | error e =>
          obtain ⟨after, hrun, hlogged⟩ := run_fail readers tools surroundings hlogger
            (produce readers tools arguments options document).calls (.file e) ready
          rw [hlog hready] at hlogged
          rw [run_bind (run_writeResult_error readers tools surroundings hdeliver)]
          exact ⟨_, after, hrun, .undelivered hdocument hoptions hcontent hready hdeliver hlogged⟩
      | ok received =>
          obtain ⟨after, hrun, hlogged⟩ :=
            run_writeResult_ok readers tools surroundings hlogger hdeliver
          rw [ready.fileAt?_deliver arguments hdeliver, hlog hready] at hlogged
          rw [run_bind hrun]
          exact ⟨_, after, rfl, .delivered hdocument hoptions hcontent hready hdeliver hlogged⟩

end

/-- A command that can start to log does so, and in between it does one of five things. -/
theorem performed (readers : Readers) (tools : Typeset.Tools) (surroundings : Option String)
    {arguments : Arguments} (hlogs : arguments.logPathHoldsZero = false) (world : World) :
    ∃ started ending after, Logged (world.logFile? arguments) world started ∧
      (perform (World.host tools surroundings readers) arguments).run world = (ending, after) ∧
      Performed readers tools surroundings arguments (world.logFile? arguments) started ending
        after := by
  obtain ⟨logger, started, hstart, hlogger⟩ : ∃ logger started,
      (Logger.start arguments.logging (World.host tools surroundings readers)
        arguments.logFile).run world = (.ok logger, started) ∧
      logger.LogsTo (settledPath arguments.logFile) := by
    rcases Logger.run_start tools surroundings readers arguments.logging arguments.logFile world
      with ⟨-, hstart⟩ | ⟨hzero, -⟩
    · exact hstart
    · cases hlogs.symm.trans hzero
  have hstarted :=
    Logger.logsOnly_start tools surroundings readers arguments.logging arguments.logFile world
  rw [hstart, World.logFile?_eq] at hstarted
  -- The path of the log leads to the same file for as long as there is only logging.
  have hlog : ∀ {later}, Logged (world.logFile? arguments) started later →
      later.fileAt? .write (settledPath arguments.logFile) = world.logFile? arguments :=
    fun hlater => ((hstarted.trans hlater).fileAt? _ _).trans (world.logFile?_eq arguments)
  refine ⟨started, ?_⟩
  unfold perform
  rw [run_bind hstart, run_bind (run_readDocument readers tools surroundings)]
  cases hdocument : started.document arguments with
  | error e =>
      cases e with
      | system e => exact ⟨_, _, hstarted, rfl, .unread hdocument (.diagnostics ..)⟩
      | zeroInPath => exact ⟨_, _, hstarted, rfl, .unread hdocument (.refl _ _)⟩
  | ok document =>
      simp only [host_formatter, host_tools, host_readers]
      cases hoptions : typesetOptions arguments surroundings with
      | error e =>
          obtain ⟨after, hrun, hlogged⟩ :=
            run_fail readers tools surroundings hlogger [] (.setting e) started
          rw [hlog (.refl _ _)] at hlogged
          exact ⟨_, after, hstarted, hrun, .refused hdocument hoptions hlogged⟩
      | ok options =>
          obtain ⟨ending, after, hrun, hperformed⟩ :=
            performed_finish hlogger hlog hdocument hoptions
          exact ⟨ending, after, hstarted, hrun, hperformed⟩

end CommandLine

end Manuscript
