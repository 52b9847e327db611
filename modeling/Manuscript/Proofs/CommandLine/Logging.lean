import Manuscript.CommandLine.Logger
import Manuscript.CommandLine.World
import Manuscript.Proofs.CommandLine.Files

/-! # What logging changes

Records go to the diagnostics and to the log file. Everything else in a world stays
as it was: the input, the output, where paths lead, and the content of every other file.
-/

namespace Manuscript.CommandLine

/-- Between two worlds there was only logging, perhaps to a file. -/
structure Logged (log? : Option String) (world after : World) : Prop where
  input : after.input = world.input
  output : after.output = world.output
  fileAt? : ∀ access path, after.fileAt? access path = world.fileAt? access path
  content? : ∀ name, log? ≠ some name → after.content? name = world.content? name
  kept : ∀ name, (world.content? name).isSome → (after.content? name).isSome

namespace Logged

variable {log? : Option String} {world middle after : World}

theorem refl (log? : Option String) (world : World) : Logged log? world world :=
  ⟨rfl, rfl, fun _ _ => rfl, fun _ _ => rfl, fun _ => id⟩

theorem trans (hfirst : Logged log? world middle) (hsecond : Logged log? middle after) :
    Logged log? world after where
  input := hsecond.input.trans hfirst.input
  output := hsecond.output.trans hfirst.output
  fileAt? access path := (hsecond.fileAt? access path).trans (hfirst.fileAt? access path)
  content? name hname := (hsecond.content? name hname).trans (hfirst.content? name hname)
  kept name hname := hsecond.kept name (hfirst.kept name hname)

/-- Diagnostics are no file. -/
theorem diagnostics (log? : Option String) (world : World) (diagnostics : String) :
    Logged log? world { world with diagnostics } where
  input := rfl
  output := rfl
  fileAt? := world.fileAt?_congr { world with diagnostics } rfl rfl fun _ => rfl
  content? _ _ := rfl
  kept _ := id

/-- Giving the log file a content is logging. -/
theorem put {path name : String} (hname : world.fileAt? .write path = some name)
    (content : ByteArray) : Logged (some name) world (world.put name content) where
  input := world.put_input name content
  output := world.put_output name content
  fileAt? := world.fileAt?_put hname content
  content? other hother := by
    rw [world.content?_put, if_neg fun heq => hother (congrArg some heq.symm)]
  kept other hother := by
    rw [world.content?_put]
    split
    · rfl
    · exact hother

end Logged

/-- All that an action does is to log, perhaps to the file that a path leads to. -/
def LogsOnly {α : Type} (path : String) (action : StateM World α) : Prop :=
  ∀ world : World, Logged (world.fileAt? .write path) world (action.run world).2

namespace LogsOnly

variable {α β : Type} {path : String}

theorem pure (value : α) : LogsOnly path (pure value) := fun world => .refl _ world

/-- Two actions that log, one after the other, log. -/
theorem bind {first : StateM World α} {next : α → StateM World β} (hfirst : LogsOnly path first)
    (hnext : ∀ value, LogsOnly path (next value)) : LogsOnly path (first >>= next) := by
  intro world
  have hmiddle := hfirst world
  have hafter := hnext (first.run world).1 (first.run world).2
  rw [hmiddle.fileAt? .write path] at hafter
  exact hmiddle.trans hafter

theorem map (f : α → β) {action : StateM World α} (haction : LogsOnly path action) :
    LogsOnly path (f <$> action) := fun world => haction world

/-- To change the log file is to log, also if it is not possible. -/
theorem tryChange (change : ByteArray → ByteArray) :
    LogsOnly path (World.tryChange path change) := by
  intro world
  rw [world.run_tryChange]
  cases hname : world.fileAt? .write path with
  | none =>
      obtain ⟨e, herror⟩ := world.change_error hname change
      rw [herror]
      exact .refl _ world
  | some name =>
      rw [world.change_eq hname]
      exact .put hname _

end LogsOnly

/-- After a part has been run, the rest is run in the world that it leaves. -/
theorem run_bind {α β : Type} {first : StateM World α} {next : α → StateM World β} {middle : World}
    {value : α} (hfirst : first.run world = (value, middle)) :
    (first >>= next).run world = (next value).run middle := by
  rw [StateT.run_bind, hfirst]
  rfl

namespace Logger

variable (tools : Typeset.Tools) (formatter : Option String) (readers : Readers)

/-- A logger writes to no file but the one that a path names. -/
def LogsTo (logger : Logger) (path : String) : Prop := ∀ file, logger.file = some file → file = path

theorem logsOnly_diagnostics (path text : String) :
    LogsOnly path ((World.host tools formatter readers).writeDiagnostics text) :=
  fun world => .diagnostics _ world (world.diagnostics ++ text)

theorem logsTo_none (setup : Log.Setup) (path : String) : LogsTo { setup } path :=
  fun _ heq => nomatch heq

theorem logsTo_some (setup : Log.Setup) (path : String) :
    LogsTo { setup, file := some path } path := fun _ heq => (Option.some.inj heq).symm

variable {tools formatter readers} {logger : Logger} {path : String}

/-- Logging a record changes nothing but the log. -/
theorem logsOnly_log (hlogger : logger.LogsTo path) (record : Log.Record) :
    LogsOnly path (logger.log (World.host tools formatter readers) record) := by
  unfold log
  split
  next =>
    refine .bind (.pure "") fun stamp => LogsOnly.bind (logsOnly_diagnostics _ _ _ _ _) fun _ => ?_
    split
    next file hfile =>
      cases hlogger file hfile
      exact (LogsOnly.tryChange _).map _
    next => exact .pure ()
  next => exact .pure ()

/-- Logging records changes nothing but the log. -/
theorem logsOnly_logAll (hlogger : logger.LogsTo path) (records : List Log.Record) :
    LogsOnly path (logger.logAll (World.host tools formatter readers) records) := by
  unfold logAll
  induction records with
  | nil => exact .pure ()
  | cons record rest ih => exact (logsOnly_log hlogger record).bind fun _ => ih

variable (tools formatter readers)

/-- Starting to log changes nothing but the log. -/
theorem logsOnly_start (setup : Log.Setup) (file : String) :
    LogsOnly (settledPath file) (start setup (World.host tools formatter readers) file) := by
  unfold start
  split
  next => exact .pure _
  next =>
    refine (LogsOnly.tryChange id).bind fun opened => ?_
    split
    next => exact .bind (logsOnly_log (logsTo_some _ _) _) fun _ => .pure _
    next => exact .bind (logsOnly_log (logsTo_none _ _) _) fun _ => .pure _
    next => exact .pure _

/-- Logging starts, and goes to the file of the name that was given. Only a path in which the
character zero stands keeps it from starting. -/
theorem run_start (setup : Log.Setup) (file : String) (world : World) :
    (holdsZero (settledPath file) = false ∧ ∃ logger started,
      (start setup (World.host tools formatter readers) file).run world = (.ok logger, started) ∧
        logger.LogsTo (settledPath file)) ∨
    (holdsZero (settledPath file) = true ∧
      (start setup (World.host tools formatter readers) file).run world =
        (.error .zeroInPath, world)) := by
  unfold start
  split
  next hempty =>
    rw [String.isEmpty_iff.mp hempty]
    exact .inl ⟨rfl, _, _, rfl, logsTo_none setup _⟩
  next =>
    have hopen : ((World.host tools formatter readers).openLog (settledPath file)).run world = _ :=
      world.run_tryChange (settledPath file) id
    have hzero := world.locate_zeroInPath_iff .write (settledPath file)
    rw [← world.change_error_iff _ id] at hzero
    cases hchange : world.change (settledPath file) id with
    | ok opened =>
        rw [hchange] at hopen hzero
        rw [run_bind hopen]
        exact .inl ⟨by simpa using hzero, _, _, rfl, logsTo_some setup _⟩
    | error e =>
        rw [hchange] at hopen hzero
        rw [run_bind hopen]
        cases e with
        | system e => exact .inl ⟨by simpa using hzero, _, _, rfl, logsTo_none setup _⟩
        | zeroInPath => exact .inr ⟨hzero.mp rfl, rfl⟩

end Logger

end Manuscript.CommandLine
