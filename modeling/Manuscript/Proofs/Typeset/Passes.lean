import Manuscript.Proofs.Document.Action
import Manuscript.Typeset.Passes

/-! # What the passes give

A pass is one run of a program, and gives what the program gave if it ended with
status zero. Typesetting succeeds if all three runs did, each on the output of the
run before (`typeset_ok_iff`).
-/

namespace Manuscript.Typeset

theorem Outcome.output_ok_iff (command : Command) (outcome : Outcome) (output : ByteArray) :
    outcome.output command = .ok output ↔
      ∃ diagnostics, outcome = .finished 0 output diagnostics := by
  cases outcome with
  | finished status found diagnostics =>
      by_cases hstatus : status = 0 <;> simp [Outcome.output, hstatus]
  | notStarted | timedOut => simp [Outcome.output]

variable (tools : Tools) (options : Options)

/-- The run at a position ended with status zero and gave an output. -/
def Gives (position : Nat) (program : Program) (timeout : Option Seconds)
    (input output : ByteArray) : Prop :=
  ∃ diagnostics, tools position { program, input, timeout } = .finished 0 output diagnostics

theorem gives_iff (position : Nat) (program : Program) (timeout : Option Seconds)
    (input output : ByteArray) :
    Gives tools position program timeout input output ↔
      (tools position ⟨program, input, timeout⟩).output ⟨program, input, timeout⟩ = .ok output :=
  (Outcome.output_ok_iff ..).symm

/-- A pass makes one run, also if it fails. -/
theorem runFrom_pass (program : Program) (timeout : Option Seconds) (input : ByteArray)
    (progress : Progress) :
    let command : Command := { program, input, timeout }
    ∃ log, (pass tools program timeout input).runFrom progress =
      ((tools progress.calls.size command).output command,
        { calls := progress.calls.push command, log }) := by
  intro command
  unfold pass
  simp only [report, Action.runFrom_bind, Action.runFrom_modify, Action.runFrom_get]
  cases (tools progress.calls.size command).output command with
  | ok output => exact ⟨_, rfl⟩
  | error e => exact ⟨_, rfl⟩

theorem pass_ok_iff (program : Program) (timeout : Option Seconds) (input : ByteArray)
    (progress : Progress) (output : ByteArray) :
    ((pass tools program timeout input).runFrom progress).1 = .ok output ↔
      Gives tools progress.calls.size program timeout input output := by
  obtain ⟨log, hrun⟩ := runFrom_pass tools program timeout input progress
  rw [hrun, gives_iff]

theorem calls_pass (program : Program) (timeout : Option Seconds) (input : ByteArray)
    (progress : Progress) :
    ((pass tools program timeout input).runFrom progress).2.calls =
      progress.calls.push { program, input, timeout } := by
  obtain ⟨log, hrun⟩ := runFrom_pass tools program timeout input progress
  rw [hrun]

/-- Typesetting succeeds if each pass gives an output from the output before. -/
theorem typeset_ok_iff (source content : ByteArray) :
    ((typeset tools options source).runFrom {}).1 = .ok content ↔
      ∃ pages, Gives tools 0 options.formatter options.timeout source pages ∧
        ∃ printerPages, Gives tools 1 options.converter options.timeout pages printerPages ∧
          Gives tools 2 options.finisher options.timeout printerPages content := by
  simp only [typeset, format, convert, finish, Action.runFrom_bind_ok_iff, pass_ok_iff, calls_pass]
  rfl

end Manuscript.Typeset
