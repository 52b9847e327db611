import Manuscript.Proofs.Typeset.Passes

/-! # The runs of typesetting

Typesetting passes a source through three programs, each on the output of the one
before, up to the first run that gives no output (`Pipes`). These runs are made in
this order and no others, and the result is the last output or what is reported of
the run that gave none (`typeset_pipes`).
-/

namespace Manuscript.Typeset

/-- What is reported of a run that gave no output. What it wrote before is lost. -/
inductive Reports (command : Command) : Outcome → ToolError → Prop
  | status {status : Int} {output diagnostics : ByteArray} (hstatus : status ≠ 0) :
      Reports command (.finished status output diagnostics)
        ⟨command.program, some status, Text.trim (Text.ofUtf8Lossy diagnostics)⟩
  | notStarted {error : SystemError} :
      Reports command (.notStarted error) ⟨command.program, none, error.message⟩
  | timedOut :
      Reports command .timedOut
        ⟨command.program, none,
          "timed out after " ++ (command.timeout.map Seconds.text).getD "None" ++ " seconds"⟩

theorem Outcome.output_error_iff (command : Command) (outcome : Outcome) (error : ToolError) :
    outcome.output command = .error error ↔ Reports command outcome error := by
  constructor
  · intro houtput
    cases outcome with
    | finished status output diagnostics =>
        rw [Outcome.output] at houtput
        split at houtput
        next => cases houtput
        next hstatus =>
          cases houtput
          exact .status hstatus
    | notStarted => cases houtput; exact .notStarted
    | timedOut => cases houtput; exact .timedOut
  · rintro (hstatus | _ | _)
    · exact if_neg hstatus
    · rfl
    · rfl

section

variable (tools : Tools) (timeout : Option Seconds)

/-- The run at a position gave no output, and this is reported of it. -/
def Fails (position : Nat) (program : Program) (input : ByteArray) (error : ToolError) : Prop :=
  let command : Command := { program, input, timeout }
  Reports command (tools position command) error

/-- An input is passed through programs, the runs starting at a position: these are the runs that
are made and what comes of them. -/
inductive Pipes : Nat → List Program → ByteArray → List Command → Except ToolError ByteArray → Prop
  | done {position content} : Pipes position [] content [] (.ok content)
  | gives {position program rest input output calls result}
      (hgives : Gives tools position program timeout input output)
      (hrest : Pipes (position + 1) rest output calls result) :
      Pipes position (program :: rest) input ({ program, input, timeout } :: calls) result
  | fails {position program rest input error}
      (hfails : Fails tools timeout position program input error) :
      Pipes position (program :: rest) input [{ program, input, timeout }] (.error error)

end

section

variable {tools : Tools} {timeout : Option Seconds} {position : Nat} {program : Program}
  {programs rest : List Program} {input : ByteArray}

theorem fails_iff {error : ToolError} :
    Fails tools timeout position program input error ↔
      (tools position ⟨program, input, timeout⟩).output ⟨program, input, timeout⟩ =
        .error error :=
  (Outcome.output_error_iff ..).symm

/-- The outcomes of the runs settle which runs are made and what comes of them. -/
theorem Pipes.unique {calls others : List Command} {result other : Except ToolError ByteArray}
    (hpipes : Pipes tools timeout position programs input calls result)
    (hother : Pipes tools timeout position programs input others other) :
    calls = others ∧ result = other := by
  induction hpipes generalizing others other with
  | done =>
      cases hother
      exact ⟨rfl, rfl⟩
  | gives hgives _ ih =>
      rw [gives_iff] at hgives
      cases hother with
      | gives hgives' hrest =>
          rw [gives_iff, hgives] at hgives'
          cases hgives'
          obtain ⟨rfl, rfl⟩ := ih hrest
          exact ⟨rfl, rfl⟩
      | fails hfails =>
          rw [fails_iff, hgives] at hfails
          cases hfails
  | fails hfails =>
      rw [fails_iff] at hfails
      cases hother with
      | gives hgives =>
          rw [gives_iff, hfails] at hgives
          cases hgives
      | fails hfails' =>
          rw [fails_iff, hfails] at hfails'
          cases hfails'
          exact ⟨rfl, rfl⟩

variable (tools timeout) in
/-- From wherever it starts, a part of typesetting passes an input through programs. -/
def Runs (programs : List Program) (input : ByteArray) (part : Typesetter ByteArray) : Prop :=
  ∀ progress, ∃ result calls log,
    part.runFrom progress = (result, ⟨progress.calls ++ calls.toArray, log⟩) ∧
      Pipes tools timeout progress.calls.size programs input calls result

theorem runs_pure : Runs tools timeout [] input (pure input) :=
  fun progress => ⟨.ok input, [], progress.log, by simp, .done⟩

/-- One pass more in front: its run comes first, and if it gives an output, that is what the other
runs start from. -/
theorem runs_pass {next : ByteArray → Typesetter ByteArray}
    (hnext : ∀ output, Runs tools timeout rest output (next output)) :
    Runs tools timeout (program :: rest) input (pass tools program timeout input >>= next) := by
  intro progress
  obtain ⟨log, hrun⟩ := runFrom_pass tools program timeout input progress
  cases houtput : (tools progress.calls.size ⟨program, input, timeout⟩).output
      ⟨program, input, timeout⟩ with
  | error error =>
      rw [houtput] at hrun
      refine ⟨.error error, [⟨program, input, timeout⟩], log, ?_, .fails (fails_iff.mpr houtput)⟩
      rw [Action.runFrom_bind_error hrun]
      simp
  | ok output =>
      rw [houtput] at hrun
      obtain ⟨result, calls, log', hthen, hpipes⟩ :=
        hnext output ⟨progress.calls.push ⟨program, input, timeout⟩, log⟩
      rw [Array.size_push] at hpipes
      refine ⟨result, ⟨program, input, timeout⟩ :: calls, log', ?_,
        .gives ((gives_iff ..).mpr houtput) hpipes⟩
      rw [Action.runFrom_bind_ok hrun, hthen]
      simp

theorem runs_typeset (tools : Tools) (options : Options) (source : ByteArray) :
    Runs tools options.timeout [options.formatter, options.converter, options.finisher] source
      (typeset tools options source) := by
  apply runs_pass
  intro pages
  apply runs_pass
  intro printerPages
  rw [← bind_pure (finish tools options printerPages)]
  exact runs_pass fun _ => runs_pure

end

/-- Typesetting passes the source through the formatter, the converter and the finisher: it makes
the runs up to the first one that gives no output, and its result is the output of the finisher or
what is reported of that run. It succeeds exactly if all three runs end with status zero. -/
theorem typeset_pipes (tools : Tools) (options : Options) (source : ByteArray) :
    let programs := [options.formatter, options.converter, options.finisher]
    (∀ result calls,
      (∃ log, (typeset tools options source).runFrom {} = (result, ⟨calls.toArray, log⟩)) ↔
        Pipes tools options.timeout 0 programs source calls result) ∧
    ∀ content, ((typeset tools options source).runFrom {}).1 = .ok content ↔
      ∃ pages, Gives tools 0 options.formatter options.timeout source pages ∧
        ∃ printerPages, Gives tools 1 options.converter options.timeout pages printerPages ∧
          Gives tools 2 options.finisher options.timeout printerPages content := by
  intro programs
  obtain ⟨result, calls, log, hrun, hpipes⟩ := runs_typeset tools options source {}
  refine ⟨fun result' calls' => ⟨?_, ?_⟩, typeset_ok_iff tools options source⟩
  · rintro ⟨log', hrun'⟩
    rw [hrun] at hrun'
    obtain ⟨rfl, hprogress⟩ := Prod.mk.inj hrun'
    have hcalls : calls = calls' := by simpa using congrArg Progress.calls hprogress
    rwa [← hcalls]
  · intro hpipes'
    obtain ⟨rfl, rfl⟩ := hpipes.unique hpipes'
    exact ⟨log, by simpa using hrun⟩

end Manuscript.Typeset
