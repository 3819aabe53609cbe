/-
The language of the seek commands.

A seek command is meant to be AESDCHAR_IOCSEEKTO:X,Y and a newline, with two
decimal numbers of 32 bits.  strtol takes more than that, and nothing behind
the second number is looked at; the parser is right about a line exactly when
it rejects it or the line has the intended form.
-/

import Aesd.Server.RequestLines

set_option autoImplicit false

namespace Aesd.Server

open BoundedLoop Driver EndedGroups LineInput UnlessStopped

/-- Numbers of more than 32 bits are cut off: AESDCHAR_IOCSEEKTO:4294967296,0. -/
example : seekCommand (seekPrefix ++
    [52, 50, 57, 52, 57, 54, 55, 50, 57, 54, comma, 48, newline]) = some ⟨0, 0⟩ := by decide

section Session

variable {File : Type} {ops : OutputFile File} {Good : File → Prop} {rest : File → List Byte}
  {client : Client} {line extra : List Byte}

end Session

end Aesd.Server
