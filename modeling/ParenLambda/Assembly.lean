import ParenLambda.BaseLibrary
import ParenLambda.Compile

/-!
# Assembled sources

What is compiled is the user's source, usually behind the base library and a line feed. Places in
the assembled text are reported in the file they come from: those before the user's source in the
library, all others in the user's file, with offsets counted from the start of that file.
-/

namespace ParenLambda

/-- **An assembled source.** -/
structure Assembly where
  /-- The name of the user's file. -/
  name : String
  /-- What precedes the user's source. -/
  lead : String
  /-- The user's source. -/
  user : String

/-- A place in one of the files that an assembled source comes from. -/
structure Place where
  /-- The name of the file. -/
  name : String
  /-- The text of the file. -/
  text : String
  /-- The byte in the file. -/
  offset : Nat

namespace Assembly

/-- Assemble the source of a user's file, behind the base library or by itself. -/
def make (name user : String) (withBase : Bool) : Assembly where
  name := name
  lead := if withBase then BaseLibrary.text ++ "\n" else ""
  user := user

/-- The assembled text. -/
def text (assembly : Assembly) : String :=
  assembly.lead ++ assembly.user

/-- The byte of the assembled text at which the user's source starts. -/
def userStart (assembly : Assembly) : Nat :=
  assembly.lead.utf8ByteSize

/-- **The place of a byte** of the assembled text. -/
def locate (assembly : Assembly) (offset : Nat) : Place :=
  if assembly.userStart ≤ offset then
    ⟨assembly.name, assembly.user, offset - assembly.userStart⟩
  else ⟨BaseLibrary.name, assembly.lead, offset⟩

/-- The program of an assembled source, or the first fault in it. -/
def compile (assembly : Assembly) : Except Fault Program :=
  Program.compile assembly.text

end Assembly

end ParenLambda
