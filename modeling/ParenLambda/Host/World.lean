import ParenLambda.Host.FileTree

/-!
# Worlds

The part of a system that a command can see or change: the files below the directory it runs in, its
standard input, what has been written to its standard output and error, and the programs it can run.
A standard stream may have an end, as one that leads to a full disk has; a text that does not fit is
refused, and what fits of it is written nevertheless. A file has room for everything.

What the programs do is not modelled: a world says what comes of running one.
-/

namespace ParenLambda

/-! ### Standard streams -/

/-- **A stream** that programs write to. -/
structure Stream where
  /-- What has been written to it. -/
  bytes : ByteArray := .empty
  /-- How many bytes more it takes, if there is an end to them. -/
  room : Option Nat := none

namespace Stream

/-- Write bytes to a stream, as far as they fit: the answer to it, and the stream after it. -/
def write (stream : Stream) (bytes : ByteArray) : Except Refusal Unit × Stream :=
  match stream.room with
  | none => (.ok (), { stream with bytes := stream.bytes ++ bytes })
  | some room =>
    if bytes.size ≤ room then (.ok (), ⟨stream.bytes ++ bytes, some (room - bytes.size)⟩)
    else (.error .noSpace, ⟨stream.bytes ++ bytes.extract 0 room, some 0⟩)

end Stream

/-! ### Worlds -/

/-- **What comes of running a program**: how it ends, and what it leaves behind. -/
structure Execution where
  /-- How it ends. -/
  ending : Ending
  /-- What it writes to the standard output. -/
  output : ByteArray := .empty
  /-- What it writes to the standard error. -/
  errors : ByteArray := .empty
  /-- The files as it leaves them. -/
  files : FileTree

/-- **A world.** -/
structure World where
  /-- The absolute path of the directory. -/
  directory : String
  /-- The files below it. -/
  files : FileTree
  /-- The standard input. -/
  input : ByteArray
  /-- The standard output. -/
  output : Stream := {}
  /-- The standard error. -/
  errors : Stream := {}
  /-- The absolute paths of the programs that are installed. -/
  installed : List String := []
  /-- What comes of running the program at a path with an input, given the files. -/
  execution : FileTree → (path input : String) → Except Refusal Execution :=
    fun _ _ _ => .error .notFound

namespace World

/-- Bytes as text. -/
def decode (bytes : ByteArray) : Except Refusal String :=
  match String.fromUTF8? bytes with
  | some text => .ok text
  | none => .error .notText

/-- The text of a file. -/
def readFile (world : World) (path : String) : Except Refusal String :=
  match world.files.read world.directory path with
  | .ok bytes => decode bytes
  | .error refusal => .error refusal

/-- The world with a text in a file. -/
def writeFile (world : World) (path text : String) : Except Refusal World :=
  match world.files.writeText world.directory path text with
  | .ok files => .ok { world with files := files }
  | .error refusal => .error refusal

/-- Write a text to the standard output. -/
def print (world : World) (text : String) : Except Refusal Unit × World :=
  let (answer, output) := world.output.write text.toUTF8
  (answer, { world with output := output })

/-- Write a text to the standard error. -/
def complain (world : World) (text : String) : Except Refusal Unit × World :=
  let (answer, errors) := world.errors.write text.toUTF8
  (answer, { world with errors := errors })

/-- Run the program at a path with an input. It writes to the standard streams of the world. -/
def execute (world : World) (path input : String) : Except Refusal Ending × World :=
  match world.execution world.files path input with
  | .error refusal => (.error refusal, world)
  | .ok execution =>
    (.ok execution.ending, { world with
      files := execution.files
      output := (world.output.write execution.output).2
      errors := (world.errors.write execution.errors).2 })

end World

end ParenLambda
