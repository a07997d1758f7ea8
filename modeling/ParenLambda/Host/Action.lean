/-!
# Actions

What a command does to the system it runs on, as a value: a tree of requests, each followed by what
the command does with the answer. The same command can be carried out on a real system or on a model
of one, and what it asks for, in which order, can be reasoned about.
-/

namespace ParenLambda

/-- Why the system refuses a request. -/
inductive Refusal where
  /-- There is no such file. -/
  | notFound
  /-- A file stands where a directory is needed. -/
  | notDirectory
  /-- A directory stands where a file is needed. -/
  | isDirectory
  /-- A name of the path is too long. -/
  | nameTooLong
  /-- The path holds a null character. -/
  | nullInPath
  /-- The file is no program. -/
  | notExecutable
  /-- The content is not text. -/
  | notText
  /-- There is no room for more. -/
  | noSpace
  /-- Some other reason, in the words of the system. -/
  | other (words : String)
  deriving DecidableEq, Repr

/-- The wording of a refusal. -/
def Refusal.message : Refusal → String
  | notFound => "No such file or directory (os error 2)"
  | notDirectory => "Not a directory (os error 20)"
  | isDirectory => "Is a directory (os error 21)"
  | nameTooLong => "File name too long (os error 36)"
  | nullInPath => "file name contained an unexpected NUL byte"
  | notExecutable => "Exec format error (os error 8)"
  | notText => "stream did not contain valid UTF-8"
  | noSpace => "No space left on device (os error 28)"
  | other words => words

/-- How a program ends: with an exit code, or not by itself. -/
inductive Ending where
  | exited (code : Nat)
  | killed
  deriving DecidableEq, Repr

/-- **An action** that ends with a value of type `α`. -/
inductive Action (α : Type) where
  /-- Nothing more to do. -/
  | done (value : α)
  /-- Read the text of a file. -/
  | readFile (path : String) (next : Except Refusal String → Action α)
  /-- Read the text of the standard input. -/
  | readInput (next : Except Refusal String → Action α)
  /-- Write a text to a file, in place of what it held. -/
  | writeFile (path text : String) (next : Except Refusal Unit → Action α)
  /-- Write a text to the standard output. -/
  | print (text : String) (next : Except Refusal Unit → Action α)
  /-- Write a text to the standard error. -/
  | complain (text : String) (next : Except Refusal Unit → Action α)
  /-- Find the program that a command names. -/
  | locate (command : String) (next : Option String → Action α)
  /-- Run a program with an input and wait for its end. -/
  | execute (program input : String) (next : Except Refusal Ending → Action α)

namespace Action

variable {α β : Type}

/-- One action after another. -/
def bind : Action α → (α → Action β) → Action β
  | done value, rest => rest value
  | readFile path next, rest => .readFile path fun answer => (next answer).bind rest
  | readInput next, rest => .readInput fun answer => (next answer).bind rest
  | writeFile path text next, rest => .writeFile path text fun answer => (next answer).bind rest
  | print text next, rest => .print text fun answer => (next answer).bind rest
  | complain text next, rest => .complain text fun answer => (next answer).bind rest
  | locate command next, rest => .locate command fun answer => (next answer).bind rest
  | execute program input next, rest =>
    .execute program input fun answer => (next answer).bind rest

instance : Monad Action where
  pure := done
  bind := bind

end Action

end ParenLambda
