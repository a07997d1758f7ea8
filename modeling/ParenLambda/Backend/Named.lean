import ParenLambda.Backend
import ParenLambda.Rendering.Walk

/-!
# Backends with named bindings

Each item of the program is a statement of the output, in order. A definition becomes a binding of
its name, and a name that the target reserves gets an underscore wherever it occurs.
-/

namespace ParenLambda

/-! ### JavaScript -/

namespace JavaScript

/-- The words that cannot name a binding in strict mode. -/
def reserved : List String := [
  "arguments", "await", "break", "case", "catch", "class", "const", "continue", "debugger",
  "default", "delete", "do", "else", "enum", "eval", "export", "extends", "false", "finally",
  "for", "function", "if", "implements", "import", "in", "instanceof", "interface", "let",
  "new", "null", "package", "private", "protected", "public", "return", "static", "super",
  "switch", "this", "throw", "true", "try", "typeof", "var", "void", "while", "with", "yield"]

/-- A name as JavaScript can bind it. -/
def identifier (name : String) : String :=
  Backend.escape reserved name

/-- An arrow function. -/
def function (parameter body : String) : String :=
  "(" ++ identifier parameter ++ " => " ++ body ++ ")"

/-- A call with one argument. -/
def call (operator operand : String) : String :=
  operator ++ "(" ++ operand ++ ")"

/-- Definitions are `const` statements, and every statement ends in a semicolon. -/
def rules : Rules Unit where
  start := ()
  program items _ := if items.isEmpty then "" else ";\n".intercalate items ++ ";"
  definition name value := pure ("const " ++ identifier name ++ " = " ++ value)
  abstraction parameter body := pure (function parameter body)
  application operator operand := pure (call operator operand)
  atom name _ := pure (identifier name)

end JavaScript

/-- **JavaScript with named bindings.** -/
def Backend.javaScript : Backend where
  name := "javascript"
  aliases := ["js"]
  extension := "js"
  description := "JavaScript, one const binding per declaration"
  target := .javaScript
  discipline := .named
  render program prelude := Backend.withPrelude prelude (JavaScript.rules.render program)

/-! ### Python -/

namespace Python

/-- The keywords of the language. -/
def reserved : List String := [
  "False", "None", "True", "and", "as", "assert", "async", "await", "break", "class",
  "continue", "def", "del", "elif", "else", "except", "finally", "for", "from", "global", "if",
  "import", "in", "is", "lambda", "nonlocal", "not", "or", "pass", "raise", "return", "try",
  "while", "with", "yield"]

/-- A name as Python can bind it. -/
def identifier (name : String) : String :=
  Backend.escape reserved name

/-- Definitions are assignments, one statement to a line. -/
def rules : Rules Unit where
  start := ()
  program items _ := "\n".intercalate items
  definition name value := pure (identifier name ++ " = " ++ value)
  abstraction parameter body := pure ("(lambda " ++ identifier parameter ++ ": " ++ body ++ ")")
  application operator operand := pure ("(" ++ operator ++ ")(" ++ operand ++ ")")
  atom name _ := pure (identifier name)

end Python

/-- **Python with named bindings.** -/
def Backend.python : Backend where
  name := "python"
  aliases := ["py"]
  extension := "py"
  description := "Python, one assignment per declaration"
  target := .python
  discipline := .named
  render program prelude := Backend.withPrelude prelude (Python.rules.render program)

end ParenLambda
