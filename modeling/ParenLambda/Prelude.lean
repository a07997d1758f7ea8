import ParenLambda.Backend
import ParenLambda.Text.Lines

/-!
# Preludes

What a program that shows its results needs from the interpreter of its target: functions that turn
numerals and booleans into the numbers and truth values of the target and print them.
-/

namespace ParenLambda

namespace Prelude

/-- The prelude of JavaScript programs. -/
def javaScript : String := Text.ofLines [
  "// Runtime support for compiled SEL programs.",
  "",
  "const toJSNumber = (number) => \x7b",
  "  let counter = 0;",
  "  number(() => counter++)();",
  "  return counter;",
  "\x7d;",
  "",
  "const toJSBool = (bool) => bool(true)(false);",
  "",
  "const show = (fn) => \x7b //eslint-disable-line",
  "  if (fn.name) \x7b",
  "    console.log(fn.name);",
  "    return;",
  "  \x7d",
  "  console.log(toJSNumber(fn));",
  "\x7d;",
  "",
  "const showBool = (bool) => console.log(toJSBool(bool));"]

/-- The prelude of Python programs. -/
def python : String := Text.ofLines [
  "# Runtime support for compiled SEL programs.",
  "",
  "import sys",
  "",
  "sys.setrecursionlimit(100000)",
  "",
  "",
  "class Counter:",
  "    def __init__(self):",
  "        self.c = 0",
  "",
  "    def inc(self, x):",
  "        self.c += 1",
  "        return x",
  "",
  "",
  "def toPythonNumber(number):",
  "    counter = Counter()",
  "    number(counter.inc)(0)",
  "    return counter.c",
  "",
  "",
  "def toPythonBool(boolean):",
  "    return boolean(True)(False)",
  "",
  "",
  "def show(fn):",
  "    print(toPythonNumber(fn))",
  "",
  "",
  "def showBool(boolean):",
  "    print(toPythonBool(boolean))"]

/-- **The prelude of a target**, if the target takes one. -/
def ofTarget? : Target → Option String
  | .javaScript => some javaScript
  | .python => some python
  | .church => none

end Prelude

end ParenLambda
