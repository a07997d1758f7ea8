import ParenLambda.Report.Label
import ParenLambda.Report.Styled
import ParenLambda.Text.Blank
import ParenLambda.Text.Columns

/-!
# Reports

A report of a fault: its message, the place it is at, the lines of the file around the label with
carets under what it covers, and an advice if there is one. A label within one line has carets under
its characters. A label over several lines has a bracket along its left side, from its first line to
its last; of a long label only the first lines and the last two are shown, and a line of dots stands
for the others.
-/

namespace ParenLambda

namespace Report

/-! ### Lines of a file -/

/-- A line of a file, with the line feed that ends it. -/
structure Line where
  /-- Its number, from one. -/
  number : Nat
  /-- The byte at which it starts. -/
  start : Nat
  /-- Its characters. -/
  text : List Char

/-- The lines of the characters from a byte on, where the line of that byte has a number, starts at
`start` and already has some characters, last one first. -/
def linesFrom (number start : Nat) (reversed : List Char) : Nat → List Char → List Line
  | _, [] => [⟨number, start, reversed.reverse⟩]
  | position, c :: rest =>
    if c = '\n' then
      ⟨number, start, (c :: reversed).reverse⟩ ::
        linesFrom (number + 1) (position + 1) [] (position + 1) rest
    else linesFrom number start (c :: reversed) (position + c.utf8Size) rest

/-- The lines of a text. The last one has no line feed and may be empty. -/
def lines (text : List Char) : List Line :=
  linesFrom 1 0 [] 0 text

/-- The last line that starts at a byte or before it. -/
def lineAt (lines : List Line) (offset : Nat) : Line :=
  ((lines.filter fun line => decide (line.start ≤ offset)).getLast?).getD ⟨1, 0, []⟩

namespace Line

/-- The number of a byte's column, from one: the characters of the line that end at the byte or
before it. -/
def column (line : Line) (offset : Nat) : Nat :=
  1 + (Text.metrics line.text).countP fun m => decide (line.start + m.stop ≤ offset)

/-- The characters of a line that are shown: all but the line feeds, carriage returns and null
characters at its end. -/
def shown (line : Line) : List Char :=
  (line.text.reverse.dropWhile fun c => c == '\n' || c == '\r' || c == '\x00').reverse

end Line

/-! ### Pieces of the layout -/

/-- A text so many times. -/
def times (n : Nat) (text : String) : String :=
  String.join (List.replicate n text)

/-- So many spaces. -/
def blank (n : Nat) : String :=
  times n " "

/-- A line break. -/
def newline : Mark := .text "\n"

/-- The space beside the line numbers, which are `width` digits wide. -/
def gutter (width : Nat) : Mark :=
  .text (blank (width + 1))

/-- The left border beside lines that have no number. -/
def border (width : Nat) : Layout :=
  gutter width :: styled .frame "│"

/-- The left border beside a line with a number. -/
def numberedBorder (width number : Nat) : Layout :=
  let digits := toString number
  styled .frame (blank (width - digits.length) ++ digits) ++ .text " " :: styled .frame "│"

/-- What a character of a line shows: a tab shows as spaces. -/
def glyph (m : Text.Metric) : String :=
  if m.char = '\t' then blank m.width else String.singleton m.char

/-- The shown characters of a line, those that the label covers in its style. -/
def sourceText (line : Line) (covers : Text.Metric → Bool) : Layout :=
  highlight false ((Text.metrics line.shown).map fun m => (covers m, glyph m))

/-- How many columns the characters take that satisfy a condition. -/
def columnsOf (line : Line) (condition : Text.Metric → Bool) : Nat :=
  ((Text.metrics line.shown).filter condition).foldr (fun metric total => metric.width + total) 0

/-! ### A label within one line -/

/-- The carets under a line whose bytes from `first` to `last` are labelled. A place for one caret
follows the last character of the line. -/
def carets (line : Line) (first last : Nat) : Layout :=
  let size := Text.byteSize line.shown
  let places :=
    (Text.metrics line.shown).map (fun m => (m.start, m.stop, m.width)) ++ [(size, size + 1, 1)]
  highlight false (places.map fun (start, stop, width) =>
    if max start first < min stop last then (true, times width "^")
    else (false, if start < last then blank width else ""))

/-- The lines of a report whose label lies within a line. -/
def singleLine (width : Nat) (line : Line) (span : Span) : Layout :=
  let first := span.start - line.start
  let last := max (span.stop - line.start) (first + 1)
  numberedBorder width line.number ++ .text " " ::
      (sourceText line fun m => decide (max m.start first < min m.stop last)) ++ newline ::
    border width ++ .text " " :: carets line first last ++ [newline]

/-! ### A label over several lines -/

/-- A line beside the bracket of the label. -/
def besideBracket (width : Nat) (line : Line) (covers : Text.Metric → Bool) : Layout :=
  numberedBorder width line.number ++ .text " " :: styled .label "│" ++ .text " " ::
    sourceText line covers ++ [newline]

/-- The first line of a label that starts at a byte of it. If only blanks precede the label the
bracket starts beside the line, and otherwise under it. -/
def firstLine (width : Nat) (line : Line) (start : Nat) : Layout :=
  let covers (m : Text.Metric) := decide (start ≤ m.start)
  if start ≤ Text.indentSize line.shown then
    numberedBorder width line.number ++ .text " " :: styled .label "╭" ++ .text " " ::
      sourceText line covers ++ [newline]
  else
    numberedBorder width line.number ++ .text "   " :: sourceText line covers ++ newline ::
      border width ++ .text " " :: styled .label "╭" ++
        styled .label (times (columnsOf line fun m => decide (m.start ≤ start)) "─" ++ "^") ++
      [newline]

/-- The last line of a label that stops at a byte of it. -/
def lastLine (width : Nat) (line : Line) (stop : Nat) : Layout :=
  besideBracket width line (fun m => decide (m.stop ≤ stop)) ++
    border width ++ .text " " :: styled .label "╰" ++
      styled .label (times (columnsOf line fun m => decide (m.start < stop)) "─" ++ "^") ++
    [newline]

/-- The line that stands for lines left out. -/
def omission (width : Nat) : Layout :=
  gutter width :: styled .frame "·" ++ .text " " :: styled .label "│" ++ [newline]

/-- So many lines are shown after the first line of a label. -/
def linesAfterFirst : Nat := 3

/-- So many lines are shown before the last line of a label. -/
def linesBeforeLast : Nat := 1

/-- The lines between the first and the last line of a label. Those far from both are left out,
unless it is a single one. -/
def innerLines (width first last : Nat) (between : List Line) : Layout :=
  let isShown (line : Line) : Bool :=
    decide (line.number - first ≤ linesAfterFirst) || decide (last - line.number ≤ linesBeforeLast)
  let left := between.filter fun line => !isShown line
  let display (line : Line) : Layout := besideBracket width line fun _ => true
  if left.length ≤ 1 then (between.map display).flatten
  else
    let before := between.filter fun line => decide (line.number - first ≤ linesAfterFirst)
    let after := between.filter fun line =>
      !decide (line.number - first ≤ linesAfterFirst) &&
        decide (last - line.number ≤ linesBeforeLast)
    (before.map display).flatten ++ omission width ++ (after.map display).flatten

/-- The lines of a report whose label starts and stops on different lines. -/
def severalLines (width : Nat) (lines : List Line) (first last : Line) (span : Span) : Layout :=
  let between := lines.filter fun line =>
    decide (first.number < line.number) && decide (line.number < last.number)
  firstLine width first (span.start - first.start) ++
    innerLines width first.number last.number between ++
    lastLine width last (span.stop - last.start)

/-! ### The report -/

/-- The first line of a report. -/
def header (message : String) : Layout :=
  [.set .header, .text "error", .set .message, .text (": " ++ message), .reset, newline]

/-- The part of a report that points at the file. -/
def snippet (label : Label) (advice? : Option String) : Layout :=
  let lines := lines label.text.toList
  let first := lineAt lines label.span.start
  let last := lineAt lines label.span.stop
  let width := max (toString first.number).length (toString last.number).length
  let isSingle := first.number == last.number
  let edge : Layout := border width ++ [.text (if isSingle then "" else "  "), newline]
  let place := label.name ++ ":" ++ toString first.number ++ ":" ++
    toString (first.column label.span.start)
  let body :=
    if isSingle then singleLine width first label.span
    else severalLines width lines first last label.span
  let note : Layout :=
    match advice? with
    | none => []
    | some advice =>
      edge ++ gutter width :: styled .frame "=" ++ [.text (" " ++ advice), newline]
  gutter width :: styled .frame "┌─" ++ [.text (" " ++ place), newline] ++ edge ++ body ++ note

/-- **The layout of the report** of a fault in an assembled source. A fault that is not about the
source has nothing to point at. -/
def layout (assembly : Assembly) (fault : Fault) : Layout :=
  let pointing :=
    match Label.ofFault? assembly fault with
    | none => []
    | some label => snippet label fault.advice?
  header fault.message ++ pointing ++ [newline]

/-- **The text of the report** of a fault, plain or with colours. -/
def write (colours : Bool) (assembly : Assembly) (fault : Fault) : String :=
  (layout assembly fault).write colours

end Report

end ParenLambda
