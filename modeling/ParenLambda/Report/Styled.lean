import ParenLambda.Terminal

/-!
# Styled text

A report is laid out once and written either plainly or with colours. Its layout is a list of marks:
pieces of text, and changes of style between them. Written plainly the changes leave no trace;
written with colours a change first goes back to the normal rendition.
-/

namespace ParenLambda

namespace Report

/-- A style of the text of a report. -/
inductive Style where
  /-- The word that starts the report. -/
  | header
  /-- The message. -/
  | message
  /-- Borders, line numbers and the sign before an advice. -/
  | frame
  /-- What the label covers, and the carets under it. -/
  | label
  deriving DecidableEq, Repr

/-- What selects a style on a terminal, from the normal rendition. -/
def Style.selection : Style → String
  | header => Terminal.rendition "1" ++ Terminal.rendition "38;5;9"
  | message => Terminal.rendition "1"
  | frame => Terminal.rendition "34"
  | label => Terminal.rendition "31"

/-- A piece of text or a change of style. -/
inductive Mark where
  /-- A piece of text. -/
  | text (content : String)
  /-- From here on in a style. -/
  | set (style : Style)
  /-- From here on in the normal rendition. -/
  | reset

/-- A layout: marks in the order in which they are written. -/
abbrev Layout := List Mark

/-- The mark as it is written, plainly or with colours. -/
def Mark.write (colours : Bool) : Mark → String
  | text content => content
  | set style => if colours then Terminal.reset ++ style.selection else ""
  | reset => if colours then Terminal.reset else ""

/-- **The text of a layout**, plain or with colours. -/
def Layout.write (colours : Bool) (layout : Layout) : String :=
  String.join (layout.map (Mark.write colours))

/-- A text in a style of its own. -/
def styled (style : Style) (content : String) : Layout :=
  [.set style, .text content, .reset]

/-- Pieces of text, each of which may be part of the label. The style of the label is set before the
first of a run of such pieces and reset after the last one. -/
def highlight : Bool → List (Bool × String) → Layout
  | inside, [] => if inside then [.reset] else []
  | inside, (within, content) :: rest =>
    let change : Layout :=
      match inside, within with
      | false, true => [.set .label]
      | true, false => [.reset]
      | _, _ => []
    change ++ .text content :: highlight within rest

end Report

end ParenLambda
