import ParenLambda.Host.Perform

/-!
# Runs of actions

What an action asks of the system and what it is told, request by request. A **run** of an action is
such a list of events that ends with a value, where the system may answer whatever it likes; so what
holds of every run of an action holds on every system. A program that is killed at one of its requests
does not come to a value, so that is not a run. A run of one action after another is a run of the first
with a run of the second behind it (`ParenLambda.Action.Runs.exists_of_bind`).

Carrying out an action in a world is one of its runs, the one in which every answer is the world's
(`ParenLambda.Action.exists_runs_perform`).
-/

namespace ParenLambda

/-- **An event**: a request to the system and the answer to it. -/
inductive Event where
  | readFile (path : String) (answer : Except Refusal String)
  | readInput (answer : Except Refusal String)
  | writeFile (path text : String) (answer : Except Refusal Unit)
  | print (text : String) (answer : Except Refusal Unit)
  | complain (text : String) (answer : Except Refusal Unit)
  | locate (command : String) (answer : Option String)
  | execute (program input : String) (answer : Except Refusal Ending)

namespace Action

variable {α β : Type}

/-- **A run of an action**: the events on its way to a value, whatever the system answers. -/
inductive Runs : Action α → List Event → α → Prop
  | done (value : α) : Runs (.done value) [] value
  | readFile {path : String} {next : Except Refusal String → Action α} {events : List Event}
      {value : α} (answer : Except Refusal String) (h : Runs (next answer) events value) :
      Runs (.readFile path next) (.readFile path answer :: events) value
  | readInput {next : Except Refusal String → Action α} {events : List Event} {value : α}
      (answer : Except Refusal String) (h : Runs (next answer) events value) :
      Runs (.readInput next) (.readInput answer :: events) value
  | writeFile {path text : String} {next : Except Refusal Unit → Action α} {events : List Event}
      {value : α} (answer : Except Refusal Unit) (h : Runs (next answer) events value) :
      Runs (.writeFile path text next) (.writeFile path text answer :: events) value
  | print {text : String} {next : Except Refusal Unit → Action α} {events : List Event} {value : α}
      (answer : Except Refusal Unit) (h : Runs (next answer) events value) :
      Runs (.print text next) (.print text answer :: events) value
  | complain {text : String} {next : Except Refusal Unit → Action α} {events : List Event} {value : α}
      (answer : Except Refusal Unit) (h : Runs (next answer) events value) :
      Runs (.complain text next) (.complain text answer :: events) value
  | locate {command : String} {next : Option String → Action α} {events : List Event} {value : α}
      (answer : Option String) (h : Runs (next answer) events value) :
      Runs (.locate command next) (.locate command answer :: events) value
  | execute {program input : String} {next : Except Refusal Ending → Action α}
      {events : List Event} {value : α} (answer : Except Refusal Ending)
      (h : Runs (next answer) events value) :
      Runs (.execute program input next) (.execute program input answer :: events) value

variable {value : α} {events : List Event}

theorem runs_done_iff {found : α} : Runs (.done value) events found ↔ events = [] ∧ found = value := by
  constructor
  · rintro ⟨⟩
    exact ⟨rfl, rfl⟩
  · rintro ⟨rfl, rfl⟩
    exact .done found

/-- **A run of one action after another** is a run of the first and then one of the second. -/
theorem Runs.exists_of_bind {action : Action α} {rest : α → Action β} {value : β}
    (h : Runs (action.bind rest) events value) :
    ∃ first found second, events = first ++ second ∧ Runs action first found ∧
      Runs (rest found) second value := by
  induction action generalizing events with
  | done found => exact ⟨[], found, events, rfl, .done found, h⟩
  | readFile path next ih =>
    cases h with | readFile answer h =>
    obtain ⟨first, found, second, rfl, hfirst, hsecond⟩ := ih answer h
    exact ⟨_ :: first, found, second, rfl, .readFile answer hfirst, hsecond⟩
  | readInput next ih =>
    cases h with | readInput answer h =>
    obtain ⟨first, found, second, rfl, hfirst, hsecond⟩ := ih answer h
    exact ⟨_ :: first, found, second, rfl, .readInput answer hfirst, hsecond⟩
  | writeFile path text next ih =>
    cases h with | writeFile answer h =>
    obtain ⟨first, found, second, rfl, hfirst, hsecond⟩ := ih answer h
    exact ⟨_ :: first, found, second, rfl, .writeFile answer hfirst, hsecond⟩
  | print text next ih =>
    cases h with | print answer h =>
    obtain ⟨first, found, second, rfl, hfirst, hsecond⟩ := ih answer h
    exact ⟨_ :: first, found, second, rfl, .print answer hfirst, hsecond⟩
  | complain text next ih =>
    cases h with | complain answer h =>
    obtain ⟨first, found, second, rfl, hfirst, hsecond⟩ := ih answer h
    exact ⟨_ :: first, found, second, rfl, .complain answer hfirst, hsecond⟩
  | locate command next ih =>
    cases h with | locate answer h =>
    obtain ⟨first, found, second, rfl, hfirst, hsecond⟩ := ih answer h
    exact ⟨_ :: first, found, second, rfl, .locate answer hfirst, hsecond⟩
  | execute program input next ih =>
    cases h with | execute answer h =>
    obtain ⟨first, found, second, rfl, hfirst, hsecond⟩ := ih answer h
    exact ⟨_ :: first, found, second, rfl, .execute answer hfirst, hsecond⟩

end Action

/-! ### Runs in a world -/

namespace World

/-- **A world answers a request** as an event says, and is changed by it. -/
inductive Answers (world : World) : Event → World → Prop
  | readFile (path : String) : Answers world (.readFile path (world.readFile path)) world
  | readInput : Answers world (.readInput (decode world.input)) { world with input := .empty }
  | written {path text : String} {after : World} (h : world.writeFile path text = .ok after) :
      Answers world (.writeFile path text (.ok ())) after
  | refused {path text : String} {refusal : Refusal}
      (h : world.writeFile path text = .error refusal) :
      Answers world (.writeFile path text (.error refusal)) world
  | print (text : String) : Answers world (.print text (world.print text).1) (world.print text).2
  | complain (text : String) :
      Answers world (.complain text (world.complain text).1) (world.complain text).2
  | locate (command : String) : Answers world (.locate command (world.locate command)) world
  | execute (program input : String) :
      Answers world (.execute program input (world.execute program input).1)
        (world.execute program input).2

/-- A world answers the requests of a list of events, one after the other. -/
inductive AnswersAll : World → List Event → World → Prop
  | nil (world : World) : AnswersAll world [] world
  | cons {world between after : World} {event : Event} {events : List Event}
      (hevent : Answers world event between) (hevents : AnswersAll between events after) :
      AnswersAll world (event :: events) after

theorem AnswersAll.single {world after : World} {event : Event} (h : world.AnswersAll [event] after) :
    world.Answers event after := by
  cases h with | cons hevent h =>
  cases h
  exact hevent

theorem Answers.printed {world after : World} {text : String} {answer : Except Refusal Unit}
    (h : world.Answers (.print text answer) after) : world.print text = (answer, after) := by
  cases h
  rfl

end World

/-- **Carrying out an action in a world is a run of it**, with the answers of the world. -/
theorem Action.exists_runs_perform {α : Type} (action : Action α) (world : World) :
    ∃ events, Runs action events (action.perform world).1 ∧
      world.AnswersAll events (action.perform world).2 := by
  induction action generalizing world with
  | done value => exact ⟨[], .done value, .nil world⟩
  | readFile path next ih =>
    obtain ⟨events, hruns, hanswers⟩ := ih (world.readFile path) world
    exact ⟨_, .readFile _ hruns, .cons (.readFile path) hanswers⟩
  | readInput next ih =>
    obtain ⟨events, hruns, hanswers⟩ := ih (World.decode world.input) { world with input := .empty }
    exact ⟨_, .readInput _ hruns, .cons .readInput hanswers⟩
  | writeFile path text next ih =>
    rw [perform]
    split
    · rename_i after hwrite
      obtain ⟨events, hruns, hanswers⟩ := ih (.ok ()) after
      exact ⟨_, .writeFile _ hruns, .cons (.written hwrite) hanswers⟩
    · rename_i refusal hwrite
      obtain ⟨events, hruns, hanswers⟩ := ih (.error refusal) world
      exact ⟨_, .writeFile _ hruns, .cons (.refused hwrite) hanswers⟩
  | print text next ih =>
    obtain ⟨events, hruns, hanswers⟩ := ih (world.print text).1 (world.print text).2
    exact ⟨_, .print _ hruns, .cons (.print text) hanswers⟩
  | complain text next ih =>
    obtain ⟨events, hruns, hanswers⟩ := ih (world.complain text).1 (world.complain text).2
    exact ⟨_, .complain _ hruns, .cons (.complain text) hanswers⟩
  | locate command next ih =>
    obtain ⟨events, hruns, hanswers⟩ := ih (world.locate command) world
    exact ⟨_, .locate _ hruns, .cons (.locate command) hanswers⟩
  | execute program input next ih =>
    obtain ⟨events, hruns, hanswers⟩ :=
      ih (world.execute program input).1 (world.execute program input).2
    exact ⟨_, .execute _ hruns, .cons (.execute program input) hanswers⟩

end ParenLambda
