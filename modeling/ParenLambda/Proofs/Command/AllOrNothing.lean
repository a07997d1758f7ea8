import ParenLambda.Proofs.Command.Courses
import ParenLambda.Proofs.Concatenation
import ParenLambda.Proofs.Host.Files

/-!
# Compiling is all or nothing

What a request to compile comes to in a world. It is **in order** (`ParenLambda.Command.InOrder`) if the
backend is known and has comments where one is asked for, the bytes of the source are a text that
compiles, and the output can be written. Then the whole text that is asked for is delivered, and otherwise
nothing is left behind but the report of the failure.

There is one exception. A text that the standard output has no room for is cut off there, and the program
crashes (`ParenLambda.World.CutOff`). It also crashes if the standard error has no room for the report.
These are the only ways to an exit code other than zero and one (`ParenLambda.Command.Crashes`).
-/

namespace ParenLambda

namespace World

variable {world after : World}

/-- **What a source holds**: the bytes of the standard input, or of the file, are the UTF-8 form of the
text. -/
def Holds (world : World) (source : Source) (user : String) : Prop :=
  if source.path = "-" then world.input = user.toUTF8
  else world.files.read world.directory source.path = .ok user.toUTF8

theorem Holds.unique {source : Source} {user other : String} (h : world.Holds source user)
    (hother : world.Holds source other) : user = other := by
  rw [Holds] at h hother
  have hbytes : user.toUTF8 = other.toUTF8 := by
    split at h
    · rw [if_pos ‹_›] at hother
      exact h.symm.trans hother
    · rw [if_neg ‹_›] at hother
      exact Except.ok.inj (h.symm.trans hother)
  exact Except.ok.inj ((decode_eq_ok_iff.mpr rfl).symm.trans (decode_eq_ok_iff.mpr hbytes))

/-- Reading a source tells what it holds, and changes nothing but what is left of the input. -/
theorem Answers.reading {source : Source} {answer : Except Refusal String}
    (h : world.Answers (source.reading answer) after) :
    (∀ user, answer = .ok user ↔ world.Holds source user) ∧
      ∃ input, after = { world with input := input } := by
  rw [Source.reading] at h
  split at h
  · rename_i hinput
    cases h
    refine ⟨fun user => ?_, _, rfl⟩
    rw [Holds, if_pos hinput, decode_eq_ok_iff]
  · rename_i hinput
    cases h
    refine ⟨fun user => ?_, _, rfl⟩
    rw [Holds, if_neg hinput, World.readFile]
    cases world.files.read world.directory source.path with
    | error refusal => simp
    | ok bytes => simp [decode_eq_ok_iff]

theorem AnswersAll.reading {source : Source} {answer : Except Refusal String} {events : List Event}
    (h : world.AnswersAll (source.reading answer :: events) after) :
    (∀ user, answer = .ok user ↔ world.Holds source user) ∧
      ∃ input, AnswersAll { world with input := input } events after := by
  cases h with | cons hread hrest =>
  obtain ⟨hanswer, input, rfl⟩ := hread.reading
  exact ⟨hanswer, input, hrest⟩

/-- **A text was delivered**: it is on the standard output if no file was named, and in the file otherwise,
and nothing else was written. -/
structure Delivered (before : World) (output : Option String) (text : String) (after : World) :
    Prop where
  printed : output = none →
    after.output.bytes = before.output.bytes ++ text.toUTF8 ∧ after.files = before.files
  written : ∀ name, output = some name →
    after.output = before.output ∧ before.files.Wrote before.directory name text after.files
  errors : after.errors = before.errors

/-- **A text was cut off**: the beginning of it is on the standard output, and nothing else was written. -/
structure CutOff (before : World) (text : String) (after : World) : Prop where
  printed : ∃ count < text.toUTF8.size,
    after.output.bytes = before.output.bytes ++ text.toUTF8.extract 0 count
  files : after.files = before.files

/-- **What is printed is delivered**, if there is room for it, and cut off otherwise. -/
theorem print_cases {answer : Except Refusal Unit} {text : String}
    (h : world.print text = (answer, after)) :
    (answer = .ok () ∧ world.output.Takes text.toUTF8 ∧ world.Delivered none text after) ∨
      (∃ refusal, answer = .error refusal) ∧ ¬world.output.Takes text.toUTF8 ∧
        world.CutOff text after := by
  rw [print] at h
  by_cases htakes : world.output.Takes text.toUTF8
  · obtain ⟨room, hwrite⟩ := htakes.exists_write
    rw [hwrite] at h
    cases h
    exact .inl ⟨rfl, htakes, fun _ => ⟨rfl, rfl⟩, by simp, rfl⟩
  · obtain ⟨count, hlt, hwrite⟩ := Stream.write_of_not_takes htakes
    rw [hwrite] at h
    cases h
    exact .inr ⟨⟨_, rfl⟩, htakes, ⟨count, hlt, rfl⟩, rfl⟩

end World

namespace CompileRequest

variable {context : Context} {request : CompileRequest} {world : World} {text other : String}

/-- **The text that a request asks for** in a world: its source holds a text that calls for it. -/
def AsksFor (request : CompileRequest) (context : Context) (world : World) (text : String) : Prop :=
  ∃ user backend program, world.Holds request.source user ∧
    request.CallsFor context user backend program ∧
    text = request.writtenText context.settings backend program

theorem AsksFor.unique (h : request.AsksFor context world text)
    (hother : request.AsksFor context world other) : text = other := by
  obtain ⟨user, backend, program, hholds, hcalls, rfl⟩ := h
  obtain ⟨user', backend', program', hholds', hcalls', rfl⟩ := hother
  obtain rfl := hholds.unique hholds'
  obtain ⟨rfl, rfl⟩ := hcalls.unique hcalls'
  rfl

end CompileRequest

namespace Command

variable {context : Context} {request : CompileRequest} {events : List Event} {world after : World}

/-- **The output of a request can be written**: the standard output has room for the text, or a text can be
written to the file that is named. -/
structure TakesOutput (request : CompileRequest) (world : World) (text : String) : Prop where
  print : request.output = none → world.output.Takes text.toUTF8
  write : ∀ name, request.output = some name → ∃ path, world.files.Takes world.directory name path

/-- **A request to compile is in order** in a world: it asks for a text, and the output can be written. -/
def InOrder (context : Context) (request : CompileRequest) (world : World) : Prop :=
  ∃ text, request.AsksFor context world text ∧ TakesOutput request world text

/-- The standard output has no room for the text that a request asks for. -/
structure Overflows (context : Context) (request : CompileRequest) (world : World) (text : String) :
    Prop where
  asks : request.AsksFor context world text
  output : request.output = none
  print : ¬world.output.Takes text.toUTF8

/-- **A request fails** in a world, for some reason. -/
def FailsWith (context : Context) (request : CompileRequest) (world : World) (failure : Failure) : Prop :=
  ((attemptCompile context request).run.perform world).1 = .error failure

/-- **A course that does not fail in a world**: the text that is asked for is delivered or cut off. -/
theorem Course.delivered {code : Nat} (h : Course context request events (.ok code))
    (hworld : world.AnswersAll events after) :
    ∃ text, request.AsksFor context world text ∧
      (code = 0 ∧ TakesOutput request world text ∧ world.Delivered request.output text after ∨
        code = crashCode ∧ Overflows context request world text ∧ world.CutOff text after) := by
  cases h with
  | @written user backend program name hcalls houtput =>
    obtain ⟨hanswer, input, hrest⟩ := hworld.reading
    cases hrest.single with | written hwrite =>
    obtain ⟨files, htext, rfl⟩ := World.exists_of_writeFile hwrite
    refine ⟨_, ⟨user, backend, program, (hanswer user).mp rfl, hcalls, rfl⟩, .inl ⟨rfl, ?_, ?_⟩⟩
    · refine ⟨by simp [houtput], fun other hother => ?_⟩
      cases houtput.symm.trans hother
      exact FileTree.exists_takes_of_writeText htext
    · rw [houtput]
      refine ⟨by simp, ?_, rfl⟩
      rintro name ⟨⟩
      exact ⟨rfl, FileTree.wrote_of_writeText htext⟩
  | @unprinted user backend program hcalls houtput refusal =>
    obtain ⟨hanswer, input, hrest⟩ := hworld.reading
    have hasks : request.AsksFor context world (request.writtenText context.settings backend program) :=
      ⟨user, backend, program, (hanswer user).mp rfl, hcalls, rfl⟩
    rcases World.print_cases hrest.single.printed with ⟨⟨⟩, -⟩ | ⟨-, htakes, hprinted, hfiles⟩
    exact ⟨_, hasks, .inr ⟨rfl, ⟨hasks, houtput, htakes⟩, hprinted, hfiles⟩⟩
  | @printed user backend program hcalls houtput =>
    obtain ⟨hanswer, input, hrest⟩ := hworld.reading
    have hasks : request.AsksFor context world (request.writtenText context.settings backend program) :=
      ⟨user, backend, program, (hanswer user).mp rfl, hcalls, rfl⟩
    rcases World.print_cases hrest.single.printed with
      ⟨-, htakes, hprinted, -, herrors⟩ | ⟨⟨_, ⟨⟩⟩, -⟩
    refine ⟨_, hasks, .inl ⟨rfl, ⟨fun _ => htakes, by simp [houtput]⟩, ?_⟩⟩
    rw [houtput]
    exact ⟨hprinted, by simp, herrors⟩

/-- **A course that fails in a world**: if there is a text that the request asks for, it is the file that
cannot be written; and nothing is written. -/
theorem Course.failed {failure : Failure} (h : Course context request events (.error failure))
    (hworld : world.AnswersAll events after) :
    (∀ text, request.AsksFor context world text →
      request.output ≠ none ∧ ¬TakesOutput request world text) ∧
    ∃ input, after = { world with input := input } := by
  cases h with
  | unknownBackend hfind =>
    cases hworld
    refine ⟨?_, _, rfl⟩
    rintro text ⟨user, backend, program, -, hcalls, -⟩
    cases hfind.symm.trans hcalls.find
  | noComments hfind hchurch htarget =>
    cases hworld
    refine ⟨?_, _, rfl⟩
    rintro text ⟨user, backend, program, -, hcalls, -⟩
    cases hfind.symm.trans hcalls.find
    exact absurd (hcalls.comment hchurch) htarget
  | unread hserved refusal =>
    obtain ⟨hanswer, input, hrest⟩ := hworld.reading
    cases hrest
    refine ⟨?_, _, rfl⟩
    rintro text ⟨user, backend, program, hholds, -, -⟩
    cases (hanswer user).mpr hholds
  | faulty hserved hcompile =>
    obtain ⟨hanswer, input, hrest⟩ := hworld.reading
    cases hrest
    refine ⟨?_, _, rfl⟩
    rintro text ⟨user, backend, program, hholds, hcalls, -⟩
    cases (hanswer user).mpr hholds
    cases hcompile.symm.trans hcalls.compile
  | unwritten hcalls houtput refusal =>
    obtain ⟨hanswer, input, hrest⟩ := hworld.reading
    cases hrest.single with | refused hwrite =>
    refine ⟨fun text _ => ⟨by simp [houtput], fun htakes => ?_⟩, _, rfl⟩
    obtain ⟨path, hpath⟩ := htakes.write _ houtput
    exact World.not_takes_of_writeFile hwrite path hpath

/-! ### The report of a failure in a world -/

/-- Nothing can be said where there is no room. -/
theorem perform_explain_of_full {texts : List String} (htexts : ∀ text ∈ texts, text ≠ "")
    (world : World) (bytes : ByteArray) :
    ∃ errors, (explain texts).perform { world with errors := ⟨bytes, some 0⟩ } =
      (crashCode, { world with errors := errors }) := by
  induction texts generalizing bytes with
  | nil => exact ⟨_, rfl⟩
  | cons text rest ih =>
    -- A text that is refused leaves no room behind it, so the next one is refused as well.
    obtain ⟨htext, hrest⟩ := List.forall_mem_cons.mp htexts
    obtain ⟨count, -, hwrite⟩ := Stream.write_of_not_takes
      (Stream.not_takes_of_full (rfl : Stream.room ⟨bytes, some 0⟩ = some 0) htext)
    rw [explain, Action.perform, World.complain, hwrite]
    exact ih hrest _

theorem reports_eq (colours : Bool) (failure : Failure) :
    ∃ rest, failure.reports colours = failure.report colours :: rest ∧ ∀ text ∈ rest, text ≠ "" := by
  refine ⟨_, rfl, ?_⟩
  cases failure <;> simp [Terminal.errorLine]

/-- **A report is given**, with the exit code one, if there is room for it; otherwise the program crashes. -/
theorem perform_explain (colours : Bool) (failure : Failure) (world : World) :
    ∃ code errors, (explain (failure.reports colours)).perform world =
        (code, { world with errors := errors }) ∧
      (code = 1 ∧ world.errors.Takes (failure.report colours).toUTF8 ∨
        code = crashCode ∧ ¬world.errors.Takes (failure.report colours).toUTF8) := by
  obtain ⟨rest, hreports, hrest⟩ := reports_eq colours failure
  rw [hreports, explain, Action.perform, World.complain]
  by_cases htakes : world.errors.Takes (failure.report colours).toUTF8
  · obtain ⟨room, hwrite⟩ := htakes.exists_write
    rw [hwrite]
    exact ⟨1, _, rfl, .inl ⟨rfl, htakes⟩⟩
  · -- The report is cut off, so that what is tried after it finds no room.
    obtain ⟨count, -, hwrite⟩ := Stream.write_of_not_takes htakes
    rw [hwrite]
    obtain ⟨errors, hperform⟩ := perform_explain_of_full hrest world _
    exact ⟨crashCode, errors, hperform, .inr ⟨rfl, htakes⟩⟩

/-! ### What compiling comes to -/

theorem perform_action_of_ok {command : Command} {code : Nat}
    (h : (attempt context command).run.perform world = (.ok code, after)) :
    (action context command).perform world = (code, after) := by
  refine (Action.perform_bind _ _ world).trans ?_
  rw [h]
  rfl

theorem perform_action_of_error {command : Command} {failure : Failure}
    (h : (attempt context command).run.perform world = (.error failure, after)) :
    (action context command).perform world =
      (explain (failure.reports context.colours)).perform after := by
  refine (Action.perform_bind _ _ world).trans ?_
  rw [h]

/-- **A request that fails** changes neither the standard output nor the files, and its exit code is one if
the standard error has room for the report. -/
theorem FailsWith.outcome {failure : Failure} (h : FailsWith context request world failure) :
    let outcome := (action context (.compile request)).perform world
    (∀ text, request.AsksFor context world text →
      request.output ≠ none ∧ ¬TakesOutput request world text) ∧
    outcome.2.output = world.output ∧ outcome.2.files = world.files ∧
    (outcome.1 = 1 ∧ world.errors.Takes (failure.report context.colours).toUTF8 ∨
      outcome.1 = crashCode ∧ ¬world.errors.Takes (failure.report context.colours).toUTF8) := by
  intro outcome
  obtain ⟨events, hruns, hworld⟩ := (attemptCompile context request).run.exists_runs_perform world
  rw [h] at hruns
  -- Up to the report nothing has changed but what is left of the input.
  obtain ⟨hasks, input, hafter⟩ := (course_of_runs hruns).failed hworld
  have hattempt : (attempt context (.compile request)).run.perform world =
      (.error failure, { world with input := input }) := Prod.ext h hafter
  obtain ⟨code, errors, hexplain, hcode⟩ :=
    perform_explain context.colours failure { world with input := input }
  have houtcome : outcome = (code, { world with input := input, errors := errors }) :=
    (perform_action_of_error hattempt).trans hexplain
  rw [houtcome]
  exact ⟨hasks, rfl, rfl, hcode⟩

/-- **A request that does not fail** asks for a text, which is delivered or cut off. -/
theorem exists_failsWith_or_asksFor (context : Context) (request : CompileRequest) (world : World) :
    let outcome := (action context (.compile request)).perform world
    (∃ failure, FailsWith context request world failure) ∨
      ∃ text, request.AsksFor context world text ∧
        (outcome.1 = 0 ∧ TakesOutput request world text ∧
            world.Delivered request.output text outcome.2 ∨
          outcome.1 = crashCode ∧ Overflows context request world text ∧
            world.CutOff text outcome.2) := by
  intro outcome
  obtain ⟨events, hruns, hworld⟩ := (attemptCompile context request).run.exists_runs_perform world
  cases hresult : ((attemptCompile context request).run.perform world).1 with
  | error failure => exact .inl ⟨failure, hresult⟩
  | ok code =>
    rw [hresult] at hruns
    have houtcome : outcome = (code, ((attemptCompile context request).run.perform world).2) :=
      perform_action_of_ok (Prod.ext hresult rfl)
    rw [houtcome]
    exact .inr ((course_of_runs hruns).delivered hworld)

theorem FailsWith.not_inOrder {failure : Failure} (h : FailsWith context request world failure) :
    ¬InOrder context request world := by
  rintro ⟨text, hasks, htakes⟩
  exact (h.outcome.1 text hasks).2 htakes

theorem Overflows.not_inOrder {text : String} (h : Overflows context request world text) :
    ¬InOrder context request world := by
  rintro ⟨other, hasks, htakes⟩
  obtain rfl := h.asks.unique hasks
  exact h.print (htakes.print h.output)

theorem InOrder.delivered {text : String} (h : InOrder context request world)
    (hasks : request.AsksFor context world text) :
    world.Delivered request.output text ((action context (.compile request)).perform world).2 := by
  rcases exists_failsWith_or_asksFor context request world with
    ⟨failure, hfails⟩ | ⟨other, hother, ⟨-, -, hdelivered⟩ | ⟨-, hoverflows, -⟩⟩
  · exact absurd h hfails.not_inOrder
  · obtain rfl := hasks.unique hother
    exact hdelivered
  · exact absurd h hoverflows.not_inOrder

end Command

end ParenLambda
