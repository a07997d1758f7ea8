import ParenLambda.Command
import ParenLambda.Proofs.Host.Runs

/-!
# The courses of a request to compile

A request to compile can fail in five places, and which of them it reaches depends on the request, the
settings, the catalogue and the answers of the system. `ParenLambda.Command.Course` lists the ways it can
go: what is asked of the system, and the failure or the exit code it ends with. The backend and the comment
are looked at before anything is read, and the source is compiled before anything is written, so of two
failures the one that is listed first is reported. **On every system each run is one of these**
(`ParenLambda.Command.course_of_runs`).

The text is handed over when all else has succeeded, and this is the last request of a run but for the
report. So a run that fails has no output (`ParenLambda.Command.compile_runs`). A standard stream that
refuses a text makes the program crash, be it the standard output that refuses what was compiled or the
standard error that refuses the report.
-/

namespace ParenLambda

/-! ### What a request to compile calls for -/

namespace Source

/-- Whether the base library precedes the source: unless the request or the settings leave it out. -/
def usesBase (source : Source) (settings : Settings) : Bool :=
  !source.withoutBase && settings.base != some false

/-- The name under which the source is reported. -/
def shownName (source : Source) : String :=
  if source.path = "-" then Command.inputName else source.path

/-- The event of reading the source. -/
def reading (source : Source) (answer : Except Refusal String) : Event :=
  if source.path = "-" then .readInput answer else .readFile source.path answer

/-- The failure of reading the source. -/
def unread (source : Source) (refusal : Refusal) : Failure :=
  if source.path = "-" then .unreadableInput refusal else .unreadable source.path refusal

end Source

namespace CompileRequest

/-- The name of the backend: the one that is given, or else the one of the settings, or else that of
JavaScript. -/
def backendName (request : CompileRequest) (settings : Settings) : String :=
  (request.backend <|> settings.backend).getD "javascript"

/-- Whether the prelude precedes the text: unless the request or the settings leave it out. -/
def usesPrelude (request : CompileRequest) (settings : Settings) : Bool :=
  !request.withoutPrelude && settings.prelude != some false

/-- What is compiled: the user's source, behind the base library if that is used. -/
def sourceText (request : CompileRequest) (settings : Settings) (user : String) : String :=
  if request.source.usesBase settings then BaseLibrary.text ++ "\n" ++ user else user

/-- **What is written**: the text of the program, with the prelude of the target if that is used, then the
Church notation in a comment if it is asked for, and a line feed. -/
def writtenText (request : CompileRequest) (settings : Settings) (backend : Backend)
    (program : Program) : String :=
  backend.render program
      (if request.usesPrelude settings then Prelude.ofTarget? backend.target else none) ++
    (if request.withChurch then "\n\n/*\n" ++ Backend.church.render program none ++ "\n*/" else "") ++
    "\n"

/-- **The backend serves a request**: it is the one of that name, and it has comments if one is asked
for. -/
structure ServedBy (request : CompileRequest) (context : Context) (backend : Backend) : Prop where
  find : context.catalogue.find? (request.backendName context.settings) = some backend
  comment : request.withChurch → backend.target = .javaScript

/-- **What a request calls for**, given the user's source: the text of a program in a backend. -/
structure CallsFor (request : CompileRequest) (context : Context) (user : String) (backend : Backend)
    (program : Program) : Prop extends request.ServedBy context backend where
  compile : Program.compile (request.sourceText context.settings user) = .ok program

variable {request : CompileRequest} {context : Context} {user : String} {backend other : Backend}
  {program found : Program}

theorem ServedBy.unique (h : request.ServedBy context backend)
    (hother : request.ServedBy context other) : backend = other :=
  Option.some.inj (h.find.symm.trans hother.find)

theorem CallsFor.unique (h : request.CallsFor context user backend program)
    (hother : request.CallsFor context user other found) : backend = other ∧ program = found :=
  ⟨h.toServedBy.unique hother.toServedBy, Except.ok.inj (h.compile.symm.trans hother.compile)⟩

end CompileRequest

namespace Command

variable {α β : Type} {context : Context} {request : CompileRequest} {events : List Event}

/-! ### Runs of attempts -/

/-- **A run of one attempt after another** ends with the failure of the first, or the second follows. -/
theorem runs_bind {attempt : Attempt α} {rest : α → Attempt β} {result : Except Failure β}
    (h : Action.Runs (attempt >>= rest).run events result) :
    (∃ failure, Action.Runs attempt.run events (.error failure) ∧ result = .error failure) ∨
      ∃ first value second, events = first ++ second ∧ Action.Runs attempt.run first (.ok value) ∧
        Action.Runs (rest value).run second result := by
  rw [ExceptT.run_bind] at h
  obtain ⟨first, found, second, rfl, hfirst, hsecond⟩ := Action.Runs.exists_of_bind h
  cases found with
  | error failure =>
    obtain ⟨rfl, rfl⟩ := Action.runs_done_iff.mp hsecond
    exact .inl ⟨failure, by rwa [List.append_nil], rfl⟩
  | ok value => exact .inr ⟨first, value, second, rfl, hfirst, hsecond⟩

/-- A step that asks nothing of the system, and succeeds. -/
theorem runs_ok_bind {value : α} {rest : α → Attempt β} {result : Except Failure β}
    (h : Action.Runs ((liftM (.ok value : Except Failure α) : Attempt α) >>= rest).run events result) :
    Action.Runs (rest value).run events result :=
  h

/-- A step that asks nothing of the system, and fails. -/
theorem runs_error_bind {failure : Failure} {rest : α → Attempt β} {result : Except Failure β}
    (h : Action.Runs ((liftM (.error failure : Except Failure α) : Attempt α) >>= rest).run events
      result) : events = [] ∧ result = .error failure :=
  Action.runs_done_iff.mp h

/-- A text that is printed is taken, or the program crashes. -/
theorem runs_print {text : String} {result : Except Failure Nat}
    (h : Action.Runs (print text).run events result) :
    (∃ refusal, events = [.print text (.error refusal)] ∧ result = .ok crashCode) ∨
      events = [.print text (.ok ())] ∧ result = .ok 0 := by
  cases h with | print answer h =>
  cases answer with
  | error refusal =>
    obtain ⟨rfl, rfl⟩ := Action.runs_done_iff.mp h
    exact .inl ⟨refusal, rfl, rfl⟩
  | ok _ =>
    obtain ⟨rfl, rfl⟩ := Action.runs_done_iff.mp h
    exact .inr ⟨rfl, rfl⟩

theorem runs_write {name text : String} {result : Except Failure Unit}
    (h : Action.Runs (write name text).run events result) :
    (∃ refusal, events = [.writeFile name text (.error refusal)] ∧
        result = .error (.unwritable name refusal)) ∨
      events = [.writeFile name text (.ok ())] ∧ result = .ok () := by
  cases h with | writeFile answer h =>
  cases answer with
  | error refusal =>
    obtain ⟨rfl, rfl⟩ := Action.runs_done_iff.mp h
    exact .inl ⟨refusal, rfl, rfl⟩
  | ok _ =>
    obtain ⟨rfl, rfl⟩ := Action.runs_done_iff.mp h
    exact .inr ⟨rfl, rfl⟩

/-- What is there by default is there unless it is left out. -/
theorem included_eq (leftOut : Bool) (setting : Option Bool) :
    (!leftOut && setting.getD true) = (!leftOut && setting != some false) := by
  rcases setting with _ | _ | _ <;> rfl

/-- Reading a source is one event. -/
theorem runs_load {source : Source} {result : Except Failure Assembly}
    (h : Action.Runs (load context source).run events result) :
    (∃ refusal, events = [source.reading (.error refusal)] ∧
        result = .error (source.unread refusal)) ∨
      ∃ user, events = [source.reading (.ok user)] ∧
        result = .ok (.make source.shownName user (source.usesBase context.settings)) := by
  have hbase : (!source.withoutBase && context.settings.usesBase) =
      source.usesBase context.settings := included_eq _ _
  simp only [Source.reading, Source.unread, Source.shownName]
  by_cases hinput : source.path = "-"
  · simp only [load, hbase, hinput, beq_self_eq_true, if_true] at h ⊢
    cases h with | readInput answer h =>
    cases answer with
    | error refusal =>
      obtain ⟨rfl, rfl⟩ := Action.runs_done_iff.mp h
      exact .inl ⟨refusal, rfl, rfl⟩
    | ok user =>
      obtain ⟨rfl, rfl⟩ := Action.runs_done_iff.mp h
      exact .inr ⟨user, rfl, rfl⟩
  · simp only [load, hbase, beq_iff_eq, hinput, if_false] at h ⊢
    cases h with | readFile answer h =>
    cases answer with
    | error refusal =>
      obtain ⟨rfl, rfl⟩ := Action.runs_done_iff.mp h
      exact .inl ⟨refusal, rfl, rfl⟩
    | ok user =>
      obtain ⟨rfl, rfl⟩ := Action.runs_done_iff.mp h
      exact .inr ⟨user, rfl, rfl⟩

/-- **The course of a request to compile**: what it asks of the system and how it ends. The backend and the
comment are looked at before anything is read, and the source is compiled before anything is written. -/
inductive Course (context : Context) (request : CompileRequest) :
    List Event → Except Failure Nat → Prop
  | unknownBackend
      (h : context.catalogue.find? (request.backendName context.settings) = none) :
      Course context request []
        (.error (.unknownBackend (request.backendName context.settings) context.catalogue.names))
  | noComments {backend : Backend}
      (hfind : context.catalogue.find? (request.backendName context.settings) = some backend)
      (hchurch : request.withChurch) (htarget : backend.target ≠ .javaScript) :
      Course context request [] (.error (.noComments backend.name))
  | unread {backend : Backend} (h : request.ServedBy context backend) (refusal : Refusal) :
      Course context request [request.source.reading (.error refusal)]
        (.error (request.source.unread refusal))
  | faulty {backend : Backend} {user : String} {fault : Fault} (h : request.ServedBy context backend)
      (hcompile : Program.compile (request.sourceText context.settings user) = .error fault) :
      Course context request [request.source.reading (.ok user)]
        (.error (.faulty (.make request.source.shownName user
          (request.source.usesBase context.settings)) fault))
  | unwritten {user : String} {backend : Backend} {program : Program} {name : String}
      (h : request.CallsFor context user backend program) (houtput : request.output = some name)
      (refusal : Refusal) :
      Course context request [request.source.reading (.ok user),
        .writeFile name (request.writtenText context.settings backend program) (.error refusal)]
        (.error (.unwritable name refusal))
  | written {user : String} {backend : Backend} {program : Program} {name : String}
      (h : request.CallsFor context user backend program) (houtput : request.output = some name) :
      Course context request [request.source.reading (.ok user),
        .writeFile name (request.writtenText context.settings backend program) (.ok ())] (.ok 0)
  | unprinted {user : String} {backend : Backend} {program : Program}
      (h : request.CallsFor context user backend program) (houtput : request.output = none)
      (refusal : Refusal) :
      Course context request [request.source.reading (.ok user),
        .print (request.writtenText context.settings backend program) (.error refusal)]
        (.ok crashCode)
  | printed {user : String} {backend : Backend} {program : Program}
      (h : request.CallsFor context user backend program) (houtput : request.output = none) :
      Course context request [request.source.reading (.ok user),
        .print (request.writtenText context.settings backend program) (.ok ())] (.ok 0)

theorem resolve_cases (context : Context) (request : CompileRequest) :
    (∃ backend, context.catalogue.find? (request.backendName context.settings) = some backend ∧
        resolve context request.backend = .ok backend) ∨
      context.catalogue.find? (request.backendName context.settings) = none ∧
        resolve context request.backend = .error
          (.unknownBackend (request.backendName context.settings) context.catalogue.names) := by
  have hname : request.backend.getD context.settings.backendName =
      request.backendName context.settings := by
    rw [CompileRequest.backendName, Settings.backendName]
    cases request.backend <;> rfl
  rw [resolve, hname]
  cases context.catalogue.find? (request.backendName context.settings) with
  | none => exact .inr ⟨rfl, rfl⟩
  | some backend => exact .inl ⟨backend, rfl, rfl⟩

theorem checkComment_cases (request : CompileRequest) (backend : Backend) :
    (request.withChurch → backend.target = .javaScript) ∧ checkComment request backend = .ok () ∨
      request.withChurch ∧ backend.target ≠ .javaScript ∧
        checkComment request backend = .error (.noComments backend.name) := by
  rw [checkComment]
  by_cases htarget : backend.target = .javaScript
  · exact .inl ⟨fun _ => htarget, by simp [htarget]⟩
  · cases hchurch : request.withChurch with
    | false => exact .inl ⟨by simp, rfl⟩
    | true => exact .inr ⟨rfl, htarget, by simp [htarget]⟩

theorem program_cases (context : Context) (request : CompileRequest) (user : String) :
    let assembly := Assembly.make request.source.shownName user
      (request.source.usesBase context.settings)
    (∃ found, Program.compile (request.sourceText context.settings user) = .ok found ∧
        program assembly = .ok found) ∨
      ∃ fault, Program.compile (request.sourceText context.settings user) = .error fault ∧
        program assembly = .error (.faulty assembly fault) := by
  intro assembly
  have htext : assembly.text = request.sourceText context.settings user := by
    simp only [assembly, Assembly.text, Assembly.make, CompileRequest.sourceText]
    split
    · rfl
    · exact String.empty_append
  rw [program, Assembly.compile, htext]
  cases Program.compile (request.sourceText context.settings user) with
  | ok found => exact .inl ⟨found, rfl, rfl⟩
  | error fault => exact .inr ⟨fault, rfl, rfl⟩

theorem compiledText_eq (context : Context) (request : CompileRequest) (backend : Backend)
    (program : Program) :
    compiledText context request backend program ++ "\n" =
      request.writtenText context.settings backend program := by
  have hprelude : (!request.withoutPrelude && context.settings.usesPrelude) =
      request.usesPrelude context.settings := included_eq _ _
  simp only [compiledText, render, churchComment, hprelude, CompileRequest.writtenText]

/-- **Every run of a request to compile takes one of these courses**, on whatever system. -/
theorem course_of_runs {result : Except Failure Nat}
    (h : Action.Runs (attemptCompile context request).run events result) :
    Course context request events result := by
  simp only [attemptCompile, compiledText_eq] at h
  -- What can be told from the request alone asks nothing of the system.
  rcases resolve_cases context request with ⟨backend, hfind, hresolve⟩ | ⟨hfind, hresolve⟩
  case inr =>
    rw [hresolve] at h
    obtain ⟨rfl, rfl⟩ := runs_error_bind h
    exact .unknownBackend hfind
  rw [hresolve] at h
  replace h := runs_ok_bind h
  rcases checkComment_cases request backend with ⟨hcomment, hcheck⟩ | ⟨hchurch, htarget, hcheck⟩
  case inr =>
    rw [hcheck] at h
    obtain ⟨rfl, rfl⟩ := runs_error_bind h
    exact .noComments hfind hchurch htarget
  rw [hcheck] at h
  replace h := runs_ok_bind h
  have hserved : request.ServedBy context backend := ⟨hfind, hcomment⟩
  -- The source is read; from here on there is one event.
  rcases runs_bind h with ⟨failure, hload, rfl⟩ | ⟨first, assembly, second, rfl, hload, hrest⟩
  · rcases runs_load hload with ⟨refusal, rfl, ⟨⟩⟩ | ⟨user, -, ⟨⟩⟩
    exact .unread hserved refusal
  rcases runs_load hload with ⟨-, -, ⟨⟩⟩ | ⟨user, rfl, ⟨⟩⟩
  rcases program_cases context request user with
    ⟨found, hcompile, hprogram⟩ | ⟨fault, hcompile, hprogram⟩
  case inr =>
    rw [hprogram] at hrest
    obtain ⟨rfl, rfl⟩ := runs_error_bind hrest
    exact .faulty hserved hcompile
  rw [hprogram] at hrest
  replace hrest := runs_ok_bind hrest
  have hcalls : request.CallsFor context user backend found := ⟨hserved, hcompile⟩
  -- All that is left is to hand over the text.
  cases houtput : request.output with
  | none =>
    rw [houtput] at hrest
    rcases runs_print hrest with ⟨refusal, rfl, rfl⟩ | ⟨rfl, rfl⟩
    · exact .unprinted hcalls houtput refusal
    · exact .printed hcalls houtput
  | some name =>
    rw [houtput] at hrest
    rcases runs_bind hrest with ⟨failure, hwrite, rfl⟩ | ⟨third, value, last, rfl, hwrite, hlast⟩
    · rcases runs_write hwrite with ⟨refusal, rfl, ⟨⟩⟩ | ⟨-, ⟨⟩⟩
      exact .unwritten hcalls houtput refusal
    · obtain ⟨rfl, rfl⟩ := Action.runs_done_iff.mp hlast
      rcases runs_write hwrite with ⟨-, -, ⟨⟩⟩ | ⟨rfl, -⟩
      exact .written hcalls houtput

end Command

end ParenLambda
