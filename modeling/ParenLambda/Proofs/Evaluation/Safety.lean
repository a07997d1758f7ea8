import ParenLambda.Proofs.Inlining.Simulation
import ParenLambda.Proofs.Regular

/-!
# Closed programs do not get stuck

A program whose items use only names that are defined before them never meets a name without a meaning,
an empty sequence, a definition inside an expression, or a value that is no function: its evaluation
goes on for as long as it may, or it ends well.

A name that is not in scope is looked up in the globals when it is met, and a function may be called
long after it was made, when there are more globals than there were. So the invariant speaks of values
and not only of terms. A value is **sound** (`ParenLambda.Value.Sound`) if it is a function, every free
name of it means something in its scope or among the globals, and all the values in its scope are
sound. Soundness asks only which names the globals have, so it survives every further definition, of a
new name or of an old one.

What one computation keeps is `ParenLambda.Computation.Sound.safely`, by induction on the depth; what
a whole run keeps is `ParenLambda.Machine.Prepared.safely_steps`, by induction on the items. A run that
is not at its end has produced values too: they belong to the computations that it has started so far
(`ParenLambda.Program.Reaches`).
-/

namespace ParenLambda

/-! ### Outcomes -/

/-- **Not stuck**: the bound on the depth was reached, or the outcome has a property. -/
def Safely {α : Type} (good : α → Prop) : Except Halt α → Prop
  | .ok result => good result
  | .error .exhausted => True
  | .error (.stuck _) => False

namespace Safely

variable {α β : Type} {good : α → Prop} {fine : β → Prop} {outcome : Except Halt α}

/-- A step that is not stuck, and a next one that is not stuck on what the first gives. -/
theorem bind (h : Safely good outcome) {next : α → Except Halt β}
    (hnext : ∀ result, good result → Safely fine (next result)) : Safely fine (outcome >>= next) := by
  rcases outcome with (reason | _) | result
  · exact h.elim
  · trivial
  · exact hnext result h

theorem exhausted_or_ok (h : Safely good outcome) :
    outcome = .error .exhausted ∨ ∃ result, outcome = .ok result ∧ good result := by
  rcases outcome with (reason | _) | result
  · exact h.elim
  · exact Or.inl rfl
  · exact Or.inr ⟨result, rfl, h⟩

end Safely

/-! ### Terms that can be evaluated -/

/-- **A term that is ready** where some names are known: it holds no definition, it is regular, so that
no sequence in it is empty, and its free names are known. -/
structure Term.Ready (known : List String) (term : Term) : Prop where
  /-- No definition stands inside. -/
  isExpression : term.isExpression
  /-- Every sequence starts with a binding. -/
  isRegular : term.isRegular
  /-- Every free name is known. -/
  free : ∀ name ∈ term.free, name ∈ known

namespace Term.Ready

variable {known others : List String}

theorem mono {term : Term} (h : term.Ready known) (hknown : known ⊆ others) : term.Ready others :=
  ⟨h.isExpression, h.isRegular, fun name hname => hknown (h.free name hname)⟩

/-- The parameter is known in the body. -/
theorem body {parameter : String} {body : Term} (h : (abstraction parameter body).Ready known) :
    body.Ready (parameter :: known) := by
  refine ⟨h.isExpression, h.isRegular, fun name hname => ?_⟩
  by_cases hparameter : name = parameter
  · exact List.mem_cons.mpr (Or.inl hparameter)
  · exact List.mem_cons_of_mem _ (h.free name (List.mem_filter.mpr ⟨hname, by simpa using hparameter⟩))

theorem application {operator operand : Term} (h : (application operator operand).Ready known) :
    operator.Ready known ∧ operand.Ready known := by
  obtain ⟨hexpression, hregular, hfree⟩ := h
  simp only [Term.isExpression, Bool.and_eq_true] at hexpression
  simp only [Term.isRegular, Bool.and_eq_true] at hregular
  exact ⟨⟨hexpression.1, hregular.2.1, fun name hname => hfree name (List.mem_append_left _ hname)⟩,
    ⟨hexpression.2, hregular.2.2, fun name hname => hfree name (List.mem_append_right _ hname)⟩⟩

theorem members {members : List Term} (h : (sequence members).Ready known) :
    members ≠ [] ∧ ∀ member ∈ members, member.Ready known := by
  obtain ⟨hexpression, hregular, hfree⟩ := h
  simp only [Term.isRegular, Bool.and_eq_true] at hregular
  refine ⟨?_, fun member hmember => ⟨areExpressions_iff.mp hexpression member hmember,
    areRegular_iff.mp hregular.2 member hmember, fun name hname => hfree name ?_⟩⟩
  · rintro rfl
    exact Bool.false_ne_true hregular.1
  · rw [Term.free, freeAll_eq]
    exact List.mem_flatMap.mpr ⟨member, hmember, hname⟩

end Term.Ready

/-! ### Sound values -/

mutual

/-- **A sound value**, where the globals have certain names. -/
inductive Value.Sound (globals : List String) : Value → Prop
  /-- A function whose free names are in its scope or global, and whose scope is sound. -/
  | closure {parameter : String} {body : Term} {scope : Scope} :
    (Term.abstraction parameter body).Ready (scope.names ++ globals) →
      Scope.Sound globals scope → Value.Sound globals (.closure parameter body scope)

/-- **A sound scope**: all its values are. -/
inductive Scope.Sound (globals : List String) : Scope → Prop
  /-- There are no values. -/
  | empty : Scope.Sound globals .empty
  /-- One more sound value. -/
  | bind {name : String} {value : Value} {outer : Scope} :
    Value.Sound globals value → Scope.Sound globals outer →
      Scope.Sound globals (.bind name value outer)

end

variable {globals others : List String}

mutual

/-- **A sound value stays sound** when the globals get more names. -/
theorem Value.Sound.mono (hglobals : globals ⊆ others) : ∀ {value : Value},
    value.Sound globals → value.Sound others
  | .closure _ _ _, .closure hready hscope =>
    .closure (hready.mono fun _ hname => (List.mem_append.mp hname).elim (List.mem_append_left _)
      fun hglobal => List.mem_append_right _ (hglobals hglobal)) (hscope.mono hglobals)

theorem Scope.Sound.mono (hglobals : globals ⊆ others) : ∀ {scope : Scope},
    scope.Sound globals → scope.Sound others
  | .empty, .empty => .empty
  | .bind _ _ _, .bind hvalue houter => .bind (hvalue.mono hglobals) (houter.mono hglobals)

end

theorem Scope.Sound.find? {name : String} {value : Value} : ∀ {scope : Scope},
    scope.Sound globals → scope.find? name = some value → value.Sound globals
  | .empty, _, h => by simp [Scope.find?] at h
  | .bind bound _ outer, hscope, h => by
    obtain ⟨⟩ | ⟨hvalue, houter⟩ := hscope
    rcases find?_bind_eq_some.mp h with ⟨-, rfl⟩ | ⟨-, h⟩
    · exact hvalue
    · exact houter.find? h

/-! ### One computation -/

/-- **A sound computation**: sound values, sound scopes, and terms that are ready in their scope. -/
inductive Computation.Sound (globals : List String) : Computation → Prop
  /-- A term in a scope. -/
  | ofTerm {scope : Scope} {term : Term} :
    scope.Sound globals → term.Ready (scope.names ++ globals) →
      Computation.Sound globals (.ofTerm scope term)
  /-- A call. -/
  | ofCall {function argument : Value} :
    function.Sound globals → argument.Sound globals →
      Computation.Sound globals (.ofCall function argument)
  /-- A function and the terms it is applied to. -/
  | ofCalls {scope : Scope} {function : Value} {terms : List Term} :
    scope.Sound globals → function.Sound globals →
      (∀ term ∈ terms, term.Ready (scope.names ++ globals)) →
        Computation.Sound globals (.ofCalls scope function terms)

/-- **The value of a name that is ready** is found, in its scope or among the globals. -/
theorem Term.Ready.exists_find? {globals scope : Scope} {name : String}
    (h : (atom name).Ready (scope.names ++ globals.names)) :
    (∃ value, scope.find? name = some value) ∨
      (scope.find? name = none ∧ ∃ value, globals.find? name = some value) := by
  have hname := List.mem_append.mp (h.free name List.mem_cons_self)
  cases hlocal : scope.find? name with
  | some value => exact Or.inl ⟨value, rfl⟩
  | none =>
    refine Or.inr ⟨rfl, ?_⟩
    have hglobal := hname.resolve_left (Scope.not_mem_names_of_find? hlocal)
    cases hfind : globals.find? name with
    | some value => exact ⟨value, rfl⟩
    | none => exact absurd hglobal (Scope.not_mem_names_of_find? hfind)

/-- **A sound computation is not stuck within any depth**, and what it ends in is sound. -/
theorem Computation.Sound.safely {globals : Scope} (hglobals : globals.Sound globals.names)
    {computation : Computation} (h : computation.Sound globals.names) (depth : Nat) :
    Safely (Value.Sound globals.names) (computation.within globals depth) := by
  -- Evaluating a term, calling and calling repeatedly take turns, each a level deeper than the one
  -- that needs it: one induction on the depth is for all three.
  induction depth generalizing computation with
  | zero => cases computation <;> simp [within, Term.eval, Value.apply, Value.applyAll, Safely]
  | succ depth ih =>
    cases h with
    | @ofTerm scope term hscope hterm =>
      cases term with
      | atom name =>
        rcases hterm.exists_find? with ⟨value, hlocal⟩ | ⟨hlocal, value, hglobal⟩
        · simp only [within, Term.eval, hlocal]
          exact hscope.find? hlocal
        · simp only [within, Term.eval, hlocal, hglobal]
          exact hglobals.find? hglobal
      | definition name value => exact absurd hterm.isExpression Bool.false_ne_true
      | abstraction parameter body =>
        rw [within, Term.eval]
        exact .closure hterm hscope
      | application operator operand =>
        obtain ⟨hoperator, hoperand⟩ := hterm.application
        rw [within, Term.eval]
        refine (ih (.ofTerm hscope hoperator)).bind fun function hfunction => ?_
        exact (ih (.ofTerm hscope hoperand)).bind fun argument hargument =>
          ih (.ofCall hfunction hargument)
      | sequence members =>
        obtain ⟨hne, hmembers⟩ := hterm.members
        cases members with
        | nil => exact absurd rfl hne
        | cons first rest =>
          rw [within, Term.eval]
          refine (ih (.ofTerm hscope (hmembers first List.mem_cons_self))).bind
            fun function hfunction => ?_
          exact ih (.ofCalls hscope hfunction fun term hterm =>
            hmembers term (List.mem_cons_of_mem _ hterm))
    | ofCall hfunction hargument =>
      obtain ⟨hbody, hscope⟩ := hfunction
      rw [within, Value.apply]
      exact ih (.ofTerm (.bind hargument hscope) hbody.body)
    | @ofCalls scope function terms hscope hfunction hterms =>
      cases terms with
      | nil =>
        rw [within, Value.applyAll]
        exact hfunction
      | cons term rest =>
        rw [within, Value.applyAll]
        refine (ih (.ofTerm hscope (hterms term List.mem_cons_self))).bind
          fun argument hargument => ?_
        refine (ih (.ofCall hfunction hargument)).bind fun result hresult => ?_
        exact ih (.ofCalls hscope hresult fun other hother =>
          hterms other (List.mem_cons_of_mem _ hother))

/-- What a sound computation ends in is sound. -/
theorem Computation.Sound.ends {globals : Scope} (hglobals : globals.Sound globals.names)
    {computation : Computation} (h : computation.Sound globals.names) {value : Value}
    (hends : computation.Ends globals value) : value.Sound globals.names := by
  obtain ⟨least, hleast⟩ := hends.within
  have hsafely := h.safely hglobals least
  rwa [hleast least (Nat.le_refl least)] at hsafely

/-! ### A whole run -/

/-- What is evaluated of an item: the value of a definition, and any other item itself. -/
def Term.evaluand : Term → Term
  | definition _ value => value
  | term => term

/-- **A sound machine**: its globals are sound where they are the globals themselves, and so is its
last value. -/
structure Machine.Sound (machine : Machine) : Prop where
  /-- The globals are sound. -/
  globals : machine.globals.Sound machine.globals.names
  /-- The last value, if there is one, is sound. -/
  last : ∀ value, machine.last = some value → value.Sound machine.globals.names

/-- A sound machine in front of items that use only what it has defined, or what they define
themselves. -/
structure Machine.Prepared (machine : Machine) (items : List Term) : Prop extends machine.Sound where
  /-- Every free name of an item has a global value by then. -/
  isScoped : Program.scopedFrom machine.globals.names items
  /-- The items are regular. -/
  areRegular : Term.areRegular items

namespace Machine

variable {machine : Machine} {item : Term} {rest : List Term}

theorem Prepared.evaluand (h : machine.Prepared (item :: rest)) :
    (Computation.ofTerm .empty item.evaluand).Sound machine.globals.names := by
  have hregular : item.isRegular := Term.areRegular_iff.mp h.areRegular item List.mem_cons_self
  rcases Program.scopedFrom_cons h.isScoped with
    ⟨name, value, rfl, hvalue, hfree, -⟩ | ⟨hitem, hfree, -⟩
  · exact .ofTerm .empty ⟨hvalue, hregular, hfree⟩
  · have hevaluand : item.evaluand = item := by
      cases item with
      | definition name value => exact absurd hitem Bool.false_ne_true
      | _ => rfl
    rw [hevaluand]
    exact .ofTerm .empty ⟨hitem, hregular, hfree⟩

/-- A definition adds a sound value, and everything else that was sound stays so. -/
theorem Sound.bind (h : machine.Sound) {name : String} {value : Value}
    (hvalue : value.Sound machine.globals.names) :
    Sound { machine with globals := .bind name value machine.globals } := by
  have hmore : machine.globals.names ⊆ (Scope.bind name value machine.globals).names :=
    fun _ hname => List.mem_cons_of_mem _ hname
  exact ⟨.bind (hvalue.mono hmore) (h.globals.mono hmore),
    fun last hlast => (h.last last hlast).mono hmore⟩

/-- **One item** leaves the machine prepared for the items behind it. -/
theorem Prepared.safely_step (h : machine.Prepared (item :: rest)) (depth : Nat) :
    Safely (·.Prepared rest) (machine.step depth item) := by
  have hregular : Term.areRegular rest := Term.areRegular_iff.mpr fun other hother =>
    Term.areRegular_iff.mp h.areRegular other (List.mem_cons_of_mem _ hother)
  have heval := h.evaluand.safely h.globals depth
  rcases Program.scopedFrom_cons h.isScoped with
    ⟨name, value, rfl, -, -, hscoped⟩ | ⟨hitem, -, hscoped⟩
  · -- The items behind may use the new name, and the globals now have it.
    exact heval.bind fun result hresult => ⟨h.toSound.bind hresult, hscoped, hregular⟩
  · cases item with
    | definition name value => exact absurd hitem Bool.false_ne_true
    | _ =>
      refine heval.bind fun result hresult => ⟨⟨h.globals, ?_⟩, hscoped, hregular⟩
      rintro _ ⟨⟩
      exact hresult

/-- **Some items** leave the machine prepared for the items behind them. -/
theorem Prepared.safely_steps {items : List Term} (h : machine.Prepared (items ++ rest))
    (depth : Nat) : Safely (·.Prepared rest) (machine.steps depth items) := by
  induction items generalizing machine with
  | nil => exact h
  | cons item items ih => exact (h.safely_step depth).bind fun middle hmiddle => ih hmiddle

end Machine

/-! ### The computations of a run -/

/-- **A computation starts another**, once those have ended that it starts before. -/
inductive Computation.Starts (globals : Scope) : Computation → Computation → Prop
  /-- The operator comes first. -/
  | operator {scope : Scope} {operator operand : Term} :
    Starts globals (.ofTerm scope (.application operator operand)) (.ofTerm scope operator)
  /-- The operand comes behind the operator. -/
  | operand {scope : Scope} {operator operand : Term} {function : Value} :
    Ends globals (.ofTerm scope operator) function →
      Starts globals (.ofTerm scope (.application operator operand)) (.ofTerm scope operand)
  /-- The call comes behind both. -/
  | call {scope : Scope} {operator operand : Term} {function argument : Value} :
    Ends globals (.ofTerm scope operator) function →
      Ends globals (.ofTerm scope operand) argument →
        Starts globals (.ofTerm scope (.application operator operand)) (.ofCall function argument)
  /-- The first member of a sequence. -/
  | first {scope : Scope} {first : Term} {rest : List Term} :
    Starts globals (.ofTerm scope (.sequence (first :: rest))) (.ofTerm scope first)
  /-- The other members of a sequence. -/
  | rest {scope : Scope} {first : Term} {rest : List Term} {function : Value} :
    Ends globals (.ofTerm scope first) function →
      Starts globals (.ofTerm scope (.sequence (first :: rest))) (.ofCalls scope function rest)
  /-- The body of a function. -/
  | body {parameter : String} {body : Term} {scope : Scope} {argument : Value} :
    Starts globals (.ofCall (.closure parameter body scope) argument)
      (.ofTerm (.bind parameter argument scope) body)
  /-- The first of several terms. -/
  | argument {scope : Scope} {function : Value} {term : Term} {rest : List Term} :
    Starts globals (.ofCalls scope function (term :: rest)) (.ofTerm scope term)
  /-- The call at the first of several terms. -/
  | callFirst {scope : Scope} {function argument : Value} {term : Term} {rest : List Term} :
    Ends globals (.ofTerm scope term) argument →
      Starts globals (.ofCalls scope function (term :: rest)) (.ofCall function argument)
  /-- The calls at the terms behind it. -/
  | callRest {scope : Scope} {function argument result : Value} {term : Term} {rest : List Term} :
    Ends globals (.ofTerm scope term) argument → Ends globals (.ofCall function argument) result →
      Starts globals (.ofCalls scope function (term :: rest)) (.ofCalls scope result rest)

/-- **What a sound computation starts is sound.** -/
theorem Computation.Starts.sound {globals : Scope} (hglobals : globals.Sound globals.names)
    {computation started : Computation} (h : computation.Starts globals started)
    (hsound : computation.Sound globals.names) : started.Sound globals.names := by
  cases h with
  | operator =>
    obtain ⟨hscope, hterm⟩ := hsound
    exact .ofTerm hscope hterm.application.1
  | operand =>
    obtain ⟨hscope, hterm⟩ := hsound
    exact .ofTerm hscope hterm.application.2
  | call hfunction hargument =>
    obtain ⟨hscope, hterm⟩ := hsound
    exact .ofCall ((Sound.ofTerm hscope hterm.application.1).ends hglobals hfunction)
      ((Sound.ofTerm hscope hterm.application.2).ends hglobals hargument)
  | first =>
    obtain ⟨hscope, hterm⟩ := hsound
    exact .ofTerm hscope (hterm.members.2 _ List.mem_cons_self)
  | rest hfunction =>
    obtain ⟨hscope, hterm⟩ := hsound
    have hmembers := hterm.members.2
    exact .ofCalls hscope
      ((Sound.ofTerm hscope (hmembers _ List.mem_cons_self)).ends hglobals hfunction)
      fun term hterm => hmembers term (List.mem_cons_of_mem _ hterm)
  | body =>
    obtain ⟨⟩ | ⟨hfunction, hargument⟩ := hsound
    obtain ⟨hbody, hscope⟩ := hfunction
    exact .ofTerm (.bind hargument hscope) hbody.body
  | argument =>
    obtain ⟨⟩ | ⟨⟩ | ⟨hscope, hfunction, hterms⟩ := hsound
    exact .ofTerm hscope (hterms _ List.mem_cons_self)
  | callFirst hargument =>
    obtain ⟨⟩ | ⟨⟩ | ⟨hscope, hfunction, hterms⟩ := hsound
    exact .ofCall hfunction
      ((Sound.ofTerm hscope (hterms _ List.mem_cons_self)).ends hglobals hargument)
  | callRest hargument hresult =>
    obtain ⟨⟩ | ⟨⟩ | ⟨hscope, hfunction, hterms⟩ := hsound
    have hargument := (Sound.ofTerm hscope (hterms _ List.mem_cons_self)).ends hglobals hargument
    exact .ofCalls hscope ((Sound.ofCall hfunction hargument).ends hglobals hresult)
      fun term hterm => hterms term (List.mem_cons_of_mem _ hterm)

namespace Program

/-- **The computations of a run**, with the globals at the time: that of an item, once the items before
it have been evaluated, and whatever those computations start. -/
inductive Reaches (program : Program) : Scope → Computation → Prop
  /-- An item is evaluated behind the items before it. -/
  | item {before after : List Term} {item : Term} {depth : Nat} {machine : Machine} :
    program.body = before ++ item :: after → Machine.start.steps depth before = .ok machine →
      Reaches program machine.globals (.ofTerm .empty item.evaluand)
  /-- A computation starts others. -/
  | start {globals : Scope} {computation started : Computation} :
    Reaches program globals computation → computation.Starts globals started →
      Reaches program globals started

theorem prepared_start {program : Program} (hscoped : program.isScoped)
    (hregular : program.isRegular) : Machine.start.Prepared program.body :=
  ⟨⟨.empty, by rintro _ ⟨⟩⟩, hscoped, hregular⟩

/-- The computations of a run are sound, and so are the globals that they find. -/
theorem Reaches.sound {program : Program} (hscoped : program.isScoped)
    (hregular : program.isRegular) {globals : Scope} {computation : Computation}
    (h : program.Reaches globals computation) :
    globals.Sound globals.names ∧ computation.Sound globals.names := by
  induction h with
  | @item before after item depth machine hbody hsteps =>
    have hstart := prepared_start hscoped hregular
    rw [hbody] at hstart
    have hprepared := hstart.safely_steps depth
    rw [hsteps] at hprepared
    exact ⟨hprepared.globals, hprepared.evaluand⟩
  | start _ hstarts ih => exact ⟨ih.1, hstarts.sound ih.1 ih.2⟩

/-- **Closed programs never get stuck.** Take a source that compiles to a program whose definitions
stand at the top, where every free name of an item is defined before the item. Within every depth its
evaluation has reached the bound or has ended well, with sound globals and a sound last value; and
every value that any computation of the run ends in, whether the run ends or not, is a function whose
free names are in its scope or among the globals of the time, with nothing but such functions in its
scope. -/
theorem closed_unstuck (source : String) (program : Program) (hcompile : compile source = .ok program)
    (hscoped : program.isScoped) :
    (∀ depth, Machine.run depth program = .error .exhausted ∨
      ∃ machine, Machine.run depth program = .ok machine ∧ machine.Sound) ∧
    ∀ globals computation value, program.Reaches globals computation →
      computation.Ends globals value → value.Sound globals.names := by
  have hregular := isRegular_of_compile hcompile
  constructor
  · intro depth
    have hstart := prepared_start hscoped hregular
    rw [← List.append_nil program.body] at hstart
    rcases (hstart.safely_steps depth).exhausted_or_ok with hrun | ⟨machine, hrun, hmachine⟩
    · exact Or.inl hrun
    · exact Or.inr ⟨machine, hrun, hmachine.toSound⟩
  · intro globals computation value hreaches hends
    obtain ⟨hglobals, hcomputation⟩ := hreaches.sound hscoped hregular
    exact hcomputation.ends hglobals hends

/-- A function that uses a name which is defined again before the function is called. -/
def redefined : Program where
  body := [
    .definition "f" (.abstraction "x" (.atom "x")),
    .definition "g" (.abstraction "y" (.application (.atom "f") (.atom "y"))),
    .definition "f" (.abstraction "x" (.atom "g")),
    .sequence [.abstraction "z" (.application (.atom "g") (.atom "z")), .atom "f"]]

theorem closed_unstuck_redefined :
    compile "(let f (λ x x)) (let g (λ y (f y))) (let f (λ x g)) ((λ z (g z)) f)" = .ok redefined ∧
      redefined.isScoped ∧
      ∃ machine, Machine.run 20 redefined = .ok machine ∧ machine.Sound := by
  have hcompile : compile "(let f (λ x x)) (let g (λ y (f y))) (let f (λ x g)) ((λ z (g z)) f)" =
      .ok redefined := by
    rw [compile_eq]
    rfl
  have hscoped : redefined.isScoped := by decide
  refine ⟨hcompile, hscoped, ?_⟩
  rcases (closed_unstuck _ redefined hcompile hscoped).1 20 with hrun | hrun
  · cases hrun
  · exact hrun

end Program

end ParenLambda
