import ParenLambda.Proofs.Evaluation.Attaining
import ParenLambda.Proofs.Inlining.Simulation

/-!
# Running the items of a program

What a run ends in depends on the items and not on the depth it is given. Along a run the globals only
grow, and as long as no name is defined twice, what they say of a name stays true. So in the end every
name means what the term of its definition ends in, *with the final globals*: the definitions of a
program are equations that its globals solve (`ParenLambda.Machine.steps_solve`). A program that is put
behind such definitions can be judged by the globals alone (`ParenLambda.Program.answers_behind`).
-/

namespace ParenLambda

/-! ### Globals that grow -/

namespace Scope

/-- **One scope extends another**: it says everything that the other says. -/
def Extends (large small : Scope) : Prop :=
  ∀ name value, small.find? name = some value → large.find? name = some value

theorem Extends.refl (scope : Scope) : scope.Extends scope :=
  fun _ _ hfind => hfind

theorem Extends.trans {large middle small : Scope} (h : large.Extends middle)
    (h' : middle.Extends small) : large.Extends small :=
  fun name value hfind => h name value (h' name value hfind)

/-- A scope is extended by a name that it does not have. -/
theorem extends_bind {scope : Scope} {name : String} (h : scope.find? name = none) (value : Value) :
    (bind name value scope).Extends scope := by
  intro used found hfind
  have hne : name ≠ used := by
    rintro rfl
    rw [h] at hfind
    cases hfind
  exact find?_bind_eq_some.mpr (.inr ⟨hne, hfind⟩)

end Scope

/-- **A computation ends in the same value with more globals.** -/
theorem Computation.Ends.extend {small large : Scope} {computation : Computation} {value : Value}
    (h : computation.Ends small value) (hmore : large.Extends small) :
    computation.Ends large value := by
  induction h with
  | bound hlocal => exact .bound hlocal
  | global hlocal hglobal => exact .global hlocal (hmore _ _ hglobal)
  | abstraction => exact .abstraction
  | application _ _ _ ihFunction ihArgument ihCall => exact .application ihFunction ihArgument ihCall
  | sequence _ _ ihFunction ihCalls => exact .sequence ihFunction ihCalls
  | closure _ ih => exact .closure ih
  | counter => exact .counter
  | done => exact .done
  | next _ _ _ ihArgument ihResult ihCalls => exact .next ihArgument ihResult ihCalls

namespace Machine

variable {depth : Nat} {machine machine' : Machine} {item : Term} {items rest : List Term}

/-! ### One item -/

/-- **What an item does**: a definition binds its name to a value, and any other item leaves its value
as the last one. -/
theorem step_cases (h : machine.step depth item = .ok machine') :
    (∃ name term value, item = .definition name term ∧
      term.eval machine.globals depth .empty = .ok value ∧
      machine' = { machine with globals := .bind name value machine.globals }) ∨
    ((∀ rest, Program.definitions ⟨item :: rest⟩ = Program.definitions ⟨rest⟩) ∧
      ∃ value, item.eval machine.globals depth .empty = .ok value ∧
        machine' = { machine with last := some value }) := by
  cases item with
  | definition name term =>
    obtain ⟨value, hvalue, hmachine⟩ := ok_of_bind h
    cases hmachine
    exact Or.inl ⟨name, term, value, rfl, hvalue, rfl⟩
  | _ =>
    obtain ⟨value, hvalue, hmachine⟩ := ok_of_bind h
    cases hmachine
    exact Or.inr ⟨fun _ => rfl, value, hvalue, rfl⟩

/-- An item does the same within every depth from some depth on. -/
theorem step_within (h : machine.step depth item = .ok machine') :
    ∃ least, ∀ depth, least ≤ depth → machine.step depth item = .ok machine' := by
  rcases step_cases h with ⟨name, term, value, rfl, hvalue, rfl⟩ | ⟨-, value, hvalue, rfl⟩
  · have hends : Computation.Ends machine.globals (.ofTerm .empty term) value :=
      Computation.ends_of_within hvalue
    obtain ⟨least, hleast⟩ := hends.within
    refine ⟨least, fun depth hdepth => ?_⟩
    have heval : term.eval machine.globals depth .empty = .ok value := hleast depth hdepth
    rw [step, heval]
    rfl
  · have hends : Computation.Ends machine.globals (.ofTerm .empty item) value :=
      Computation.ends_of_within hvalue
    obtain ⟨least, hleast⟩ := hends.within
    exact ⟨least, fun depth hdepth => step_of_eval (hleast depth hdepth)⟩

/-! ### Several items -/

/-- **A run does the same within every depth from some depth on.** -/
theorem steps_within (h : machine.steps depth items = .ok machine') :
    ∃ least, ∀ depth, least ≤ depth → machine.steps depth items = .ok machine' := by
  induction items generalizing machine with
  | nil => exact ⟨0, fun _ _ => h⟩
  | cons item rest ih =>
    obtain ⟨middle, hstep, hrest⟩ := ok_of_bind h
    obtain ⟨d₁, h₁⟩ := step_within hstep
    obtain ⟨d₂, h₂⟩ := ih hrest
    refine ⟨max d₁ d₂, fun depth hdepth => ?_⟩
    rw [steps, h₁ depth (by omega)]
    exact h₂ depth (by omega)

/-- Two runs of the same items end in the same machine. -/
theorem steps_unique {depth' : Nat} {other : Machine} (h : machine.steps depth items = .ok machine')
    (h' : machine.steps depth' items = .ok other) : machine' = other := by
  obtain ⟨least, hleast⟩ := steps_within h
  obtain ⟨least', hleast'⟩ := steps_within h'
  have heq := hleast (max least least') (Nat.le_max_left least least')
  rw [hleast' (max least least') (Nat.le_max_right least least')] at heq
  exact (Except.ok.inj heq).symm

theorem steps_append (depth : Nat) (machine : Machine) (items rest : List Term) :
    machine.steps depth (items ++ rest) =
      machine.steps depth items >>= fun middle => middle.steps depth rest := by
  induction items generalizing machine with
  | nil => rfl
  | cons item items ih =>
    rw [List.cons_append, steps, steps, bind_assoc]
    exact congrArg _ (funext fun middle => ih middle)

/-- Definitions leave the last value as it is. -/
theorem last_of_steps {definitions : List (String × Term)}
    (h : machine.steps depth (definitions.map fun entry => .definition entry.1 entry.2) =
      .ok machine') : machine'.last = machine.last := by
  induction definitions generalizing machine with
  | nil =>
    cases h
    rfl
  | cons entry rest ih =>
    obtain ⟨middle, hstep, hrest⟩ := ok_of_bind h
    obtain ⟨value, -, hmiddle⟩ := ok_of_bind hstep
    cases hmiddle
    have hlast := ih hrest
    exact hlast

/-- **The globals solve the definitions.** If the items define distinct names, none of which has a
meaning yet, then the globals in the end extend those at the start, and every defined name means what
the term of its definition ends in with the globals in the end. -/
theorem steps_solve (h : machine.steps depth items = .ok machine')
    (hdistinct : (Program.definedNames ⟨items⟩).Nodup)
    (hfresh : ∀ name ∈ Program.definedNames ⟨items⟩, machine.globals.find? name = none) :
    machine'.globals.Extends machine.globals ∧
      ∀ name term, (name, term) ∈ Program.definitions ⟨items⟩ →
        ∃ value, machine'.globals.find? name = some value ∧
          Computation.Ends machine'.globals (.ofTerm .empty term) value := by
  induction items generalizing machine with
  | nil =>
    cases h
    exact ⟨.refl _, fun _ _ hmem => by cases hmem⟩
  | cons item rest ih =>
    obtain ⟨middle, hstep, hrest⟩ := ok_of_bind h
    rcases step_cases hstep with ⟨name, term, value, rfl, hvalue, rfl⟩ | ⟨hsame, value, -, rfl⟩
    · rw [Program.definedNames_definition, List.nodup_cons] at hdistinct
      rw [Program.definedNames_definition, List.forall_mem_cons] at hfresh
      have hbind := Scope.extends_bind hfresh.1 value
      obtain ⟨hextends, hsolve⟩ := ih hrest hdistinct.2 fun other hother => by
        have hne : name ≠ other := fun heq => hdistinct.1 (heq ▸ hother)
        exact Scope.find?_bind_eq_none.mpr ⟨hne, hfresh.2 other hother⟩
      refine ⟨hextends.trans hbind, fun other found hmem => ?_⟩
      rcases List.mem_cons.mp hmem with heq | hmem
      · -- The value was found with the globals of the time, and still is with those in the end.
        cases heq
        have hends : Computation.Ends machine.globals (.ofTerm .empty term) value :=
          Computation.ends_of_within hvalue
        refine ⟨value, hextends _ _ ?_, hends.extend (hextends.trans hbind)⟩
        rw [Scope.find?, if_pos rfl]
      · exact hsolve other found hmem
    · have hnames : Program.definedNames ⟨item :: rest⟩ = Program.definedNames ⟨rest⟩ :=
        congrArg (List.map Prod.fst) (hsame rest)
      rw [hnames] at hdistinct hfresh
      have hsolve := ih hrest hdistinct hfresh
      rw [hsame]
      exact hsolve

end Machine

namespace Program

/-- **An item behind others** is evaluated with the globals that the others have left. -/
theorem answers_behind {α : Type} {decode : Scope → Nat → Value → Except Halt α} {answer : α}
    {items : List Term} {depth : Nat} {machine : Machine}
    (hrun : Machine.run depth ⟨items⟩ = .ok machine) {term : Term}
    (h : (Computation.ofTerm .empty term).Attains machine.globals fun value =>
      ∃ depth, decode machine.globals depth value = .ok answer) :
    Answers ⟨items ++ [term]⟩ decode answer := by
  obtain ⟨value, hends, hdecode⟩ := h
  obtain ⟨d₁, h₁⟩ := Machine.steps_within hrun
  obtain ⟨d₂, h₂⟩ := hends.within
  refine ⟨max d₁ d₂, { machine with last := some value }, value, ?_, rfl, hdecode⟩
  have heval : term.eval machine.globals (max d₁ d₂) .empty = .ok value := h₂ _ (by omega)
  rw [Machine.run, Machine.steps_append, h₁ _ (by omega)]
  change machine.step (max d₁ d₂) term >>= _ = _
  rw [Machine.step_of_eval heval]
  rfl

/-- Behind items that leave no value of their own, there is an answer if the item attains it, and not
otherwise. -/
theorem answers_behind_iff {α : Type} {decode : Scope → Nat → Value → Except Halt α} {answer : α}
    {items : List Term} {depth : Nat} {machine : Machine}
    (hrun : Machine.run depth ⟨items⟩ = .ok machine) (hlast : machine.last = none) {term : Term} :
    Answers ⟨items ++ [term]⟩ decode answer ↔
      (Computation.ofTerm .empty term).Attains machine.globals fun value =>
        ∃ depth, decode machine.globals depth value = .ok answer := by
  refine ⟨?_, answers_behind hrun⟩
  rintro ⟨_, final, value, hfinal, hvalue, hdecode⟩
  rw [Machine.run, Machine.steps_append] at hfinal
  obtain ⟨_, hitems, hterm⟩ := ok_of_bind hfinal
  obtain rfl := Machine.steps_unique hrun hitems
  obtain ⟨_, hstep, hdone⟩ := ok_of_bind hterm
  cases hdone
  rcases Machine.step_cases hstep with ⟨_, _, _, rfl, -, rfl⟩ | ⟨-, _, heval, rfl⟩
  · -- After a definition there still is no value.
    cases hlast.symm.trans hvalue
  · cases hvalue
    exact ⟨value, Computation.ends_of_within heval, hdecode⟩

/-- **A program has one number for an answer at most.** -/
theorem Answers.toNat_unique {program : Program} {m n : Nat} (hm : program.Answers Value.toNat m)
    (hn : program.Answers Value.toNat n) : m = n := by
  obtain ⟨_, machine, value, hrun, hlast, _, hdecode⟩ := hm
  obtain ⟨_, machine', value', hrun', hlast', _, hdecode'⟩ := hn
  obtain rfl := Machine.steps_unique hrun hrun'
  obtain rfl : value = value' := Option.some.inj (hlast.symm.trans hlast')
  obtain ⟨function, hfirst, hsecond⟩ := Value.yields_of_toNat hdecode
  obtain ⟨function', hfirst', hsecond'⟩ := Value.yields_of_toNat hdecode'
  obtain rfl := hfirst.unique hfirst'
  exact Value.count.inj (hsecond.unique hsecond')

end Program

end ParenLambda
