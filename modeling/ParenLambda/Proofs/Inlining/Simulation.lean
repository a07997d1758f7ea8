import ParenLambda.Proofs.Evaluation.Derivation
import ParenLambda.Proofs.Inlining.Expansion

/-!
# Inlining preserves evaluation

A program evaluates each of its definitions once and finds the value in the globals; the program
without its definitions evaluates a copy of the definition's tree at every use, in whatever scope
the use stands. The two runs meet the same functions, but with different bodies and different scopes.

What relates them is `ParenLambda.Value.Inlined`: the body of a function on the inlined side is the
tree of the body on the other, where the parameters in scope are left alone. The scope on the inlined
side has the same bindings on top, with related values, and **anything at all below them**: a
definition is evaluated in the empty scope and its copy in the scope of the use. Nothing below is
ever looked up, since a name that is not in scope on the one side has been replaced on the other.

The globals are tied to the record by `ParenLambda.Scope.Recorded`: every name with a global value is
recorded with a tree that evaluates to a related value in every scope. Evaluation follows by one
induction over derivations (`ParenLambda.Computation.Ends.inlined`), and a run of a program keeps
the tie from item to item (`ParenLambda.Machine.steps_inlineItems`).
-/

namespace ParenLambda

/-! ### Related values, scopes and computations -/

/-- The names that a scope gives a meaning, latest first. -/
def Scope.names : Scope → List String
  | .empty => []
  | .bind name _ outer => name :: outer.names

mutual

/-- **Related values**: the same value, but for the bodies of functions, which are inlined. -/
inductive Value.Inlined (expansions : Expansions) : Value → Value → Prop
  /-- A function is related to the one with the tree of its body. -/
  | closure {parameter : String} {body : Term} {scope scope' : Scope} :
    Scope.Inlined expansions scope scope' →
      Value.Inlined expansions (.closure parameter body scope)
        (.closure parameter (body.inline expansions (parameter :: scope.names)) scope')
  /-- The counting function is related to itself. -/
  | counter : Value.Inlined expansions .counter .counter
  /-- A count is related to itself. -/
  | count (n : Nat) : Value.Inlined expansions (.count n) (.count n)
  /-- A mark is related to itself. -/
  | mark (truth : Bool) : Value.Inlined expansions (.mark truth) (.mark truth)

/-- **Related scopes**: the bindings of the first stand on top of the second, with related values. -/
inductive Scope.Inlined (expansions : Expansions) : Scope → Scope → Prop
  /-- Below the bindings of the first scope the second may hold anything. -/
  | empty (outer : Scope) : Scope.Inlined expansions .empty outer
  /-- One more binding of related values. -/
  | bind {name : String} {value value' : Value} {scope scope' : Scope} :
    Value.Inlined expansions value value' → Scope.Inlined expansions scope scope' →
      Scope.Inlined expansions (.bind name value scope) (.bind name value' scope')

end

/-- **Related computations**: related values in related scopes, and the trees of the terms. -/
inductive Computation.Inlined (expansions : Expansions) : Computation → Computation → Prop
  /-- A term and its tree. -/
  | ofTerm {scope scope' : Scope} (term : Term) :
    Scope.Inlined expansions scope scope' →
      Computation.Inlined expansions (.ofTerm scope term)
        (.ofTerm scope' (term.inline expansions scope.names))
  /-- Two calls. -/
  | ofCall {function function' argument argument' : Value} :
    Value.Inlined expansions function function' → Value.Inlined expansions argument argument' →
      Computation.Inlined expansions (.ofCall function argument) (.ofCall function' argument')
  /-- Terms to be applied to and their trees. -/
  | ofCalls {scope scope' : Scope} {function function' : Value} (terms : List Term) :
    Scope.Inlined expansions scope scope' → Value.Inlined expansions function function' →
      Computation.Inlined expansions (.ofCalls scope function terms)
        (.ofCalls scope' function' (Term.inlineAll expansions scope.names terms))

namespace Scope

variable {expansions : Expansions}

theorem mem_names_of_find? {name : String} : ∀ {scope : Scope} {value : Value},
    scope.find? name = some value → name ∈ scope.names
  | .empty, _, h => by simp [find?] at h
  | .bind bound _ outer, _, h => by
    rcases find?_bind_eq_some.mp h with ⟨rfl, -⟩ | ⟨-, h⟩
    · exact List.mem_cons_self
    · exact List.mem_cons_of_mem _ (mem_names_of_find? h)

theorem not_mem_names_of_find? {name : String} : ∀ {scope : Scope},
    scope.find? name = none → name ∉ scope.names
  | .empty, _ => by simp [names]
  | .bind bound _ outer, h => by
    obtain ⟨hname, h⟩ := find?_bind_eq_none.mp h
    rw [names, List.mem_cons, not_or]
    exact ⟨fun heq => hname heq.symm, not_mem_names_of_find? h⟩

/-- A name in scope means related values in related scopes. -/
theorem Inlined.find? {name : String} : ∀ {scope scope' : Scope} {value : Value},
    Scope.Inlined expansions scope scope' → scope.find? name = some value →
      ∃ value', scope'.find? name = some value' ∧ Value.Inlined expansions value value'
  | .empty, _, _, _, h => by simp [Scope.find?] at h
  | .bind bound _ outer, _, _, .bind hvalue hscope, h => by
    rcases find?_bind_eq_some.mp h with ⟨hname, rfl⟩ | ⟨hname, h⟩
    · exact ⟨_, find?_bind_eq_some.mpr (.inl ⟨hname, rfl⟩), hvalue⟩
    · obtain ⟨value', hfind, hrelated⟩ := hscope.find? h
      exact ⟨value', find?_bind_eq_some.mpr (.inr ⟨hname, hfind⟩), hrelated⟩

/-- **The globals are recorded**: every name with a global value has a tree, and in every scope that
tree evaluates, without any globals, to a related value. -/
def Recorded (expansions : Expansions) (globals : Scope) : Prop :=
  ∀ name value, globals.find? name = some value →
    ∃ tree, expansions.lookup name = some tree ∧
      ∀ scope, ∃ value', Computation.Ends .empty (.ofTerm scope tree) value' ∧
        Value.Inlined expansions value value'

end Scope

/-! ### One derivation -/

/-- **Related computations end in related values**, with the recorded globals on the one side and no
globals on the other. -/
theorem Computation.Ends.inlined {expansions : Expansions} {globals : Scope}
    (hglobals : globals.Recorded expansions) {computation : Computation} {value : Value}
    (h : computation.Ends globals value) {computation' : Computation}
    (hrelated : computation.Inlined expansions computation') :
    ∃ value', computation'.Ends .empty value' ∧ value.Inlined expansions value' := by
  induction h generalizing computation' with
  | @bound scope name value hlocal =>
    obtain ⟨_, hscope⟩ := hrelated
    obtain ⟨value', hlocal', hvalue⟩ := hscope.find? hlocal
    have hmem : name ∈ scope.names := Scope.mem_names_of_find? hlocal
    refine ⟨value', ?_, hvalue⟩
    rw [Term.inline, if_pos (by simpa using hmem)]
    exact .bound hlocal'
  | @global scope name value hlocal hglobal =>
    obtain ⟨_, hscope⟩ := hrelated
    obtain ⟨tree, htree, hends⟩ := hglobals name value hglobal
    have hmem : name ∉ scope.names := Scope.not_mem_names_of_find? hlocal
    -- The copy of the tree is evaluated here, in a scope that the definition never saw.
    rw [Term.inline, if_neg (by simpa using hmem), htree]
    exact hends _
  | abstraction =>
    obtain ⟨_, hscope⟩ := hrelated
    rw [Term.inline]
    exact ⟨_, .abstraction, .closure hscope⟩
  | application _ _ _ ihFunction ihArgument ihCall =>
    obtain ⟨_, hscope⟩ := hrelated
    obtain ⟨function', hfunction', hfunction⟩ := ihFunction (.ofTerm _ hscope)
    obtain ⟨argument', hargument', hargument⟩ := ihArgument (.ofTerm _ hscope)
    obtain ⟨value', hcall', hvalue⟩ := ihCall (.ofCall hfunction hargument)
    rw [Term.inline]
    exact ⟨value', .application hfunction' hargument' hcall', hvalue⟩
  | sequence _ _ ihFunction ihCalls =>
    obtain ⟨_, hscope⟩ := hrelated
    obtain ⟨function', hfunction', hfunction⟩ := ihFunction (.ofTerm _ hscope)
    obtain ⟨value', hcalls', hvalue⟩ := ihCalls (.ofCalls _ hscope hfunction)
    rw [Term.inline, Term.inlineAll]
    exact ⟨value', .sequence hfunction' hcalls', hvalue⟩
  | closure _ ih =>
    obtain ⟨⟩ | ⟨hfunction, hargument⟩ := hrelated
    obtain ⟨hscope⟩ := hfunction
    obtain ⟨value', hbody', hvalue⟩ := ih (.ofTerm _ (.bind hargument hscope))
    exact ⟨value', .closure hbody', hvalue⟩
  | @counter n =>
    obtain ⟨⟩ | ⟨hfunction, hargument⟩ := hrelated
    cases hfunction
    cases hargument
    exact ⟨_, .counter, .count (n + 1)⟩
  | done =>
    obtain ⟨⟩ | ⟨⟩ | ⟨_, _, hfunction⟩ := hrelated
    rw [Term.inlineAll]
    exact ⟨_, .done, hfunction⟩
  | next _ _ _ ihArgument ihResult ihCalls =>
    obtain ⟨⟩ | ⟨⟩ | ⟨_, hscope, hfunction⟩ := hrelated
    obtain ⟨argument', hargument', hargument⟩ := ihArgument (.ofTerm _ hscope)
    obtain ⟨result', hresult', hresult⟩ := ihResult (.ofCall hfunction hargument)
    obtain ⟨value', hcalls', hvalue⟩ := ihCalls (.ofCalls _ hscope hresult)
    rw [Term.inlineAll]
    exact ⟨value', .next hargument' hresult' hcalls', hvalue⟩

/-- Related functions give related results at the same two probes of a decoding. -/
theorem Value.Yields.inlined {expansions : Expansions} {globals : Scope}
    (hglobals : globals.Recorded expansions) {value value' first second result : Value}
    (hvalue : value.Inlined expansions value') (hfirst : first.Inlined expansions first)
    (hsecond : second.Inlined expansions second) (h : value.Yields globals first second result) :
    ∃ result', value'.Yields .empty first second result' ∧ result.Inlined expansions result' := by
  obtain ⟨function, hcall, hresult⟩ := h
  obtain ⟨function', hcall', hfunction⟩ := hcall.inlined hglobals (.ofCall hvalue hfirst)
  obtain ⟨result', hresult', hrelated⟩ := hresult.inlined hglobals (.ofCall hfunction hsecond)
  exact ⟨result', ⟨function', hcall', hresult'⟩, hrelated⟩

/-- A recorded definition may join the globals: its tree, put into any scope, evaluates to a value
related to the one found for it. -/
theorem Scope.Recorded.bind {expansions : Expansions} {globals : Scope} {name : String} {value : Term}
    {result : Value} (hglobals : globals.Recorded expansions)
    (htree : expansions.lookup name = some (value.inline expansions []))
    (hends : Computation.Ends globals (.ofTerm .empty value) result) :
    (Scope.bind name result globals).Recorded expansions := by
  intro used found hfound
  by_cases hused : name = used
  · rw [Scope.find?, if_pos hused, Option.some.injEq] at hfound
    subst hused hfound
    exact ⟨_, htree, fun scope => hends.inlined hglobals (.ofTerm value (.empty scope))⟩
  · rw [Scope.find?, if_neg hused] at hfound
    exact hglobals used found hfound

/-! ### A whole run -/

namespace Machine

/-- An item that evaluates is no definition, and its value becomes the last one. -/
theorem step_of_eval {depth : Nat} {machine : Machine} {item : Term} {value : Value}
    (h : item.eval machine.globals depth .empty = .ok value) :
    machine.step depth item = .ok { machine with last := some value } := by
  cases item with
  | definition name term => cases depth <;> simp [Term.eval] at h
  | _ =>
    simp only [step, h]
    rfl

/-- Evaluating an expression as an item sets the last value and nothing else. -/
theorem eval_of_step {depth : Nat} {machine machine' : Machine} {item : Term}
    (hitem : item.isExpression) (h : machine.step depth item = .ok machine') :
    ∃ value, item.eval machine.globals depth .empty = .ok value ∧
      machine' = { machine with last := some value } := by
  cases item with
  | definition name term => simp [Term.isExpression] at hitem
  | _ =>
    obtain ⟨value, hvalue, h⟩ := ok_of_bind h
    cases h
    exact ⟨value, hvalue, rfl⟩

/-- The machine's last value, if it has one, is related to another one. -/
def LastInlined (expansions : Expansions) (machine : Machine) (last : Option Value) : Prop :=
  ∀ value, machine.last = some value →
    ∃ value', last = some value' ∧ value.Inlined expansions value'

/-- **A run and the run of the inlined items stay related.** The record that relates them is the final
one: a name that an item uses is defined before the item and not again after it, so the record says
the same of it from there on. -/
theorem steps_inlineItems {items : List Term} {defined : List String} {expansions : Expansions}
    (hscoped : Program.scopedFrom defined items) (hdistinct : (Program.definedNames ⟨items⟩).Nodup)
    (hfresh : ∀ name ∈ defined, name ∉ Program.definedNames ⟨items⟩)
    {final : Expansions} (hfinal : (Program.inlineItems items expansions).2 = final)
    {depth : Nat} {machine machine' : Machine} (hrun : machine.steps depth items = .ok machine')
    (hglobals : machine.globals.Recorded final) {last : Option Value}
    (hlast : machine.LastInlined final last) :
    ∃ last', (∃ least, ∀ depth, least ≤ depth →
        (⟨.empty, last⟩ : Machine).steps depth (Program.inlineItems items expansions).1 =
          .ok ⟨.empty, last'⟩) ∧
      machine'.globals.Recorded final ∧ machine'.LastInlined final last' := by
  induction items generalizing defined expansions machine last with
  | nil =>
    cases hrun
    exact ⟨last, ⟨0, fun _ _ => rfl⟩, hglobals, hlast⟩
  | cons item rest ih =>
    obtain ⟨middle, hstep, hrest⟩ := ok_of_bind hrun
    -- What the record says of the names in use is what it says in the end.
    have hkept : ∀ used ∈ defined, expansions.lookup used = final.lookup used := by
      intro used hused
      rw [← hfinal, Program.lookup_inlineItems hscoped (hfresh used hused)]
    rcases Program.scopedFrom_cons hscoped with
      ⟨name, value, rfl, hvalue, hfree, hscoped'⟩ | ⟨hitem, hfree, hscoped'⟩
    · rw [Program.definedNames_definition] at hdistinct hfresh
      rw [Program.inlineItems_definition hvalue] at hfinal ⊢
      obtain ⟨result, hresult, hmiddle⟩ := ok_of_bind hstep
      cases hmiddle
      have hname : name ∉ Program.definedNames ⟨rest⟩ := (List.nodup_cons.mp hdistinct).1
      have htree : value.inline expansions [] = value.inline final [] :=
        Term.inline_congr value fun used hused _ => hkept used (hfree used hused)
      have hlookup : final.lookup name = some (value.inline final []) := by
        rw [← hfinal, Program.lookup_inlineItems hscoped' hname, List.lookup_cons_self, hfinal, htree]
      refine ih hscoped' (List.nodup_cons.mp hdistinct).2 ?_ hfinal hrest ?_ hlast
      · intro used hused
        rcases List.mem_cons.mp hused with rfl | hused
        · exact hname
        · exact fun hmem => hfresh used hused (List.mem_cons_of_mem _ hmem)
      · exact hglobals.bind hlookup (Computation.ends_of_within hresult)
    · rw [Program.definedNames_of_isExpression hitem] at hdistinct hfresh
      rw [Program.inlineItems_of_isExpression hitem] at hfinal ⊢
      obtain ⟨value, hvalue, rfl⟩ := eval_of_step hitem hstep
      have htree : item.inline expansions [] = item.inline final [] :=
        Term.inline_congr item fun used hused _ => hkept used (hfree used hused)
      have hends : Computation.Ends machine.globals (.ofTerm .empty item) value :=
        Computation.ends_of_within hvalue
      obtain ⟨value', hends', hrelated⟩ := hends.inlined hglobals (.ofTerm item (.empty .empty))
      obtain ⟨d₁, h₁⟩ := hends'.within
      have hlast : LastInlined final { machine with last := some value } (some value') := by
        rintro _ ⟨⟩
        exact ⟨value', rfl, hrelated⟩
      obtain ⟨last', ⟨d₂, h₂⟩, hglobals', hlast'⟩ :=
        ih hscoped' hdistinct hfresh hfinal hrest hglobals hlast
      refine ⟨last', ⟨max d₁ d₂, fun depth hdepth => ?_⟩, hglobals', hlast'⟩
      have hstep' : (⟨.empty, last⟩ : Machine).step depth (item.inline expansions []) =
          .ok ⟨.empty, some value'⟩ := by
        rw [htree]
        exact step_of_eval (h₁ depth (by omega))
      rw [steps, hstep']
      exact h₂ depth (by omega)

end Machine

namespace Program

/-- A program and its inlined form end with related values, if the program ends with one. -/
theorem run_inlined {program : Program} (hscoped : program.isScoped)
    (hdistinct : program.definedNames.Nodup) {depth : Nat} {machine : Machine} {value : Value}
    (hrun : Machine.run depth program = .ok machine) (hlast : machine.last = some value) :
    ∃ expansions depth value', Machine.run depth program.inlined = .ok ⟨.empty, some value'⟩ ∧
      machine.globals.Recorded expansions ∧ value.Inlined expansions value' := by
  have hglobals : Machine.start.globals.Recorded (inlineItems program.body []).2 := by
    intro name value hfind
    simp [Machine.start, Scope.find?] at hfind
  have hnone : Machine.start.LastInlined (inlineItems program.body []).2 none := by
    intro value hvalue
    simp [Machine.start] at hvalue
  obtain ⟨last, ⟨least, hleast⟩, hrecorded, hrelated⟩ :=
    Machine.steps_inlineItems hscoped hdistinct (by simp) rfl hrun hglobals hnone
  obtain ⟨value', rfl, hvalue⟩ := hrelated value hlast
  exact ⟨_, least, value', hleast least (Nat.le_refl least), hrecorded, hvalue⟩

/-- **Inlining preserves evaluation.** Take a program whose definitions stand at the top under
distinct names, where every free name of an item is defined before the item. If it ends with a value
that decodes to a number, so does the program without its definitions, and to the same number; and
likewise for booleans. -/
theorem inlined_answers (program : Program) (hscoped : program.isScoped)
    (hdistinct : program.definedNames.Nodup) :
    (∀ n, program.Answers Value.toNat n → program.inlined.Answers Value.toNat n) ∧
    (∀ truth, program.Answers Value.toBool truth → program.inlined.Answers Value.toBool truth) := by
  constructor
  · rintro n ⟨depth, machine, value, hrun, hlast, depth', hn⟩
    obtain ⟨expansions, depth, value', hrun', hglobals, hvalue⟩ :=
      run_inlined hscoped hdistinct hrun hlast
    obtain ⟨result, hyields, hresult⟩ :=
      (Value.yields_of_toNat hn).inlined hglobals hvalue .counter (.count 0)
    cases hresult
    exact ⟨depth, _, value', hrun', rfl, Value.toNat_of_yields hyields⟩
  · rintro truth ⟨depth, machine, value, hrun, hlast, depth', htruth⟩
    obtain ⟨expansions, depth, value', hrun', hglobals, hvalue⟩ :=
      run_inlined hscoped hdistinct hrun hlast
    obtain ⟨result, hyields, hresult⟩ :=
      (Value.yields_of_toBool htruth).inlined hglobals hvalue (.mark true) (.mark false)
    cases hresult
    exact ⟨depth, _, value', hrun', rfl, Value.toBool_of_yields hyields⟩

/-- The successor of two, where the parameter `n` of the function that is applied is also a parameter
inside the definition whose tree is copied under it. -/
def threeBySuccessor : Program where
  body := [
    .definition "one" (.abstraction "f" (.abstraction "x" (.application (.atom "f") (.atom "x")))),
    .definition "next" (.abstraction "n" (.abstraction "f" (.abstraction "x"
      (.application (.atom "f")
        (.application (.application (.atom "n") (.atom "f")) (.atom "x")))))),
    .definition "two" (.application (.atom "next") (.atom "one")),
    .sequence [.abstraction "n" (.application (.atom "next") (.atom "n")), .atom "two"]]

theorem inlined_answers_threeBySuccessor :
    threeBySuccessor.isScoped ∧ threeBySuccessor.definedNames.Nodup ∧
      threeBySuccessor.Answers Value.toNat 3 ∧ threeBySuccessor.inlined.Answers Value.toNat 3 := by
  have hscoped : threeBySuccessor.isScoped := by decide
  have hdistinct : threeBySuccessor.definedNames.Nodup := by decide
  have hthree : threeBySuccessor.Answers Value.toNat 3 := ⟨20, _, _, rfl, rfl, 20, rfl⟩
  exact ⟨hscoped, hdistinct, hthree,
    (inlined_answers threeBySuccessor hscoped hdistinct).1 3 hthree⟩

end Program

end ParenLambda
