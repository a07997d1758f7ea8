import ParenLambda.Proofs.Assembly
import ParenLambda.Proofs.Evaluation.Running
import ParenLambda.Proofs.Printing
import ParenLambda.Proofs.Rendering.Sequences

/-!
# The terms of the base library, and what its names mean

The base library is a text. This file gives it as terms (`ParenLambda.BaseLibrary.program`), proves that
the text compiles to them, and says what every name of the library means once they have been evaluated
(`ParenLambda.BaseLibrary.find?_globals`). Nearly all of them are **combinators**, functions that use
nothing but their parameters and the globals; a few are made by calling others.
-/

namespace ParenLambda

namespace Term

/-- A function of several parameters, taken one after the other. -/
def curried (parameters : List String) (body : Term) : Term :=
  parameters.foldr abstraction body

@[simp] theorem curried_nil (body : Term) : curried [] body = body := rfl

@[simp] theorem curried_cons (parameter : String) (parameters : List String) (body : Term) :
    curried (parameter :: parameters) body = abstraction parameter (curried parameters body) := rfl

end Term

/-- The operator, and then its calls at the operands. -/
@[simp] theorem Computation.attains_spine {globals scope : Scope} {property : Value → Prop}
    {operator : Term} {operands : List Term} :
    (ofTerm scope (.spine operator operands)).Attains globals property ↔
      (ofTerm scope operator).Attains globals fun function =>
        (ofCalls scope function operands).Attains globals property := by
  constructor
  · rintro ⟨value, hends, hvalue⟩
    obtain ⟨function, hfunction, hcalls⟩ := ends_spine_iff.mp hends
    exact ⟨function, hfunction, value, hcalls, hvalue⟩
  · rintro ⟨function, hfunction, value, hcalls, hvalue⟩
    exact ⟨value, ends_spine_iff.mpr ⟨function, hfunction, hcalls⟩, hvalue⟩

/-- **A combinator**: a parameter and a body. -/
structure Combinator where
  /-- The parameter. -/
  parameter : String
  /-- The body. -/
  body : Term

namespace Combinator

/-- The combinator as a term. -/
def term (combinator : Combinator) : Term :=
  .abstraction combinator.parameter combinator.body

/-- The function that the combinator becomes in a scope. -/
def within (combinator : Combinator) (scope : Scope) : Value :=
  .closure combinator.parameter combinator.body scope

/-- The function that the combinator becomes by itself. -/
def value (combinator : Combinator) : Value :=
  combinator.within .empty

variable {globals : Scope} {property : Value → Prop}

theorem attains_term (combinator : Combinator) (scope : Scope) :
    (Computation.ofTerm scope combinator.term).Attains globals property ↔
      property (combinator.within scope) :=
  Computation.attains_abstraction

theorem attains_within (combinator : Combinator) (scope : Scope) (argument : Value) :
    (Computation.ofCall (combinator.within scope) argument).Attains globals property ↔
      (Computation.ofTerm (.bind combinator.parameter argument scope) combinator.body).Attains globals
        property :=
  Computation.attains_closure

theorem attains_value (combinator : Combinator) (argument : Value) :
    (Computation.ofCall combinator.value argument).Attains globals property ↔
      (Computation.ofTerm (.bind combinator.parameter argument .empty) combinator.body).Attains
        globals property :=
  combinator.attains_within .empty argument

/-- What a combinator maps is settled by its body. -/
theorem maps_within {given gained : Value → Prop} (combinator : Combinator) (scope : Scope) :
    (combinator.within scope).Maps globals given gained ↔
      ∀ argument, given argument →
        (Computation.ofTerm (.bind combinator.parameter argument scope) combinator.body).Attains
          globals gained :=
  forall₂_congr fun argument _ => combinator.attains_within scope argument

theorem maps_value {given gained : Value → Prop} (combinator : Combinator) :
    combinator.value.Maps globals given gained ↔
      ∀ argument, given argument →
        (Computation.ofTerm (.bind combinator.parameter argument .empty) combinator.body).Attains
          globals gained :=
  combinator.maps_within .empty

end Combinator

namespace BaseLibrary

open Term (spine curried)

section Terms

/-- In the terms of the library a word stands for the name. -/
local instance : Coe String Term := ⟨.atom⟩

/-! ### Numerals and arithmetic -/

def identity : Combinator := ⟨"x", "x"⟩

def successor : Combinator := ⟨"n", curried ["f", "x"] (spine "f" [spine "n" ["f", "x"]])⟩

/-- The step that the predecessor repeats, where `f` is the function whose calls are counted. -/
def suspension : Combinator := ⟨"g", curried ["h"] (spine "h" [spine "g" ["f"]])⟩

def predecessor : Combinator :=
  ⟨"n", curried ["f", "x"] (spine "n" [suspension.term, curried ["_"] "x", curried ["u"] "u"])⟩

/-- The operations that change a number by steps, as many as another number says. -/
def stepwise (step : String) : Combinator := ⟨"m", curried ["n"] (spine "n" [step, "m"])⟩

def plus : Combinator := stepwise "Successor"

def minus : Combinator := stepwise "Predecessor"

def times : Combinator := ⟨"m", curried ["n", "f"] (spine "m" [spine "n" ["f"]])⟩

def power : Combinator := ⟨"x", curried ["y"] (spine "y" ["x"])⟩

def distance : Combinator :=
  ⟨"x", curried ["y"] (spine "T_PLUS" [spine "T_MINUS" ["x", "y"], spine "T_MINUS" ["y", "x"]])⟩

/-! ### Booleans and comparisons -/

def truth : Combinator := ⟨"t", curried ["f"] "t"⟩

def falsehood : Combinator := ⟨"t", curried ["f"] "f"⟩

def conjunction : Combinator := ⟨"p", curried ["q"] (spine "p" ["q", "p"])⟩

def disjunction : Combinator := ⟨"p", curried ["q"] (spine "p" ["p", "q"])⟩

def negation : Combinator := ⟨"c", spine "c" ["T_FALSE", "T_TRUE"]⟩

def conditional : Combinator := ⟨"c", curried ["t", "f"] (spine "c" ["t", "f"])⟩

def isZero : Combinator := ⟨"n", spine "n" [curried ["_"] "T_FALSE", "T_TRUE"]⟩

def atMost : Combinator := ⟨"m", curried ["n"] (spine "Is_Zero" [spine "T_MINUS" ["m", "n"]])⟩

def less : Combinator := ⟨"m", curried ["n"] (spine "T_NOT" [spine "T_IS_L_THAN_EQ" ["n", "m"]])⟩

def equal : Combinator :=
  ⟨"m", curried ["n"]
    (spine "T_AND" [spine "T_IS_L_THAN_EQ" ["m", "n"], spine "T_IS_L_THAN_EQ" ["n", "m"]])⟩

def unequal : Combinator :=
  ⟨"m", curried ["n"]
    (spine "T_OR" [spine "T_NOT" [spine "T_IS_L_THAN_EQ" ["m", "n"]],
      spine "T_NOT" [spine "T_IS_L_THAN_EQ" ["n", "m"]]])⟩

def greater : Combinator := ⟨"m", curried ["n"] (spine "T_NOT" [spine "T_IS_L_THAN_EQ" ["m", "n"]])⟩

def atLeast : Combinator := ⟨"m", curried ["n"] (spine "T_IS_L_THAN_EQ" ["n", "m"])⟩

/-! ### The end of lists, the numerals, choices and the fixed point -/

def null : Combinator := ⟨"x", "T_TRUE"⟩

def zero : Combinator := ⟨"f", "Identity"⟩

/-- The numeral after a named one. -/
def next (numeral : String) : Term := spine "Successor" [numeral]

/-- The half of the fixed point that is applied to itself. -/
def selfApplied : Combinator := ⟨"x", spine "f" [curried ["y"] (spine "x" ["x", "y"])]⟩

def fixedPoint : Combinator := ⟨"f", .sequence [selfApplied.term, selfApplied.term]⟩

/-- A choice between two terms, of which only the chosen one is evaluated: each waits in a function,
and the one that the condition picks is called. -/
def branch (condition whenTrue whenFalse : Term) : Term :=
  spine "T_IF" [condition, curried ["_"] whenTrue, curried ["_"] whenFalse, "T_NULL"]

/-- The definition of a function by recursion, in which it calls itself `f`. -/
def recursive (combinator : Combinator) : Term := spine "Y" [curried ["f"] combinator.term]

/-! ### Pairs and lists -/

def pair : Combinator := ⟨"x", curried ["y", "f"] (spine "f" ["x", "y"])⟩

def left : Combinator := ⟨"p", spine "p" ["T_TRUE"]⟩

def right : Combinator := ⟨"p", spine "p" ["T_FALSE"]⟩

def triple : Combinator := ⟨"x", curried ["y", "z", "f"] (spine "f" ["x", "y", "z"])⟩

def cons : Combinator := ⟨"h", curried ["t"] (spine "Triple" ["h", "t", "T_FALSE"])⟩

def emptyList : Term := spine "Triple" ["BUILTIN___0", "BUILTIN___0", "T_TRUE"]

/-- The operations that hand a list a function of its head, its tail and whether it is the end. -/
def selector (part : String) : Combinator := ⟨"l", spine "l" [curried ["h", "t", "n"] part]⟩

def head : Combinator := selector "h"

def tail : Combinator := selector "t"

def isEmpty : Combinator := selector "n"

def nth : Combinator :=
  ⟨"l", curried ["n"] (branch (spine "Is_Zero" ["n"]) (spine "Head" ["l"])
    (spine "f" [spine "Tail" ["l"], spine "Predecessor" ["n"]]))⟩

def fold : Combinator :=
  ⟨"l", curried ["m", "a"] (branch (spine "Is_Empty" ["l"]) "a"
    (spine "f" [spine "Tail" ["l"], "m", spine "m" ["a", spine "Head" ["l"]]]))⟩

def mapRight : Combinator :=
  ⟨"l", curried ["f"] (spine "Fold" ["l",
    curried ["nl", "m"] (spine "List" [spine "f" ["m"], "nl"]), "EmptyList"])⟩

def reverse : Combinator := ⟨"l", spine "MapRight" ["l", "Identity"]⟩

def map : Combinator := ⟨"l", curried ["f"] (spine "Reverse" [spine "MapRight" ["l", "f"]])⟩

def length : Combinator :=
  ⟨"l", spine "Fold" ["l", curried ["len", "_"] (spine "Successor" ["len"]), "BUILTIN___0"]⟩

def filter : Combinator :=
  ⟨"l", curried ["p"] (spine "Fold" ["l",
    curried ["acc", "m"] (branch (spine "p" ["m"]) (spine "List" ["m", "acc"]) "acc"),
    "EmptyList"])⟩

end Terms

/-! ### The library -/

/-- **The definitions of the library**, in order. -/
def definitions : List (String × Term) := [
  ("Identity", identity.term), ("Successor", successor.term), ("Predecessor", predecessor.term),
  ("T_PLUS", plus.term), ("T_MINUS", minus.term), ("T_MULTIPLICATION", times.term),
  ("Power", power.term), ("Abs_Difference", distance.term), ("T_TRUE", truth.term),
  ("T_FALSE", falsehood.term), ("T_AND", conjunction.term), ("T_OR", disjunction.term),
  ("T_NOT", negation.term), ("T_IF", conditional.term), ("Is_Zero", isZero.term),
  ("T_IS_L_THAN_EQ", atMost.term), ("T_IS_L_THAN", less.term), ("T_EQUAL", equal.term),
  ("T_NOT_EQUAL", unequal.term), ("T_IS_G_THAN", greater.term), ("T_IS_G_THAN_EQ", atLeast.term),
  ("T_NULL", null.term), ("BUILTIN___0", zero.term), ("BUILTIN___1", next "BUILTIN___0"),
  ("BUILTIN___2", next "BUILTIN___1"), ("BUILTIN___3", next "BUILTIN___2"),
  ("BUILTIN___4", next "BUILTIN___3"), ("BUILTIN___5", next "BUILTIN___4"),
  ("BUILTIN___6", next "BUILTIN___5"), ("BUILTIN___7", next "BUILTIN___6"),
  ("BUILTIN___8", next "BUILTIN___7"), ("BUILTIN___9", next "BUILTIN___8"),
  ("BUILTIN___10", next "BUILTIN___9"), ("Y", fixedPoint.term), ("Pair", pair.term),
  ("Left", left.term), ("Right", right.term), ("Triple", triple.term), ("List", cons.term),
  ("EmptyList", emptyList), ("Head", head.term), ("Tail", tail.term), ("Is_Empty", isEmpty.term),
  ("Nth", recursive nth), ("Fold", recursive fold), ("MapRight", mapRight.term),
  ("Reverse", reverse.term), ("Map", map.term), ("Length", length.term), ("Filter", filter.term)]

/-- **The program of the library.** -/
def program : Program :=
  ⟨definitions.map fun entry => .definition entry.1 entry.2⟩

theorem isRegular_program : program.isRegular := by
  decide

/-- **The text of the library compiles to its program.** -/
theorem compile_text : Program.compile text = .ok program := by
  have hchars : ∃ chars, text.toList = chars ∧
      ((Fragment.scan chars).map Fragment.lexeme).map Lexeme.token =
        Form.flattenAll (Term.toForms program.body) := by
    apply Exists.intro
    constructor
    · unfold text
      repeat apply Text.toList_ofLines_cons String.toList_ofList
      exact Text.toList_ofLines_nil
    · decide +kernel
  obtain ⟨chars, htext, htokens⟩ := hchars
  refine Program.compile_of_tokens isRegular_program ?_
  rw [Token.scan, htext, htokens]

/-! ### What the names mean -/

/-- **What the names of the library mean**, once its definitions have been evaluated. -/
def globals : Scope :=
  ((Machine.run 12 program).toOption.map Machine.globals).getD .empty

theorem exists_run : ∃ machine, Machine.run 12 program = .ok machine ∧ machine.globals = globals := by
  have hok : (Machine.run 12 program).isOk := by decide +kernel
  unfold globals
  cases hrun : Machine.run 12 program with
  | error halt =>
    rw [hrun] at hok
    cases hok
  | ok machine => exact ⟨machine, rfl, rfl⟩

theorem nodup_definedNames : program.definedNames.Nodup := by
  decide +kernel

/-- A name of the library means what its definition ends in. -/
theorem attains_definition {name : String} {term : Term} (h : (name, term) ∈ definitions) :
    (Computation.ofTerm .empty term).Attains globals fun value =>
      globals.find? name = some value := by
  obtain ⟨machine, hrun, hglobals⟩ := exists_run
  have hsolve := (Machine.steps_solve hrun nodup_definedNames fun _ _ => rfl).2 name term h
  rw [hglobals] at hsolve
  obtain ⟨value, hfind, hends⟩ := hsolve
  exact ⟨value, hends, hfind⟩

theorem find?_combinator {name : String} {combinator : Combinator}
    (h : (name, combinator.term) ∈ definitions) : globals.find? name = some combinator.value :=
  (combinator.attains_term .empty).mp (attains_definition h)

/-- **What the names of the combinators mean.** -/
@[simp] theorem find?_globals :
    globals.find? "Identity" = some identity.value ∧
    globals.find? "Successor" = some successor.value ∧
    globals.find? "Predecessor" = some predecessor.value ∧
    globals.find? "T_PLUS" = some plus.value ∧
    globals.find? "T_MINUS" = some minus.value ∧
    globals.find? "T_MULTIPLICATION" = some times.value ∧
    globals.find? "Power" = some power.value ∧
    globals.find? "Abs_Difference" = some distance.value ∧
    globals.find? "T_TRUE" = some truth.value ∧
    globals.find? "T_FALSE" = some falsehood.value ∧
    globals.find? "T_AND" = some conjunction.value ∧
    globals.find? "T_OR" = some disjunction.value ∧
    globals.find? "T_NOT" = some negation.value ∧
    globals.find? "T_IF" = some conditional.value ∧
    globals.find? "Is_Zero" = some isZero.value ∧
    globals.find? "T_IS_L_THAN_EQ" = some atMost.value ∧
    globals.find? "T_IS_L_THAN" = some less.value ∧
    globals.find? "T_EQUAL" = some equal.value ∧
    globals.find? "T_NOT_EQUAL" = some unequal.value ∧
    globals.find? "T_IS_G_THAN" = some greater.value ∧
    globals.find? "T_IS_G_THAN_EQ" = some atLeast.value ∧
    globals.find? "T_NULL" = some null.value ∧
    globals.find? "BUILTIN___0" = some zero.value ∧
    globals.find? "Y" = some fixedPoint.value ∧
    globals.find? "Pair" = some pair.value ∧
    globals.find? "Left" = some left.value ∧
    globals.find? "Right" = some right.value ∧
    globals.find? "Triple" = some triple.value ∧
    globals.find? "List" = some cons.value ∧
    globals.find? "Head" = some head.value ∧
    globals.find? "Tail" = some tail.value ∧
    globals.find? "Is_Empty" = some isEmpty.value ∧
    globals.find? "MapRight" = some mapRight.value ∧
    globals.find? "Reverse" = some reverse.value ∧
    globals.find? "Map" = some map.value ∧
    globals.find? "Length" = some length.value ∧
    globals.find? "Filter" = some filter.value := by
  and_intros <;> exact find?_combinator (by simp [definitions])

end BaseLibrary

end ParenLambda
