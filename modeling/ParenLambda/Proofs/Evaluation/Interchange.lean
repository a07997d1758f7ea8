import ParenLambda.Proofs.Evaluation.Running

/-!
# Functions that do the same may be put for each other

Two functions can do the same at every argument and still be different values: one may only be a detour
to the other. No program can tell them apart. What makes this more than a remark is that a program need
not call a function at once. It may hand it on, keep it in the scope of other functions, or give it back
as its result, and so the two functions turn up all over the values of two runs.

Two values are `ParenLambda.Value.Exchanged` if they are the same but for one function that stands
anywhere in the first, any number of times, and for another in its place in the second. Evaluation leads
from such values to such values (`ParenLambda.Computation.Ends.exchange`), by one induction over
derivations. The case to look at is a call of the one function itself: its body is followed **in the
same scope**, at the argument of the second run, and only the value in the end is carried over to the
other function.

In the end a count is compared with a count, and so the function that is exchanged must not be a count
itself. The values of programs never are: they are `ParenLambda.Value.Genuine`.
-/

namespace ParenLambda

/-! ### Genuine values -/

mutual

/-- **A genuine value**: a function that closes over genuine values. Counts and marks are not: they come
in only with decoding. -/
inductive Value.Genuine : Value → Prop
  /-- A function in a genuine scope. -/
  | closure {parameter : String} {body : Term} {scope : Scope} :
    scope.Genuine → Value.Genuine (.closure parameter body scope)

/-- **A genuine scope**: all its names mean genuine values. -/
inductive Scope.Genuine : Scope → Prop
  /-- There are no names. -/
  | empty : Scope.Genuine .empty
  /-- One more name means a genuine value. -/
  | bind {name : String} {value : Value} {outer : Scope} :
    value.Genuine → outer.Genuine → Scope.Genuine (.bind name value outer)

end

/-- **A genuine computation** starts from genuine values. -/
inductive Computation.Genuine : Computation → Prop
  /-- A term in a genuine scope. -/
  | ofTerm {scope : Scope} {term : Term} : scope.Genuine → Computation.Genuine (.ofTerm scope term)
  /-- A call. -/
  | ofCall {function argument : Value} :
    function.Genuine → argument.Genuine → Computation.Genuine (.ofCall function argument)
  /-- Calls at several terms. -/
  | ofCalls {scope : Scope} {function : Value} {terms : List Term} :
    scope.Genuine → function.Genuine → Computation.Genuine (.ofCalls scope function terms)

theorem Scope.Genuine.find? {name : String} {value : Value} : ∀ {scope : Scope},
    scope.Genuine → scope.find? name = some value → value.Genuine
  | .empty, _, h => by simp [Scope.find?] at h
  | .bind bound found outer, hscope, h => by
    obtain ⟨⟩ | ⟨hfound, houter⟩ := hscope
    rcases find?_bind_eq_some.mp h with ⟨-, rfl⟩ | ⟨-, h⟩
    · exact hfound
    · exact houter.find? h

/-- **Genuine computations end in genuine values.** -/
theorem Computation.Ends.genuine {globals : Scope} (hglobals : globals.Genuine)
    {computation : Computation} {value : Value} (h : computation.Ends globals value)
    (hcomputation : computation.Genuine) : value.Genuine := by
  induction h with
  | bound hlocal =>
    obtain ⟨hscope⟩ := hcomputation
    exact hscope.find? hlocal
  | global _ hglobal => exact hglobals.find? hglobal
  | abstraction =>
    obtain ⟨hscope⟩ := hcomputation
    exact .closure hscope
  | application _ _ _ ihFunction ihArgument ihCall =>
    obtain ⟨hscope⟩ := hcomputation
    exact ihCall (.ofCall (ihFunction (.ofTerm hscope)) (ihArgument (.ofTerm hscope)))
  | sequence _ _ ihFunction ihCalls =>
    obtain ⟨hscope⟩ := hcomputation
    exact ihCalls (.ofCalls hscope (ihFunction (.ofTerm hscope)))
  | closure _ ih =>
    obtain ⟨⟩ | ⟨⟨hscope⟩, hargument⟩ := hcomputation
    exact ih (.ofTerm (.bind hargument hscope))
  | counter =>
    obtain ⟨⟩ | ⟨hcounter, -⟩ := hcomputation
    cases hcounter
  | done =>
    obtain ⟨⟩ | ⟨⟩ | ⟨-, hfunction⟩ := hcomputation
    exact hfunction
  | next _ _ _ ihArgument ihResult ihCalls =>
    obtain ⟨⟩ | ⟨⟩ | ⟨hscope, hfunction⟩ := hcomputation
    exact ihCalls (.ofCalls hscope (ihResult (.ofCall hfunction (ihArgument (.ofTerm hscope)))))

/-- **The globals of a program are genuine**, whatever items have been evaluated. -/
theorem Machine.genuine_of_steps {depth : Nat} {machine machine' : Machine} {items : List Term}
    (h : machine.steps depth items = .ok machine') (hglobals : machine.globals.Genuine) :
    machine'.globals.Genuine := by
  induction items generalizing machine with
  | nil =>
    cases h
    exact hglobals
  | cons item rest ih =>
    obtain ⟨middle, hstep, hrest⟩ := ok_of_bind h
    refine ih hrest ?_
    rcases step_cases hstep with ⟨name, term, value, rfl, hvalue, rfl⟩ | ⟨-, value, -, rfl⟩
    · have hends : Computation.Ends machine.globals (.ofTerm .empty term) value :=
        Computation.ends_of_within hvalue
      exact .bind (hends.genuine hglobals (.ofTerm .empty)) hglobals
    · exact hglobals

/-! ### Values with one function exchanged -/

mutual

/-- **Values with one function exchanged**: the same value, but where the old function stands in the
first there may stand the new one in the second. -/
inductive Value.Exchanged (old new : Value) : Value → Value → Prop
  /-- The function itself. -/
  | here : Value.Exchanged old new old new
  /-- The same function in scopes with the function exchanged. -/
  | closure {parameter : String} {body : Term} {scope scope' : Scope} :
    Scope.Exchanged old new scope scope' →
      Value.Exchanged old new (.closure parameter body scope) (.closure parameter body scope')
  /-- The counting function. -/
  | counter : Value.Exchanged old new .counter .counter
  /-- A count. -/
  | count (n : Nat) : Value.Exchanged old new (.count n) (.count n)
  /-- A mark. -/
  | mark (truth : Bool) : Value.Exchanged old new (.mark truth) (.mark truth)

/-- **Scopes with one function exchanged**, in the values of the names. -/
inductive Scope.Exchanged (old new : Value) : Scope → Scope → Prop
  /-- There are no names. -/
  | empty : Scope.Exchanged old new .empty .empty
  /-- One more name. -/
  | bind {name : String} {value value' : Value} {outer outer' : Scope} :
    Value.Exchanged old new value value' → Scope.Exchanged old new outer outer' →
      Scope.Exchanged old new (.bind name value outer) (.bind name value' outer')

end

/-- **Computations with one function exchanged**, in the values they start from. -/
inductive Computation.Exchanged (old new : Value) : Computation → Computation → Prop
  /-- The same term. -/
  | ofTerm {scope scope' : Scope} (term : Term) :
    Scope.Exchanged old new scope scope' →
      Computation.Exchanged old new (.ofTerm scope term) (.ofTerm scope' term)
  /-- Two calls. -/
  | ofCall {function function' argument argument' : Value} :
    Value.Exchanged old new function function' → Value.Exchanged old new argument argument' →
      Computation.Exchanged old new (.ofCall function argument) (.ofCall function' argument')
  /-- Calls at the same terms. -/
  | ofCalls {scope scope' : Scope} {function function' : Value} (terms : List Term) :
    Scope.Exchanged old new scope scope' → Value.Exchanged old new function function' →
      Computation.Exchanged old new (.ofCalls scope function terms) (.ofCalls scope' function' terms)

section Exchange

variable {old new : Value}

mutual

theorem Value.Exchanged.refl : ∀ value : Value, Value.Exchanged old new value value
  | .closure _ _ scope => .closure (Scope.Exchanged.refl scope)
  | .counter => .counter
  | .count n => .count n
  | .mark truth => .mark truth

theorem Scope.Exchanged.refl : ∀ scope : Scope, Scope.Exchanged old new scope scope
  | .empty => .empty
  | .bind _ value outer => .bind (Value.Exchanged.refl value) (Scope.Exchanged.refl outer)

end

mutual

theorem Value.Exchanged.symm : ∀ {value value' : Value},
    Value.Exchanged old new value value' → Value.Exchanged new old value' value
  | _, _, .here => .here
  | _, _, .closure hscope => .closure hscope.symm
  | _, _, .counter => .counter
  | _, _, .count n => .count n
  | _, _, .mark truth => .mark truth

theorem Scope.Exchanged.symm : ∀ {scope scope' : Scope},
    Scope.Exchanged old new scope scope' → Scope.Exchanged new old scope' scope
  | _, _, .empty => .empty
  | _, _, .bind hvalue houter => .bind hvalue.symm houter.symm

end

theorem Scope.Exchanged.find?_eq_none {name : String} : ∀ {scope scope' : Scope},
    Scope.Exchanged old new scope scope' → scope.find? name = none → scope'.find? name = none
  | .empty, _, hscope, _ => by
    cases hscope
    rfl
  | .bind bound _ _, _, hscope, h => by
    obtain ⟨⟩ | ⟨-, houter⟩ := hscope
    obtain ⟨hname, h⟩ := find?_bind_eq_none.mp h
    exact find?_bind_eq_none.mpr ⟨hname, houter.find?_eq_none h⟩

theorem Scope.Exchanged.find? {name : String} {value : Value} : ∀ {scope scope' : Scope},
    Scope.Exchanged old new scope scope' → scope.find? name = some value →
      ∃ value', scope'.find? name = some value' ∧ Value.Exchanged old new value value'
  | .empty, _, _, h => by simp [Scope.find?] at h
  | .bind bound _ _, _, hscope, h => by
    obtain ⟨⟩ | ⟨hvalue, houter⟩ := hscope
    rcases find?_bind_eq_some.mp h with ⟨hname, rfl⟩ | ⟨hname, h⟩
    · exact ⟨_, find?_bind_eq_some.mpr (.inl ⟨hname, rfl⟩), hvalue⟩
    · obtain ⟨value', hfind, hvalue'⟩ := houter.find? h
      exact ⟨value', find?_bind_eq_some.mpr (.inr ⟨hname, hfind⟩), hvalue'⟩

variable {globals : Scope}

/-- **A function may be exchanged for one that does at least as much**: if the first of two computations
ends, so does the second, and in the same value but for the exchange. -/
theorem Computation.Ends.exchange (hold : old.Genuine)
    (hcalls : ∀ argument value, (ofCall old argument).Ends globals value →
      (ofCall new argument).Ends globals value)
    {computation : Computation} {value : Value} (h : computation.Ends globals value)
    {computation' : Computation} (hexchanged : computation.Exchanged old new computation') :
    ∃ value', computation'.Ends globals value' ∧ Value.Exchanged old new value value' := by
  induction h generalizing computation' with
  | bound hlocal =>
    obtain ⟨_, hscope⟩ := hexchanged
    obtain ⟨value', hlocal', hvalue⟩ := hscope.find? hlocal
    exact ⟨value', .bound hlocal', hvalue⟩
  | global hlocal hglobal =>
    obtain ⟨_, hscope⟩ := hexchanged
    exact ⟨_, .global (hscope.find?_eq_none hlocal) hglobal, .refl _⟩
  | abstraction =>
    obtain ⟨_, hscope⟩ := hexchanged
    exact ⟨_, .abstraction, .closure hscope⟩
  | application _ _ _ ihFunction ihArgument ihCall =>
    obtain ⟨_, hscope⟩ := hexchanged
    obtain ⟨function', hfunction', hfunction⟩ := ihFunction (.ofTerm _ hscope)
    obtain ⟨argument', hargument', hargument⟩ := ihArgument (.ofTerm _ hscope)
    obtain ⟨value', hcall', hvalue⟩ := ihCall (.ofCall hfunction hargument)
    exact ⟨value', .application hfunction' hargument' hcall', hvalue⟩
  | sequence _ _ ihFunction ihCalls =>
    obtain ⟨_, hscope⟩ := hexchanged
    obtain ⟨function', hfunction', hfunction⟩ := ihFunction (.ofTerm _ hscope)
    obtain ⟨value', hcalls', hvalue⟩ := ihCalls (.ofCalls _ hscope hfunction)
    exact ⟨value', .sequence hfunction' hcalls', hvalue⟩
  | closure _ ih =>
    obtain ⟨⟩ | ⟨hfunction, hargument⟩ := hexchanged
    cases hfunction with
    | here =>
      -- The old function is called at the argument of the second run first.
      obtain ⟨value', hbody', hvalue⟩ := ih (.ofTerm _ (.bind hargument (.refl _)))
      exact ⟨value', hcalls _ _ (.closure hbody'), hvalue⟩
    | closure hscope =>
      obtain ⟨value', hbody', hvalue⟩ := ih (.ofTerm _ (.bind hargument hscope))
      exact ⟨value', .closure hbody', hvalue⟩
  | @counter n =>
    obtain ⟨⟩ | ⟨hfunction, hargument⟩ := hexchanged
    cases hfunction with
    | here => cases hold
    | counter =>
      cases hargument with
      | here => cases hold
      | count n => exact ⟨_, .counter, .count (n + 1)⟩
  | done =>
    obtain ⟨⟩ | ⟨⟩ | ⟨_, _, hfunction⟩ := hexchanged
    exact ⟨_, .done, hfunction⟩
  | next _ _ _ ihArgument ihResult ihCalls =>
    obtain ⟨⟩ | ⟨⟩ | ⟨_, hscope, hfunction⟩ := hexchanged
    obtain ⟨argument', hargument', hargument⟩ := ihArgument (.ofTerm _ hscope)
    obtain ⟨result', hresult', hresult⟩ := ihResult (.ofCall hfunction hargument)
    obtain ⟨value', hcalls', hvalue⟩ := ihCalls (.ofCalls _ hscope hresult)
    exact ⟨value', .next hargument' hresult' hcalls', hvalue⟩

/-- **The number of a numeral** is the same with a function exchanged in it. -/
theorem Value.Yields.exchange (hold : old.Genuine)
    (hcalls : ∀ argument value, (Computation.ofCall old argument).Ends globals value →
      (Computation.ofCall new argument).Ends globals value)
    {value value' first second : Value} {n : Nat} (hvalue : Value.Exchanged old new value value')
    (h : value.Yields globals first second (.count n)) :
    value'.Yields globals first second (.count n) := by
  obtain ⟨function, hfirst, hsecond⟩ := h
  obtain ⟨function', hfirst', hfunction⟩ := hfirst.exchange hold hcalls (.ofCall hvalue (.refl first))
  obtain ⟨result, hsecond', hresult⟩ :=
    hsecond.exchange hold hcalls (.ofCall hfunction (.refl second))
  cases hresult with
  | here => cases hold
  | count n => exact ⟨function', hfirst', hsecond'⟩

/-- **A computation gives the same number** with a function exchanged in what it starts from. -/
theorem Computation.Attains.exchange_yields (hold : old.Genuine)
    (hcalls : ∀ argument value, (ofCall old argument).Ends globals value →
      (ofCall new argument).Ends globals value)
    {computation computation' : Computation} {first second : Value} {n : Nat}
    (hexchanged : computation.Exchanged old new computation')
    (h : computation.Attains globals fun value => value.Yields globals first second (.count n)) :
    computation'.Attains globals fun value => value.Yields globals first second (.count n) := by
  obtain ⟨value, hends, hyields⟩ := h
  obtain ⟨value', hends', hvalue⟩ := hends.exchange hold hcalls hexchanged
  exact ⟨value', hends', hyields.exchange hold hcalls hvalue⟩

end Exchange

end ParenLambda
