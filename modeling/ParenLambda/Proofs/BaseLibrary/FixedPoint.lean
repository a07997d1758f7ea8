import ParenLambda.Proofs.BaseLibrary.Sources
import ParenLambda.Proofs.Evaluation.Interchange

/-!
# The fixed points of the base library

Arguments are evaluated before calls, so the fixed point of a function cannot hand it the fixed point
itself: finding it would never end. It hands it a *delay* of itself
(`ParenLambda.BaseLibrary.delay`), a function that waits for an argument before it finds the fixed point
anew, and then calls it at the argument. What the function makes of the delay is the fixed point.

A fixed point is what the function makes of the fixed point. Here the two are not the same value: the
one is what the function makes of the delay, and the other is what it makes of that. But the delay of a
fixed point and the fixed point do the same at every argument, and so one may be exchanged for the other
wherever the function has put them. In the numbers that the two give, nothing of this is seen
(`ParenLambda.BaseLibrary.yields_again_iff`).
-/

namespace ParenLambda

namespace BaseLibrary

open ParenLambda.Computation Value

section Delay

variable {function argument result : Value} {property : Value → Prop}

/-- **The delay of a fixed point**: what the fixed point of a function hands to it in its own place. -/
def delay (function : Value) : Value :=
  .closure "y" (.spine (.atom "x") [.atom "x", .atom "y"])
    (.bind "x" (selfApplied.within (.bind "f" function .empty)) (.bind "f" function .empty))

/-- **The fixed point of a function** is what the function makes of the delay. -/
theorem attains_fixedPoint :
    (ofCall fixedPoint.value function).Attains globals property ↔
      (ofCall function (delay function)).Attains globals property := by
  simp [fixedPoint, selfApplied, Combinator.attains_value, Combinator.attains_term,
    Combinator.attains_within, delay, Scope.find?]

/-- A delay finds the fixed point, and calls it. -/
theorem attains_delay :
    (ofCall (delay function) argument).Attains globals property ↔
      (ofCall function (delay function)).Attains globals fun result =>
        (ofCall result argument).Attains globals property := by
  simp [delay, Combinator.attains_within, selfApplied, Scope.find?]

theorem genuine_globals : globals.Genuine := by
  obtain ⟨machine, hrun, hglobals⟩ := exists_run
  rw [← hglobals]
  exact Machine.genuine_of_steps hrun .empty

theorem genuine_delay (h : function.Genuine) : (delay function).Genuine := by
  have hscope : (Scope.bind "f" function .empty).Genuine := .bind h .empty
  exact .closure (.bind (.closure hscope) hscope)

/-- **The delay of a fixed point does what the fixed point does**, at every argument. -/
theorem ends_delay_iff (hresult : (ofCall function (delay function)).Ends globals result)
    (argument value : Value) :
    (ofCall (delay function) argument).Ends globals value ↔
      (ofCall result argument).Ends globals value := by
  constructor
  · intro h
    obtain ⟨found, hfound, _, hcall, rfl⟩ := attains_delay.mp ⟨value, h, rfl⟩
    rwa [hresult.unique hfound]
  · intro h
    obtain ⟨_, hcall, rfl⟩ := attains_delay.mpr ⟨result, hresult, value, h, rfl⟩
    exact hcall

/-- **The function at its own fixed point** ends in the fixed point again, but with the fixed point itself
wherever there was the delay. -/
theorem exists_again (hfunction : function.Genuine)
    (hresult : (ofCall function (delay function)).Ends globals result) :
    ∃ again, (ofCall function result).Ends globals again ∧
      Value.Exchanged (delay function) result result again :=
  hresult.exchange (genuine_delay hfunction)
    (fun argument value => (ends_delay_iff hresult argument value).mp) (.ofCall (.refl function) .here)

/-- **The function at its own fixed point gives the same numbers** as the fixed point. -/
theorem yields_again_iff (hfunction : function.Genuine)
    (hresult : (ofCall function (delay function)).Ends globals result) {again : Value}
    (hagain : (ofCall function result).Ends globals again) {n : Nat} :
    (ofCall result argument).Attains globals
        (fun value => value.Yields globals .counter (.count 0) (.count n)) ↔
      (ofCall again argument).Attains globals
        (fun value => value.Yields globals .counter (.count 0) (.count n)) := by
  have hdelay := genuine_delay hfunction
  have hgenuine : result.Genuine := hresult.genuine genuine_globals (.ofCall hfunction hdelay)
  have hsame := ends_delay_iff hresult
  obtain ⟨_, hagain', hexchanged⟩ := exists_again hfunction hresult
  obtain rfl := hagain.unique hagain'
  constructor
  · exact Attains.exchange_yields hdelay (fun argument value => (hsame argument value).mp)
      (.ofCall hexchanged (.refl argument))
  · exact Attains.exchange_yields hgenuine (fun argument value => (hsame argument value).mpr)
      (.ofCall hexchanged.symm (.refl argument))

end Delay

/-! ### Programs -/

/-- The fixed point of a function, applied to an argument. -/
def appliedFixedPoint (function argument : Term) : Term :=
  .application (.application (.atom "Y") function) argument

/-- The function at its own fixed point, applied to an argument. -/
def appliedUnrolling (function argument : Term) : Term :=
  .application (.application function (.application (.atom "Y") function)) argument

theorem attains_appliedUnrolling_iff {function argument : Term} {n : Nat} :
    (ofTerm .empty (appliedFixedPoint function argument)).Attains globals
        (fun value => value.Yields globals .counter (.count 0) (.count n)) ↔
      (ofTerm .empty (appliedUnrolling function argument)).Attains globals
        (fun value => value.Yields globals .counter (.count 0) (.count n)) := by
  have hgenuine : ∀ {value}, (ofTerm .empty function).Ends globals value → value.Genuine :=
    fun hvalue => hvalue.genuine genuine_globals (.ofTerm .empty)
  simp only [appliedFixedPoint, appliedUnrolling, attains_application, attains_atom, Scope.find?,
    find?_globals, Option.none_or, Option.some.injEq, exists_eq_left', attains_fixedPoint]
  constructor
  · rintro ⟨f, hf, r, hr, v, hv, hcall⟩
    obtain ⟨again, hagain, -⟩ := exists_again (hgenuine hf) hr
    exact ⟨f, hf, f, hf, r, hr, again, hagain, v, hv,
      (yields_again_iff (hgenuine hf) hr hagain).mp hcall⟩
  · rintro ⟨f, hf, f', hf', r, hr, again, hagain, v, hv, hcall⟩
    -- The function is evaluated twice, but it is one.
    obtain rfl := hf.unique hf'
    exact ⟨f, hf, r, hr, v, hv, (yields_again_iff (hgenuine hf) hr hagain).mpr hcall⟩

/-- **A fixed point is a fixed point**: behind the base library, the fixed point of a function, applied
to an argument, has the same number for its answer as the function at its own fixed point, applied to
that argument, or neither has one. This holds of all terms, and of all texts of terms. -/
theorem answers_fixedPoint (function argument : Term) (n : Nat) :
    (Program.Answers ⟨program.body ++ [appliedFixedPoint function argument]⟩ toNat n ↔
      Program.Answers ⟨program.body ++ [appliedUnrolling function argument]⟩ toNat n) ∧
    ∀ f v : String, function.isRegular → function.IsReadFrom f → argument.isRegular →
      argument.IsReadFrom v →
        (Answers s!"((Y {f}) {v})" toNat n ↔ Answers s!"(({f} (Y {f})) {v})" toNat n) := by
  have hprograms :
      Program.Answers ⟨program.body ++ [appliedFixedPoint function argument]⟩ toNat n ↔
        Program.Answers ⟨program.body ++ [appliedUnrolling function argument]⟩ toNat n := by
    simp only [answers_behind_iff, exists_toNat_iff, attains_appliedUnrolling_iff]
  refine ⟨hprograms, fun f v hregular hread hregular' hread' => ?_⟩
  have hfunction := stands_of_isReadFrom hregular hread
  have hargument := stands_of_isReadFrom hregular' hread'
  have hY : Stands "Y" (.atom "Y") :=
    stands_of_isReadFrom rfl (Term.isReadFrom_symbol (by decide))
  have hfixedPoint : Stands s!"((Y {f}) {v})" (appliedFixedPoint function argument) :=
    ((hY.application hfunction).application hargument).congr (by simp [toString])
  have hunrolling : Stands s!"(({f} (Y {f})) {v})" (appliedUnrolling function argument) :=
    ((hfunction.application (hY.application hfunction)).application hargument).congr
      (by simp [toString])
  rw [hfixedPoint.answers_iff, hunrolling.answers_iff, hprograms]

/-- A function whose fixed point counts a numeral down and builds it up again. -/
def copying : Term :=
  .curried ["f", "n"] (branch (.application (.atom "Is_Zero") (.atom "n")) (.atom "BUILTIN___0")
    (.application (.atom "Successor")
      (.application (.atom "f") (.application (.atom "Predecessor") (.atom "n")))))

/-- The text of the function. -/
def copyingText : String :=
  "(λ f (λ n ((((If (Is-Zero n)) (λ _ 0)) (λ _ (Successor (f (Predecessor n))))) ∅)))"

theorem answers_fixedPoint_copying :
    copying.isRegular ∧ copying.IsReadFrom copyingText ∧ (Term.atom "BUILTIN___2").isRegular ∧
    (Term.atom "BUILTIN___2").IsReadFrom "2" ∧
    Program.Answers ⟨program.body ++ [appliedFixedPoint copying (.atom "BUILTIN___2")]⟩ toNat 2 ∧
    Program.Answers ⟨program.body ++ [appliedUnrolling copying (.atom "BUILTIN___2")]⟩ toNat 2 ∧
    (Answers s!"((Y {copyingText}) 2)" toNat 2 ↔
      Answers s!"(({copyingText} (Y {copyingText})) 2)" toNat 2) := by
  have hregular : copying.isRegular := by decide
  have hsymbol : ∀ name symbol, Name.IsSymbol name symbol → (Term.atom name).IsReadFrom symbol :=
    fun _ _ => Term.isReadFrom_symbol
  have hn := hsymbol "n" "n" (by decide)
  have hcondition := (hsymbol "Is_Zero" "Is-Zero" (by decide)).application hn
  have hzero := hsymbol "BUILTIN___0" "0" (by decide)
  have hbefore := (hsymbol "Predecessor" "Predecessor" (by decide)).application hn
  have hnext := (hsymbol "Successor" "Successor" (by decide)).application
    ((hsymbol "f" "f" (by decide)).application hbefore)
  have hwait : Name.Plain "_" := by decide
  have hbranch := ((((hsymbol "T_IF" "If" (by decide)).application hcondition).application
    (hzero.abstraction hwait)).application (hnext.abstraction hwait)).application
      (hsymbol "T_NULL" "∅" (by decide))
  have hread : copying.IsReadFrom copyingText :=
    (hbranch.abstraction (by decide : Name.Plain "n")).abstraction (by decide : Name.Plain "f")
  have hargument := hsymbol "BUILTIN___2" "2" (by decide)
  have hanswers :
      Program.Answers ⟨program.body ++ [appliedFixedPoint copying (.atom "BUILTIN___2")]⟩ toNat 2 :=
    Program.answers_of_run 60 (by decide +kernel)
  obtain ⟨hprograms, htexts⟩ := answers_fixedPoint copying (.atom "BUILTIN___2") 2
  exact ⟨hregular, hread, rfl, hargument, hanswers, hprograms.mp hanswers,
    htexts copyingText "2" hregular hread rfl hargument⟩

end BaseLibrary

end ParenLambda
