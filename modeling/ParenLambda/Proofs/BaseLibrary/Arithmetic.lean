import Mathlib.Algebra.Group.Nat.Defs
import ParenLambda.Proofs.BaseLibrary.Sources

/-!
# The arithmetic of the base library

A number `n` is a function that takes any function to one that calls it `n` times. Evaluation never goes
into the body of a function that is not called, so the numerals that the operations of the library make
are all different, and none of them is the numeral that a source would spell. What they share is how
they behave, for every function whatsoever: those that count, those that make numerals from numerals
(addition and subtraction), and numerals themselves (powers). This is `ParenLambda.Value.IsNumeral`,
and every operation of the library is shown to lead from numerals to the numeral of the result.
-/

namespace ParenLambda

namespace Value

open ParenLambda.Computation

variable {globals : Scope} {function several : Value} {property : Value → Prop}

/-! ### Calling a function several times -/

/-- **A function leads to a property in a number of calls**: the first at the given value, each at what
the one before has given. -/
def LeadsTo (globals : Scope) (function : Value) : Nat → (Value → Prop) → Value → Prop
  | 0, property, start => property start
  | n + 1, property, start =>
    LeadsTo globals function n
      (fun result => (ofCall function result).Attains globals property) start

theorem LeadsTo.imp {n : Nat} {start : Value} {weaker : Value → Prop}
    (h : function.LeadsTo globals n property start)
    (himp : ∀ value, property value → weaker value) : function.LeadsTo globals n weaker start := by
  induction n generalizing property weaker with
  | zero => exact himp start h
  | succ n ih => exact ih h fun result hresult => hresult.imp himp

/-- The calls can be made in two goes. -/
theorem leadsTo_add {m n : Nat} {start : Value} :
    function.LeadsTo globals (m + n) property start ↔
      function.LeadsTo globals m (function.LeadsTo globals n property) start := by
  induction n generalizing property with
  | zero => rfl
  | succ n ih => exact ih

/-- A function that leads from each property of a sequence to the next leads to any of them. -/
theorem leadsTo_of_forall {property : Nat → Value → Prop}
    (hfunction : ∀ k, function.Maps globals (property k) (property (k + 1))) {start : Value}
    (hstart : property 0 start) (n : Nat) : function.LeadsTo globals n (property n) start := by
  induction n with
  | zero => exact hstart
  | succ n ih => exact ih.imp (hfunction n)

/-- **One function does several calls of another**: it attains whatever the other leads to. -/
def Repeats (globals : Scope) (n : Nat) (function several : Value) : Prop :=
  ∀ property, several.Maps globals (function.LeadsTo globals n property) property

theorem repeats_one : Repeats globals 1 function function :=
  fun _ _ hstart => hstart

theorem LeadsTo.grouped {m n : Nat} (hseveral : Repeats globals n function several) {start : Value}
    (h : function.LeadsTo globals (m * n) property start) :
    several.LeadsTo globals m property start := by
  induction m generalizing property with
  | zero =>
    rw [Nat.zero_mul] at h
    exact h
  | succ m ih =>
    rw [Nat.succ_mul, leadsTo_add] at h
    exact ih (h.imp (hseveral property))

/-- **Calls of calls multiply.** -/
theorem Repeats.mul {m n : Nat} {many : Value} (hmany : Repeats globals m several many)
    (hseveral : Repeats globals n function several) : Repeats globals (m * n) function many :=
  fun property start hstart => hmany property start (hstart.grouped hseveral)

/-! ### Numerals -/

/-- **A numeral**: it takes every function to one that does `n` calls of it. -/
def IsNumeral (globals : Scope) (n : Nat) (value : Value) : Prop :=
  ∀ function, (ofCall value function).Attains globals (Repeats globals n function)

/-- **What a numeral is used for**: it takes a function that leads from each property of a sequence to
the next to one that leads from the first property to the `n`-th. -/
theorem IsNumeral.iterate {n : Nat} {value : Value} (h : value.IsNumeral globals n)
    {property : Nat → Value → Prop}
    (hfunction : ∀ k, function.Maps globals (property k) (property (k + 1))) :
    (ofCall value function).Attains globals (Maps globals (property 0) (property n)) :=
  (h function).imp fun _ hseveral start hstart =>
    hseveral (property n) start (leadsTo_of_forall hfunction hstart n)

/-- **A numeral decodes to its number.** -/
theorem IsNumeral.toNat {n : Nat} {value : Value} (h : value.IsNumeral globals n) :
    ∃ depth, value.toNat globals depth = .ok n := by
  have hcounter : ∀ k, counter.Maps globals (· = .count k) (· = .count (k + 1)) := by
    rintro k _ rfl
    exact ⟨_, .counter, rfl⟩
  obtain ⟨counting, hcounting, hcounts⟩ := h.iterate hcounter
  obtain ⟨_, hresult, rfl⟩ := hcounts (.count 0) rfl
  exact toNat_of_yields ⟨counting, hcounting, hresult⟩

end Value

namespace BaseLibrary

open ParenLambda.Computation Value

variable {m n : Nat}

/-! ### The numerals of the library -/

theorem maps_identity {property : Value → Prop} :
    Maps globals property property identity.value := by
  rw [Combinator.maps_value]
  simp [identity, Scope.find?]

theorem isNumeral_zero : IsNumeral globals 0 zero.value := by
  have hzero : ∀ function, Maps globals (· = function) (Repeats globals 0 function) zero.value := by
    intro function
    have hidentity : Repeats globals 0 function identity.value := fun property => maps_identity
    rw [Combinator.maps_value]
    simpa [zero, Scope.find?] using hidentity
  exact fun function => hzero function function rfl

/-- **The successor.** -/
theorem maps_successor :
    Maps globals (IsNumeral globals n) (IsNumeral globals (n + 1)) successor.value := by
  have hcalls : ∀ numeral, IsNumeral globals n numeral → ∀ function property start,
      function.LeadsTo globals (n + 1) property start →
      (ofCall numeral function).Attains globals fun several =>
        (ofCall several start).Attains globals fun result =>
          (ofCall function result).Attains globals property := by
    intro numeral hnumeral function property start hstart
    exact (hnumeral function).imp fun several hseveral => hseveral _ start hstart
  rw [Combinator.maps_value]
  simpa [successor, IsNumeral, Repeats, Maps, Scope.find?] using hcalls

/-! ### The predecessor -/

section Predecessor

variable {scope : Scope} {function start waiting : Value} {property : Value → Prop} {k : Nat}

/-- **A function that waits**, to be told what to do with the result of some calls of another. It makes
one call less than it should, and if it should make none it does nothing but give the start. -/
def Suspends (function start : Value) : Nat → Value → Prop
  | 0, waiting => ∀ last, (ofCall waiting last).Attains globals (· = start)
  | k + 1, waiting => ∀ last property,
    function.LeadsTo globals k (fun result => (ofCall last result).Attains globals property) start →
      (ofCall waiting last).Attains globals property

/-- Told to do one more call, it has made as many as it should. -/
theorem Suspends.resume (h : Suspends function start k waiting)
    (hstart : function.LeadsTo globals k property start) :
    (ofCall waiting function).Attains globals property := by
  cases k with
  | zero =>
    refine (h function).imp ?_
    rintro _ rfl
    exact hstart
  | succ k => exact h function property hstart

/-- Told to do nothing, it has made one call less. -/
theorem Suspends.stop (h : Suspends function start k waiting) {last : Value}
    (hlast : last.Maps globals property property)
    (hstart : function.LeadsTo globals (k - 1) property start) :
    (ofCall waiting last).Attains globals property := by
  cases k with
  | zero =>
    refine (h last).imp ?_
    rintro _ rfl
    exact hstart
  | succ k => exact h last property (hstart.imp hlast)

theorem suspends_zero (hstart : scope.find? "x" = some start) :
    Suspends function start 0 (.closure "_" (.atom "x") scope) := by
  intro last
  simp [Scope.find?, hstart]

theorem maps_suspension (hfunction : scope.find? "f" = some function) :
    Maps globals (Suspends function start k) (Suspends function start (k + 1))
      (suspension.within scope) := by
  intro waiting hwaiting
  have hcalls : ∀ last property,
      function.LeadsTo globals k (fun result => (ofCall last result).Attains globals property) start →
        (ofCall waiting function).Attains globals fun result =>
          (ofCall last result).Attains globals property :=
    fun last property hstart => hwaiting.resume hstart
  rw [Combinator.attains_within]
  simpa [suspension, Suspends, Scope.find?, hfunction] using hcalls

/-- **The predecessor**, which is 0 for 0. -/
theorem maps_predecessor :
    Maps globals (IsNumeral globals n) (IsNumeral globals (n - 1)) predecessor.value := by
  have hcalls : ∀ numeral, IsNumeral globals n numeral → ∀ function property start,
      function.LeadsTo globals (n - 1) property start →
      let scope := .bind "x" start (.bind "f" function (.bind "n" numeral .empty))
      (ofCall numeral (suspension.within scope)).Attains globals fun several =>
        (ofCall several (.closure "_" (.atom "x") scope)).Attains globals fun waiting =>
          (ofCall waiting (.closure "u" (.atom "u") scope)).Attains globals property := by
    intro numeral hnumeral function property start hstart scope
    have hlast : Maps globals property property (.closure "u" (.atom "u") scope) := by
      intro result hresult
      simpa [Scope.find?] using hresult
    have hsteps : ∀ k, Maps globals (Suspends function start k) (Suspends function start (k + 1))
        (suspension.within scope) := fun k => maps_suspension rfl
    refine (hnumeral.iterate hsteps).imp fun several hseveral => ?_
    refine (hseveral _ (suspends_zero rfl)).imp fun waiting hwaiting => ?_
    exact hwaiting.stop hlast hstart
  rw [Combinator.maps_value]
  simpa [predecessor, Combinator.attains_term, IsNumeral, Repeats, Maps, Scope.find?] using hcalls

end Predecessor

/-! ### Sums, differences and products -/

/-- **Operations by steps**: if each step leads from one number of a sequence to the next, the second
number says how far in the sequence the first one is led. -/
theorem maps_stepwise (name : String) (sequence : Nat → Nat) {step : Value}
    (hname : name ∉ ["m", "n"]) (hstep : globals.find? name = some step)
    (hsteps : ∀ k, step.Maps globals (IsNumeral globals (sequence k))
      (IsNumeral globals (sequence (k + 1)))) :
    Maps globals (IsNumeral globals (sequence 0))
      (Maps globals (IsNumeral globals n) (IsNumeral globals (sequence n)))
      (stepwise name).value := by
  have hcalls : ∀ first, IsNumeral globals (sequence 0) first →
      ∀ second, IsNumeral globals n second →
        (ofCall second step).Attains globals fun several =>
          (ofCall several first).Attains globals (IsNumeral globals (sequence n)) := by
    intro first hfirst second hsecond
    exact (hsecond.iterate hsteps).imp fun several hseveral => hseveral first hfirst
  obtain ⟨hm, hn⟩ : "m" ≠ name ∧ "n" ≠ name := by simpa [eq_comm] using hname
  rw [Combinator.maps_value]
  simpa [stepwise, Maps, Scope.find?, hm, hn, hstep] using hcalls

theorem maps_plus :
    Maps globals (IsNumeral globals m)
      (Maps globals (IsNumeral globals n) (IsNumeral globals (m + n))) plus.value :=
  maps_stepwise "Successor" (m + ·) (by decide) (by simp) fun _ => maps_successor

theorem maps_minus :
    Maps globals (IsNumeral globals m)
      (Maps globals (IsNumeral globals n) (IsNumeral globals (m - n))) minus.value :=
  maps_stepwise "Predecessor" (m - ·) (by decide) (by simp) fun _ => maps_predecessor

theorem maps_times :
    Maps globals (IsNumeral globals m)
      (Maps globals (IsNumeral globals n) (IsNumeral globals (m * n))) times.value := by
  have hcalls : ∀ first, IsNumeral globals m first → ∀ second, IsNumeral globals n second →
      ∀ function, (ofCall second function).Attains globals fun several =>
        (ofCall first several).Attains globals (Repeats globals (m * n) function) := by
    intro first hfirst second hsecond function
    refine (hsecond function).imp fun several hseveral => ?_
    exact (hfirst several).imp fun many hmany => hmany.mul hseveral
  rw [Combinator.maps_value]
  simpa [times, Maps, IsNumeral, Scope.find?] using hcalls

/-- **Powers**: a numeral that a numeral calls several times multiplies by itself as often. -/
theorem maps_power :
    Maps globals (IsNumeral globals m)
      (Maps globals (IsNumeral globals n) (IsNumeral globals (m ^ n))) power.value := by
  have hcalls : ∀ base, IsNumeral globals m base → ∀ exponent, IsNumeral globals n exponent →
      (ofCall exponent base).Attains globals (IsNumeral globals (m ^ n)) := by
    intro base hbase exponent hexponent
    have hsteps : ∀ function k, base.Maps globals (Repeats globals (m ^ k) function)
        (Repeats globals (m ^ (k + 1)) function) := by
      intro function k several hseveral
      refine (hbase several).imp fun many hmany => ?_
      rw [pow_succ']
      exact hmany.mul hseveral
    -- The function to be repeated is only known once the exponent has been called.
    refine (hexponent base).imp fun several hseveral function => ?_
    exact hseveral _ function (leadsTo_of_forall (hsteps function) repeats_one n)
  rw [Combinator.maps_value]
  simpa [power, Maps, Scope.find?] using hcalls

/-- **The distance** of two numbers: one of the differences is 0, and the other is the distance. -/
theorem maps_distance :
    Maps globals (IsNumeral globals m)
      (Maps globals (IsNumeral globals n) (IsNumeral globals (m - n + (n - m)))) distance.value := by
  have hcalls : ∀ first, IsNumeral globals m first → ∀ second, IsNumeral globals n second →
      (ofCall minus.value first).Attains globals fun lessened =>
        (ofCall lessened second).Attains globals fun above =>
          (ofCall plus.value above).Attains globals fun increased =>
            (ofCall minus.value second).Attains globals fun lessened =>
              (ofCall lessened first).Attains globals fun below =>
                (ofCall increased below).Attains globals (IsNumeral globals (m - n + (n - m))) := by
    intro first hfirst second hsecond
    refine (maps_minus (n := n) first hfirst).imp fun lessened hlessened => ?_
    refine (hlessened second hsecond).imp fun above habove => ?_
    refine (maps_plus (n := n - m) above habove).imp fun increased hincreased => ?_
    refine (maps_minus (n := m) second hsecond).imp fun lessened hlessened => ?_
    exact (hlessened first hfirst).imp hincreased
  rw [Combinator.maps_value]
  simpa [distance, Maps, Scope.find?] using hcalls

/-! ### Sources with numbers -/

/-- **The source of a number**: the successor, as many times, of 0. -/
def numeral : Nat → String
  | 0 => "0"
  | n + 1 => s!"(Successor {numeral n})"

/-- The term of the source of a number. -/
def numeralTerm : Nat → Term
  | 0 => .atom "BUILTIN___0"
  | n + 1 => .application (.atom "Successor") (numeralTerm n)

theorem isRegular_numeralTerm (n : Nat) : (numeralTerm n).isRegular := by
  induction n with
  | zero => rfl
  | succ n ih => simp [numeralTerm, Term.isRegular, Term.isBinding, ih]

theorem isReadFrom_numeral (n : Nat) : (numeralTerm n).IsReadFrom (numeral n) := by
  induction n with
  | zero => exact Term.isReadFrom_symbol (by decide)
  | succ n ih =>
    have hsuccessor : (Term.atom "Successor").IsReadFrom "Successor" :=
      Term.isReadFrom_symbol (by decide)
    exact (hsuccessor.application ih).congr (by simp [numeral, toString])

/-- The term of a number attains its numeral wherever the two names mean what the library means. -/
theorem attains_numeralTerm {scope : Scope} (hzero : scope.find? "BUILTIN___0" = none)
    (hsuccessor : scope.find? "Successor" = none) (n : Nat) :
    (ofTerm scope (numeralTerm n)).Attains globals (IsNumeral globals n) := by
  induction n with
  | zero => simpa [numeralTerm, hzero] using isNumeral_zero
  | succ n ih =>
    have hoperator : (ofTerm scope (.atom "Successor")).Attains globals
        (Maps globals (IsNumeral globals n) (IsNumeral globals (n + 1))) := by
      simpa [hsuccessor] using maps_successor
    exact hoperator.application ih

theorem expresses_numeral (n : Nat) : Expresses (numeral n) (IsNumeral globals n) :=
  ⟨numeralTerm n, isRegular_numeralTerm n, isReadFrom_numeral n, attains_numeralTerm rfl rfl n⟩

/-- A source that expresses a numeral is decoded to its number. -/
theorem Expresses.answers_number {source : String} (h : Expresses source (IsNumeral globals n)) :
    Answers source toNat n :=
  h.answers fun _ hvalue => hvalue.toNat

/-- **The arithmetic of the base library is right on all numbers.** Behind the library, the source of a
number is decoded to the number, and the predecessor, sum, difference, product, power and distance of
such sources to those of their numbers, where differences and the predecessor stop at 0. -/
theorem answers_arithmetic (m n : Nat) :
    Answers (numeral n) toNat n ∧
    Answers s!"(Predecessor {numeral n})" toNat (n - 1) ∧
    Answers s!"((+ {numeral m}) {numeral n})" toNat (m + n) ∧
    Answers s!"((- {numeral m}) {numeral n})" toNat (m - n) ∧
    Answers s!"((* {numeral m}) {numeral n})" toNat (m * n) ∧
    Answers s!"((Power {numeral m}) {numeral n})" toNat (m ^ n) ∧
    Answers s!"((Abs-Difference {numeral m}) {numeral n})" toNat ((m : Int) - n).natAbs := by
  have hm := expresses_numeral m
  have hn := expresses_numeral n
  have hpredecessor := expresses_call "Predecessor" "Predecessor" (by decide) (by simp)
    maps_predecessor hn
  have hplus := expresses_call₂ "+" "T_PLUS" (by decide) (by simp) maps_plus hm hn
  have hminus := expresses_call₂ "-" "T_MINUS" (by decide) (by simp) maps_minus hm hn
  have htimes := expresses_call₂ "*" "T_MULTIPLICATION" (by decide) (by simp) maps_times hm hn
  have hpower := expresses_call₂ "Power" "Power" (by decide) (by simp) maps_power hm hn
  have hdistance := expresses_call₂ "Abs-Difference" "Abs_Difference" (by decide) (by simp)
    maps_distance hm hn
  have habsolute : m - n + (n - m) = ((m : Int) - n).natAbs := by omega
  rw [habsolute] at hdistance
  exact ⟨hn.answers_number, hpredecessor.answers_number, hplus.answers_number,
    hminus.answers_number, htimes.answers_number, hpower.answers_number, hdistance.answers_number⟩

end BaseLibrary

end ParenLambda
