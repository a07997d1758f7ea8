import ParenLambda.Proofs.BaseLibrary.Lists

/-!
# Filtering lists

The filter of the base library folds the list and puts every element that it keeps in front of the
ones that it has kept before. Unlike the map, which does the same and then reverses what it has got, it
leaves it at that: the elements that satisfy the predicate come out **in the opposite order**
(`ParenLambda.BaseLibrary.answers_filter`). The length does not tell.
-/

namespace ParenLambda

namespace BaseLibrary

open ParenLambda.Computation Value
open Term (curried_cons curried_nil)

/-- **Filtering** keeps the elements that satisfy the predicate, the last one first. -/
theorem maps_filter {α : Type} {element : α → Value → Prop} {xs : List α} (keep : α → Bool) :
    Maps globals (IsListOf element xs)
      (Maps globals (Computes element (IsTruth globals) keep)
        (IsListOf element (xs.filter keep).reverse)) filter.value := by
  have hreverse : xs.foldl (fun kept x => if keep x then x :: kept else kept) [] =
      (xs.filter keep).reverse := by
    rw [← List.foldl_filter, List.foldl_flip_cons_eq_append', List.append_nil]
  rw [Combinator.maps_value]
  simp only [filter, curried_cons, curried_nil, Maps, attains_abstraction, attains_closure]
  intro list hlist predicate hpredicate
  rw [← hreverse]
  refine attains_fold element (IsListOf element) (fun kept x => if keep x then x :: kept else kept) []
    rfl ?_ ?_ ?_
  · simpa [Scope.find?] using hlist
  · simp only [Combines, Maps, attains_abstraction, attains_closure]
    intro ys x kept hkept head hhead
    refine attains_branch (keep x) rfl rfl ?_ ?_ ?_
    · simpa [Scope.find?] using hpredicate x head hhead
    · intro hkeep
      have hcalls : (ofCall cons.value head).Attains globals fun consing =>
          (ofCall consing kept).Attains globals (IsListOf element (x :: ys)) :=
        (maps_cons head hhead).imp fun consing hconsing => hconsing kept hkept
      simpa [hkeep, Scope.find?] using hcalls
    · intro hdrop
      simpa [hdrop, Scope.find?] using hkept
  · simpa [Scope.find?] using isListOf_emptyList

/-! ### Sources that filter -/

/-- **A predicate on numbers**, which compares them with a fixed number. -/
inductive Bound where
  /-- Being above the number. -/
  | above (c : Nat)
  /-- Being at most the number. -/
  | upTo (c : Nat)

namespace Bound

/-- The numbers that satisfy the predicate. -/
def admits : Bound → Nat → Bool
  | above c, x => c < x
  | upTo c, x => x ≤ c

/-- The source of the comparison, in which the number to be compared is `n`. -/
def comparison : Bound → String
  | above c => s!"((< {numeral c}) n)"
  | upTo c => s!"((≤ n) {numeral c})"

/-- The source of the predicate. -/
def source (bound : Bound) : String :=
  s!"(λ n {bound.comparison})"

/-- The term of the source of the predicate. -/
def term : Bound → Term
  | above c => .abstraction "n"
    (.application (.application (.atom "T_IS_L_THAN") (numeralTerm c)) (.atom "n"))
  | upTo c => .abstraction "n"
    (.application (.application (.atom "T_IS_L_THAN_EQ") (.atom "n")) (numeralTerm c))

theorem isRegular_term (bound : Bound) : bound.term.isRegular := by
  cases bound <;> simp [term, Term.isRegular, Term.isBinding, isRegular_numeralTerm]

theorem isReadFrom_source (bound : Bound) : bound.term.IsReadFrom bound.source := by
  have hplain : Name.Plain "n" := by decide
  have hparameter : (Term.atom "n").IsReadFrom "n" := Term.isReadFrom_symbol (by decide)
  cases bound with
  | above c =>
    have hless : (Term.atom "T_IS_L_THAN").IsReadFrom "<" := Term.isReadFrom_symbol (by decide)
    have hbody := (hless.application (isReadFrom_numeral c)).application hparameter
    exact (hbody.abstraction hplain).congr (by simp [source, comparison, toString])
  | upTo c =>
    have hatMost : (Term.atom "T_IS_L_THAN_EQ").IsReadFrom "≤" := Term.isReadFrom_symbol (by decide)
    have hbody := (hatMost.application hparameter).application (isReadFrom_numeral c)
    exact (hbody.abstraction hplain).congr (by simp [source, comparison, toString])

/-- The source of a predicate expresses it. -/
theorem expresses_source (bound : Bound) :
    Expresses bound.source (Computes (IsNumeral globals) (IsTruth globals) bound.admits) := by
  refine ⟨bound.term, bound.isRegular_term, bound.isReadFrom_source, ?_⟩
  have hnumeral : ∀ c argument, (ofTerm (.bind "n" argument .empty) (numeralTerm c)).Attains globals
      (IsNumeral globals c) := fun c argument => attains_numeralTerm rfl rfl c
  have hparameter : ∀ x argument, IsNumeral globals x argument →
      (ofTerm (.bind "n" argument .empty) (.atom "n")).Attains globals (IsNumeral globals x) := by
    intro x argument hargument
    simpa [Scope.find?] using hargument
  cases bound with
  | above c =>
    rw [term, attains_abstraction]
    intro x argument hargument
    have hless : (ofTerm (.bind "n" argument .empty) (.atom "T_IS_L_THAN")).Attains globals
        (Maps globals (IsNumeral globals c) (Maps globals (IsNumeral globals x)
          (IsTruth globals (c < x)))) := by
      simpa [Scope.find?] using maps_less
    rw [attains_closure]
    exact (hless.application (hnumeral c argument)).application (hparameter x argument hargument)
  | upTo c =>
    rw [term, attains_abstraction]
    intro x argument hargument
    have hatMost : (ofTerm (.bind "n" argument .empty) (.atom "T_IS_L_THAN_EQ")).Attains globals
        (Maps globals (IsNumeral globals x) (Maps globals (IsNumeral globals c)
          (IsTruth globals (x ≤ c)))) := by
      simpa [Scope.find?] using maps_atMost
    rw [attains_closure]
    exact (hatMost.application (hparameter x argument hargument)).application (hnumeral c argument)

end Bound

theorem Expresses.filter {source : String} {xs : List Nat}
    (h : Expresses source (IsListOf (IsNumeral globals) xs)) (bound : Bound) :
    Expresses s!"((Filter {source}) {bound.source})"
      (IsListOf (IsNumeral globals) (xs.filter bound.admits).reverse) :=
  expresses_call₂ "Filter" "Filter" (by decide) (by simp) (maps_filter bound.admits) h
    bound.expresses_source

/-- **Filtering keeps the elements that satisfy the predicate, in the opposite order.** Behind the
library, of the source of a list of numbers that is filtered by a comparison, the length is decoded to
the number of the elements that satisfy it, and the elements to these elements, the last one first. -/
theorem answers_filter (ending : String) (hending : ending ∈ ["EmptyList", "∅"]) (xs : List Nat)
    (bound : Bound) :
    Answers s!"(Length ((Filter {listing ending xs}) {bound.source}))" toNat
      (xs.filter bound.admits).length ∧
    ∀ i (hi : i < (xs.filter bound.admits).length),
      Answers s!"((Nth ((Filter {listing ending xs}) {bound.source})) {numeral i})" toNat
        (xs.filter bound.admits)[(xs.filter bound.admits).length - 1 - i] := by
  have hfilter := (expresses_listing hending xs).filter bound
  constructor
  · have hlength := expresses_call "Length" "Length" (by decide) (by simp) maps_length hfilter
    rw [List.length_reverse] at hlength
    exact (hlength.congr (by simp [toString])).answers_number
  · intro i hi
    have helement : (xs.filter bound.admits).reverse[i]? =
        some (xs.filter bound.admits)[(xs.filter bound.admits).length - 1 - i] := by
      simp [hi]
    exact ((hfilter.nth helement).congr (by simp [toString])).answers_number

/-- Both elements of the list of 0 and 1 are at most 1, and the first one of the filtered list is 1. -/
theorem answers_filter_zeroOne :
    "EmptyList" ∈ ["EmptyList", "∅"] ∧ 0 < ([0, 1].filter (Bound.upTo 1).admits).length ∧
    Answers
      "((Nth ((Filter ((List 0) ((List (Successor 0)) EmptyList))) (λ n ((≤ n) (Successor 0))))) 0)"
      toNat 1 := by
  have hending : "EmptyList" ∈ ["EmptyList", "∅"] := by decide
  have hplace : 0 < ([0, 1].filter (Bound.upTo 1).admits).length := by decide
  have hfilter : [0, 1].filter (Bound.upTo 1).admits = [0, 1] := by decide
  have hfirst := (answers_filter "EmptyList" hending [0, 1] (.upTo 1)).2 0 hplace
  refine ⟨hending, hplace, ?_⟩
  simpa [hfilter, listing, numeral, Bound.source, Bound.comparison, toString] using hfirst

/-- **Filtering does not keep the order.** The elements of the list of 0 and 1 that are at most 1 are 0
and 1, but the first element of the filtered list is not decoded to 0. -/
theorem not_answers_filter_inOrder :
    [0, 1].filter (Bound.upTo 1).admits = [0, 1] ∧
    ¬Answers
      "((Nth ((Filter ((List 0) ((List (Successor 0)) EmptyList))) (λ n ((≤ n) (Successor 0))))) 0)"
      toNat 0 := by
  have hending : "EmptyList" ∈ ["EmptyList", "∅"] := by decide
  have hfirst : ([0, 1].filter (Bound.upTo 1).admits).reverse[0]? = some 1 := by decide
  have hexpresses := ((expresses_listing hending [0, 1]).filter (.upTo 1)).nth hfirst
  have hone := hexpresses.answers_number
  simp only [listing, numeral, Bound.source, Bound.comparison, toString, String.reduceAppend] at hone
  refine ⟨by decide, fun hzero => ?_⟩
  cases hzero.toNat_unique hone

end BaseLibrary

end ParenLambda
