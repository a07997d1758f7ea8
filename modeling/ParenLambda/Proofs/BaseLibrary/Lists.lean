import Mathlib.Algebra.GroupWithZero.Nat
import ParenLambda.Proofs.BaseLibrary.Booleans
import ParenLambda.Proofs.BaseLibrary.FixedPoint

/-!
# The lists of the base library

A list is a cell that holds its head, its tail and whether it is the end. Two lists with the same
elements need not be the same function: there are two empty lists, and an element or a tail may be any
value that behaves as it should. So a list is told by what the library can find out about it, whether it
is empty, its head and its tail (`ParenLambda.BaseLibrary.IsListOf`), and the operations lead from lists
to lists in this sense.

Elements by their places and folds are functions by recursion, through a fixed point that applies a
function to itself. Of this, `ParenLambda.BaseLibrary.maps_unrolled` is all that is needed: a function by
recursion does what its body does, where the body calls a function that does the same. The length, the
reverse and the image of a list are folds.
-/

namespace ParenLambda

namespace BaseLibrary

open ParenLambda.Computation Value
open Term (curried_cons curried_nil)

/-! ### Functions by recursion -/

section Recursion

variable (combinator : Combinator) {property : Value → Prop}

/-- The function whose fixed point a function by recursion is. -/
def functional : Value :=
  .closure "f" combinator.term .empty

/-- What a function by recursion calls itself: it waits for an argument before it is unrolled again. -/
def delayed : Value :=
  delay (functional combinator)

/-- **A function by recursion**, unrolled once. -/
def unrolled : Value :=
  combinator.within (.bind "f" (delayed combinator) .empty)

theorem attains_functional {self : Value} :
    (ofCall (functional combinator) self).Attains globals property ↔
      property (combinator.within (.bind "f" self .empty)) := by
  rw [functional, attains_closure, combinator.attains_term]

theorem attains_recursive :
    (ofTerm .empty (recursive combinator)).Attains globals property ↔
      property (unrolled combinator) := by
  have hfunctional : Value.closure "f" combinator.term .empty = functional combinator := rfl
  simp [recursive, hfunctional, attains_fixedPoint, attains_functional, unrolled, delayed,
    Scope.find?]

theorem attains_delayed {argument : Value} :
    (ofCall (delayed combinator) argument).Attains globals property ↔
      (ofCall (unrolled combinator) argument).Attains globals property := by
  rw [delayed, attains_delay, attains_functional, unrolled, delayed]

/-- **What a function by recursion maps** is settled by its body, in which it calls a function that does
as it does. -/
theorem maps_unrolled {given gained : Value → Prop}
    (h : ∀ self, (∀ argument property, (ofCall self argument).Attains globals property ↔
        (ofCall (unrolled combinator) argument).Attains globals property) →
      ∀ argument, given argument →
        (ofTerm (.bind combinator.parameter argument (.bind "f" self .empty))
          combinator.body).Attains globals gained) :
    (unrolled combinator).Maps globals given gained := by
  refine (combinator.maps_within (.bind "f" (delayed combinator) .empty)).mpr ?_
  exact h (delayed combinator) fun _ _ => attains_delayed combinator

end Recursion

theorem find?_recursive {name : String} {combinator : Combinator}
    (h : (name, recursive combinator) ∈ definitions) :
    globals.find? name = some (unrolled combinator) :=
  (attains_recursive combinator).mp (attains_definition h)

@[simp] theorem find?_nth : globals.find? "Nth" = some (unrolled nth) :=
  find?_recursive (by simp [definitions])

@[simp] theorem find?_fold : globals.find? "Fold" = some (unrolled fold) :=
  find?_recursive (by simp [definitions])

/-! ### The cells of lists -/

section Cells

variable {first rest ending : Value} {property : Value → Prop}

/-- **A cell of a list**: its head, its tail, and whether it is the end. -/
def cell (first rest ending : Value) : Value :=
  .closure "f" (.spine (.atom "f") [.atom "x", .atom "y", .atom "z"])
    (.bind "z" ending (.bind "y" rest (.bind "x" first .empty)))

theorem attains_triple :
    (ofCall triple.value first).Attains globals (fun second =>
      (ofCall second rest).Attains globals fun third =>
        (ofCall third ending).Attains globals property) ↔
      property (cell first rest ending) := by
  rw [Combinator.attains_value]
  simp [triple, cell]

/-- A selector of a cell gives the part that it names. -/
theorem attains_selector {part : String} :
    (ofCall (selector part).value (cell first rest ending)).Attains globals property ↔
      (ofTerm (.bind "n" ending (.bind "t" rest (.bind "h" first
        (.bind "l" (cell first rest ending) .empty)))) (.atom part)).Attains globals property := by
  rw [Combinator.attains_value]
  simp [selector, cell, Scope.find?]

theorem attains_head :
    (ofCall head.value (cell first rest ending)).Attains globals property ↔ property first :=
  attains_selector.trans (by simp [Scope.find?])

theorem attains_tail :
    (ofCall tail.value (cell first rest ending)).Attains globals property ↔ property rest :=
  attains_selector.trans (by simp [Scope.find?])

theorem attains_isEmpty :
    (ofCall isEmpty.value (cell first rest ending)).Attains globals property ↔ property ending :=
  attains_selector.trans (by simp [Scope.find?])

@[simp] theorem find?_emptyList :
    globals.find? "EmptyList" = some (cell zero.value zero.value truth.value) := by
  have hdefinition : (ofTerm .empty emptyList).Attains globals fun value =>
      globals.find? "EmptyList" = some value := attains_definition (by simp [definitions])
  have hcalls : (ofCall triple.value zero.value).Attains globals fun second =>
      (ofCall second zero.value).Attains globals fun third =>
        (ofCall third truth.value).Attains globals fun value =>
          globals.find? "EmptyList" = some value := by
    simpa [emptyList, Scope.find?] using hdefinition
  exact attains_triple.mp hcalls

end Cells

/-! ### Lists -/

section Lists

variable {α β : Type} {element : α → Value → Prop} {x : α} {xs : List α}

/-- **A list** of elements, given by how an element is known: the library's test for emptiness, its head
and its tail tell the elements in order. -/
def IsListOf (element : α → Value → Prop) : List α → Value → Prop
  | [], list => (ofCall isEmpty.value list).Attains globals (IsTruth globals true)
  | x :: xs, list =>
    (ofCall isEmpty.value list).Attains globals (IsTruth globals false) ∧
      (ofCall head.value list).Attains globals (element x) ∧
      (ofCall tail.value list).Attains globals (IsListOf element xs)

theorem maps_isEmpty :
    Maps globals (IsListOf element xs) (IsTruth globals xs.isEmpty) isEmpty.value := by
  intro list hlist
  cases xs with
  | nil => exact hlist
  | cons x xs => exact hlist.1

theorem isListOf_emptyList : IsListOf element [] (cell zero.value zero.value truth.value) :=
  attains_isEmpty.mpr isTruth_truth

theorem isListOf_null : IsListOf element [] null.value := by
  have hnull : Maps globals (fun _ => True) (IsTruth globals true) null.value := by
    rw [Combinator.maps_value]
    simpa [null, Scope.find?] using fun _ => isTruth_truth
  rw [IsListOf, Combinator.attains_value]
  simpa [isEmpty, selector, Scope.find?] using hnull _ trivial

theorem maps_cons :
    Maps globals (element x) (Maps globals (IsListOf element xs) (IsListOf element (x :: xs)))
      cons.value := by
  have hcell : ∀ first, element x first → ∀ rest, IsListOf element xs rest →
      IsListOf element (x :: xs) (cell first rest falsehood.value) := by
    intro first hfirst rest hrest
    refine ⟨attains_isEmpty.mpr isTruth_falsehood, attains_head.mpr hfirst, ?_⟩
    exact attains_tail.mpr hrest
  rw [Combinator.maps_value]
  simpa [cons, Maps, attains_triple, Scope.find?] using hcell

/-- **A function computes another one**: at a value of `x` it ends in a value of `f x`. -/
def Computes (element : α → Value → Prop) (image : β → Value → Prop) (f : α → β)
    (function : Value) : Prop :=
  ∀ x, function.Maps globals (element x) (image (f x))

/-- **A function combines**: at a value of `a` and then one of `x` it ends in a value of
`combine a x`. -/
def Combines (found : β → Value → Prop) (element : α → Value → Prop) (combine : β → α → β)
    (function : Value) : Prop :=
  ∀ a x, function.Maps globals (found a) (Maps globals (element x) (found (combine a x)))

/-- **Elements by their places**, counted from 0. -/
theorem maps_nth {i : Nat} (h : xs[i]? = some x) :
    Maps globals (IsListOf element xs) (Maps globals (IsNumeral globals i) (element x))
      (unrolled nth) := by
  -- The place counts down as the list gets shorter, so the induction is for every place.
  induction xs generalizing i with
  | nil => cases h
  | cons first rest ih =>
    refine maps_unrolled nth fun self hself => ?_
    simp only [nth, curried_cons, curried_nil, Maps, attains_abstraction, attains_closure]
    intro list hlist index hindex
    obtain ⟨-, hhead, htail⟩ := hlist
    refine attains_branch (i = 0) rfl rfl ?_ ?_ ?_
    · simpa [Scope.find?] using maps_isZero index hindex
    · intro hzero
      obtain rfl : i = 0 := of_decide_eq_true hzero
      obtain rfl : first = x := by simpa using h
      simpa [Scope.find?] using hhead
    · intro hpositive
      obtain ⟨k, rfl⟩ := Nat.exists_eq_succ_of_ne_zero (of_decide_eq_false hpositive)
      have hcalls : (ofCall tail.value list).Attains globals fun later =>
          (ofCall (unrolled nth) later).Attains globals fun counting =>
            (ofCall predecessor.value index).Attains globals fun before =>
              (ofCall counting before).Attains globals (element x) := by
        refine htail.imp fun later hlater => ?_
        refine (ih (by simpa using h) later hlater).imp fun counting hcounting => ?_
        exact (maps_predecessor index hindex).imp hcounting
      simpa [hself, Scope.find?] using hcalls

/-- **Folding** a list combines its elements one after the other, from the first to the last, with what
has been found so far. -/
theorem maps_fold (found : β → Value → Prop) (combine : β → α → β) (start : β) :
    Maps globals (IsListOf element xs)
      (Maps globals (Combines found element combine)
        (Maps globals (found start) (found (xs.foldl combine start))))
      (unrolled fold) := by
  -- What has been found so far changes from one element to the next.
  induction xs generalizing start with
  | nil =>
    refine maps_unrolled fold fun self hself => ?_
    simp only [fold, curried_cons, curried_nil, Maps, attains_abstraction, attains_closure]
    intro list hlist combining _ initial hinitial
    refine attains_branch true rfl rfl ?_ (fun _ => ?_) (fun hfalse => by cases hfalse)
    · simpa [Scope.find?] using maps_isEmpty list hlist
    · simpa [Scope.find?] using hinitial
  | cons first rest ih =>
    refine maps_unrolled fold fun self hself => ?_
    simp only [fold, curried_cons, curried_nil, Maps, attains_abstraction, attains_closure]
    intro list hlist combining hcombining initial hinitial
    obtain ⟨hempty, hhead, htail⟩ := hlist
    refine attains_branch false rfl rfl ?_ (fun htrue => by cases htrue) (fun _ => ?_)
    · simpa [Scope.find?] using hempty
    · have hcalls : (ofCall tail.value list).Attains globals fun later =>
          (ofCall (unrolled fold) later).Attains globals fun folding =>
            (ofCall folding combining).Attains globals fun folding =>
              (ofCall combining initial).Attains globals fun combined =>
                (ofCall head.value list).Attains globals fun head =>
                  (ofCall combined head).Attains globals fun next =>
                    (ofCall folding next).Attains globals
                      (found ((first :: rest).foldl combine start)) := by
        refine htail.imp fun later hlater => ?_
        refine (ih (combine start first) later hlater).imp fun folding hfolding => ?_
        refine (hfolding combining hcombining).imp fun folding hfolding => ?_
        refine (hcombining start first initial hinitial).imp fun combined hcombined => ?_
        refine hhead.imp fun head hhead => ?_
        exact (hcombined head hhead).imp hfolding
      simpa [hself, Scope.find?] using hcalls

/-- A term that folds, from what its parts attain. -/
theorem attains_fold (element : α → Value → Prop) (found : β → Value → Prop) (combine : β → α → β)
    (start : β) {scope : Scope} {list combining initial : Term} (hfold : scope.find? "Fold" = none)
    (hlist : (ofTerm scope list).Attains globals (IsListOf element xs))
    (hcombining : (ofTerm scope combining).Attains globals (Combines found element combine))
    (hinitial : (ofTerm scope initial).Attains globals (found start)) :
    (ofTerm scope (.spine (.atom "Fold") [list, combining, initial])).Attains globals
      (found (xs.foldl combine start)) := by
  have hcalls : (ofTerm scope list).Attains globals fun list =>
      (ofCall (unrolled fold) list).Attains globals fun folding =>
        (ofTerm scope combining).Attains globals fun combining =>
          (ofCall folding combining).Attains globals fun folding =>
            (ofTerm scope initial).Attains globals fun initial =>
              (ofCall folding initial).Attains globals (found (xs.foldl combine start)) := by
    refine hlist.imp fun list hlist => ?_
    refine (maps_fold found combine start list hlist).imp fun folding hfolding => ?_
    refine hcombining.imp fun combining hcombining => ?_
    refine (hfolding combining hcombining).imp fun folding hfolding => ?_
    exact hinitial.imp hfolding
  simpa [hfold] using hcalls

theorem maps_length :
    Maps globals (IsListOf element xs) (IsNumeral globals xs.length) length.value := by
  have hlength : xs.foldl (fun n _ => n + 1) 0 = xs.length := by simp
  have hcounting : ∀ n x count, IsNumeral globals n count → ∀ head, element x head →
      (ofCall successor.value count).Attains globals (IsNumeral globals (n + 1)) :=
    fun _ _ count hcount _ _ => maps_successor count hcount
  rw [Combinator.maps_value]
  intro list hlist
  rw [← hlength]
  refine attains_fold element (IsNumeral globals) (fun n _ => n + 1) 0 rfl ?_ ?_ ?_
  · simpa [length, Scope.find?] using hlist
  · simpa [length, Combines, Maps, Scope.find?] using hcounting
  · simpa [length, Scope.find?] using isNumeral_zero

/-- **Mapping from the right** puts every image in front of the earlier ones. -/
theorem maps_mapRight (image : β → Value → Prop) (f : α → β) :
    Maps globals (IsListOf element xs)
      (Maps globals (Computes element image f) (IsListOf image (xs.map f).reverse))
      mapRight.value := by
  have hreverse : xs.foldl (fun mapped x => f x :: mapped) [] = (xs.map f).reverse := by simp
  rw [Combinator.maps_value]
  simp only [mapRight, curried_cons, curried_nil, Maps, attains_abstraction, attains_closure]
  intro list hlist function hfunction
  have hcombining : ∀ ys x mapped, IsListOf image ys mapped → ∀ head, element x head →
      (ofCall function head).Attains globals fun new =>
        (ofCall cons.value new).Attains globals fun consing =>
          (ofCall consing mapped).Attains globals (IsListOf image (f x :: ys)) := by
    intro ys x mapped hmapped head hhead
    refine (hfunction x head hhead).imp fun new hnew => ?_
    exact (maps_cons new hnew).imp fun consing hconsing => hconsing mapped hmapped
  rw [← hreverse]
  refine attains_fold element (IsListOf image) (fun mapped x => f x :: mapped) [] rfl ?_ ?_ ?_
  · simpa [Scope.find?] using hlist
  · simpa [Combines, Maps, Scope.find?] using hcombining
  · simpa [Scope.find?] using isListOf_emptyList

theorem maps_reverse :
    Maps globals (IsListOf element xs) (IsListOf element xs.reverse) reverse.value := by
  have hcalls : ∀ list, IsListOf element xs list →
      (ofCall mapRight.value list).Attains globals fun mapping =>
        (ofCall mapping identity.value).Attains globals (IsListOf element xs.reverse) := by
    intro list hlist
    have hmapping := maps_mapRight element id list hlist
    rw [List.map_id] at hmapping
    exact hmapping.imp fun mapping hmapping => hmapping identity.value fun x => maps_identity
  rw [Combinator.maps_value]
  simpa [reverse, Scope.find?] using hcalls

/-- **Mapping** reverses twice, and so keeps the order. -/
theorem maps_map (image : β → Value → Prop) (f : α → β) :
    Maps globals (IsListOf element xs)
      (Maps globals (Computes element image f) (IsListOf image (xs.map f))) map.value := by
  have hcalls : ∀ list, IsListOf element xs list → ∀ function, Computes element image f function →
      (ofCall mapRight.value list).Attains globals fun mapping =>
        (ofCall mapping function).Attains globals fun reversed =>
          (ofCall reverse.value reversed).Attains globals (IsListOf image (xs.map f)) := by
    intro list hlist function hfunction
    refine (maps_mapRight image f list hlist).imp fun mapping hmapping => ?_
    refine (hmapping function hfunction).imp fun reversed hreversed => ?_
    have hmap := maps_reverse reversed hreversed
    rwa [List.reverse_reverse] at hmap
  rw [Combinator.maps_value]
  simpa [map, Maps, Scope.find?] using hcalls

end Lists

/-! ### Sources with lists -/

section Sources

variable {source function : String} {xs : List Nat} {i x : Nat}

/-- **The source of a list of numbers**, with a given source for the end. -/
def listing (ending : String) : List Nat → String
  | [] => ending
  | x :: xs => s!"((List {numeral x}) {listing ending xs})"

theorem expresses_listing {ending : String} (hending : ending ∈ ["EmptyList", "∅"])
    (xs : List Nat) : Expresses (listing ending xs) (IsListOf (IsNumeral globals) xs) := by
  induction xs with
  | nil =>
    rcases List.mem_pair.mp hending with rfl | rfl
    · exact expresses_symbol "EmptyList" "EmptyList" (by decide) (by simp) isListOf_emptyList
    · exact expresses_symbol "∅" "T_NULL" (by decide) (by simp) isListOf_null
  | cons x xs ih =>
    exact expresses_call₂ "List" "List" (by decide) (by simp) maps_cons (expresses_numeral x) ih

theorem Expresses.sum (h : Expresses source (IsListOf (IsNumeral globals) xs)) :
    Expresses s!"(((Fold {source}) +) 0)" (IsNumeral globals xs.sum) := by
  have hplus : Expresses "+" (Combines (IsNumeral globals) (IsNumeral globals) (· + ·)) :=
    expresses_symbol "+" "T_PLUS" (by decide) (by simp) fun _ _ => maps_plus
  have hfold := expresses_call₂ "Fold" "Fold" (by decide) (by simp)
    (maps_fold (IsNumeral globals) (· + ·) 0) h hplus
  rw [List.sum_eq_foldl]
  exact (hfold.application (expresses_numeral 0)).congr (by simp [toString, numeral])

theorem Expresses.nth (h : Expresses source (IsListOf (IsNumeral globals) xs))
    (hx : xs[i]? = some x) :
    Expresses s!"((Nth {source}) {numeral i})" (IsNumeral globals x) :=
  expresses_call₂ "Nth" "Nth" (by decide) (by simp) (maps_nth hx) h (expresses_numeral i)

theorem Expresses.nth_reverse (h : Expresses source (IsListOf (IsNumeral globals) xs))
    (hx : xs.reverse[i]? = some x) :
    Expresses s!"((Nth (Reverse {source})) {numeral i})" (IsNumeral globals x) := by
  have hreverse := expresses_call "Reverse" "Reverse" (by decide) (by simp) maps_reverse h
  exact (hreverse.nth hx).congr (by simp [toString])

/-- The elements of a list that is mapped by a function on numbers. -/
theorem Expresses.nth_map (h : Expresses source (IsListOf (IsNumeral globals) xs)) {f : Nat → Nat}
    (hfunction : Expresses function (Computes (IsNumeral globals) (IsNumeral globals) f))
    (hx : xs[i]? = some x) :
    Expresses s!"((Nth ((Map {source}) {function})) {numeral i})" (IsNumeral globals (f x)) := by
  have hmap := expresses_call₂ "Map" "Map" (by decide) (by simp) (maps_map (IsNumeral globals) f) h
    hfunction
  exact (hmap.nth (by rw [List.getElem?_map, hx, Option.map_some])).congr (by simp [toString])

/-- A number to be added, as a function. -/
theorem expresses_adding (c : Nat) :
    Expresses s!"(+ {numeral c})" (Computes (IsNumeral globals) (IsNumeral globals) (c + ·)) := by
  have hadding : plus.value.Maps globals (IsNumeral globals c)
      (Computes (IsNumeral globals) (IsNumeral globals) (c + ·)) :=
    fun first hfirst => attains_forall fun x => maps_plus first hfirst
  exact expresses_call "+" "T_PLUS" (by decide) (by simp) hadding (expresses_numeral c)

end Sources

/-- **The list operations of the base library are right on all lists.** Behind the library, of the
source of a list of numbers, with either of the two ends, the test for emptiness, the length, the sum by
folding and every element are decoded to those of the list; so are the elements of its reverse and, for
each of the three functions, of its image. -/
theorem answers_lists (ending : String) (hending : ending ∈ ["EmptyList", "∅"]) (xs : List Nat) :
    Answers s!"(Is-Empty {listing ending xs})" toBool (xs.length = 0) ∧
    Answers s!"(Length {listing ending xs})" toNat xs.length ∧
    Answers s!"(((Fold {listing ending xs}) +) 0)" toNat xs.sum ∧
    ∀ i (hi : i < xs.length),
      Answers s!"((Nth {listing ending xs}) {numeral i})" toNat xs[i] ∧
      Answers s!"((Nth (Reverse {listing ending xs})) {numeral i})" toNat xs[xs.length - 1 - i] ∧
      Answers s!"((Nth ((Map {listing ending xs}) Successor)) {numeral i})" toNat (xs[i] + 1) ∧
      Answers s!"((Nth ((Map {listing ending xs}) Predecessor)) {numeral i})" toNat (xs[i] - 1) ∧
      ∀ c, Answers s!"((Nth ((Map {listing ending xs}) (+ {numeral c}))) {numeral i})" toNat
        (c + xs[i]) := by
  have hlist := expresses_listing hending xs
  have hisEmpty := expresses_call "Is-Empty" "Is_Empty" (by decide) (by simp) maps_isEmpty hlist
  have hempty : xs.isEmpty = decide (xs.length = 0) := by cases xs <;> rfl
  rw [hempty] at hisEmpty
  have hlength := expresses_call "Length" "Length" (by decide) (by simp) maps_length hlist
  refine ⟨hisEmpty.answers_truth, hlength.answers_number, hlist.sum.answers_number, fun i hi => ?_⟩
  have helement : xs[i]? = some xs[i] := List.getElem?_eq_getElem hi
  have hreversed : xs.reverse[i]? = some xs[xs.length - 1 - i] := by simp [hi]
  have hsuccessor : Expresses "Successor"
      (Computes (IsNumeral globals) (IsNumeral globals) (· + 1)) :=
    expresses_symbol "Successor" "Successor" (by decide) (by simp) fun _ => maps_successor
  have hpredecessor : Expresses "Predecessor"
      (Computes (IsNumeral globals) (IsNumeral globals) (· - 1)) :=
    expresses_symbol "Predecessor" "Predecessor" (by decide) (by simp) fun _ => maps_predecessor
  refine ⟨(hlist.nth helement).answers_number, (hlist.nth_reverse hreversed).answers_number,
    ?_, ?_, fun c => ?_⟩
  · exact ((hlist.nth_map hsuccessor helement).congr (by simp [toString])).answers_number
  · exact ((hlist.nth_map hpredecessor helement).congr (by simp [toString])).answers_number
  · exact ((hlist.nth_map (expresses_adding c) helement).congr (by simp [toString])).answers_number

/-- A list of two numbers with the shorter end: its length, the first element of its reverse, and the
first of its image. -/
theorem answers_lists_oneZero :
    "∅" ∈ ["EmptyList", "∅"] ∧ 0 < [1, 0].length ∧
    Answers "(Length ((List (Successor 0)) ((List 0) ∅)))" toNat 2 ∧
    Answers "((Nth (Reverse ((List (Successor 0)) ((List 0) ∅)))) 0)" toNat 0 ∧
    Answers "((Nth ((Map ((List (Successor 0)) ((List 0) ∅))) (+ (Successor 0)))) 0)" toNat 2 := by
  have hending : "∅" ∈ ["EmptyList", "∅"] := by decide
  have hplace : 0 < [1, 0].length := by decide
  obtain ⟨-, hlength, -, helements⟩ := answers_lists "∅" hending [1, 0]
  obtain ⟨-, hreverse, -, -, hadding⟩ := helements 0 hplace
  exact ⟨hending, hplace, hlength, hreverse, hadding 1⟩

end BaseLibrary

end ParenLambda
