/-!
# Parentheses that match

Tokens have parentheses, and so have the texts of the backends. What is said here holds of both, and of
any list whose entries carry a **weight**: one for an opening parenthesis, minus one for a closing one,
zero for anything else. The depth of a list is the sum of its weights. A list *keeps* what is open if
nowhere in it the depth falls below zero, so that nothing is closed that was opened before the list,
and it is *balanced* if in addition it closes all that it opens itself.
-/

namespace ParenLambda

namespace Nesting

variable {α : Type} (weight : α → Int)

/-- **The depth of a list**: how many more parentheses it opens than it closes. -/
def depth : List α → Int
  | [] => 0
  | entry :: rest => weight entry + depth rest

@[simp] theorem depth_nil : depth weight [] = 0 := rfl

@[simp] theorem depth_cons (entry : α) (rest : List α) :
    depth weight (entry :: rest) = weight entry + depth weight rest := rfl

@[simp] theorem depth_append (left right : List α) :
    depth weight (left ++ right) = depth weight left + depth weight right := by
  induction left with
  | nil => simp
  | cons entry left ih =>
    rw [List.cons_append, depth_cons, depth_cons, ih]
    omega

/-- **A list keeps open what is open**: nowhere in it have more parentheses been closed than opened. -/
def Keeps (list : List α) : Prop :=
  ∀ front, front <+: list → 0 ≤ depth weight front

/-- **A balanced list** closes the parentheses that it opens, and no others. -/
structure Balanced (list : List α) : Prop where
  /-- No others are closed. -/
  keeps : Keeps weight list
  /-- As many are closed as opened. -/
  depth_eq : depth weight list = 0

variable {weight} {left right list : List α}

theorem Keeps.append (hleft : Keeps weight left) (hright : Keeps weight right) :
    Keeps weight (left ++ right) := by
  rintro front ⟨back, hback⟩
  rcases List.append_eq_append_iff.mp hback with ⟨more, rfl, -⟩ | ⟨more, rfl, rfl⟩
  · exact hleft front (List.prefix_append front more)
  · have hfront := hleft left (List.prefix_refl left)
    have hmore := hright more (List.prefix_append more back)
    rw [depth_append]
    omega

theorem Balanced.append (hleft : Balanced weight left) (hright : Balanced weight right) :
    Balanced weight (left ++ right) := by
  refine ⟨hleft.keeps.append hright.keeps, ?_⟩
  rw [depth_append, hleft.depth_eq, hright.depth_eq, Int.add_zero]

/-- A list without parentheses is balanced. -/
theorem balanced_of_forall (h : ∀ entry ∈ list, weight entry = 0) : Balanced weight list := by
  have hzero : ∀ front, (∀ entry ∈ front, weight entry = 0) → depth weight front = 0 := by
    intro front hfront
    induction front with
    | nil => rfl
    | cons entry front ih =>
      rw [depth_cons, hfront entry List.mem_cons_self,
        ih fun other hother => hfront other (List.mem_cons_of_mem _ hother), Int.add_zero]
  refine ⟨fun front hfront => ?_, hzero list h⟩
  exact Int.le_of_eq (hzero front fun entry hentry => h entry (hfront.subset hentry)).symm

theorem balanced_flatMap {β : Type} {f : β → List α} {entries : List β}
    (h : ∀ entry ∈ entries, Balanced weight (f entry)) : Balanced weight (entries.flatMap f) := by
  induction entries with
  | nil => exact balanced_of_forall (by simp)
  | cons entry rest ih =>
    rw [List.flatMap_cons]
    exact (h entry List.mem_cons_self).append
      (ih fun other hother => h other (List.mem_cons_of_mem _ hother))

/-- A balanced list in parentheses is balanced. -/
theorem Balanced.enclose {opening closing : α} (hopening : weight opening = 1)
    (hclosing : weight closing = -1) (h : Balanced weight list) :
    Balanced weight (opening :: (list ++ [closing])) := by
  have hdepth : depth weight (opening :: (list ++ [closing])) = 0 := by
    simp [hopening, hclosing, h.depth_eq]
  refine ⟨fun front hfront => ?_, hdepth⟩
  rcases List.prefix_cons_iff.mp hfront with rfl | ⟨tail, rfl, htail⟩
  · exact Int.le_refl 0
  · rcases List.prefix_concat_iff.mp htail with rfl | htail
    · omega
    · have htail := h.keeps tail htail
      rw [depth_cons, hopening]
      omega

/-- Of a parenthesis that a balanced list opens, the list behind it does not keep it open. -/
theorem Balanced.not_keeps {between tail : List α} {opening : α} (hopening : weight opening = 1)
    (h : Balanced weight (between ++ opening :: tail)) : ¬Keeps weight tail := by
  intro htail
  have hbetween := h.keeps between (List.prefix_append between _)
  have hdepth := h.depth_eq
  have hrest := htail tail (List.prefix_refl tail)
  rw [depth_append, depth_cons, hopening] at hdepth
  omega

/-- **The last parenthesis of a list closes one group only**: what is in the group, and what comes before
it, are unique. Of two such groups the longer one would hold the opening parenthesis of the other. -/
theorem last_group_unique {inner inner' : List α} {opening opening' closing closing' : α}
    {front front' : List α} (hopening : weight opening = 1) (hopening' : weight opening' = 1)
    (hinner : Balanced weight inner) (hinner' : Balanced weight inner')
    (h : front ++ opening :: (inner ++ [closing]) = front' ++ opening' :: (inner' ++ [closing'])) :
    front = front' ∧ inner = inner' := by
  have hconcat : (front ++ opening :: inner) ++ [closing] =
      (front' ++ opening' :: inner') ++ [closing'] := by
    simpa using h
  have hgroups := (List.append_inj' hconcat rfl).1
  rcases List.append_eq_append_iff.mp hgroups with ⟨more, rfl, hmore⟩ | ⟨more, rfl, hmore⟩
  · cases more with
    | nil => exact ⟨(List.append_nil front).symm, (List.cons.inj hmore).2⟩
    | cons first more =>
      obtain ⟨-, rfl⟩ := List.cons.inj hmore
      exact absurd hinner'.keeps (hinner.not_keeps hopening')
  · cases more with
    | nil => exact ⟨List.append_nil front', (List.cons.inj hmore).2.symm⟩
    | cons first more =>
      obtain ⟨-, rfl⟩ := List.cons.inj hmore
      exact absurd hinner.keeps (hinner'.not_keeps hopening)

end Nesting

end ParenLambda
