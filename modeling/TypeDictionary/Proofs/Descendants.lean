import TypeDictionary.Proofs.Preorder

/-!
# The walk step by step

A walk keeps the elements that it still has to meet on a stack. Each step takes the one on top and
puts its children there instead, the last child first, so that the first child is met next. Taken
step by step the walk comes to an end, and has then met what `Element.walk` lists: the elements of
the subtree in document order.

Elements that are equal may stand in several places of a tree, so it is by their paths that they are
told apart. A path leads from the root down by child positions. In document order paths increase as
words do: a path comes before all that begin with it, and of two others the one that turns off to
the earlier child comes first.
-/

namespace TypeDictionary.Markup

/-- A walk under way: the elements that it still has to meet, the next one last. -/
structure Descendants where
  stack : List Element

namespace Descendants

/-- A walk over a subtree that has not begun. -/
def start (element : Element) : Descendants := ⟨[element]⟩

/-- The element that is met next, if there is one, and the walk behind it. -/
def next? (walk : Descendants) : Option (Element × Descendants) :=
  match walk.stack.getLast? with
  | none => none
  | some element => some (element, ⟨walk.stack.dropLast ++ element.children.reverse⟩)

/-- A walk that meets some elements in their order and then comes to its end. -/
inductive Meets : Descendants → List Element → Prop
  | done {walk : Descendants} (ended : walk.next? = none) : Meets walk []
  | step {walk later : Descendants} {element : Element} {rest : List Element}
      (met : walk.next? = some (element, later)) (others : Meets later rest) :
      Meets walk (element :: rest)

variable {walk : Descendants} {element : Element} {met other : List Element}

theorem next?_concat (below : List Element) (element : Element) :
    (⟨below ++ [element]⟩ : Descendants).next? =
      some (element, ⟨below ++ element.children.reverse⟩) := by
  simp only [next?, List.getLast?_concat, List.dropLast_concat]

/-- What a walk meets is determined by its stack. -/
theorem Meets.unique (h : walk.Meets met) (h' : walk.Meets other) : met = other := by
  induction h generalizing other with
  | done ended =>
      cases h' with
      | done _ => rfl
      | step met _ => rw [ended] at met; cases met
  | step met _ ih =>
      cases h' with
      | done ended => rw [ended] at met; cases met
      | step met' others =>
          rw [met] at met'
          cases met'
          rw [ih others]

/-- The stack holds what is pending in reverse, and a step keeps it so. The induction is that of
`Element.walk`, whose list of pending elements gets smaller in size with each step. -/
theorem meets_walk (pending : List Element) :
    (⟨pending.reverse⟩ : Descendants).Meets (Element.walk pending) := by
  induction pending using Element.walk.induct with
  | case1 =>
      rw [Element.walk]
      exact .done rfl
  | case2 element pending ih =>
      rw [Element.walk]
      apply Meets.step _ ih
      rw [List.reverse_cons, next?_concat, List.reverse_append]

theorem meets_start_iff : (start element).Meets met ↔ met = element.preorder := by
  have walked : (start element).Meets element.preorder := by
    rw [← Element.walk_singleton]
    exact meets_walk [element]
  constructor
  · intro h
    exact h.unique walked
  · rintro rfl
    exact walked

end Descendants

namespace Element

mutual

/-- The paths to the elements of a subtree, each before those of the element's children. -/
def paths : Element → List (List Nat)
  | ⟨_, _, children⟩ => [] :: pathsFrom 0 children

/-- The paths to the elements of some children, the first of which has the given position. -/
def pathsFrom (position : Nat) : List Element → List (List Nat)
  | [] => []
  | child :: rest => (paths child).map (position :: ·) ++ pathsFrom (position + 1) rest

end

mutual

theorem length_preorder : (element : Element) → element.preorder.length = element.size
  | ⟨_, _, children⟩ => by
      rw [preorder, size, List.length_cons, length_preorderAll children]

theorem length_preorderAll :
    (elements : List Element) → (preorderAll elements).length = sizeAll elements
  | [] => rfl
  | element :: rest => by
      rw [preorderAll, sizeAll, List.length_append, length_preorder element,
        length_preorderAll rest]

end

theorem paths_eq (element : Element) : element.paths = [] :: pathsFrom 0 element.children := by
  cases element
  rfl

theorem at?_cons {element child : Element} {position : Nat}
    (h : element.children[position]? = some child) (path : List Nat) :
    element.at? (position :: path) = child.at? path := by
  rw [at?, h]
  rfl

/-- A path below some children begins with the position of one of them. -/
theorem mem_pathsFrom_iff {position : Nat} {children : List Element} {path : List Nat} :
    path ∈ pathsFrom position children ↔
      ∃ place child below, children[place]? = some child ∧ below ∈ child.paths ∧
        path = (position + place) :: below := by
  induction children generalizing position with
  | nil => simp [pathsFrom]
  | cons first rest ih =>
      rw [pathsFrom, List.mem_append, List.mem_map, ih]
      constructor
      · rintro (⟨below, hbelow, rfl⟩ | ⟨place, child, below, hchild, hbelow, rfl⟩)
        · exact ⟨0, first, below, rfl, hbelow, rfl⟩
        · refine ⟨place + 1, child, below, hchild, hbelow, ?_⟩
          rw [Nat.add_assoc, Nat.add_comm 1]
      · rintro ⟨place, child, below, hchild, hbelow, rfl⟩
        cases place with
        | zero =>
            cases hchild
            exact .inl ⟨below, hbelow, rfl⟩
        | succ place =>
            refine .inr ⟨place, child, below, hchild, hbelow, ?_⟩
            rw [Nat.add_assoc, Nat.add_comm 1]

/-- The paths are all those that lead anywhere. -/
theorem mem_paths_iff {element : Element} {path : List Nat} :
    path ∈ element.paths ↔ ∃ found, element.at? path = some found := by
  induction path generalizing element with
  | nil => simp [paths_eq, at?]
  | cons position path ih =>
      rw [paths_eq, List.mem_cons, mem_pathsFrom_iff]
      constructor
      · rintro (root | ⟨place, child, below, hchild, hbelow, same⟩)
        · cases root
        · rw [Nat.zero_add] at same
          cases same
          rw [at?_cons hchild]
          exact ih.mp hbelow
      · rintro ⟨found, hfound⟩
        cases hchild : element.children[position]? with
        | none =>
            rw [at?, hchild] at hfound
            cases hfound
        | some child =>
            rw [at?_cons hchild] at hfound
            refine .inr ⟨position, child, path, hchild, ih.mpr ⟨found, hfound⟩, ?_⟩
            rw [Nat.zero_add]

mutual

theorem increasing_paths : (element : Element) → element.paths.Pairwise (List.Lex (· < ·))
  | ⟨_, _, children⟩ => by
      rw [paths, List.pairwise_cons]
      refine ⟨?_, increasing_pathsFrom 0 children⟩
      intro path hpath
      obtain ⟨_, _, _, _, _, rfl⟩ := mem_pathsFrom_iff.mp hpath
      exact .nil

/-- Paths below one child increase as they do from the child on, and those below a later child have
a greater position in front. -/
theorem increasing_pathsFrom : (position : Nat) → (children : List Element) →
    (pathsFrom position children).Pairwise (List.Lex (· < ·))
  | _, [] => .nil
  | position, child :: rest => by
      rw [pathsFrom, List.pairwise_append, List.pairwise_map]
      refine ⟨?_, increasing_pathsFrom (position + 1) rest, ?_⟩
      · exact (increasing_paths child).imp List.Lex.cons
      · intro path hpath other hother
        obtain ⟨_, _, rfl⟩ := List.mem_map.mp hpath
        obtain ⟨_, _, _, _, _, rfl⟩ := mem_pathsFrom_iff.mp hother
        apply List.Lex.rel
        omega

end

mutual

/-- The paths lead to the elements in the same order. -/
theorem map_at?_paths :
    (element : Element) → element.paths.map element.at? = element.preorder.map some
  | ⟨name, attributes, children⟩ => by
      have below := map_at?_pathsFrom ⟨name, attributes, children⟩ [] children rfl
      rw [List.length_nil] at below
      rw [paths, preorder, List.map_cons, List.map_cons, below]
      rfl

theorem map_at?_pathsFrom :
    (element : Element) → (before rest : List Element) → element.children = before ++ rest →
      (pathsFrom before.length rest).map element.at? = (preorderAll rest).map some
  | _, _, [], _ => rfl
  | element, before, child :: rest, split => by
      have here : element.children[before.length]? = some child := by simp [split]
      have later := map_at?_pathsFrom element (before ++ [child]) rest (by simp [split])
      rw [List.length_append, List.length_singleton] at later
      rw [pathsFrom, preorderAll, List.map_append, List.map_append, later, List.map_map,
        ← map_at?_paths child]
      congr 1
      apply List.map_congr_left
      intro path _
      exact at?_cons here path

end

/-- A walk over a subtree comes to its end after one step for each element. It has then met the
elements that the recursion on the tree lists, which stand at the paths of the subtree: each path
once, none left out, and in increasing order. A query for descendants is a filter of that list. -/
theorem descendants_in_document_order (element : Element) :
    (∀ met, (Descendants.start element).Meets met ↔ met = element.preorder) ∧
    walk [element] = element.preorder ∧
    element.preorder.length = element.size ∧
    element.paths.map element.at? = element.preorder.map some ∧
    element.paths.Pairwise (List.Lex (· < ·)) ∧
    (∀ path, path ∈ element.paths ↔ ∃ found, element.at? path = some found) ∧
    ∀ name, element.descendantsNamed name =
      element.preorder.filter fun descendant => descendant.name = name := by
  exact ⟨fun _ => Descendants.meets_start_iff, walk_singleton element, length_preorder element,
    map_at?_paths element, increasing_paths element, fun _ => mem_paths_iff,
    descendantsNamed_eq element⟩

end Element

end TypeDictionary.Markup
