import TypeDictionary.Markup.Element

/-!
# The order of the walk

Taking pending elements one by one, and putting the children of each in front of the rest, meets the
elements of a tree in document order: each before its children, and the subtree of each child before
the next child. So a query for descendants is a filter of `preorder`.
-/

namespace TypeDictionary.Markup

namespace Element

theorem preorder_eq (element : Element) :
    element.preorder = element :: preorderAll element.children := by
  cases element
  rfl

theorem preorderAll_append (first second : List Element) :
    preorderAll (first ++ second) = preorderAll first ++ preorderAll second := by
  induction first with
  | nil => rfl
  | cons element rest ih => simp only [List.cons_append, preorderAll, ih, List.append_assoc]

theorem preorderAll_eq_flatMap (elements : List Element) :
    preorderAll elements = elements.flatMap preorder := by
  induction elements with
  | nil => rfl
  | cons element rest ih => rw [preorderAll, ih, List.flatMap_cons]

theorem walk_eq_preorderAll (pending : List Element) : walk pending = preorderAll pending := by
  induction pending using walk.induct with
  | case1 => rw [walk, preorderAll]
  | case2 element pending ih =>
      rw [walk, ih, preorderAll_append, preorderAll, preorder_eq, List.cons_append]

/-- A walk over one subtree meets it in document order. -/
theorem walk_singleton (element : Element) : walk [element] = element.preorder := by
  rw [walk_eq_preorderAll, preorderAll, preorderAll, List.append_nil]

theorem descendantsNamed_eq (element : Element) (name : String) :
    element.descendantsNamed name =
      element.preorder.filter fun descendant => descendant.name = name := by
  rw [descendantsNamed, walk_singleton]

end Element

end TypeDictionary.Markup
