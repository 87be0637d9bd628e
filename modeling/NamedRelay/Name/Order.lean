import NamedRelay.Name.Basic

/-!
# The order of names

Component by component, each compared byte by byte, then by chunk number with none first, then by
the label of the family.
-/

namespace NamedRelay.Name

def order (a b : Name) : Ordering :=
  (Ord.compare a.components b.components).then
    ((Ord.compare a.chunk b.chunk).then (Ord.compare a.suite.label b.suite.label))

/-- Sorts stably. -/
def sortBy {α : Type} (name : α → Name) (items : List α) : List α :=
  items.mergeSort fun x y => (order (name x) (name y)).isLE

end NamedRelay.Name
