import Xps.Markup.Reader

/-!
# Forests of elements

Markup whose tags nest is a forest: a list of elements, each with attributes and a forest inside.
Its events are its tags in document order.
-/

namespace Xps

inductive Forest
  | nil
  /-- An element with the forest inside, and the forest that follows it. -/
  | cons (name : String) (attributes : Attributes) (children rest : Forest)

namespace Forest

/-- The tags of a forest. -/
def events : Forest → List MarkupEvent
  | nil => []
  | cons name attributes children rest =>
    .start name attributes :: (children.events ++ .stop name :: rest.events)

end Forest

end Xps
