/-!
# JSON values

A JSON document as a tree. Numbers keep the text of their literal, because what a number
means depends on where it is read (a binary32 coordinate, a binary64 size) and on the
codec that reads it; strings are decoded text; objects keep their members in document
order, repeated names included, since a later member overrides an earlier one when a
record is read.
-/

namespace AnnotationStore

inductive Json where
  | null
  | bool (b : Bool)
  | num (literal : String)
  | str (s : String)
  | arr (items : List Json)
  | obj (members : List (String × Json))
  deriving Inhabited, Repr

namespace Json

/-- The value of a member, the last one of that name. -/
def get? (j : Json) (name : String) : Option Json :=
  match j with
  | .obj ms => (ms.reverse.find? (·.1 == name)).map (·.2)
  | _ => none

end Json

end AnnotationStore
