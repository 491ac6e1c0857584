import AnnotationStore.Text.Quote

/-!
# Malformed annotation data

Why an annotation could not be built: the position of the entry in a payload (`-1` for a
single value or the payload as a whole), the field at fault (empty when none) and the
reason. `message` writes it in one of four forms, by whether an index and a field are
present.
-/

namespace AnnotationStore

structure Malformed where
  index : Int := -1
  field : String := ""
  reason : String
  deriving DecidableEq, Repr

namespace Malformed

/-- A fault of one field of a single value. -/
def atField (field reason : String) : Malformed := { field, reason }

def message (e : Malformed) : String :=
  let place :=
    if e.index < 0 then "malformed annotation data: "
    else "malformed annotation at index " ++ toString e.index ++ ": "
  let field := if e.field.isEmpty then "" else e.field ++ ": "
  place ++ field ++ e.reason

/-- The same fault located at an entry of a payload. -/
def atIndex (e : Malformed) (i : Int) : Malformed := { e with index := i }

end Malformed

end AnnotationStore
