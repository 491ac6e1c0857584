import AnnotationStore.Log.Level
import AnnotationStore.Store.Error
/-!
# Log records

A record is a level, a message and attributes in the order they were given. Attribute
values are texts, signed counts, unsigned 64-bit counts, flags or errors.
-/

namespace AnnotationStore.Log

inductive Value where
  | text (s : String)
  | int (n : Int)
  /-- An unsigned 64-bit count, such as a generation. -/
  | wide (n : Nat)
  | flag (b : Bool)
  | failure (e : StoreError)

structure Record where
  level : Level
  message : String
  attrs : List (String × Value) := []

def debug (m : String) (attrs : List (String × Value)) : Record := ⟨.debug, m, attrs⟩

def info (m : String) (attrs : List (String × Value)) : Record := ⟨.info, m, attrs⟩

def warn (m : String) (attrs : List (String × Value)) : Record := ⟨.warn, m, attrs⟩

def error (m : String) (attrs : List (String × Value)) : Record := ⟨.error, m, attrs⟩

end AnnotationStore.Log
