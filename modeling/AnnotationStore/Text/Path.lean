/-!
# Slash-separated paths

Paths are cleaned lexically: repeated slashes and `.` parts go, each `..` removes the part
before it, a `..` with nothing before it stays in a relative path and goes at the start of
an absolute one, and the empty path is `.`. Joining puts a slash between the non-empty
parts and cleans the result; joining nothing but empty parts gives the empty path.
-/

namespace AnnotationStore.Path

/-- The parts of a path after lexical cleaning. -/
def cleanParts (rooted : Bool) (parts : List String) : List String :=
  parts.foldl (fun acc part =>
    if part.isEmpty || part == "." then acc
    else if part == ".." then
      if acc.isEmpty || acc.getLast? == some ".." then (if rooted then acc else acc ++ [part])
      else acc.dropLast
    else acc ++ [part]) []

/-- The shortest path naming the same place. -/
def clean (p : String) : String :=
  let rooted := p.startsWith "/"
  let body := "/".intercalate (cleanParts rooted ((p.toList.splitOn '/').map String.ofList))
  if rooted then "/" ++ body else if body.isEmpty then "." else body

/-- Two paths joined by a slash and cleaned. -/
def join (a b : String) : String :=
  if !a.isEmpty then clean (a ++ "/" ++ b) else if !b.isEmpty then clean b else ""

end AnnotationStore.Path
