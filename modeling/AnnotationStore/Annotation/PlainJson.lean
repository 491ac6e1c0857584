import AnnotationStore.Annotation.Plain
import AnnotationStore.Json.Codec

/-!
# The plain form in JSON

Writing: members in the order `id, type, description, anntype, reviewed, visited, segments,
size, point, pointA, pointB, center, radii, points`; `id` and `type` always, the others only
when not empty, false or absent. Segments are `[["hi","lo"], ...]`. Numbers are written by
the codec, which may refuse a non-finite value; then there is no text.

Reading: an object, or `null` for the empty form. Member names match field names ignoring
case; a later member overrides an earlier one; unknown members are skipped. A member of the
wrong JSON type, or a number the codec refuses, makes the whole value unreadable. `null`
leaves a scalar field as it was and empties a list; inside a coordinate list it reads as 0,
inside the segment list as an empty pair. Only the first two words of a segment pair are
read.
-/

namespace AnnotationStore

namespace PlainJson

/-- A member name with letters folded to lower case, the Kelvin sign to `k` and the long s
to `s`, for matching names without regard to case. -/
def foldName (s : String) : String :=
  String.ofList (s.toList.map fun c =>
    if c.isUpper then c.toLower
    else if c.toNat = 0x212A then 'k'
    else if c.toNat = 0x17F then 's'
    else c)

def string? (old : String) : Json → Option String
  | .str s => some s
  | .null => some old
  | _ => none

def bool? (old : Bool) : Json → Option Bool
  | .bool b => some b
  | .null => some old
  | _ => none

def coord? (c : Codec) : Json → Option Float32
  | .num t => c.readFloat32 t
  | .null => some 0
  | _ => none

def coords? (c : Codec) : Json → Option (List Float32)
  | .arr xs => xs.mapM (coord? c)
  | .null => some []
  | _ => none

def coordLists? (c : Codec) : Json → Option (List (List Float32))
  | .arr xs => xs.mapM (coords? c)
  | .null => some []
  | _ => none

def word? : Json → Option String
  | .str s => some s
  | .null => some ""
  | _ => none

/-- A segment pair: the first two words of an array. -/
def pair? : Json → Option (String × String)
  | .arr xs => do
    let a ← match xs with
      | x :: _ => word? x
      | [] => some ""
    let b ← match xs with
      | _ :: y :: _ => word? y
      | _ => some ""
    pure (a, b)
  | .null => some ("", "")
  | _ => none

def pairs? : Json → Option (List (String × String))
  | .arr xs => xs.mapM pair?
  | .null => some []
  | _ => none

def size? (c : Codec) : Json → Option (Option Float)
  | .num t => (c.readFloat t).map some
  | .null => some none
  | _ => none

def setMember (c : Codec) (p : Plain) (name : String) (v : Json) : Option Plain :=
  match foldName name with
  | "id" => (string? p.id v).map fun x => { p with id := x }
  | "type" => (string? p.tag v).map fun x => { p with tag := x }
  | "description" => (string? p.description v).map fun x => { p with description := x }
  | "anntype" => (string? p.annType v).map fun x => { p with annType := x }
  | "reviewed" => (bool? p.reviewed v).map fun x => { p with reviewed := x }
  | "visited" => (bool? p.visited v).map fun x => { p with visited := x }
  | "segments" => (pairs? v).map fun x => { p with segments := x }
  | "size" => (size? c v).map fun x => { p with size := x }
  | "point" => (coords? c v).map fun x => { p with point := x }
  | "pointa" => (coords? c v).map fun x => { p with pointA := x }
  | "pointb" => (coords? c v).map fun x => { p with pointB := x }
  | "center" => (coords? c v).map fun x => { p with center := x }
  | "radii" => (coords? c v).map fun x => { p with radii := x }
  | "points" => (coordLists? c v).map fun x => { p with points := x }
  | _ => some p

def read? (c : Codec) : Json → Option Plain
  | .obj ms => ms.foldlM (fun p (k, v) => setMember c p k v) {}
  | .null => some {}
  | _ => none

def parse? (c : Codec) (s : String) : Option Plain := (c.parse? s).bind (read? c)

def writeCoords (c : Codec) (xs : List Float32) : Option Json :=
  (xs.mapM c.float32Text).map fun ts => .arr (ts.map Json.num)

/-- The members of a plain form, or `none` when the codec cannot write a number. -/
def write (c : Codec) (p : Plain) : Option Json := do
  let opt (b : Bool) (m : String × Json) : List (String × Json) := if b then [m] else []
  let size ← match p.size with
    | some x => (c.floatText x).map fun t => [("size", Json.num t)]
    | none => some []
  let geo (name : String) (xs : List Float32) : Option (List (String × Json)) :=
    if xs.isEmpty then some [] else (writeCoords c xs).map fun j => [(name, j)]
  let point ← geo "point" p.point
  let pointA ← geo "pointA" p.pointA
  let pointB ← geo "pointB" p.pointB
  let center ← geo "center" p.center
  let radii ← geo "radii" p.radii
  let points ← if p.points.isEmpty then some [] else
    (p.points.mapM (writeCoords c)).map fun js => [("points", Json.arr js)]
  pure <| .obj <|
    [("id", .str p.id), ("type", .str p.tag)]
    ++ opt (!p.description.isEmpty) ("description", .str p.description)
    ++ opt (!p.annType.isEmpty) ("anntype", .str p.annType)
    ++ opt p.reviewed ("reviewed", .bool true)
    ++ opt p.visited ("visited", .bool true)
    ++ opt (!p.segments.isEmpty)
      ("segments", .arr (p.segments.map fun (a, b) => .arr [.str a, .str b]))
    ++ size ++ point ++ pointA ++ pointB ++ center ++ radii ++ points

def marshal? (c : Codec) (p : Plain) : Option String := (write c p).map c.render

def marshalList? (c : Codec) (ps : List Plain) : Option String :=
  (ps.mapM (write c)).map fun js => c.render (.arr js)

end PlainJson

end AnnotationStore
