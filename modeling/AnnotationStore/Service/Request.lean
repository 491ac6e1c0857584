import AnnotationStore.Json.Basic
import AnnotationStore.Number.Read
import AnnotationStore.Bytes.Hex
import AnnotationStore.Annotation.Basic

/-!
# Reading requests

Requests are JSON objects. These readers take a member by name and interpret it: integers
from number literals, 64-bit unsigned integers from numbers or decimal strings, binary64
numbers rounded to nearest (with the strings `NaN`, `Inf`, `+Inf` and `-Inf` for the
non-finite values), binary32 numbers rounded from that binary64 value, byte strings from
hexadecimal text, and annotations from their request form. A missing member reads as the
type's zero.
-/

namespace AnnotationStore.Service.Read

/-- A member of a request, `null` when missing. -/
def field (j : Json) (k : String) : Json := (j.get? k).getD .null

/-- Whether a member is present and not `null`. -/
def has (j : Json) (k : String) : Bool :=
  match j.get? k with
  | some .null | none => false
  | _ => true

/-- A text member, or `""`. -/
def text (j : Json) (k : String) : String :=
  match field j k with
  | .str s => s
  | _ => ""

/-- A boolean member, or `dflt`. -/
def flag (j : Json) (k : String) (dflt : Bool := false) : Bool :=
  match field j k with
  | .bool b => b
  | _ => dflt

def intOf? : Json → Option Int
  | .num t =>
    (DecimalText.json? t.toList).bind fun l =>
      let v : Int := if l.negative then -(l.mantissa : Int) else l.mantissa
      if l.exponent ≥ 0 then some (v * 10 ^ l.exponent.toNat)
      else
        let d : Int := 10 ^ (-l.exponent).toNat
        if v % d = 0 then some (v / d) else none
  | .str s => s.toInt?
  | _ => none

/-- An integer member, or `dflt`. -/
def int (j : Json) (k : String) (dflt : Int := 0) : Int := (intOf? (field j k)).getD dflt

/-- A natural member (negative values read as 0), or `dflt`. -/
def nat (j : Json) (k : String) (dflt : Nat := 0) : Nat := (int j k dflt).toNat

/-- A compression method byte: the member `compression` taken modulo 256. -/
def methodCode (j : Json) : Nat := (int j "compression" % 256).toNat

/-- A 64-bit unsigned value from a number or a decimal string. -/
def uint64Of (j : Json) : UInt64 :=
  match j with
  | .str s => (s.toNat?.getD 0).toUInt64
  | j => ((intOf? j).getD 0).toNat.toUInt64

def uint64 (j : Json) (k : String) : UInt64 := uint64Of (field j k)

/-- The quiet NaN written for the text `NaN`. -/
def quietNaN : Float := Float.ofBits 0x7FF8000000000001

/-- A binary64 value from a number or one of the texts of the non-finite values. -/
def floatOf (j : Json) : Float :=
  match j with
  | .num t => ((DecimalText.json? t.toList).map DecimalText.Literal.toFloat).getD 0
  | .str "NaN" => quietNaN
  | .str "Inf" | .str "+Inf" => 1 / 0
  | .str "-Inf" => -(1 / 0)
  | _ => 0

def float (j : Json) (k : String) : Float := floatOf (field j k)

/-- A binary32 value, rounded from binary64. -/
def float32Of (j : Json) : Float32 := (floatOf j).toFloat32

/-- A point `[x, y, z]`; missing coordinates are 0. -/
def vec3Of (j : Json) : Vec3 :=
  match j with
  | .arr xs => ⟨float32Of (xs.getD 0 .null), float32Of (xs.getD 1 .null), float32Of (xs.getD 2 .null)⟩
  | _ => ⟨0, 0, 0⟩

def vec3 (j : Json) (k : String) : Vec3 := vec3Of (field j k)

def items (j : Json) (k : String) : List Json :=
  match field j k with
  | .arr xs => xs
  | _ => []

def texts (j : Json) (k : String) : List String :=
  (items j k).map fun
    | .str s => s
    | _ => ""

/-- A byte string member written in hexadecimal. -/
def bytes (j : Json) (k : String) : ByteArray := (Hex.decode? (text j k)).getD ByteArray.empty

/-- An annotation in request form: a `type` tag, the descriptive members, and the geometry
members of its kind. An unknown tag reads as a point. -/
def annotationOf (j : Json) : Annotation :=
  let kind := (Kind.parse? (text j "type")).getD .point
  let size : Option Float := if has j "size" then some (float j "size") else none
  let info : Info :=
    { id := text j "id", description := text j "description", annType := text j "anntype",
      reviewed := flag j "reviewed", visited := flag j "visited",
      segments := (items j "segments").map uint64Of, size }
  let pts := (items j "points").map vec3Of
  let shape : Shape := match kind with
    | .point => .point (vec3 j "point")
    | .line => .line (vec3 j "pointA") (vec3 j "pointB")
    | .box => .box (vec3 j "pointA") (vec3 j "pointB")
    | .ellipsoid => .ellipsoid (vec3 j "center") (vec3 j "radii")
    | .polygon => .polygon pts
    | .lineString => .lineString pts
  ⟨info, shape⟩

end AnnotationStore.Service.Read
