import AnnotationStore.Json.Reader
import AnnotationStore.Json.Writer
import AnnotationStore.Number.Text

/-!
# The two JSON codecs

Documents are read and written by one of two codecs, named `json` and `go-json` (the
default). They agree on the layout and differ in four rules, each a field here:

* number literals: `json` reads the JSON grammar only; `go-json` reads any run of number
  characters as a general decimal;
* binary32 fields: `json` rounds the literal once to binary32 and refuses a value too
  large; `go-json` rounds it to binary64 first and then to binary32, so a large value
  becomes an infinity;
* non-finite binary32 values: `go-json` writes `NaN`, `+Inf`, `-Inf`, `json` refuses them
  (both refuse non-finite binary64 values);
* exponent form, used outside `[1e-6, 1e21)`: `json` writes `1e-7`, `go-json` `1e-07`; and
  `json` has the short `\b`, `\f` escapes.
-/

namespace AnnotationStore

inductive Codec where
  | json
  | goJson
  deriving DecidableEq, Repr, Inhabited

namespace Codec

def default : Codec := .goJson

def name : Codec → String
  | .json => "json"
  | .goJson => "go-json"

def byName? : String → Option Codec
  | "json" => some .json
  | "go-json" => some .goJson
  | _ => none

/-- How the codec delimits number literals. -/
def dialect : Codec → Json.Dialect
  | .json => .strict
  | .goJson => .loose

/-- How the codec escapes strings. -/
def style : Codec → Json.Style
  | .json => ⟨true⟩
  | .goJson => ⟨false⟩

/-- Reads a document. The standard codec reads a kept malformed byte as the replacement
character; `go-json` keeps it. -/
def parse? (c : Codec) (s : String) : Option Json :=
  Json.parse? c.dialect (if c = .json then s.map Utf8.settle else s)

def render (c : Codec) (j : Json) : String := Json.render c.style j

/-- The decimal literal of a number token, if the codec accepts it. -/
def literal? (c : Codec) (t : String) : Option DecimalText.Literal :=
  match c with
  | .json => DecimalText.json? t.toList
  | .goJson => DecimalText.loose? t.toList

/-- Reads a binary64 field; `none` for a refused literal or a value out of range. -/
def readFloat (c : Codec) (t : String) : Option Float :=
  (c.literal? t).bind fun l =>
    let v := l.toFloat
    if v.isInf then none else some v

/-- Reads a binary32 field; `none` for a refused literal or a value out of range. -/
def readFloat32 (c : Codec) (t : String) : Option Float32 :=
  match c with
  | .json =>
    (c.literal? t).bind fun l =>
      let v := l.toFloat32
      if v.isInf then none else some v
  | .goJson => (c.readFloat t).map Float.toFloat32

/-- The text of a binary64 value, or `none` for NaN and the infinities. -/
def floatText (c : Codec) (x : Float) : Option String :=
  if x.isNaN ∨ x.isInf then none
  else
    let a := x.abs
    FloatText.plain (Binary.ofFloat x) (a != 0 && (a < 1e-6 || a ≥ 1e21)) (c == .json)

/-- The text of a binary32 value, or `none` where the codec refuses it. -/
def float32Text (c : Codec) (x : Float32) : Option String :=
  if x.isNaN ∨ x.isInf then
    match c with
    | .json => none
    | .goJson => some (FloatText.special (Binary.ofFloat32 x))
  else
    let a := x.abs
    some (FloatText.plain (Binary.ofFloat32 x) (a != 0 && (a < 1e-6 || a ≥ 1e21)) (c == .json))

/-- Inserts a member into a list sorted by name, replacing one of the same name. -/
def insertSorted (k : String) (v : Json) : List (String × Json) → List (String × Json)
  | [] => [(k, v)]
  | (k', v') :: rest =>
    if k = k' then (k, v) :: rest
    else if k < k' then (k, v) :: (k', v') :: rest
    else (k', v') :: insertSorted k v rest

mutual

/-- A generic value as the codec writes it: objects are maps (names sorted, the last of a
repeated name kept) and numbers are binary64. `none` when a number cannot be written. -/
def normalize (c : Codec) : Json → Option Json
  | .num t => (c.readFloat t).bind fun x => (c.floatText x).map Json.num
  | .arr xs => (normalizeItems c xs).map Json.arr
  | .obj ms => (normalizeMembers c ms []).map Json.obj
  | j => some j

def normalizeItems (c : Codec) : List Json → Option (List Json)
  | [] => some []
  | x :: xs => do
    let y ← normalize c x
    let ys ← normalizeItems c xs
    pure (y :: ys)

def normalizeMembers (c : Codec) : List (String × Json) → List (String × Json) →
    Option (List (String × Json))
  | [], acc => some acc
  | (k, v) :: ms, acc => do
    let w ← normalize c v
    normalizeMembers c ms (insertSorted k w acc)

end

def marshal? (c : Codec) (j : Json) : Option String :=
  (c.normalize j).map c.render

end Codec

end AnnotationStore
