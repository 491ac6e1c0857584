import AnnotationStore.Json.Basic
import AnnotationStore.Number.Read

/-!
# Reading JSON text

`Json.parse? dialect text` reads one JSON value surrounded by optional whitespace and
nothing else. Strings follow RFC 8259: raw control characters are refused, escapes are
decoded, and a `\u` escape of a lone surrogate reads as U+FFFD. Numbers depend on the
dialect: `strict` reads only the JSON number grammar, while `loose` takes any run of the
characters `0-9 . e E + -` that starts with a digit or a minus sign and leaves it to the
reader of the field to accept or refuse the literal.

Recursion is bounded by the input length: every nested call consumes at least one
character first.
-/

namespace AnnotationStore.Json

/-- How number literals are delimited. -/
inductive Dialect where
  /-- The JSON number grammar, checked while reading. -/
  | strict
  /-- Any run of number characters, checked only where a number is needed. -/
  | loose
  deriving DecidableEq, Repr

def isBlank (c : Char) : Bool := c = ' ' || c = '\t' || c = '\n' || c = '\r'

def skipBlank (cs : List Char) : List Char := cs.dropWhile isBlank

def isNumberChar (c : Char) : Bool :=
  c.isDigit || c = '.' || c = 'e' || c = 'E' || c = '+' || c = '-'

def hexDigit? (ch : Char) : Option Nat :=
  if ch.isDigit then some (ch.toNat - 48)
  else if 'a' ≤ ch ∧ ch ≤ 'f' then some (ch.toNat - 87)
  else if 'A' ≤ ch ∧ ch ≤ 'F' then some (ch.toNat - 55)
  else none

def hex4? (a b c d : Char) : Option Nat :=
  match hexDigit? a, hexDigit? b, hexDigit? c, hexDigit? d with
  | some w, some x, some y, some z => some (((w * 16 + x) * 16 + y) * 16 + z)
  | _, _, _, _ => none

def isHighSurrogate (u : Nat) : Bool := 0xD800 ≤ u && u < 0xDC00

def isLowSurrogate (u : Nat) : Bool := 0xDC00 ≤ u && u < 0xE000

/-- Reads the rest of a string after its opening quote, collecting characters in reverse. -/
def stringBody : List Char → List Char → Option (String × List Char)
  | [], _ => none
  | '"' :: rest, acc => some (String.ofList acc.reverse, rest)
  | '\\' :: '"' :: r, acc => stringBody r ('"' :: acc)
  | '\\' :: '\\' :: r, acc => stringBody r ('\\' :: acc)
  | '\\' :: '/' :: r, acc => stringBody r ('/' :: acc)
  | '\\' :: 'b' :: r, acc => stringBody r (Char.ofNat 8 :: acc)
  | '\\' :: 'f' :: r, acc => stringBody r (Char.ofNat 12 :: acc)
  | '\\' :: 'n' :: r, acc => stringBody r ('\n' :: acc)
  | '\\' :: 'r' :: r, acc => stringBody r ('\r' :: acc)
  | '\\' :: 't' :: r, acc => stringBody r ('\t' :: acc)
  | '\\' :: 'u' :: a :: b :: c :: d :: r, acc =>
    match hex4? a b c d with
    | none => none
    | some hi =>
      if isHighSurrogate hi then
        match _hr : r with
        | '\\' :: 'u' :: e :: f :: g :: h :: r3 =>
          match hex4? e f g h with
          | some lo =>
            if isLowSurrogate lo then
              stringBody r3 (Char.ofNat (0x10000 + (hi - 0xD800) * 0x400 + (lo - 0xDC00)) :: acc)
            else stringBody r (Char.ofNat 0xFFFD :: acc)
          | none => stringBody r (Char.ofNat 0xFFFD :: acc)
        | _ => stringBody r (Char.ofNat 0xFFFD :: acc)
      else if isLowSurrogate hi then stringBody r (Char.ofNat 0xFFFD :: acc)
      else stringBody r (Char.ofNat hi :: acc)
  | '\\' :: _, _ => none
  | c :: rest, acc => if c.toNat < 0x20 then none else stringBody rest (c :: acc)
termination_by cs => cs.length
decreasing_by all_goals ((try simp_all) <;> omega)

def number? (d : Dialect) (cs : List Char) : Option (String × List Char) :=
  let (run, rest) := cs.span isNumberChar
  match d with
  | .loose => some (String.ofList run, rest)
  | .strict =>
    match DecimalText.json? run with
    | some _ => some (String.ofList run, rest)
    | none => none

mutual

def value (d : Dialect) : Nat → List Char → Option (Json × List Char)
  | 0, _ => none
  | fuel + 1, cs =>
    match skipBlank cs with
    | 'n' :: 'u' :: 'l' :: 'l' :: r => some (.null, r)
    | 't' :: 'r' :: 'u' :: 'e' :: r => some (.bool true, r)
    | 'f' :: 'a' :: 'l' :: 's' :: 'e' :: r => some (.bool false, r)
    | '"' :: r => (stringBody r []).map fun (s, r') => (.str s, r')
    | '[' :: r =>
      match skipBlank r with
      | ']' :: r' => some (.arr [], r')
      | _ => items d fuel r []
    | '{' :: r =>
      match skipBlank r with
      | '}' :: r' => some (.obj [], r')
      | _ => members d fuel r []
    | c :: r =>
      if c = '-' ∨ c.isDigit then (number? d (c :: r)).map fun (t, r') => (.num t, r')
      else none
    | [] => none

/-- Reads array elements after `[` or a comma, collecting them in reverse. -/
def items (d : Dialect) : Nat → List Char → List Json → Option (Json × List Char)
  | 0, _, _ => none
  | fuel + 1, cs, acc =>
    match value d fuel cs with
    | none => none
    | some (v, r) =>
      match skipBlank r with
      | ',' :: r' => items d fuel r' (v :: acc)
      | ']' :: r' => some (.arr (v :: acc).reverse, r')
      | _ => none

/-- Reads object members after `{` or a comma, collecting them in reverse. -/
def members (d : Dialect) : Nat → List Char → List (String × Json) → Option (Json × List Char)
  | 0, _, _ => none
  | fuel + 1, cs, acc =>
    match skipBlank cs with
    | '"' :: r =>
      match stringBody r [] with
      | none => none
      | some (k, r1) =>
        match skipBlank r1 with
        | ':' :: r2 =>
          match value d fuel r2 with
          | none => none
          | some (v, r3) =>
            match skipBlank r3 with
            | ',' :: r4 => members d fuel r4 ((k, v) :: acc)
            | '}' :: r4 => some (.obj ((k, v) :: acc).reverse, r4)
            | _ => none
        | _ => none
    | _ => none

end

def parseChars? (d : Dialect) (cs : List Char) : Option Json :=
  match value d (cs.length + 1) cs with
  | some (v, rest) => if (skipBlank rest).isEmpty then some v else none
  | none => none

def parse? (d : Dialect) (s : String) : Option Json := parseChars? d s.toList

end AnnotationStore.Json
