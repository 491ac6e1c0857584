import AnnotationStore.Json.Basic
import AnnotationStore.Text.Utf8

/-!
# Writing JSON text

`render style j` writes a value compactly: no blanks, members in the order given, number
literals as they are. Strings are escaped for safe embedding in HTML: the quote and
backslash, every control character, `<`, `>`, `&` and the line and paragraph separators
U+2028 and U+2029 are written as escapes; `\n`, `\r` and `\t` always have their short
forms, and `\b` and `\f` have them when the style says so. A kept malformed byte is
written `\ufffd`. All other characters stand as they are.
-/

namespace AnnotationStore.Json

/-- How strings are escaped. -/
structure Style where
  /-- Whether backspace and form feed are written `\b` and `\f` rather than `\u0008`, `\u000c`. -/
  shortControls : Bool

/-- Four lowercase hexadecimal digits. -/
def hex4 (n : Nat) : List Char :=
  let ds := Nat.toDigits 16 n
  List.replicate (4 - ds.length) '0' ++ ds

def Style.escape (st : Style) (c : Char) : List Char :=
  if c = '"' then ['\\', '"']
  else if c = '\\' then ['\\', '\\']
  else if c = '\n' then ['\\', 'n']
  else if c = '\r' then ['\\', 'r']
  else if c = '\t' then ['\\', 't']
  else if st.shortControls ∧ c.toNat = 8 then ['\\', 'b']
  else if st.shortControls ∧ c.toNat = 12 then ['\\', 'f']
  else if (Utf8.rawByte? c).isSome then "\\ufffd".toList
  else if c.toNat < 0x20 ∨ c = '<' ∨ c = '>' ∨ c = '&' ∨ c.toNat = 0x2028 ∨ c.toNat = 0x2029 then
    '\\' :: 'u' :: hex4 c.toNat
  else [c]

def Style.quote (st : Style) (s : String) : String :=
  String.ofList ('"' :: s.toList.flatMap st.escape ++ ['"'])

mutual

def render (st : Style) : Json → String
  | .null => "null"
  | .bool true => "true"
  | .bool false => "false"
  | .num t => t
  | .str s => st.quote s
  | .arr xs => "[" ++ renderItems st xs ++ "]"
  | .obj ms => "\x7b" ++ renderMembers st ms ++ "\x7d"

def renderItems (st : Style) : List Json → String
  | [] => ""
  | [x] => render st x
  | x :: xs => render st x ++ "," ++ renderItems st xs

def renderMembers (st : Style) : List (String × Json) → String
  | [] => ""
  | [(k, v)] => st.quote k ++ ":" ++ render st v
  | (k, v) :: ms => st.quote k ++ ":" ++ render st v ++ "," ++ renderMembers st ms

end

end AnnotationStore.Json
