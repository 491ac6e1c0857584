import AnnotationStore.Text.Printable
import AnnotationStore.Text.Utf8

/-!
# Quoted text

Messages quote names the way a reader can paste them back: inside double quotes, a quote
or backslash is preceded by a backslash, printable characters stand as they are, the
seven C control escapes (`\a \b \f \n \r \t \v`) are used where they apply, other
characters below U+0020 and DEL are written `\xHH`, and every other character is
`\uHHHH` or, beyond the basic plane, `\UHHHHHHHH` (lowercase hexadecimal). Quoting a byte
string, or text that keeps malformed bytes, writes each byte that starts no well-formed
UTF-8 sequence as `\xHH`.
-/

namespace AnnotationStore.Quote

/-- The lowercase hexadecimal digits of `n`, padded to `width`. -/
def hexDigits (width n : Nat) : List Char :=
  let ds := Nat.toDigits 16 n
  List.replicate (width - ds.length) '0' ++ ds

def escape (c : Char) : List Char :=
  if let some b := Utf8.rawByte? c then '\\' :: 'x' :: hexDigits 2 b.toNat
  else if c = '"' ∨ c = '\\' then ['\\', c]
  else if Printable.isPrintable c then [c]
  else if c.toNat = 7 then ['\\', 'a']
  else if c.toNat = 8 then ['\\', 'b']
  else if c.toNat = 12 then ['\\', 'f']
  else if c = '\n' then ['\\', 'n']
  else if c = '\r' then ['\\', 'r']
  else if c = '\t' then ['\\', 't']
  else if c.toNat = 11 then ['\\', 'v']
  else if c.toNat < 0x20 ∨ c.toNat = 0x7F then '\\' :: 'x' :: hexDigits 2 c.toNat
  else if c.toNat < 0x10000 then '\\' :: 'u' :: hexDigits 4 c.toNat
  else '\\' :: 'U' :: hexDigits 8 c.toNat

def quote (s : String) : String :=
  String.ofList ('"' :: s.toList.flatMap escape ++ ['"'])

/-- The escaped characters of a byte list, malformed bytes read as stand-ins. -/
def escapeBytes (l : List UInt8) : List Char :=
  if h : l = [] then []
  else
    let (c, ⟨r, _⟩) := Utf8.step Utf8.rawByte l h
    escape c ++ escapeBytes r
termination_by l.length

/-- A byte string in double quotes, escaped as text. -/
def quoteBytes (b : ByteArray) : String :=
  String.ofList ('"' :: escapeBytes b.toList ++ ['"'])

end AnnotationStore.Quote
