/-!
# Reading UTF-8 with replacement

Byte strings that should hold UTF-8 text are read one character at a time. A well-formed
sequence (RFC 3629: no overlong forms, no surrogates, nothing above U+10FFFF) gives its
character; any other byte gives U+FFFD and reading goes on at the next byte, so every byte
of a malformed sequence is replaced on its own.

Text read by a reader that keeps malformed bytes holds each of them as a stand-in: one of
the last 256 code points, which are private-use characters that well-formed input does
not use. Writers give a stand-in back as its byte, or as the replacement character where
text must be well-formed.
-/

namespace AnnotationStore.Utf8

def replacement : Char := Char.ofNat 0xFFFD

/-- The stand-in for a malformed byte kept as it is. -/
def rawByte (b : UInt8) : Char := Char.ofNat (0x10FF00 + b.toNat)

/-- The byte a stand-in keeps, if the character is one. -/
def rawByte? (c : Char) : Option UInt8 :=
  if 0x10FF00 ≤ c.toNat then some (c.toNat - 0x10FF00).toUInt8 else none

/-- A character with a stand-in read as the replacement character. -/
def settle (c : Char) : Char := if (rawByte? c).isSome then replacement else c

def isTail (b : UInt8) : Bool := 0x80 ≤ b && b ≤ 0xBF

/-- The least and greatest allowed second byte after a lead byte. -/
def secondRange (b0 : UInt8) : Nat × Nat :=
  if b0 = 0xE0 then (0xA0, 0xBF)
  else if b0 = 0xED then (0x80, 0x9F)
  else if b0 = 0xF0 then (0x90, 0xBF)
  else if b0 = 0xF4 then (0x80, 0x8F)
  else (0x80, 0xBF)

def secondOk (b0 b1 : UInt8) : Bool :=
  let r := secondRange b0
  r.1 ≤ b1.toNat && b1.toNat ≤ r.2

/-- One character from the front of a byte list and the bytes after it; a malformed byte
`b` reads as `bad b`. -/
def step (bad : UInt8 → Char) : (l : List UInt8) → l ≠ [] → Char × { r : List UInt8 // r.length < l.length }
  | b0 :: rest, _ =>
    let n0 := b0.toNat
    if n0 < 0x80 then (Char.ofNat n0, ⟨rest, by simp⟩)
    else if 0xC2 ≤ n0 ∧ n0 ≤ 0xDF then
      match rest with
      | b1 :: r =>
        if isTail b1 then (Char.ofNat ((n0 % 32) * 64 + b1.toNat % 64), ⟨r, by simp only [List.length_cons]; omega⟩)
        else (bad b0, ⟨b1 :: r, by simp⟩)
      | [] => (bad b0, ⟨[], by simp⟩)
    else if 0xE0 ≤ n0 ∧ n0 ≤ 0xEF then
      match rest with
      | b1 :: b2 :: r =>
        if secondOk b0 b1 && isTail b2 then
          (Char.ofNat ((n0 % 16) * 4096 + (b1.toNat % 64) * 64 + b2.toNat % 64), ⟨r, by simp only [List.length_cons]; omega⟩)
        else (bad b0, ⟨b1 :: b2 :: r, by simp⟩)
      | r => (bad b0, ⟨r, by simp⟩)
    else if 0xF0 ≤ n0 ∧ n0 ≤ 0xF4 then
      match rest with
      | b1 :: b2 :: b3 :: r =>
        if secondOk b0 b1 && isTail b2 && isTail b3 then
          (Char.ofNat ((n0 % 8) * 262144 + (b1.toNat % 64) * 4096 + (b2.toNat % 64) * 64
            + b3.toNat % 64), ⟨r, by simp only [List.length_cons]; omega⟩)
        else (bad b0, ⟨b1 :: b2 :: b3 :: r, by simp⟩)
      | r => (bad b0, ⟨r, by simp⟩)
    else (bad b0, ⟨rest, by simp⟩)

def decodeAux (bad : UInt8 → Char) (l : List UInt8) (acc : List Char) : List Char :=
  if h : l = [] then acc.reverse
  else
    let (c, ⟨r, _⟩) := step bad l h
    decodeAux bad r (c :: acc)
termination_by l.length

/-- The characters of a byte list, malformed bytes replaced. -/
def decode (l : List UInt8) : List Char := decodeAux (fun _ => replacement) l []

def decodeBytes (b : ByteArray) : String := String.ofList (decode b.toList)

/-- The text of a byte string, malformed bytes kept as stand-ins. -/
def decodeKeeping (b : ByteArray) : String := String.ofList (decodeAux rawByte b.toList [])

def isValid (b : ByteArray) : Bool := (String.fromUTF8? b).isSome

end AnnotationStore.Utf8
