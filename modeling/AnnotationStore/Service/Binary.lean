import AnnotationStore.Service.Request
import AnnotationStore.Service.Answer
import AnnotationStore.Bytes.Cursor
/-!
# Answers about the byte reader and writer

A run of reads over one byte string, each answered with the offset after it and its result
or error, and a run of little-endian writes answered with the bytes written.
-/

namespace AnnotationStore.Service

open Read

def readStep (s : Json) : Reading Json :=
  match text s "do" with
  | "u8" => do pure (Write.nat (← Cursor.u8))
  | "u16" => do pure (Write.nat (← Cursor.u16))
  | "u32" => do pure (Write.nat (← Cursor.u32))
  | "u64" => do pure (Write.decimal (← Cursor.u64))
  | "f32" => do pure (Write.float32 (Float32.ofBits (← Cursor.u32).toUInt32))
  | "string" => do pure (Write.hex (← Cursor.string))
  | "bytes" => do pure (Write.hex (← Cursor.take (int s "n")))
  | "u32slice" => do pure (.arr ((← Cursor.words (int s "n")).map Write.nat))
  | "advance" => do Cursor.advance (int s "n"); pure .null
  | "remaining" => do pure (Write.hex (← Cursor.remaining))
  | _ => pure .null

def readSteps : List Json → Cursor → List Json
  | [], _ => []
  | s :: rest, c =>
    match Cursor.run (readStep s) c with
    | (.ok v, c') => .obj [("offset", Write.int c'.offset), ("result", v)] :: readSteps rest c'
    | (.error .beforeStart, _) => Write.panic :: readSteps rest c
    | (.error e, c') =>
      Write.extend (Write.failure "error" e.message) [("offset", Write.int c'.offset)] ::
        readSteps rest c'

def binaryAnswer (j : Json) : Json :=
  .obj [("steps", .arr (readSteps (items j "steps") ⟨bytes j "hex", 0⟩))]

def writeStep (s : Json) : List UInt8 :=
  let v := field s "v"
  match text s "do" with
  | "u8" => LittleEndian.toBytes 1 (uint64Of v).toNat
  | "u16" => LittleEndian.toBytes 2 (uint64Of v).toNat
  | "u32" => LittleEndian.toBytes 4 (uint64Of v).toNat
  | "u64" => LittleEndian.toBytes 8 (uint64Of v).toNat
  | "f32" => LittleEndian.toBytes 4 (float32Of v).toBits.toNat
  | "bytes" => (bytes s "hex").toList
  | "string" =>
    let b := (match v with | .str t => t | _ => "").toUTF8
    LittleEndian.toBytes 4 b.size ++ b.toList
  | "u32slice" => (items s "v").flatMap fun x => LittleEndian.toBytes 4 (uint64Of x).toNat
  | _ => []

def binaryWriteAnswer (j : Json) : Json :=
  let b : ByteArray := ⟨((items j "steps").flatMap writeStep).toArray⟩
  .obj [("hex", Write.hex b), ("len", Write.nat b.size)]

end AnnotationStore.Service
