import AnnotationStore.Store.Error
/-!
# Open blobs

A read asks for a number of bytes at an offset and gives the bytes it got and how it
ended: with all of them, at the end of the data, or with a failure. A read that got fewer
bytes than asked for ends at the end or with a failure.

A blob kept in memory holds the bytes it had when it was opened; a later write of the same
name makes a new blob and leaves the open one alone. Reading before the start or at or
after the end gets nothing and ends at the end.

A file is read through a mapping of its bytes taken when it was opened. Reading a closed
mapping or at a negative offset fails. A mapping of an empty file shows no bytes at all,
and neither does a closed one; closing twice is the same as closing once.
-/

namespace AnnotationStore

inductive ReadEnd where
  /-- With every byte asked for. -/
  | complete
  | atEnd
  | failed (e : StoreError)

structure ReadOutcome where
  data : ByteArray
  stop : ReadEnd

namespace ReadOutcome

/-- A read that got nothing and ended at the end. -/
def ended : ReadOutcome := ⟨.empty, .atEnd⟩

/-- A read that got nothing and failed. -/
def failure (e : StoreError) : ReadOutcome := ⟨.empty, .failed e⟩

def error? (r : ReadOutcome) : Option StoreError :=
  match r.stop with
  | .failed e => some e
  | _ => none

def atEnd (r : ReadOutcome) : Bool :=
  match r.stop with
  | .atEnd => true
  | _ => false

end ReadOutcome

def readBytes (data : ByteArray) (off : Int) (len : Nat) : ReadOutcome :=
  if off < 0 ∨ data.size ≤ off then .ended
  else
    let got := data.extract off.toNat (off.toNat + len)
    ⟨got, if got.size < len then .atEnd else .complete⟩

structure Mapping where
  data : ByteArray
  closed : Bool := false

namespace Mapping

def readAt (m : Mapping) (off : Int) (len : Nat) : ReadOutcome :=
  if m.closed then .failure .mappingClosed
  else if off < 0 then .failure .invalidOffset
  else readBytes m.data off len

/-- The mapped bytes; none once closed or for an empty file. -/
def bytes? (m : Mapping) : Option ByteArray :=
  if m.closed ∨ m.data.size = 0 then none else some m.data

def close (m : Mapping) : Mapping := { m with closed := true }

/-- Advises the system of an access pattern; only a closed mapping refuses. -/
def advise (m : Mapping) : Except StoreError Unit :=
  if m.closed then .error .mappingClosed else .ok ()

end Mapping

/-- A blob opened from a memory or file store. -/
inductive Blob where
  | memory (data : ByteArray)
  | mapped (m : Mapping)

namespace Blob

/-- The size of the blob when it was opened. -/
def size : Blob → Nat
  | .memory d => d.size
  | .mapped m => m.data.size

/-- Reads `len` bytes at `off`; reading nothing from a file always succeeds. -/
def readAt (b : Blob) (off : Int) (len : Nat) : ReadOutcome :=
  match b with
  | .memory d => readBytes d off len
  | .mapped m => if len = 0 then ⟨.empty, .complete⟩ else m.readAt off len

def close : Blob → Blob
  | .memory d => .memory d
  | .mapped m => .mapped m.close

/-- The whole content, without copying it through reads. A closed file with bytes has
none to give. -/
def bytes (b : Blob) : Except StoreError ByteArray :=
  match b with
  | .memory d => .ok d
  | .mapped m =>
    match m.bytes? with
    | some d => .ok d
    | none => if m.data.size = 0 then .ok .empty else .error .mappingClosed

end Blob

end AnnotationStore
