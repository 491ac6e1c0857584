import AnnotationStore.Annotation.Plain
import AnnotationStore.Annotation.PlainJson
import AnnotationStore.Annotation.Id
import AnnotationStore.Log.Record
import AnnotationStore.Store.SegmentIndex
import AnnotationStore.Store.SizeRange
/-!
# The annotation source

The source owns the annotations, the set of pending (uncommitted) ids and the shared
references handed out for ids. Every mutation bumps the generation before anything is
announced, and announces itself through notices, in the order listeners hear them.

References are cells with an identity: everyone who asks for an id while a reference to it
is live shares one cell, which counts its holders. When the last holder lets go the cell
leaves the source, and a later request makes a new one. A cell keeps working after that:
mutations made through it still reach the store and still notify the cell.

The source also keeps a segment index (the ids under each segment) and the size range
(the least and greatest finite size), both brought up to date by every change rather than
computed when asked for.
-/

namespace AnnotationStore

/-- How far a reference is resolved. -/
inductive RefState where
  | unresolved
  | present
  | tombstoned
  deriving DecidableEq, Repr

def RefState.name : RefState → String
  | .unresolved => "Unresolved"
  | .present => "Present"
  | .tombstoned => "Tombstoned"

/-- A shared reference to one id. -/
structure RefCell where
  id : String
  /-- The last value seen; meaningful while the state is present. -/
  value : Option Annotation
  state : RefState
  holders : Int

/-- The value a reference shows: its value while present. -/
def RefCell.shown (c : RefCell) : Option Annotation :=
  if c.state = .present then c.value else none

inductive Notice where
  | changed
  | added (id : String)
  | updated (id : String)
  | deleted (id : String)
  | committed (id : String)
  /-- The reference cell with this number changed. -/
  | refChanged (cell : Nat)
  deriving DecidableEq, Repr

/-- An entry a restore left out. -/
inductive Skip where
  /-- The codec could not read the entry. -/
  | undecodable (index : Nat)
  | malformed (m : Malformed)
  | duplicate (index : Nat) (id : String)

/-- The error a left-out entry stands for. -/
def Skip.error : Skip → StoreError
  | .undecodable i => .malformed { index := i, reason := "" }
  | .malformed m => .malformed m
  | .duplicate _ id => .duplicateId id

structure RestoreResult where
  restored : Nat := 0
  skipped : List Skip := []

structure Source where
  annotations : List Annotation := []
  pending : List String := []
  cells : Array RefCell := #[]
  /-- The live shared cell of each id. -/
  shared : List (String × Nat) := []
  segments : SegmentIndex := []
  range : SizeRange := {}
  generation : Nat := 0
  /-- How many ids were generated for adds without one. -/
  issued : Nat := 0
  /-- How many ids were minted for restored entries without one. -/
  minted : Nat := 0
  codec : Codec := Codec.default

/-- What a source operation gives: its result, the source after it, its notices and its
log records. -/
structure Outcome (α : Type) where
  result : α
  source : Source
  notices : List Notice := []
  logs : List Log.Record := []

namespace Source

def get? (s : Source) (id : String) : Option Annotation := s.annotations.find? (·.id == id)

/-- The number of stored annotations, pending ones included. -/
def len (s : Source) : Nat := s.annotations.length

def isPending (s : Source) (id : String) : Bool := s.pending.contains id

/-- The ids of the stored annotations, ascending. -/
def ids (s : Source) : List String := (s.annotations.map (·.id)).mergeSort (· ≤ ·)

/-- The stored annotations of each kind, by ascending id. -/
def byKind (s : Source) (k : Kind) : List Annotation :=
  ((s.annotations.filter (·.kind == k)).mergeSort fun a b => a.id ≤ b.id)

/-- The ids linked to a segment, ascending. -/
def forSegment (s : Source) (seg : SegmentId) : List String :=
  (s.segments.idsOf seg).mergeSort (· ≤ ·)

def sizeRange (s : Source) : Float × Float := s.range.bounds

def cell? (s : Source) (c : Nat) : Option RefCell := s.cells[c]?

def modifyCell (s : Source) (c : Nat) (f : RefCell → RefCell) : Source :=
  { s with cells := s.cells.modify c f }

def setCell (s : Source) (c : Nat) (a : Annotation) : Source :=
  s.modifyCell c fun r => { r with value := some a, state := .present }

def tombstoneCell (s : Source) (c : Nat) : Source :=
  s.modifyCell c fun r => { r with value := none, state := .tombstoned }

/-- The shared reference for an id with one more holder: the live cell if there is one,
else a new cell, present if the id is stored and deleted if not. -/
def reference (s : Source) (id : String) : Nat × Source :=
  match s.shared.lookup id with
  | some c => (c, s.modifyCell c fun r => { r with holders := r.holders + 1 })
  | none =>
    let cell : RefCell := match s.get? id with
      | some a => ⟨id, some a, .present, 1⟩
      | none => ⟨id, none, .tombstoned, 1⟩
    (s.cells.size, { s with cells := s.cells.push cell, shared := (id, s.cells.size) :: s.shared })

def retain (s : Source) (c : Nat) : Source :=
  s.modifyCell c fun r => { r with holders := r.holders + 1 }

/-- Removes a holder from a cell; the last one takes the cell out of the source. -/
def dispose (s : Source) (c : Nat) : Source :=
  match s.cell? c with
  | some r =>
    if r.holders ≤ 0 then s
    else
      let s := s.modifyCell c fun r => { r with holders := r.holders - 1 }
      if r.holders = 1 ∧ s.shared.lookup r.id = some c then
        { s with shared := s.shared.filter (·.1 != r.id) }
      else s
  | none => s

/-- The id the next add without an id gets. -/
def nextIssuedId (s : Source) : String := "gen-" ++ toString (s.issued + 1)

/-- The store part of an add: the annotation joins the annotations, the segment index and the
size range, pending unless committed. -/
def insert (s : Source) (a : Annotation) (commit : Bool) : Source :=
  { s with
    annotations := s.annotations ++ [a]
    segments := s.segments.index a
    range := s.range.extend a
    pending := if commit then s.pending else s.pending ++ [a.id]
    generation := s.generation + 1 }

/-- Points the shared reference of an annotation's id, if there is one, at the annotation;
gives the notice of that reference. -/
def reattach (s : Source) (a : Annotation) : Source × List Notice :=
  match s.shared.lookup a.id with
  | some c => (s.setCell c a, [Notice.refChanged c])
  | none => (s, [])

/-- Gives an annotation without an id the next generated one. -/
def assignId (s : Source) (a : Annotation) : Annotation × Source :=
  if a.id.isEmpty then (a.withId s.nextIssuedId, { s with issued := s.issued + 1 }) else (a, s)

/-- Adds an annotation whose id is settled: refused when the id is stored already. -/
def addNamed (s : Source) (a : Annotation) (commit : Bool) : Outcome (Except StoreError Nat) :=
  if (s.get? a.id).isSome then ⟨.error (.duplicateId a.id), s, [], []⟩
  else
    let (s, reattached) := (s.insert a commit).reattach a
    let log := Log.debug "annotation added"
      [("id", .text a.id), ("type", .text a.kind.tag), ("pending", .flag !commit)]
    let (c, s) := s.reference a.id
    ⟨.ok c, s, reattached ++ [.added a.id, .changed], [log]⟩

/-- Adds a copy of an annotation, pending unless committed. An empty id is replaced by a
generated one. Gives the cell of the shared reference to it. -/
def add (s : Source) (a : Option Annotation) (commit : Bool) : Outcome (Except StoreError Nat) :=
  match a with
  | none => ⟨.error .nilValue, s, [], []⟩
  | some a =>
    let (a, s) := s.assignId a
    s.addNamed a commit

/-- Clears the pending mark of a cell's id; nothing happens when it is not pending. -/
def commit (s : Source) (c : Nat) : Outcome Unit :=
  match s.cell? c with
  | some r =>
    if s.isPending r.id then
      ⟨(), { s with pending := s.pending.erase r.id, generation := s.generation + 1 },
        [.committed r.id, .changed], []⟩
    else ⟨(), s, [], []⟩
  | none => ⟨(), s, [], []⟩

/-- The store part of an update: `a` takes the place of `old`, the stored annotation under
its id. -/
def replace (s : Source) (old a : Annotation) : Source :=
  let annotations := s.annotations.map fun (b : Annotation) => if b.id == a.id then a else b
  { s with
    annotations
    segments := (s.segments.unindex old).index a
    range := s.range.replace old a annotations
    generation := s.generation + 1 }

/-- Replaces the annotation of a cell's id with a copy of `a` under that id. -/
def update (s : Source) (c : Nat) (a : Option Annotation) : Outcome (Except StoreError Unit) :=
  match s.cell? c, a with
  | none, _ => ⟨.ok (), s, [], []⟩
  | some _, none => ⟨.error .nilValue, s, [], []⟩
  | some r, some a =>
    if r.state = .tombstoned then ⟨.error (.alreadyDeleted r.id), s, [], []⟩
    else match s.get? r.id with
      | none => ⟨.error (.alreadyDeleted r.id), s, [], []⟩
      | some old =>
        let a := a.withId r.id
        ⟨.ok (), (s.replace old a).setCell c a, [.refChanged c, .updated r.id, .changed], []⟩

/-- The store part of a delete: the stored annotation `old` leaves the annotations, the
pending ids and the segment index, and the size range is scanned again. -/
def remove (s : Source) (old : Annotation) : Source :=
  let annotations := s.annotations.filter (·.id != old.id)
  { s with
    annotations
    pending := s.pending.erase old.id
    segments := s.segments.unindex old
    range := SizeRange.recompute annotations
    generation := s.generation + 1 }

/-- Deletes the annotation of a cell's id. With `nullify` the cell is marked deleted;
otherwise it keeps its last value and is only told. A deleted cell is left alone. -/
def delete (s : Source) (c : Nat) (nullify : Bool) : Outcome Unit :=
  match s.cell? c with
  | none => ⟨(), s, [], []⟩
  | some r =>
    if r.state = .tombstoned then ⟨(), s, [], []⟩
    else match s.get? r.id with
      | none => if nullify then ⟨(), s.tombstoneCell c, [.refChanged c], []⟩ else ⟨(), s, [], []⟩
      | some old =>
        let s := s.remove old
        let s := if nullify then s.tombstoneCell c else s
        ⟨(), s, [.refChanged c, .deleted r.id, .changed], []⟩

/-- The live cells by ascending id. -/
def sharedById (s : Source) : List (String × Nat) := s.shared.mergeSort fun a b => a.1 ≤ b.1

/-- One live cell of `tombstoneAll`: pointed at the value `keep` gives for its id, else marked
deleted unless it already is. Gives the notice of the change. -/
def refreshStep (keep : String → Option Annotation) (acc : Source × List Notice)
    (e : String × Nat) : Source × List Notice :=
  let (s, ns) := acc
  let (id, c) := e
  match keep id with
  | some a => (s.setCell c a, ns ++ [.refChanged c])
  | none =>
    match s.cell? c with
    | some r => if r.state = .tombstoned then (s, ns) else (s.tombstoneCell c, ns ++ [.refChanged c])
    | none => (s, ns)

/-- Points the live cells at their values or marks them deleted, by ascending id. -/
def tombstoneAll (s : Source) (keep : String → Option Annotation) : Source × List Notice :=
  s.sharedById.foldl (refreshStep keep) (s, [])

/-- Removes every annotation and marks every live reference deleted. -/
def clear (s : Source) : Outcome Unit :=
  let s := { s with
    annotations := []
    pending := []
    segments := []
    range := SizeRange.recompute []
    generation := s.generation + 1 }
  let (s, ns) := s.tombstoneAll fun _ => none
  ⟨(), s, ns ++ [.changed], []⟩

/-- The committed annotations in plain form, by ascending id. -/
def toPersistable (s : Source) : List Plain :=
  let committed := s.annotations.filter fun a => !s.isPending a.id
  (committed.mergeSort fun a b => a.id ≤ b.id).map (·.toPlain)

/-- Builds the annotations of plain entries with their payload positions, leaving out
malformed entries and later duplicates. Gives the kept annotations, the skips, and how
many ids were minted. -/
def buildEntries (minted : Nat) : List (Nat × Plain) → List Annotation → List Skip →
    List Annotation × List Skip × Nat
  | [], kept, skips => (kept, skips, minted)
  | (i, p) :: rest, kept, skips =>
    let (fresh, minted) := if p.id.isEmpty then (MintedId.ofCounter minted, minted + 1)
      else ("", minted)
    match p.toAnnotation fresh with
    | .error m => buildEntries minted rest kept (skips ++ [.malformed (m.atIndex i)])
    | .ok a =>
      if kept.any (·.id == a.id) then buildEntries minted rest kept (skips ++ [.duplicate i a.id])
      else buildEntries minted rest (kept ++ [a]) skips

/-- Replaces the contents with entries at the given payload positions. Live references
are pointed at their new values or marked deleted. -/
def restoreEntries (s : Source) (entries : List (Nat × Plain)) : Outcome RestoreResult :=
  let (kept, skips, minted) := buildEntries s.minted entries [] []
  let s := { s with
    annotations := kept
    pending := []
    segments := SegmentIndex.build kept
    range := SizeRange.recompute kept
    generation := s.generation + 1
    minted := minted }
  let (s, ns) := s.tombstoneAll fun id => kept.find? (·.id == id)
  ⟨⟨kept.length, skips⟩, s, ns ++ [.changed], []⟩

def restore (s : Source) (entries : List Plain) : Outcome RestoreResult :=
  s.restoreEntries (entries.zipIdx.map fun (p, i) => (i, p))

/-- Splits payload entries into those the codec reads as plain forms and those it cannot
read. -/
def readEntries (c : Codec) : List (Json × Nat) → List (Nat × Plain) × List Skip
  | [] => ([], [])
  | (j, i) :: rest =>
    let (ok, bad) := readEntries c rest
    match PlainJson.read? c j with
    | some p => ((i, p) :: ok, bad)
    | none => (ok, .undecodable i :: bad)

/-- Replaces the contents with a payload: a JSON array of plain forms read by `c`. A
payload that is not an array fails and changes nothing; entries that cannot be read or
built are left out. -/
def restoreWith (s : Source) (c : Codec) (payload : String) : Outcome (Except StoreError RestoreResult) :=
  match c.parse? payload with
  | some .null => ⟨.error (.malformed { reason := StoreError.unreadableReason }), s, [], []⟩
  | some (.arr items) =>
    let (entries, undecodable) := readEntries c items.zipIdx
    let o := s.restoreEntries entries
    let res := { o.result with skipped := undecodable ++ o.result.skipped }
    let warnings := res.skipped.map fun k =>
      Log.warn "skipped persisted annotation" [("error", .failure k.error)]
    let done := Log.info "annotations restored" [("count", .int res.restored),
      ("skipped", .int res.skipped.length), ("generation", .wide o.source.generation)]
    ⟨.ok res, o.source, o.notices, warnings ++ [done]⟩
  | _ => ⟨.error .unreadablePayload, s, [], []⟩

end Source

end AnnotationStore
