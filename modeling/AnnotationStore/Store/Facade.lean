import AnnotationStore.Store.Memo
import AnnotationStore.Store.Metrics
import AnnotationStore.Snapshot.Manager
/-!
# The store

The store puts the source, a memoized packing of it, an optional snapshot manager and a
metrics collector behind one face. It reports each operation to the collector and to the
log, and gives errors of the layers below in its own terms (see `StoreError.restate`).

Once closed, the store refuses adds, updates, deletes, restores, saves and loads; commits,
lookups, clearing and packing go on working. The blob store the snapshots live in belongs
to the caller and is passed in and out.
-/

namespace AnnotationStore

structure Store where
  source : Source
  memo : Memo := {}
  manager : Option Snapshot.Manager := none
  metrics : Metrics := .none
  closed : Bool := false

/-- What a store operation gives: its result, the store after it, the notices of the source
and the log records, in order. -/
structure StoreOutcome (α : Type) where
  result : α
  store : Store
  notices : List Notice := []
  logs : List Log.Record := []

namespace Store

def lift {α : Type} (st : Store) (o : Outcome α) : StoreOutcome α :=
  ⟨o.result, { st with source := o.source }, o.notices, o.logs⟩

def refuse {α : Type} (st : Store) : StoreOutcome (Except StoreError α) := ⟨.error .closed, st, [], []⟩

def add (st : Store) (a : Option Annotation) (commit : Bool) : StoreOutcome (Except StoreError Nat) :=
  if st.closed then st.refuse
  else
    let o := st.source.add a commit
    let ok := o.result.toBool
    let st := { st with source := o.source, metrics := st.metrics.recordAdd ok }
    let (id, typ) := match a with
      | some a => (a.id, a.kind.tag)
      | none => ("", "")
    let log := match o.result with
      | .ok c =>
        let id := ((o.source.cell? c).map (·.id)).getD id
        Log.debug "add completed" [("id", .text id), ("type", .text typ), ("pending", .flag !commit)]
      | .error e => Log.error "add failed" [("id", .text id), ("type", .text typ), ("error", .failure e)]
    ⟨o.result.mapError StoreError.restate, st, o.notices, o.logs ++ [log]⟩

/-- Clears the pending mark of a reference's id. -/
def commit (st : Store) (c : Nat) : StoreOutcome Unit := st.lift (st.source.commit c)

def cellId (st : Store) (c : Nat) : String := ((st.source.cell? c).map (·.id)).getD ""

def update (st : Store) (c : Nat) (a : Option Annotation) : StoreOutcome (Except StoreError Unit) :=
  if st.closed then st.refuse
  else
    let o := st.source.update c a
    let st := { st with source := o.source, metrics := st.metrics.recordUpdate o.result.toBool }
    let log := match o.result with
      | .ok () => Log.debug "update completed" [("id", .text (st.cellId c))]
      | .error e => Log.error "update failed" [("id", .text (st.cellId c)), ("error", .failure e)]
    ⟨o.result.mapError StoreError.restate, st, o.notices, o.logs ++ [log]⟩

def delete (st : Store) (c : Nat) (nullify : Bool) : StoreOutcome (Except StoreError Unit) :=
  if st.closed then st.refuse
  else
    let o := st.source.delete c nullify
    let st := { st with source := o.source, metrics := st.metrics.recordDelete }
    let log := Log.debug "delete completed" [("id", .text (st.cellId c)), ("nullify", .flag nullify)]
    ⟨.ok (), st, o.notices, o.logs ++ [log]⟩

def get (st : Store) (id : String) : Except StoreError Annotation :=
  match st.source.get? id with
  | some a => .ok a
  | none => .error .notFound

/-- The packed buffer of the annotations, packed again only after a change. -/
def serialize (st : Store) : StoreOutcome PackedBuffer :=
  let (memo, log) := st.memo.update st.source {}
  let b := (memo.buffer?).getD {}
  let metrics := if log.isSome then st.metrics.recordSerialize b.data.size else st.metrics
  ⟨b, { st with memo, metrics }, [], log.toList⟩

def recordRestore (st : Store) (r : Except StoreError RestoreResult) : Store × Log.Record :=
  let (restored, skipped) := match r with
    | .ok res => (res.restored, res.skipped.length)
    | .error _ => (0, 0)
  let st := { st with metrics := st.metrics.recordRestore restored skipped r.toBool }
  let gen : Log.Value := .wide st.source.generation
  let log := match r with
    | .error e => Log.error "restore failed" [("error", .failure e)]
    | .ok _ =>
      if 0 < skipped then
        Log.warn "restore completed with skipped entries"
          [("count", .int restored), ("skipped", .int skipped), ("generation", gen)]
      else Log.info "restore completed" [("count", .int restored), ("generation", gen)]
  (st, log)

/-- Replaces the contents with a payload read by the source's codec. -/
def restoreState (st : Store) (payload : String) : StoreOutcome (Except StoreError RestoreResult) :=
  if st.closed then st.refuse
  else
    let o := st.source.restoreWith st.source.codec payload
    let (st, log) := { st with source := o.source }.recordRestore o.result
    ⟨o.result.mapError StoreError.restate, st, o.notices, o.logs ++ [log]⟩

/-- Saves the committed annotations as a snapshot. Gives the blob store after it. -/
def save (st : Store) (blobs : BlobStore) (cancelled : Bool) (name : String) :
    StoreOutcome (Except StoreError BlobStore) :=
  if st.closed then st.refuse
  else match st.manager with
    | none => ⟨.error .noPersistence, st, [], []⟩
    | some m =>
      let (r, logs) := m.save blobs cancelled name st.source
      let log := match r with
        | .ok _ => Log.info "save completed" [("name", .text name)]
        | .error e => Log.error "save failed" [("name", .text name), ("error", .failure e)]
      ⟨r.mapError StoreError.restate, st, [], logs ++ [log]⟩

def load (st : Store) (blobs : BlobStore) (cancelled : Bool) (name : String) :
    StoreOutcome (Except StoreError RestoreResult) :=
  if st.closed then st.refuse
  else match st.manager with
    | none => ⟨.error .noPersistence, st, [], []⟩
    | some m =>
      let o := m.load blobs cancelled name st.source
      let (st, log) := { st with source := o.source }.recordRestore o.result
      ⟨o.result.mapError StoreError.restate, st, o.notices, o.logs ++ [log]⟩

def snapshots (st : Store) (blobs : BlobStore) (cancelled : Bool) : Except StoreError (List String) :=
  match st.manager with
  | none => .error .noPersistence
  | some m => (m.list blobs cancelled).mapError StoreError.restate

/-- Closes the store and its manager; closing twice does nothing more. -/
def close (st : Store) : Store :=
  { st with closed := true, manager := st.manager.map fun m => { m with closed := true } }

end Store

end AnnotationStore
