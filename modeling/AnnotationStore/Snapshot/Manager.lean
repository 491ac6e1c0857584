import AnnotationStore.Store.Source
import AnnotationStore.Blob.Store
import AnnotationStore.Text.Path
/-!
# Saving and loading snapshots

A manager writes the committed annotations of a source as snapshot blobs under a prefix,
reads them back into a source, lists and deletes them. Blob names are the prefix and the
snapshot name joined as paths. Once closed, a manager refuses everything.

Errors of the layers below are given the snapshot's name as context.
-/

namespace AnnotationStore.Snapshot

structure Manager where
  pfx : String := ""
  codec : Codec := Codec.default
  compression : Nat := 0
  closed : Bool := false

namespace Manager

/-- A manager over a blob store, if there is one and the compression is known. -/
def make (hasStore : Bool) (pfx : String) (codec : Codec) (compression : Nat) :
    Except StoreError Manager :=
  if !hasStore then .error .noStore
  else match block ByteArray.empty compression with
    | .error e => .error (.within "persistence" (.block e))
    | .ok _ => .ok { pfx, codec, compression }

def blobName (m : Manager) (name : String) : String :=
  if m.pfx.isEmpty then name else Path.join m.pfx name

/-- Fails when the manager is closed or the context is cancelled. -/
def ready (m : Manager) (cancelled : Bool) : Except StoreError Unit :=
  if m.closed then .error .managerClosed else if cancelled then .error .canceled else .ok ()

def encodeFailure : EncodeError → StoreError
  | .marshal => .within "persistence: encode payload" .library
  | .block e => .within "persistence: compress payload" (.block e)

/-- Saves the committed annotations of a source. Gives the store after it and the log. -/
def save (m : Manager) (store : BlobStore) (cancelled : Bool) (name : String) (s : Source) :
    Except StoreError BlobStore × List Log.Record :=
  match m.ready cancelled with
  | .error e => (.error e, [])
  | .ok () =>
    let entries := s.toPersistable
    match encode entries m.codec m.compression with
    | .error e => (.error (encodeFailure e), [])
    | .ok data =>
      match store.put cancelled (m.blobName name) data with
      | .error e => (.error (.within ("persistence: snapshot " ++ name ++ " failed") e), [])
      | .ok store =>
        (.ok store, [Log.info "snapshot saved" [("name", .text name),
          ("count", .int entries.length), ("bytes", .int data.size),
          ("codec", .text m.codec.name), ("compression", .text (Method.nameOf m.compression))]])

/-- Loads a snapshot into a source; on any error the source is left as it was. -/
def load (m : Manager) (store : BlobStore) (cancelled : Bool) (name : String) (s : Source) :
    Outcome (Except StoreError RestoreResult) :=
  let fail (e : StoreError) : Outcome (Except StoreError RestoreResult) := ⟨.error e, s, [], []⟩
  let context := "persistence: snapshot " ++ name
  match m.ready cancelled with
  | .error e => fail e
  | .ok () =>
    match store.read cancelled (m.blobName name) with
    | .error e => fail (.within context e)
    | .ok data =>
      match decode data with
      | .error e => fail (.within context (.snapshot e))
      | .ok (h, payload) =>
        let codec := ((String.fromUTF8? h.codecName).bind Codec.byName?).getD m.codec
        let o := s.restoreWith codec (Utf8.decodeBytes payload)
        match o.result with
        | .error e => { o with result := .error (.within (context ++ " load failed") e) }
        | .ok res =>
          { o with logs := o.logs ++ [Log.info "snapshot loaded" [("name", .text name),
            ("count", .int res.restored), ("skipped", .int res.skipped.length),
            ("codec", .text codec.name)]] }

/-- The snapshot names, without the prefix. -/
def list (m : Manager) (store : BlobStore) (cancelled : Bool) : Except StoreError (List String) := do
  if m.closed then throw .managerClosed
  let pfx := if m.pfx.isEmpty then "" else m.pfx ++ "/"
  let names ← store.list cancelled pfx
  pure (names.map fun n => String.ofList (n.toList.drop pfx.length))

/-- Deletes a snapshot; a missing one is not an error. -/
def delete (m : Manager) (store : BlobStore) (cancelled : Bool) (name : String) :
    Except StoreError BlobStore := do
  if m.closed then throw .managerClosed
  store.delete cancelled (m.blobName name)

end Manager

end AnnotationStore.Snapshot
