import AnnotationStore.Blob.Handle
/-!
# Blob stores

Named immutable blobs, kept in memory or as files below a root directory.

The memory store maps names to bytes. Listing gives the names with a prefix, sorted.

The file store keeps its blobs below a root, a directory inside a tree of files whose top
directory may itself be removed. A name maps to a path below the root: the name is split at
slashes, empty and `.` parts are dropped and `..` goes up one level (never above the top).
Writing a blob first makes the directories above it, which fails where one of them is a
file, and then puts the file in place, which fails where a directory stands. Deleting a
missing file is not an error; deleting an empty directory removes it and a full one fails.
Opening a file maps it; a path through a file, or a directory, cannot be opened. Listing
walks the files below the root, skips those whose name starts with `.tmp-`, and gives the
relative paths with the prefix, sorted. File system failures carry no text of their own.

Operations given a cancelled context fail before touching anything, except that the memory
store does not look at the context, and listing a file store whose root does not exist
finds nothing.
-/

namespace AnnotationStore

/-- Files and directories below a top directory. -/
structure FileTree where
  topExists : Bool := true
  /-- Files by path, a path being its list of parts. -/
  files : List (List String × ByteArray) := []
  /-- Directories made so far, by path. -/
  dirs : List (List String) := []

namespace FileTree

/-- The path a name leads to from the directory `base`. -/
def resolve (base : List String) (name : String) : List String :=
  (name.splitOn "/").foldl (fun acc part =>
    if part.isEmpty || part == "." then acc
    else if part == ".." then acc.dropLast
    else acc ++ [part]) base

/-- Whether `p` lies strictly below `d`. -/
def below (p d : List String) : Bool := d.length < p.length && p.take d.length == d

def isFile (t : FileTree) (p : List String) : Bool := t.files.any (·.1 == p)

/-- Whether a path is a directory: the top while it exists, a directory made so far, or a
directory above a file. -/
def isDir (t : FileTree) (p : List String) : Bool :=
  if p.isEmpty then t.topExists
  else t.dirs.contains p || t.files.any fun (f, _) => below f p

/-- The directories strictly above a path, from the top. -/
def above (p : List String) : List (List String) := (List.range p.length).map fun n => p.take n

/-- Whether a directory above the path is in fact a file. -/
def throughFile (t : FileTree) (p : List String) : Bool := (above p).any t.isFile

def holdsAnything (t : FileTree) (p : List String) : Bool :=
  t.files.any (fun (f, _) => below f p) || t.dirs.any fun d => below d p

def makeDirs (t : FileTree) (p : List String) : Except StoreError FileTree :=
  let wanted := above p ++ [p]
  if wanted.any t.isFile then .error .library
  else .ok { t with
    topExists := true
    dirs := t.dirs ++ (wanted.filter fun d => !d.isEmpty && !t.dirs.contains d) }

/-- Writes a file, making the directories above it. -/
def put (t : FileTree) (p : List String) (data : ByteArray) : Except StoreError FileTree := do
  let t ← t.makeDirs p.dropLast
  if p.isEmpty || t.isDir p then throw .library
  pure { t with files := (t.files.filter (·.1 != p)) ++ [(p, data)] }

/-- Removes a file or an empty directory; a missing path is not an error. -/
def delete (t : FileTree) (p : List String) : Except StoreError FileTree :=
  if t.throughFile p then .error .library
  else if t.isFile p then .ok { t with files := t.files.filter (·.1 != p) }
  else if t.isDir p then
    if t.holdsAnything p then .error .library
    else if p.isEmpty then .ok { t with topExists := false }
    else .ok { t with dirs := t.dirs.filter (· != p) }
  else .ok t

/-- The bytes of a file: a path through a file or to a directory fails, a missing one is
not found. -/
def read (t : FileTree) (p : List String) : Except StoreError ByteArray :=
  if t.throughFile p then .error .library
  else match t.files.lookup p with
    | some b => .ok b
    | none => if t.isDir p then .error .library else .error .missingBlob

/-- The files below a directory, as paths relative to it, in no particular order. -/
def filesBelow (t : FileTree) (d : List String) : List (List String) :=
  (t.files.filter fun (f, _) => below f d).map fun (f, _) => f.drop d.length

/-- Whether a file name marks a file still being written. -/
def isTemporary (part : String) : Bool := part.startsWith ".tmp-"

end FileTree

/-- A file store: a tree of files and the directory the blobs live in. -/
structure FileStore where
  tree : FileTree := {}
  root : List String := []

namespace FileStore

def pathOf (s : FileStore) (name : String) : List String := FileTree.resolve s.root name

def openBlob (s : FileStore) (cancelled : Bool) (name : String) : Except StoreError Blob :=
  if cancelled then .error .canceled
  else (s.tree.read (s.pathOf name)).map fun d => .mapped ⟨d, false⟩

def put (s : FileStore) (cancelled : Bool) (name : String) (data : ByteArray) :
    Except StoreError FileStore :=
  if cancelled then .error .canceled
  else (s.tree.put (s.pathOf name) data).map fun tree => { s with tree }

def delete (s : FileStore) (cancelled : Bool) (name : String) : Except StoreError FileStore :=
  if cancelled then .error .canceled
  else (s.tree.delete (s.pathOf name)).map fun tree => { s with tree }

/-- The names of the blobs, temporary files skipped. A root that is a file is listed as
itself, named `.`. -/
def names (s : FileStore) (cancelled : Bool) : Except StoreError (List String) :=
  let t := s.tree
  if t.isDir s.root then
    if cancelled then .error .canceled
    else .ok ((t.filesBelow s.root).filter (fun p => !FileTree.isTemporary (p.getLast?.getD "")) |>.map
      fun p => "/".intercalate p)
  else if t.isFile s.root then
    if cancelled then .error .canceled
    else if FileTree.isTemporary (s.root.getLast?.getD "") then .ok [] else .ok ["."]
  else if t.throughFile s.root then .error .library
  else .ok []

end FileStore

inductive BlobStore where
  | memory (blobs : List (String × ByteArray))
  | files (s : FileStore)

namespace BlobStore

def emptyMemory : BlobStore := .memory []

def openBlob (s : BlobStore) (cancelled : Bool) (name : String) : Except StoreError Blob :=
  match s with
  | .memory blobs =>
    match blobs.lookup name with
    | some b => .ok (.memory b)
    | none => .error .missingBlob
  | .files f => f.openBlob cancelled name

def read (s : BlobStore) (cancelled : Bool) (name : String) : Except StoreError ByteArray :=
  (s.openBlob cancelled name).bind Blob.bytes

/-- Writes a blob, replacing any earlier one. -/
def put (s : BlobStore) (cancelled : Bool) (name : String) (data : ByteArray) :
    Except StoreError BlobStore :=
  match s with
  | .memory blobs => .ok (.memory ((blobs.filter (·.1 != name)) ++ [(name, data)]))
  | .files f => (f.put cancelled name data).map .files

/-- Removes a blob; a missing one is not an error. -/
def delete (s : BlobStore) (cancelled : Bool) (name : String) : Except StoreError BlobStore :=
  match s with
  | .memory blobs => .ok (.memory (blobs.filter (·.1 != name)))
  | .files f => (f.delete cancelled name).map .files

def list (s : BlobStore) (cancelled : Bool) (pfx : String) : Except StoreError (List String) :=
  let pick (ns : List String) := (ns.filter pfx.isPrefixOf).mergeSort (· ≤ ·)
  match s with
  | .memory blobs => .ok (pick (blobs.map (·.1)))
  | .files f => (f.names cancelled).map pick

end BlobStore

end AnnotationStore
