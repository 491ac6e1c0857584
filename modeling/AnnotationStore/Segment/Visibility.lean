import AnnotationStore.Annotation.Basic
/-!
# Visible segments

Segment ids fall into classes of equivalent ids; the canonical id of a class is its
smallest member. Equivalences are parent pointers from an id to a smaller one, and the
canonical id is found by following them. A query also compresses the way it took, pointing
every id on it straight at the canonical id.

Every call that looks an id up does so with a query, at the moment it uses the id (`perform`).
A query changes no canonical id, so the same call made without queries (`apply`) ends, after
the queries of the ids it is handed, in the same set; the lemmas about runs use that form.

Visibility belongs to classes: the set holds canonical ids, and showing or hiding any member
shows or hides its class. Every operation says whether it changed anything, which is when
listeners are told.
-/

namespace AnnotationStore

/-- Visible classes of segment ids and the equivalences between ids. -/
structure VisibleSet where
  /-- The visible canonical ids, ascending and without repeats. -/
  visible : List SegmentId := []
  /-- Parent pointers, each from an id to a smaller one; each id has at most one. -/
  parent : List (SegmentId × SegmentId) := []

namespace VisibleSet

/-- Follows parent pointers from `id`; `fuel` bounds the steps. -/
def root (v : VisibleSet) : Nat → SegmentId → SegmentId
  | 0, id => id
  | fuel + 1, id =>
    match v.parent.lookup id with
    | some p => v.root fuel p
    | none => id

/-- The canonical id of the class of `id`. Pointers go to smaller ids, so a chain is no
longer than the number of pointers. -/
def canonical (v : VisibleSet) (id : SegmentId) : SegmentId := v.root v.parent.length id

/-- The ids met on the way from `id` to its canonical id, the canonical id left out;
`fuel` bounds the steps. -/
def path (v : VisibleSet) : Nat → SegmentId → List SegmentId
  | 0, _ => []
  | fuel + 1, id =>
    match v.parent.lookup id with
    | some p => id :: v.path fuel p
    | none => []

/-- What a query does on its way: every id met on the way from `id` to its canonical id is
pointed straight at the canonical id. -/
def compress (v : VisibleSet) (id : SegmentId) : VisibleSet :=
  let root := v.canonical id
  let met := v.path v.parent.length id
  { v with parent := v.parent.map fun (c, p) => if met.contains c then (c, root) else (c, p) }

/-- A query of `id`: the set with the way to `id` compressed, and the canonical id, found
before the compression. -/
def query (v : VisibleSet) (id : SegmentId) : VisibleSet × SegmentId := (v.compress id, v.canonical id)

/-- The set after the queries of `ids`, one after another. -/
def queryAll (v : VisibleSet) (ids : List SegmentId) : VisibleSet := ids.foldl compress v

def isVisible (v : VisibleSet) (id : SegmentId) : Bool := v.visible.contains (v.canonical id)

/-- Whether the class of `id` is visible, asked with a query: the set after the query and the
answer. -/
def queryVisible (v : VisibleSet) (id : SegmentId) : VisibleSet × Bool :=
  let (v, c) := v.query id
  (v, v.visible.contains c)

/-- Inserts an id into an ascending list without repeats. -/
def insertSorted (x : SegmentId) : List SegmentId → List SegmentId
  | [] => [x]
  | y :: ys => if x < y then x :: y :: ys else if x = y then y :: ys else y :: insertSorted x ys

/-- Makes the classes of `ids` visible. Gives whether any became visible. -/
def reveal (v : VisibleSet) (ids : List SegmentId) : VisibleSet × Bool :=
  ids.foldl (fun (v, changed) id =>
    let c := v.canonical id
    if v.visible.contains c then (v, changed)
    else ({ v with visible := insertSorted c v.visible }, true)) (v, false)

/-- Makes the classes of `ids` invisible. Gives whether any was visible. -/
def hide (v : VisibleSet) (ids : List SegmentId) : VisibleSet × Bool :=
  ids.foldl (fun (v, changed) id =>
    let c := v.canonical id
    if v.visible.contains c then ({ v with visible := v.visible.erase c }, true)
    else (v, changed)) (v, false)

/-- Makes exactly the classes of `ids` visible. Gives whether that differs from before. -/
def setVisible (v : VisibleSet) (ids : List SegmentId) : VisibleSet × Bool :=
  let next := ids.foldl (fun acc id => insertSorted (v.canonical id) acc) []
  if next = v.visible then (v, false) else ({ v with visible := next }, true)

/-- Joins the classes of the canonical ids `ra` and `rb`: the larger points at the smaller,
and the joined class is visible if the larger one was. Gives whether the classes were apart. -/
def join (v : VisibleSet) (ra rb : SegmentId) : VisibleSet × Bool :=
  if ra = rb then (v, false)
  else
    let root := min ra rb
    let child := max ra rb
    let v := { v with parent := (child, root) :: v.parent }
    if v.visible.contains child then
      ({ v with visible := insertSorted root (v.visible.erase child) }, true)
    else (v, true)

/-- Declares `a` and `b` equivalent. Gives whether their classes were apart. -/
def merge (v : VisibleSet) (a b : SegmentId) : VisibleSet × Bool := v.join (v.canonical a) (v.canonical b)

/-- Forgets every equivalence; visible canonical ids stay visible. Gives whether there
were any. -/
def resetEquivalences (v : VisibleSet) : VisibleSet × Bool :=
  if v.parent.isEmpty then (v, false) else ({ v with parent := [] }, true)

/-- Hides every class. Gives whether any was visible. -/
def clear (v : VisibleSet) : VisibleSet × Bool :=
  if v.visible.isEmpty then (v, false) else ({ v with visible := [] }, true)

def len (v : VisibleSet) : Nat := v.visible.length

/-- The ids a callback is handed when it is called on `xs` in order until it answers
`false`. -/
def handedUntil (fn : SegmentId → Bool) : List SegmentId → List SegmentId
  | [] => []
  | x :: xs => x :: if fn x then handedUntil fn xs else []

/-- The ids `fn` is handed when it is called with each visible canonical id in ascending
order until it answers `false`. -/
def forEachVisible (v : VisibleSet) (fn : SegmentId → Bool) : List SegmentId :=
  handedUntil fn v.visible

/-- The calls that can change a visible set. A query of the canonical id of `id` (which
also answers whether its class is visible) compresses the way to it. -/
inductive Op where
  | reveal (ids : List SegmentId)
  | hide (ids : List SegmentId)
  | setVisible (ids : List SegmentId)
  | merge (a b : SegmentId)
  | resetEquivalences
  | clear
  | query (id : SegmentId)

/-- Performs a call; gives the new set and whether listeners are told. -/
def apply (v : VisibleSet) : Op → VisibleSet × Bool
  | .reveal ids => v.reveal ids
  | .hide ids => v.hide ids
  | .setVisible ids => v.setVisible ids
  | .merge a b => v.merge a b
  | .resetEquivalences => v.resetEquivalences
  | .clear => v.clear
  | .query id => (v.compress id, false)

/-- The ids a call looks up, in the order it looks them up; a query is its own look-up and lists
none. -/
def Op.queried : Op → List SegmentId
  | .reveal ids | .hide ids | .setVisible ids => ids
  | .merge a b => [a, b]
  | .resetEquivalences | .clear | .query _ => []

/-- Performs a call as the set makes it: each id is looked up with a query when the call uses
it. Gives the new set and whether listeners are told. -/
def perform (v : VisibleSet) : Op → VisibleSet × Bool
  | .reveal ids =>
    ids.foldl (fun (v, changed) id =>
      let (v, c) := v.query id
      if v.visible.contains c then (v, changed)
      else ({ v with visible := insertSorted c v.visible }, true)) (v, false)
  | .hide ids =>
    ids.foldl (fun (v, changed) id =>
      let (v, c) := v.query id
      if v.visible.contains c then ({ v with visible := v.visible.erase c }, true)
      else (v, changed)) (v, false)
  | .setVisible ids =>
    let (v, next) := ids.foldl (fun (v, next) id =>
      let (v, c) := v.query id
      (v, insertSorted c next)) (v, [])
    if next = v.visible then (v, false) else ({ v with visible := next }, true)
  | .merge a b =>
    let (v, ra) := v.query a
    let (v, rb) := v.query b
    v.join ra rb
  | .resetEquivalences => v.resetEquivalences
  | .clear => v.clear
  | .query id => ((v.query id).1, false)

def replay (ops : List Op) : VisibleSet := ops.foldl (fun v op => (v.apply op).1) {}

end VisibleSet

end AnnotationStore
