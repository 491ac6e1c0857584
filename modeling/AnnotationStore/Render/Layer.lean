import AnnotationStore.Render.Layout
import AnnotationStore.Store.Memo
/-!
# Drawing layers

A layer draws the packed buffer of a source through a device it only talks to by
commands: make a buffer, upload bytes, bind, destroy, reserve pick ids and draw. The
commands are the layer's observable behaviour, so they are its output here.

Drawing packs the source if it changed, makes the device buffer on first use, uploads the
packed bytes whenever they are a new packing, and then, unless the buffer is empty, reserves
one pick id per pick of the buffer, binds, and issues one draw per kind with instances.
Each draw carries one colour per instance (by category label, with the selected id in the
highlight colour) and the pick id of the hovered part, if it is in that kind.

A layer may be linked to the visible segments; with its filter on it packs only the
annotations on visible segments, and a change of visibility invalidates its packing.
Hovering takes over a hold on a reference, and the layer gives the previous one back.
-/

namespace AnnotationStore

/-- A colour with four channels. -/
structure Color where
  r : Float
  g : Float
  b : Float
  a : Float

/-- Colours and sizes of a layer. -/
structure Style where
  default : Color := ⟨1, 1, 0, 1⟩
  highlight : Color := ⟨1, 1, 1, 1⟩
  byLabel : List (String × Color) := []
  pointSize : Float32 := 6
  lineWidth : Float32 := 1

def Style.colorFor (s : Style) (label : String) : Color := (s.byLabel.lookup label).getD s.default

/-- The usage every device buffer is made with: vertex, storage and copy target. -/
def bufferUsage : Nat := 168

/-- One draw: the instances of one kind in a bound buffer. -/
structure DrawCall where
  kind : Kind
  buffer : String
  byteOffset : Int
  count : Nat
  /-- The packed size of each instance, for polylines only. -/
  instanceSizes : Option (List Nat)
  pickBase : Int
  pickCount : Int
  /-- The pick id offset of the hovered part within the region, or `-1`. -/
  selected : Int
  colors : List Color
  pointSize : Float32
  lineWidth : Float32

/-- A command to the device or the pick allocator. -/
inductive GpuEvent where
  | createBuffer (label : String)
  | upload (label : String) (data : ByteArray)
  | bind (label : String)
  | destroy (label : String)
  | register (base count : Int)
  | draw (call : DrawCall)

/-- What is highlighted: the hovered id and part, and the selected id. -/
structure Highlight where
  hover : Option (String × Int) := none
  selected : String := ""

def regionColors (style : Style) (b : PackedBuffer) (k : Kind) (selected : String) : List Color :=
  let r := b.regions k
  let base := (List.range r.ids.length).map fun i =>
    match r.labels with
    | some ls => style.colorFor (ls.getD i "")
    | none => style.default
  let (i, found) := b.indexOf k selected
  if !selected.isEmpty && found then base.set i style.highlight else base

/-- The pick id offset of the hovered part within a kind's region, or `-1`. -/
def hoverIndex (b : PackedBuffer) (k : Kind) (hl : Highlight) : Int :=
  match hl.hover with
  | some (id, part) =>
    let (i, found) := b.indexOf k id
    if id.isEmpty || !found then -1
    else
      let r := b.regions k
      let part := min (max part 0) (((r.picks.getD i 0 : Nat) : Int) - 1)
      (((r.picks.take i).foldr (· + ·) 0 : Nat) : Int) + max part 0
  | none => -1

/-- The draws of the kinds from the first of `ks`, the first pick id of the next region
being `base + cursor`. -/
def kindDraws (style : Style) (label : String) (b : PackedBuffer) (hl : Highlight) (base : Int) :
    List Kind → Int → List GpuEvent
  | [], _ => []
  | k :: ks, cursor =>
    let r := b.regions k
    if r.ids.isEmpty then kindDraws style label b hl base ks cursor
    else
      let call : DrawCall :=
        { kind := k, buffer := label, byteOffset := r.offset, count := r.ids.length,
          instanceSizes := if k.fixedSize then none else some r.sizes,
          pickBase := base + cursor, pickCount := r.pickCount, selected := hoverIndex b k hl,
          colors := regionColors style b k hl.selected, pointSize := style.pointSize,
          lineWidth := style.lineWidth }
      .draw call :: kindDraws style label b hl base ks (cursor + r.pickCount)

/-- Draws a packed buffer bound under `label`, reserving pick ids from `nextPick`. Gives
the next free pick id and the commands. -/
def drawBuffer (style : Style) (label : String) (b : PackedBuffer) (hl : Highlight)
    (nextPick : Int) : Int × List GpuEvent :=
  if b.size = 0 then (nextPick, [])
  else
    (nextPick + b.totalPicks,
      [.register nextPick b.totalPicks, .bind label] ++ kindDraws style label b hl nextPick Kind.all 0)

/-- The pointer and what it picked. -/
structure MouseState where
  position : Vec3
  picked : Option Pick := none

/-- Resolves a pick against a buffer; an unresolved pick leaves the pointer alone and is
logged. -/
def updateMouse (m : MouseState) (b : Option PackedBuffer) (offset : Int) :
    MouseState × List Log.Record :=
  let r := match b with
    | some b => b.resolvePick offset m.position
    | none => .error (.outOfRange offset 0)
  match r with
  | .ok p => ({ position := p.position, picked := some p }, [])
  | .error e => (m, [Log.debug "pick not resolved" [("error", .failure (.pick e))]])

/-- A drawing layer over a source. -/
structure Layer where
  memo : Memo := {}
  label : String := "annotations"
  style : Style := {}
  /-- Whether the layer is linked to the visible segments. -/
  segmented : Bool := false
  filter : Bool := false
  gpu : Bool := false
  /-- The packing last uploaded, with its number. -/
  uploaded : Option (Nat × PackedBuffer) := none
  /-- The reference cell hovered, and the part. -/
  hover : Option Nat := none
  hoverPart : Int := 0
  selected : String := ""
  disposed : Bool := false

namespace Layer

/-- A new layer; a filter asked for without segments is off. -/
def make (label : String) (style : Style) (segmented filter : Bool) : Layer :=
  let on := filter && segmented
  { label, style, segmented, filter := on, memo := ({} : Memo).setFilter on }

/-- Draws the source. Gives the layer, the next free pick id, the commands and the log. -/
def draw (l : Layer) (src : Source) (vis : VisibleSet) (nextPick : Int) :
    Layer × Int × List GpuEvent × List Log.Record :=
  if l.disposed then (l, nextPick, [], [])
  else
    let (memo, packLog) := l.memo.update src vis
    let current := memo.current.getD (0, {})
    let l := { l with memo }
    let (l, create) := if l.gpu then (l, []) else ({ l with gpu := true }, [GpuEvent.createBuffer l.label])
    let fresh := (l.uploaded.map (·.1)) != some current.1
    let (l, upload, uploadLog) :=
      if fresh then
        ({ l with uploaded := some current }, [GpuEvent.upload l.label current.2.data],
          [Log.debug "annotation buffer uploaded" [("bytes", .int current.2.data.size),
            ("generation", .wide current.2.generation.toNat)]])
      else (l, [], [])
    let hover := match l.hover.bind src.cell? with
      | some c => if c.state = .present then some (c.id, l.hoverPart) else none
      | none => none
    let (nextPick, draws) := drawBuffer l.style l.label current.2 ⟨hover, l.selected⟩ nextPick
    (l, nextPick, create ++ upload ++ draws, packLog.toList ++ uploadLog)

def data (l : Layer) : Option PackedBuffer := l.uploaded.map (·.2)

/-- Hovers part of a referenced annotation, or nothing; the hold on the previous reference
is given back. The layer asks for a redraw. -/
def setHover (l : Layer) (src : Source) (cell : Option Nat) (part : Int) : Layer × Source :=
  let src := match l.hover with
    | some c => src.dispose c
    | none => src
  ({ l with hover := cell, hoverPart := part }, src)

/-- Selects an id; gives whether it changed, which asks for a redraw. -/
def setSelected (l : Layer) (id : String) : Layer × Bool :=
  if id = l.selected then (l, false) else ({ l with selected := id }, true)

/-- Turns the segment filter on or off. Gives whether it changed, which asks for a redraw. -/
def setFilter (l : Layer) (on : Bool) : Except StoreError (Layer × Bool) :=
  if on && !l.segmented then .error .noSegmentation
  else if on = l.filter then .ok (l, false)
  else .ok ({ l with filter := on, memo := l.memo.setFilter on }, true)

/-- What a change of visibility does: with the filter on, the packing is invalidated. -/
def visibilityChanged (l : Layer) : Layer :=
  if l.filter then { l with memo := l.memo.invalidate } else l

/-- Releases the device buffer and the hover hold. -/
def dispose (l : Layer) (src : Source) : Layer × Source × List GpuEvent :=
  if l.disposed then (l, src, [])
  else
    let events := if l.gpu then [GpuEvent.destroy l.label] else []
    let src := match l.hover with
      | some c => src.dispose c
      | none => src
    ({ l with disposed := true, gpu := false, hover := none, uploaded := none }, src, events)

end Layer

end AnnotationStore
