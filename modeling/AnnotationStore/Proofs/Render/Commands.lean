import Mathlib
import AnnotationStore.Render.Layer
import AnnotationStore.Proofs.Buffer.Memo
/-!
# What the device makes of a layer's commands

A layer talks to the device only by commands, so what the device holds is a function of the
commands it was given: under each label, whether a buffer lives there and which bytes were
uploaded to it last (`Device.run`). A command stream is *accepted* when every buffer is made
under a label with none live, every upload, bind and destroy goes to a live buffer (so no
buffer is destroyed twice), and every bind finds as its last upload the bytes the draw means
to show (`Device.Accepts`).

For a layer over a source this module shows that along any interleaving of source operations,
visibility changes, filter switches, hovering, selecting, draws and disposal, every step's
commands are accepted, a draw binding the bytes of the packing the memo's update gives for
that draw, and that a disposed layer gives no commands at all (`LayerView.run_accepts`).
-/

namespace AnnotationStore

/-- The device as a layer's commands leave it: which labels have a live buffer, and the
bytes last uploaded under each label since its buffer was made. -/
structure Device where
  live : String → Bool := fun _ => false
  contents : String → Option ByteArray := fun _ => none

namespace Device

/-- What a command does to the device. Registering pick ids and drawing change nothing. -/
def apply (d : Device) : GpuEvent → Device
  | .createBuffer l => { live := Function.update d.live l true, contents := Function.update d.contents l none }
  | .upload l data => { d with contents := Function.update d.contents l (some data) }
  | .destroy l => { d with live := Function.update d.live l false }
  | _ => d

def run (d : Device) (es : List GpuEvent) : Device := es.foldl apply d

/-- Whether the device can carry a command out as meant: a buffer is made only where none
lives, uploads, binds and destroys go to a live buffer, and a bind finds bytes that `fits`
allows for its label as the last upload. -/
def allows (fits : String → ByteArray → Prop) (d : Device) : GpuEvent → Prop
  | .createBuffer l => d.live l = false
  | .upload l _ => d.live l = true
  | .destroy l => d.live l = true
  | .bind l => d.live l = true ∧ ∃ data, d.contents l = some data ∧ fits l data
  | _ => True

/-- Every command of a stream is carried out as meant, each on the device the ones before it
left. -/
def Accepts (fits : String → ByteArray → Prop) : Device → List GpuEvent → Prop
  | _, [] => True
  | d, e :: es => d.allows fits e ∧ Accepts fits (d.apply e) es

variable {fits : String → ByteArray → Prop}

@[simp] theorem run_nil (d : Device) : d.run [] = d := rfl

@[simp] theorem run_cons (d : Device) (e : GpuEvent) (es : List GpuEvent) :
    d.run (e :: es) = (d.apply e).run es := rfl

theorem run_append (d : Device) (xs ys : List GpuEvent) : d.run (xs ++ ys) = (d.run xs).run ys :=
  List.foldl_append

@[simp] theorem accepts_nil (d : Device) : Accepts fits d [] := trivial

@[simp] theorem accepts_cons (d : Device) (e : GpuEvent) (es : List GpuEvent) :
    Accepts fits d (e :: es) ↔ d.allows fits e ∧ Accepts fits (d.apply e) es := Iff.rfl

theorem accepts_append : ∀ (d : Device) (xs ys : List GpuEvent),
    Accepts fits d (xs ++ ys) ↔ Accepts fits d xs ∧ Accepts fits (d.run xs) ys
  | d, [], ys => by simp
  | d, e :: xs, ys => by
    simp only [List.cons_append, accepts_cons, run_cons, accepts_append _ xs ys, and_assoc]

@[simp] theorem live_create (d : Device) (l l' : String) :
    (d.apply (.createBuffer l)).live l' = if l' = l then true else d.live l' := by
  simp [apply, Function.update_apply]

@[simp] theorem contents_create (d : Device) (l l' : String) :
    (d.apply (.createBuffer l)).contents l' = if l' = l then none else d.contents l' := by
  simp [apply, Function.update_apply]

@[simp] theorem live_upload (d : Device) (l : String) (data : ByteArray) :
    (d.apply (.upload l data)).live = d.live := rfl

@[simp] theorem contents_upload (d : Device) (l l' : String) (data : ByteArray) :
    (d.apply (.upload l data)).contents l' = if l' = l then some data else d.contents l' := by
  simp [apply, Function.update_apply]

@[simp] theorem live_destroy (d : Device) (l l' : String) :
    (d.apply (.destroy l)).live l' = if l' = l then false else d.live l' := by
  simp [apply, Function.update_apply]

@[simp] theorem contents_destroy (d : Device) (l : String) :
    (d.apply (.destroy l)).contents = d.contents := rfl

/-- Destroying distinct live buffers one after another is accepted, and leaves exactly those
labels without a live buffer. -/
theorem accepts_destroyAll : ∀ {d : Device} (ls : List String), ls.Nodup → (∀ x ∈ ls, d.live x = true) →
    Accepts fits d (ls.map .destroy) ∧ ∀ x, (d.run (ls.map .destroy)).live x = if x ∈ ls then false else d.live x
  | _, [], _, _ => ⟨trivial, fun x => by simp⟩
  | d, l :: ls, hnd, hlive => by
    obtain ⟨hl, hnd⟩ := List.nodup_cons.mp hnd
    -- the first destroy leaves the rest live
    have hrest : ∀ x ∈ ls, (d.apply (.destroy l)).live x = true := by
      intro x hx
      rw [live_destroy, if_neg fun (h : x = l) => hl (h ▸ hx)]
      exact hlive x (List.mem_cons_of_mem l hx)
    obtain ⟨hacc, hrun⟩ := accepts_destroyAll ls hnd hrest
    refine ⟨⟨hlive l List.mem_cons_self, hacc⟩, fun x => ?_⟩
    rw [List.map_cons, run_cons, hrun x, live_destroy]
    by_cases hx : x = l
    · simp [hx]
    · simp [hx]

end Device

/-! ## Drawing a buffer -/

theorem kindDraws_draw (style : Style) (label : String) (b : PackedBuffer) (hl : Highlight) (base : Int) :
    ∀ (ks : List Kind) (cursor : Int), ∀ e ∈ kindDraws style label b hl base ks cursor, ∃ c, e = .draw c
  | [], _, e, he => by simp [kindDraws] at he
  | k :: ks, cursor, e, he => by
    by_cases hempty : (b.regions k).ids.isEmpty = true
    · simp only [kindDraws, hempty, if_true] at he
      exact kindDraws_draw style label b hl base ks cursor e he
    · simp only [kindDraws, hempty, Bool.false_eq_true, if_false, List.mem_cons] at he
      rcases he with rfl | he
      · exact ⟨_, rfl⟩
      · exact kindDraws_draw style label b hl base ks _ e he

/-- The commands of drawing one buffer: nothing for an empty one, else the pick ids, a bind
of its label, and draws. -/
theorem drawBuffer_snd (style : Style) (label : String) (b : PackedBuffer) (hl : Highlight) (nextPick : Int) :
    (drawBuffer style label b hl nextPick).2 = [] ∨
      ∃ ds, (∀ e ∈ ds, ∃ c, e = .draw c) ∧
        (drawBuffer style label b hl nextPick).2 = .register nextPick b.totalPicks :: .bind label :: ds := by
  unfold drawBuffer
  split
  · exact .inl rfl
  · exact .inr ⟨_, kindDraws_draw style label b hl nextPick Kind.all 0, rfl⟩

namespace Device

theorem run_draws : ∀ (d : Device) (ds : List GpuEvent), (∀ e ∈ ds, ∃ c, e = .draw c) → d.run ds = d
  | _, [], _ => rfl
  | d, e :: ds, h => by
    obtain ⟨c, rfl⟩ := h e List.mem_cons_self
    exact run_draws d ds fun e he => h e (List.mem_cons_of_mem _ he)

theorem accepts_draws : ∀ (d : Device) (ds : List GpuEvent), (∀ e ∈ ds, ∃ c, e = .draw c) →
    Accepts fits d ds
  | _, [], _ => trivial
  | d, e :: ds, h => by
    obtain ⟨c, rfl⟩ := h e List.mem_cons_self
    exact ⟨trivial, accepts_draws d ds fun e he => h e (List.mem_cons_of_mem _ he)⟩

theorem run_drawBuffer (d : Device) (style : Style) (label : String) (b : PackedBuffer) (hl : Highlight)
    (nextPick : Int) : d.run (drawBuffer style label b hl nextPick).2 = d := by
  rcases drawBuffer_snd style label b hl nextPick with h | ⟨ds, hds, h⟩
  · rw [h, run_nil]
  · rw [h]
    exact run_draws d ds hds

/-- Drawing a buffer is accepted when its label holds a live buffer whose last upload `fits`
allows. -/
theorem accepts_drawBuffer {d : Device} {label : String} (hlive : d.live label = true) {data : ByteArray}
    (hdata : d.contents label = some data) (hfits : fits label data) (style : Style) (b : PackedBuffer)
    (hl : Highlight) (nextPick : Int) : Accepts fits d (drawBuffer style label b hl nextPick).2 := by
  rcases drawBuffer_snd style label b hl nextPick with h | ⟨ds, hds, h⟩
  · rw [h]
    trivial
  · rw [h]
    exact ⟨trivial, ⟨hlive, data, hdata, hfits⟩, accepts_draws _ ds hds⟩

end Device

/-! ## Packings a layer draws -/

namespace Memo

theorem update_cases (m : Memo) (s : Source) (vis : VisibleSet) :
    (m.update s vis).1 = m ∨ (m.update s vis).1 = (m.pack s vis).1 := by
  rw [update_fst]
  split
  · exact .inl rfl
  · exact .inr rfl

theorem update_current_isSome (m : Memo) (s : Source) (vis : VisibleSet) :
    ((m.update s vis).1.current).isSome := by
  rw [update_fst]
  split
  · rename_i hkeep
    exact hkeep.1
  · simp [pack_fst]

/-- Each packing is numbered by the count of packings so far. -/
def Numbered (m : Memo) : Prop := ∀ n b, m.current = some (n, b) → n = m.builds

theorem Numbered.update {m : Memo} (h : m.Numbered) (s : Source) (vis : VisibleSet) :
    (m.update s vis).1.Numbered := by
  rcases update_cases m s vis with heq | heq <;> rw [heq]
  · exact h
  · intro n b hcur
    simp only [pack_fst, Option.some.injEq, Prod.mk.injEq] at hcur
    rw [pack_fst, ← hcur.1]

end Memo

namespace Layer

/-- The numbered packing a draw shows: the memo's after its update. -/
def shown (l : Layer) (src : Source) (vis : VisibleSet) : Nat × PackedBuffer :=
  ((l.memo.update src vis).1.current).getD (0, {})

/-- A live layer's draw: it updates the memo, makes the device buffer if there is none,
uploads the packing it shows unless that packing is the one uploaded last, and draws it. -/
theorem draw_of_live (l : Layer) (src : Source) (vis : VisibleSet) (nextPick : Int) (h : l.disposed = false) :
    (l.draw src vis nextPick).1 =
      { l with memo := (l.memo.update src vis).1, gpu := true,
               uploaded := if (l.uploaded.map (·.1)) != some (l.shown src vis).1 then some (l.shown src vis)
                 else l.uploaded } ∧
    ∃ hl, (l.draw src vis nextPick).2.2.1 =
      (if l.gpu then [] else [.createBuffer l.label]) ++
      (if (l.uploaded.map (·.1)) != some (l.shown src vis).1 then [.upload l.label (l.shown src vis).2.data]
        else []) ++
      (drawBuffer l.style l.label (l.shown src vis).2 hl nextPick).2 := by
  unfold draw shown
  simp only [h, Bool.false_eq_true, if_false]
  by_cases hg : l.gpu = true <;>
    by_cases hf : ((l.uploaded.map (·.1)) != some ((l.memo.update src vis).1.current.getD (0, {})).1) = true <;>
    simp only [hg, hf, if_true, if_false, Bool.false_eq_true, true_and] <;> exact ⟨_, rfl⟩

theorem update_current (l : Layer) (src : Source) (vis : VisibleSet) :
    (l.memo.update src vis).1.current = some (l.shown src vis) := by
  obtain ⟨c, hc⟩ := Option.isSome_iff_exists.mp (Memo.update_current_isSome l.memo src vis)
  simp [shown, hc]

theorem draw_of_disposed (l : Layer) (src : Source) (vis : VisibleSet) (nextPick : Int) (h : l.disposed = true) :
    l.draw src vis nextPick = (l, nextPick, [], []) := by
  simp [draw, h]

theorem dispose_of_live (l : Layer) (src : Source) (h : l.disposed = false) :
    (l.dispose src).1 = { l with disposed := true, gpu := false, hover := none, uploaded := none } ∧
      (l.dispose src).2.2 = if l.gpu then [.destroy l.label] else [] := by
  simp [dispose, h]

theorem dispose_of_disposed (l : Layer) (src : Source) (h : l.disposed = true) : (l.dispose src).2.2 = [] := by
  simp [dispose, h]

end Layer

/-! ## A layer over a source -/

/-- A layer over a source, with the visible set it reads and the next free pick id. -/
structure LayerView where
  layer : Layer
  source : Source
  vis : VisibleSet := {}
  nextPick : Int := 0

namespace LayerView

inductive Event where
  | source (op : Source.Op)
  | visible (vis : VisibleSet)
  | filter (on : Bool)
  | hover (cell : Option Nat) (part : Int)
  | select (id : String)
  | draw
  | dispose

/-- One event, and the commands it gives the device. A change of visibility reaches a live
layer linked to the visible segments. -/
def step (v : LayerView) : Event → LayerView × List GpuEvent
  | .source op => ({ v with source := v.source.apply op }, [])
  | .visible vis =>
    ({ v with vis, layer := if !v.layer.disposed && v.layer.segmented then v.layer.visibilityChanged else v.layer },
      [])
  | .filter on =>
    match v.layer.setFilter on with
    | .ok r => ({ v with layer := r.1 }, [])
    | .error _ => (v, [])
  | .hover cell part =>
    let r := v.layer.setHover v.source cell part
    ({ v with layer := r.1, source := r.2 }, [])
  | .select id => ({ v with layer := (v.layer.setSelected id).1 }, [])
  | .draw =>
    let r := v.layer.draw v.source v.vis v.nextPick
    ({ v with layer := r.1, nextPick := r.2.1 }, r.2.2.1)
  | .dispose =>
    let r := v.layer.dispose v.source
    ({ v with layer := r.1, source := r.2.1 }, r.2.2)

/-- What a bind an event gives may find: a draw binds the layer's label to the bytes of the
packing the draw shows, and no other event binds. -/
def shows (v : LayerView) : Event → String → ByteArray → Prop
  | .draw => fun label data => label = v.layer.label ∧ data = (v.layer.shown v.source v.vis).2.data
  | _ => fun _ _ => False

def run (v : LayerView) : List Event → LayerView × List GpuEvent
  | [] => (v, [])
  | e :: es => (((v.step e).1.run es).1, (v.step e).2 ++ ((v.step e).1.run es).2)

/-- What holds of a layer and the device its commands left: its label has a live buffer just
when the layer made one, packings are numbered by the count of packings, the packing uploaded
last lies in the device buffer and is the memo's own under its number, and a disposed layer
holds nothing. -/
structure Coherent (v : LayerView) (d : Device) : Prop where
  live : d.live v.layer.label = v.layer.gpu
  numbered : v.layer.memo.Numbered
  uploaded : ∀ n b, v.layer.uploaded = some (n, b) →
    v.layer.gpu = true ∧ d.contents v.layer.label = some b.data ∧ n ≤ v.layer.memo.builds ∧
      ∀ b', v.layer.memo.current = some (n, b') → b' = b
  disposed : v.layer.disposed = true → v.layer.gpu = false ∧ v.layer.uploaded = none

theorem coherent_make (label : String) (style : Style) (segmented filter : Bool) (src : Source)
    (vis : VisibleSet) : ({ layer := Layer.make label style segmented filter, source := src, vis } : LayerView).Coherent {} where
  live := rfl
  numbered := by simp [Memo.Numbered, Layer.make, Memo.setFilter]
  uploaded := by simp [Layer.make]
  disposed := by simp [Layer.make]

variable {v : LayerView} {d : Device}

/-- A draw that does not upload shows the packing uploaded last: the number matches, and a
memo that packed again would show a number beyond every earlier one. -/
theorem Coherent.uploaded_eq_shown (h : v.Coherent d)
    (hkeep : ((v.layer.uploaded.map (·.1)) != some (v.layer.shown v.source v.vis).1) = false) :
    v.layer.uploaded = some (v.layer.shown v.source v.vis) := by
  have hcur := v.layer.update_current v.source v.vis
  generalize v.layer.shown v.source v.vis = cur at hcur hkeep ⊢
  obtain ⟨c, buf⟩ := cur
  have hmap : v.layer.uploaded.map (·.1) = some c := by simpa using hkeep
  obtain ⟨⟨n, b⟩, hup, rfl⟩ := Option.map_eq_some_iff.mp hmap
  obtain ⟨-, -, hle, hsame⟩ := h.uploaded n b hup
  rcases Memo.update_cases v.layer.memo v.source v.vis with heq | heq <;> rw [heq] at hcur
  · -- the memo kept its packing, which is the one uploaded under that number
    rw [hup, hsame buf hcur]
  · -- a new packing is numbered past every earlier one
    simp only [Memo.pack_fst, Option.some.injEq, Prod.mk.injEq] at hcur
    omega

/-- The commands a live layer's draw gives before drawing: making the device buffer if the
layer has none and uploading a new packing. They are accepted and leave a live buffer holding
the packing shown. -/
theorem Coherent.prepare (h : v.Coherent d) :
    d.Accepts (v.shows .draw) ((if v.layer.gpu then [] else [.createBuffer v.layer.label]) ++
      (if (v.layer.uploaded.map (·.1)) != some (v.layer.shown v.source v.vis).1 then
        [.upload v.layer.label (v.layer.shown v.source v.vis).2.data] else [])) ∧
    (d.run ((if v.layer.gpu then [] else [.createBuffer v.layer.label]) ++
      (if (v.layer.uploaded.map (·.1)) != some (v.layer.shown v.source v.vis).1 then
        [.upload v.layer.label (v.layer.shown v.source v.vis).2.data] else []))).live v.layer.label = true ∧
    (d.run ((if v.layer.gpu then [] else [.createBuffer v.layer.label]) ++
      (if (v.layer.uploaded.map (·.1)) != some (v.layer.shown v.source v.vis).1 then
        [.upload v.layer.label (v.layer.shown v.source v.vis).2.data] else []))).contents v.layer.label =
      some (v.layer.shown v.source v.vis).2.data := by
  by_cases hgpu : v.layer.gpu = true
  · by_cases hfresh : ((v.layer.uploaded.map (·.1)) != some (v.layer.shown v.source v.vis).1) = true
    · -- a new packing goes to the buffer there is
      simp [hgpu, hfresh, Device.allows, h.live]
    · -- the packing uploaded last is the one shown
      have hup := h.uploaded_eq_shown (by simpa using hfresh)
      have hcontents := (h.uploaded _ _ hup).2.1
      simp only [hgpu, if_true, hfresh, Bool.false_eq_true, if_false, List.nil_append, Device.run_nil,
        Device.accepts_nil, true_and]
      exact ⟨h.live.trans hgpu, hcontents⟩
  · -- no buffer yet, so nothing was uploaded: make one and upload
    have hnone : v.layer.uploaded = none := by
      cases hup : v.layer.uploaded with
      | none => rfl
      | some nb => exact absurd (h.uploaded nb.1 nb.2 hup).1 hgpu
    have hdead : d.live v.layer.label = false := by simpa [hgpu] using h.live
    simp [hgpu, hnone, Device.allows, hdead]

/-- A draw of a live layer is accepted, binding the packing it shows, and keeps the layer
coherent with the device. -/
theorem Coherent.draw (h : v.Coherent d) (hlive : v.layer.disposed = false) :
    d.Accepts (v.shows .draw) (v.step .draw).2 ∧ (v.step .draw).1.Coherent (d.run (v.step .draw).2) := by
  obtain ⟨hfst, hl, hcmds⟩ := v.layer.draw_of_live v.source v.vis v.nextPick hlive
  obtain ⟨hpre, hlive₁, hcontents₁⟩ := h.prepare
  have hstep : (v.step .draw).2 = _ := hcmds
  refine ⟨?_, ?_⟩
  · rw [hstep, Device.accepts_append]
    exact ⟨hpre, Device.accepts_drawBuffer hlive₁ hcontents₁ ⟨rfl, rfl⟩ _ _ _ _⟩
  -- after the draw the packing shown is the one uploaded, and drawing changed no buffer
  have hlayer : (v.step .draw).1.layer = _ := hfst
  have hup : (v.step .draw).1.layer.uploaded = some (v.layer.shown v.source v.vis) := by
    rw [hlayer]
    dsimp only
    split
    · rfl
    · rename_i hkeep
      exact h.uploaded_eq_shown (by simpa using hkeep)
  have hdev : d.run (v.step .draw).2 = d.run ((if v.layer.gpu then [] else [.createBuffer v.layer.label]) ++
      (if (v.layer.uploaded.map (·.1)) != some (v.layer.shown v.source v.vis).1 then
        [.upload v.layer.label (v.layer.shown v.source v.vis).2.data] else [])) := by
    rw [hstep, Device.run_append, Device.run_drawBuffer]
  have hcur := v.layer.update_current v.source v.vis
  have hnum := h.numbered.update v.source v.vis
  refine ⟨?_, ?_, ?_, ?_⟩
  · rw [hdev, hlayer]
    exact hlive₁
  · rw [hlayer]
    exact hnum
  · intro n b hnb
    rw [hup, Option.some.injEq, Prod.ext_iff] at hnb
    obtain ⟨rfl, rfl⟩ := hnb
    rw [hdev, hlayer]
    refine ⟨rfl, hcontents₁, (hnum _ _ hcur).le, fun b' hb' => ?_⟩
    rw [hcur, Option.some.injEq, Prod.ext_iff] at hb'
    exact hb'.2.symm
  · rw [hlayer]
    simp [hlive]

/-- What an event that gives no command keeps of a layer: all that coherence reads. -/
structure Keeps (l l' : Layer) : Prop where
  label : l'.label = l.label
  gpu : l'.gpu = l.gpu
  uploaded : l'.uploaded = l.uploaded
  current : l'.memo.current = l.memo.current
  builds : l'.memo.builds = l.memo.builds
  disposed : l'.disposed = l.disposed

theorem Keeps.refl (l : Layer) : Keeps l l := ⟨rfl, rfl, rfl, rfl, rfl, rfl⟩

theorem keeps_visibilityChanged (l : Layer) : Keeps l l.visibilityChanged := by
  unfold Layer.visibilityChanged
  split
  · exact ⟨rfl, rfl, rfl, rfl, rfl, rfl⟩
  · exact Keeps.refl l

theorem keeps_setFilter {l l' : Layer} {on changed : Bool} (h : l.setFilter on = .ok (l', changed)) :
    Keeps l l' := by
  unfold Layer.setFilter at h
  split at h
  · cases h
  · split at h
    · cases h
      exact Keeps.refl l
    · cases h
      exact ⟨rfl, rfl, rfl, rfl, rfl, rfl⟩

theorem keeps_setSelected (l : Layer) (id : String) : Keeps l (l.setSelected id).1 := by
  unfold Layer.setSelected
  split
  · exact Keeps.refl l
  · exact ⟨rfl, rfl, rfl, rfl, rfl, rfl⟩

theorem Coherent.of_keeps {w : LayerView} (h : v.Coherent d) (hk : Keeps v.layer w.layer) : w.Coherent d where
  live := by rw [hk.label, hk.gpu]; exact h.live
  numbered n b hnb := by
    rw [hk.builds]
    exact h.numbered n b (hk.current ▸ hnb)
  uploaded n b hnb := by
    rw [hk.label, hk.gpu, hk.builds, hk.current]
    exact h.uploaded n b (hk.uploaded ▸ hnb)
  disposed hd := by
    rw [hk.gpu, hk.uploaded]
    exact h.disposed (hk.disposed ▸ hd)

/-- Disposing a live layer destroys its buffer, if it made one, and leaves it holding nothing. -/
theorem Coherent.dispose (h : v.Coherent d) (hlive : v.layer.disposed = false) :
    d.Accepts (v.shows .dispose) (v.step .dispose).2 ∧ (v.step .dispose).1.Coherent (d.run (v.step .dispose).2) := by
  obtain ⟨hfst, hcmds⟩ := v.layer.dispose_of_live v.source hlive
  have hlayer : (v.step .dispose).1.layer = _ := hfst
  have hstep : (v.step .dispose).2 = _ := hcmds
  -- the label has no live buffer afterwards, whether or not there was one to destroy
  have hdead : (d.run (v.step .dispose).2).live v.layer.label = false := by
    rw [hstep]
    split
    · simp
    · rename_i hgpu
      simpa [hgpu] using h.live
  refine ⟨?_, ⟨?_, ?_, ?_, ?_⟩⟩
  · rw [hstep]
    split
    · rename_i hgpu
      exact ⟨h.live.trans hgpu, trivial⟩
    · trivial
  all_goals rw [hlayer]
  · exact hdead
  · exact h.numbered
  · simp
  · simp

/-- One step of a coherent layer: its commands are accepted, binding what the event shows, it
stays coherent with the device, and a disposed layer gives no command. -/
theorem Coherent.step (h : v.Coherent d) (e : Event) :
    d.Accepts (v.shows e) (v.step e).2 ∧ (v.step e).1.Coherent (d.run (v.step e).2) ∧
      (v.layer.disposed = true → (v.step e).2 = []) := by
  cases e with
  | source op => exact ⟨trivial, h.of_keeps (Keeps.refl _), fun _ => rfl⟩
  | visible vis =>
    refine ⟨trivial, h.of_keeps ?_, fun _ => rfl⟩
    simp only [LayerView.step]
    split
    · exact keeps_visibilityChanged v.layer
    · exact Keeps.refl _
  | filter on =>
    -- a refused switch changes nothing
    cases hf : v.layer.setFilter on with
    | ok r =>
      have hstep : v.step (.filter on) = ({ v with layer := r.1 }, []) := by simp [LayerView.step, hf]
      rw [hstep]
      exact ⟨trivial, h.of_keeps (keeps_setFilter hf), fun _ => rfl⟩
    | error err =>
      have hstep : v.step (.filter on) = (v, []) := by simp [LayerView.step, hf]
      rw [hstep]
      exact ⟨trivial, h, fun _ => rfl⟩
  | hover cell part => exact ⟨trivial, h.of_keeps ⟨rfl, rfl, rfl, rfl, rfl, rfl⟩, fun _ => rfl⟩
  | select id => exact ⟨trivial, h.of_keeps (keeps_setSelected v.layer id), fun _ => rfl⟩
  | draw =>
    cases hd : v.layer.disposed
    · exact ⟨(h.draw hd).1, (h.draw hd).2, fun h' => absurd h' (by simp)⟩
    · have hdraw := Layer.draw_of_disposed v.layer v.source v.vis v.nextPick hd
      have hstep : v.step .draw = ({ v with nextPick := v.nextPick }, []) := by simp [LayerView.step, hdraw]
      rw [hstep]
      exact ⟨trivial, h.of_keeps (Keeps.refl _), fun _ => rfl⟩
  | dispose =>
    cases hd : v.layer.disposed
    · exact ⟨(h.dispose hd).1, (h.dispose hd).2, fun h' => absurd h' (by simp)⟩
    · have hstep : v.step .dispose = (v, []) := by simp [LayerView.step, Layer.dispose, hd]
      rw [hstep]
      exact ⟨trivial, h, fun _ => rfl⟩

/-- A disposed layer stays disposed, and disposing leaves any layer disposed. -/
theorem disposed_step (v : LayerView) (e : Event) (h : v.layer.disposed = true ∨ e = .dispose) :
    (v.step e).1.layer.disposed = true := by
  rcases h with hd | rfl
  · cases e with
    | source op => exact hd
    | visible vis =>
      simp only [LayerView.step]
      split
      · exact (keeps_visibilityChanged v.layer).disposed.trans hd
      · exact hd
    | filter on =>
      cases hf : v.layer.setFilter on with
      | ok r => simpa [LayerView.step, hf] using (keeps_setFilter hf).disposed.trans hd
      | error err => simpa [LayerView.step, hf] using hd
    | hover cell part => exact hd
    | select id => exact (keeps_setSelected v.layer id).disposed.trans hd
    | draw => simp [LayerView.step, Layer.draw_of_disposed v.layer v.source v.vis v.nextPick hd, hd]
    | dispose => simp [LayerView.step, Layer.dispose, hd]
  · simp only [LayerView.step, Layer.dispose]
    split <;> simp_all

theorem disposed_run (v : LayerView) (es : List Event) (h : v.layer.disposed = true ∨ Event.dispose ∈ es) :
    (v.run es).1.layer.disposed = true := by
  induction es generalizing v with
  | nil => simpa [LayerView.run] using h
  | cons e es ih =>
    by_cases hes : Event.dispose ∈ es
    · exact ih (v.step e).1 (.inr hes)
    · -- the disposal, if it is this event, leaves the layer disposed for the rest
      refine ih (v.step e).1 (.inl (disposed_step v e ?_))
      rcases h with hd | hmem
      · exact .inl hd
      · exact .inr ((List.mem_cons.mp hmem).resolve_right hes).symm

theorem Coherent.run (h : v.Coherent d) (es : List Event) : (v.run es).1.Coherent (d.run (v.run es).2) := by
  induction es generalizing v d with
  | nil => exact h
  | cons e es ih =>
    simp only [LayerView.run]
    rw [Device.run_append]
    exact ih (h.step e).2.1

/-- A layer over any source, through any interleaving of source operations, visibility
changes, filter switches, hovering, selecting, draws and disposal: the device accepts each next
step's commands, every buffer being made under a label with none live and every upload, bind
and destroy going to a live buffer, and a draw binding the bytes of the packing its update
shows; after a disposal, the layer gives no more commands. -/
theorem run_accepts (label : String) (style : Style) (segmented filter : Bool) (src : Source)
    (vis : VisibleSet) (es : List Event) (e : Event) :
    Device.Accepts ((({ layer := Layer.make label style segmented filter, source := src, vis } : LayerView).run es).1.shows e)
        (({} : Device).run (({ layer := Layer.make label style segmented filter, source := src, vis } : LayerView).run es).2)
        ((({ layer := Layer.make label style segmented filter, source := src, vis } : LayerView).run es).1.step e).2 ∧
      (Event.dispose ∈ es →
        ((({ layer := Layer.make label style segmented filter, source := src, vis } : LayerView).run es).1.step e).2 = []) := by
  have h := ((coherent_make label style segmented filter src vis).run es).step e
  exact ⟨h.1, fun hmem => h.2.2 (disposed_run _ es (.inr hmem))⟩

end LayerView

end AnnotationStore
