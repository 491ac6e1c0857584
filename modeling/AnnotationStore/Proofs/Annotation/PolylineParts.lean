import Mathlib
import AnnotationStore.Proofs.Buffer.Pick
/-!
# The parts of a polyline

A polyline of `n > 0` vertices takes one pick id per part: first one per vertex, then one per
edge, `n` edges around a closed polyline and `n - 1` along an open one. Snapping decides from
the part which vertex or edge it names (`polylinePart`) and then reads only that vertex or the
two ends of that edge (`snapPolyline_eq_snap?`).

Main statement (`polyline_parts_name_each_once`): on the packed vertices of a polyline, part
`i < n` snaps to vertex `i` and part `n + e` to the nearest point of edge `e`, from vertex `e`
to vertex `(e + 1) % n`; the parts below the pick count name every vertex and then every
edge, each exactly once; and every part of any bytes snaps, negative parts and parts past
the count included, so no read leaves the instance.
-/

namespace AnnotationStore

/-- What a part of a polyline names: a vertex, or an edge by the index of its first vertex. -/
inductive PolylinePart where
  | vertex (i : Nat)
  | edge (e : Nat)
  deriving DecidableEq, Repr

/-- The number of edges of a polyline of `n > 0` vertices: closed ones go around. -/
def polylineEdges (closed : Bool) (n : Nat) : Nat := if closed then n else n - 1

/-- The vertex or edge a part names on a polyline of `n > 0` vertices, as snapping decides it:
a part below `n` is a vertex (a negative one vertex 0), and any other part the edge
`edgeIndex` gives, or vertex 0 when that is `-1`. -/
def polylinePart (closed : Bool) (n : Nat) (part : Int) : PolylinePart :=
  if part < n then .vertex (if part < 0 then 0 else part.toNat)
  else
    let e := edgeIndex closed n part
    if e < 0 then .vertex 0 else .edge e.toNat

/-- Where a part of a polyline of `n` packed vertices snaps the pointer. -/
def PolylinePart.snap? (b : ByteArray) (n : Nat) (mouse : Vec3) : PolylinePart → Option Vec3
  | .vertex i => vertexAt? b i
  | .edge e => return closestOnSegment (← vertexAt? b e) (← vertexAt? b ((e + 1) % n)) mouse

/-! ## Snapping goes through the part -/

theorem snapPolyline_eq_snap? (closed : Bool) {b : ByteArray} (hn : 0 < b.size / 12) (part : Int)
    (mouse : Vec3) :
    snapPolyline closed b part mouse =
      (polylinePart closed (b.size / 12) part).snap? b (b.size / 12) mouse := by
  unfold snapPolyline polylinePart
  dsimp only
  rw [if_neg (by omega)]
  split
  · rfl
  · split <;> rfl

/-- Whether a part names a vertex or an edge of a polyline of `n` vertices. -/
def PolylinePart.Within (n : Nat) : PolylinePart → Prop
  | .vertex i => i < n
  | .edge e => e < n

/-- The vertices a part names lie within the polyline. -/
theorem polylinePart_within (closed : Bool) {n : Nat} (hn : 0 < n) (part : Int) :
    (polylinePart closed n part).Within n := by
  unfold polylinePart
  dsimp only
  split
  · simp only [PolylinePart.Within]
    split <;> omega
  · rename_i hpart
    rcases edgeIndex_bounds closed hn (not_lt.mp hpart) with hneg | ⟨h0, h1⟩
    · rw [if_pos hneg]
      exact hn
    · rw [if_neg (by omega)]
      simp only [PolylinePart.Within]
      omega

/-! ## The parts below the pick count -/

theorem polylinePicks_eq (closed : Bool) {n : Nat} (hn : 0 < n) :
    Shape.polylinePicks closed n = n + polylineEdges closed n := by
  cases closed <;> simp [Shape.polylinePicks, polylineEdges, Nat.pos_iff_ne_zero.mp hn] <;> omega

theorem polylinePart_vertex (closed : Bool) {n i : Nat} (hi : i < n) :
    polylinePart closed n i = .vertex i := by
  simp [polylinePart, hi]

theorem polylinePart_edge (closed : Bool) {n e : Nat} (he : e < polylineEdges closed n) :
    polylinePart closed n (n + e : Nat) = .edge e := by
  -- the edge index of part `n + e` is `e` itself: it needs no wrapping and no cap
  have hedge : edgeIndex closed n (n + e : Nat) = e := by
    unfold edgeIndex
    cases closed with
    | true =>
      simp only [polylineEdges, ite_true] at he
      simp only [Nat.cast_add, add_sub_cancel_left, ite_true]
      exact Int.emod_eq_of_lt (by omega) (by omega)
    | false =>
      simp only [polylineEdges, Bool.false_eq_true, ite_false] at he
      simp only [Nat.cast_add, add_sub_cancel_left, Bool.false_eq_true, ite_false]
      rw [if_neg (by omega)]
  unfold polylinePart
  rw [if_neg (by omega)]
  dsimp only
  rw [hedge, if_neg (by omega)]
  rfl

/-- The parts below the pick count name the vertices in order and then the edges in order. -/
theorem map_polylinePart_range (closed : Bool) {n : Nat} (hn : 0 < n) :
    (List.range (Shape.polylinePicks closed n)).map (fun p : Nat => polylinePart closed n p) =
      (List.range n).map .vertex ++ (List.range (polylineEdges closed n)).map .edge := by
  rw [polylinePicks_eq closed hn, List.range_add, List.map_append, List.map_map]
  congr 1
  · exact List.map_congr_left fun i hi => polylinePart_vertex closed (List.mem_range.mp hi)
  · exact List.map_congr_left fun e he => polylinePart_edge closed (List.mem_range.mp he)

theorem nodup_vertices_edges (n m : Nat) :
    ((List.range n).map PolylinePart.vertex ++ (List.range m).map PolylinePart.edge).Nodup := by
  refine List.nodup_append.mpr ⟨?_, ?_, ?_⟩
  · exact (List.nodup_range).map fun _ _ h => PolylinePart.vertex.inj h
  · exact (List.nodup_range).map fun _ _ h => PolylinePart.edge.inj h
  · intro a ha b hb
    simp only [List.mem_map] at ha hb
    obtain ⟨i, -, rfl⟩ := ha
    obtain ⟨e, -, rfl⟩ := hb
    simp

/-! ## Packed vertices -/

theorem vertexAt?_packed (ps : List Vec3) {i : Nat} (hi : i < ps.length) :
    vertexAt? ⟨(ps.flatMap Vec3.bytes).toArray⟩ i = some ps[i] := by
  have h : (⟨(ps.flatMap Vec3.bytes).toArray⟩ : ByteArray).data.toList =
      [] ++ ps.flatMap Vec3.bytes ++ [] := by simp
  simpa [vertexAt?] using Vec3.read?_flatMap_bytes h hi

theorem size_packed_div (ps : List Vec3) :
    (⟨(ps.flatMap Vec3.bytes).toArray⟩ : ByteArray).size / 12 = ps.length := by
  rw [ByteArray.size_eq_length]
  simp

/-- On the packed vertices of a polyline `v :: vs` of `n` vertices: the pick count is `n` plus
the number of edges; part `i < n` snaps to vertex `i`; part `n + e`, for each edge `e`, snaps
to the nearest point of the segment from vertex `e` to vertex `(e + 1) % n`; every part snaps
to what the vertex or edge it names gives; the parts below the pick count name the vertices
and then the edges in order, so each vertex and each edge exactly once. On any bytes every
part snaps, so no read goes past the instance. -/
theorem polyline_parts_name_each_once (closed : Bool) (v : Vec3) (vs : List Vec3) (mouse : Vec3) :
    let ps := v :: vs
    let b : ByteArray := ⟨(ps.flatMap Vec3.bytes).toArray⟩
    Shape.polylinePicks closed ps.length = ps.length + polylineEdges closed ps.length ∧
    (∀ i : Fin ps.length, snapPolyline closed b i mouse = some (ps.get i)) ∧
    (∀ e : Fin ps.length, e.val < polylineEdges closed ps.length →
      snapPolyline closed b (ps.length + e.val : Nat) mouse =
        some (closestOnSegment (ps.get e)
          (ps.get ⟨(e.val + 1) % ps.length, Nat.mod_lt _ (Nat.succ_pos vs.length)⟩) mouse)) ∧
    (∀ part : Int, snapPolyline closed b part mouse =
      (polylinePart closed ps.length part).snap? b ps.length mouse) ∧
    (List.range (Shape.polylinePicks closed ps.length)).map
        (fun p : Nat => polylinePart closed ps.length p) =
      (List.range ps.length).map .vertex ++ (List.range (polylineEdges closed ps.length)).map .edge ∧
    ((List.range (Shape.polylinePicks closed ps.length)).map
        (fun p : Nat => polylinePart closed ps.length p)).Nodup ∧
    ∀ (b' : ByteArray) (part : Int) (mouse' : Vec3), (snapPolyline closed b' part mouse').isSome := by
  intro ps b
  have hn : 0 < ps.length := Nat.succ_pos vs.length
  have hsize : b.size / 12 = ps.length := size_packed_div ps
  have hsnap : ∀ part : Int, snapPolyline closed b part mouse =
      (polylinePart closed ps.length part).snap? b ps.length mouse := by
    intro part
    rw [snapPolyline_eq_snap? closed (hsize ▸ hn), hsize]
  refine ⟨polylinePicks_eq closed hn, fun i => ?_, fun e he => ?_, hsnap, map_polylinePart_range closed hn,
    ?_, fun _ _ => snapPolyline_isSome closed⟩
  · rw [hsnap, polylinePart_vertex closed i.isLt]
    exact vertexAt?_packed ps i.isLt
  · have ha : vertexAt? b e = some ps[e] := vertexAt?_packed ps e.isLt
    have hc : vertexAt? b ((e.val + 1) % ps.length) =
        some (ps.get ⟨(e.val + 1) % ps.length, Nat.mod_lt _ hn⟩) :=
      vertexAt?_packed ps (Nat.mod_lt (e.val + 1) hn)
    rw [hsnap, polylinePart_edge closed he]
    simp [PolylinePart.snap?, ha, hc]
  · rw [map_polylinePart_range closed hn]
    exact nodup_vertices_edges _ _

/-- Part 5 of a triangle is its closing edge, from vertex 2 back to vertex 0. -/
example : polylinePart true 3 5 = .edge 2 := by decide

end AnnotationStore
