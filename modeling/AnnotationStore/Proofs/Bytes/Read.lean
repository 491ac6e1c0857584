import Mathlib
import AnnotationStore.Annotation.Packing
import AnnotationStore.Proofs.FloatBits
/-!
# Reading back written bytes

Every reader of the formats takes a slice of a byte string at an offset. When the string is
some prefix, then what a writer wrote, then anything, the slice at the prefix's length is
what was written (`LittleEndian.slice?_eq`), so a little-endian word reads back as written,
modulo its width, and a packed point reads back as the point (`Vec3.read?_bytes`), its
coordinates through their bit patterns. Slices that fit are always there (`read?_isSome`).
-/

namespace AnnotationStore

/-! ## Byte strings as lists -/

theorem ByteArray.toList_loop (bs : ByteArray) (i : Nat) (r : List UInt8) :
    ByteArray.toList.loop bs i r = r.reverse ++ bs.data.toList.drop i := by
  fun_induction ByteArray.toList.loop bs i r with
  | case1 i r hi ih =>
    have hlen : i < bs.data.toList.length := by simpa using hi
    rw [ih]
    conv_rhs => rw [List.drop_eq_getElem_cons hlen]
    simp [ByteArray.get!, hi]
  | case2 i r hi =>
    have hlen : bs.data.toList.length ≤ i := by simp; omega
    simp [List.drop_eq_nil_of_le hlen]

theorem ByteArray.toList_eq (bs : ByteArray) : bs.toList = bs.data.toList := by
  simp [ByteArray.toList, ByteArray.toList_loop]

theorem ByteArray.toList_extract (bs : ByteArray) (a e : Nat) :
    (bs.extract a e).toList = (bs.data.toList.drop a).take (e - a) := by
  rw [ByteArray.toList_eq, ByteArray.data_extract, Array.toList_extract, List.extract_eq_take_drop]

theorem ByteArray.size_eq_length (bs : ByteArray) : bs.size = bs.data.toList.length := by
  rw [Array.length_toList]
  rfl

/-- The bytes written after a prefix are the extract at the prefix's length. -/
theorem ByteArray.extract_eq_of_toList {b : ByteArray} {pre mid post : List UInt8}
    (h : b.data.toList = pre ++ mid ++ post) :
    b.extract pre.length (pre.length + mid.length) = ⟨mid.toArray⟩ := by
  have hlist : (b.extract pre.length (pre.length + mid.length)).toList = mid := by
    rw [ByteArray.toList_extract, h]
    simp
  apply ByteArray.ext
  apply Array.toList_inj.mp
  rw [← ByteArray.toList_eq, hlist]

/-- A list's images, split around its `i`-th member. -/
theorem flatMap_eq_take_getElem_drop {α β : Type} (f : α → List β) {l : List α} {i : Nat}
    (hi : i < l.length) : l.flatMap f = (l.take i).flatMap f ++ f l[i] ++ (l.drop (i + 1)).flatMap f := by
  conv_lhs => rw [← List.take_append_drop i l, List.drop_eq_getElem_cons hi]
  simp only [List.flatMap_append, List.flatMap_cons, List.append_assoc]

/-! ## Words -/

namespace LittleEndian

theorem slice?_eq {b : ByteArray} {pre mid post : List UInt8} (h : b.data.toList = pre ++ mid ++ post) :
    slice? b pre.length mid.length = some mid := by
  have hsize : b.size = pre.length + mid.length + post.length := by
    rw [ByteArray.size_eq_length, h]
    simp only [List.length_append]
  unfold slice?
  rw [if_pos (by omega), ByteArray.extract_eq_of_toList h, ByteArray.toList_eq]

/-- A word written after a prefix reads back at the prefix's length, modulo its width. -/
theorem read?_toBytes {b : ByteArray} {pre post : List UInt8} {w n : Nat}
    (h : b.data.toList = pre ++ toBytes w n ++ post) : read? b pre.length w = some (n % 256 ^ w) := by
  have hslice := slice?_eq h
  rw [length_toBytes] at hslice
  simp [read?, hslice, ofBytes_toBytes]

theorem read?_isSome {b : ByteArray} {off w : Nat} (h : off + w ≤ b.size) : (read? b off w).isSome := by
  simp [read?, slice?, h]

end LittleEndian

/-! ## Points -/

theorem Vec3.bytes_eq (v : Vec3) : v.bytes =
    LittleEndian.toBytes 4 v.x.toBits.toNat ++ LittleEndian.toBytes 4 v.y.toBits.toNat ++
      LittleEndian.toBytes 4 v.z.toBits.toNat := by
  simp [Vec3.bytes]

/-- The four bytes of a coordinate read back as the coordinate. -/
theorem ofBits_read_toBits (c : Float32) :
    Float32.ofBits (c.toBits.toNat % 256 ^ 4).toUInt32 = c := by
  have hlt : c.toBits.toNat < 256 ^ 4 := c.toBits.toNat_lt
  rw [Nat.mod_eq_of_lt hlt]
  simp only [Nat.toUInt32, UInt32.ofNat_toNat]
  exact FloatBits.float32_ofBits_toBits c

theorem Vec3.read?_bytes {b : ByteArray} {pre post : List UInt8} {v : Vec3}
    (h : b.data.toList = pre ++ v.bytes ++ post) : Vec3.read? b pre.length = some v := by
  rw [Vec3.bytes_eq] at h
  set X := LittleEndian.toBytes 4 v.x.toBits.toNat
  set Y := LittleEndian.toBytes 4 v.y.toBits.toNat
  set Z := LittleEndian.toBytes 4 v.z.toBits.toNat
  -- each coordinate in turn is the written part, the ones before it joining the prefix
  have h1 : b.data.toList = pre ++ X ++ (Y ++ Z ++ post) := by rw [h]; simp only [List.append_assoc]
  have h2 : b.data.toList = pre ++ X ++ Y ++ (Z ++ post) := by rw [h]; simp only [List.append_assoc]
  have h3 : b.data.toList = pre ++ X ++ Y ++ Z ++ post := by rw [h]; simp only [List.append_assoc]
  have hx := LittleEndian.read?_toBytes h1
  have hy := LittleEndian.read?_toBytes h2
  have hz := LittleEndian.read?_toBytes h3
  simp only [X, Y, List.length_append, LittleEndian.length_toBytes] at hy hz
  simp only [Vec3.read?, hx, hy, hz, Option.bind_eq_bind, Option.bind_some,
    ofBits_read_toBits]
  rfl

/-- Point `i` of points written back to back after a prefix reads back after the points before it. -/
theorem Vec3.read?_flatMap_bytes {b : ByteArray} {pre post : List UInt8} {ps : List Vec3}
    (h : b.data.toList = pre ++ ps.flatMap Vec3.bytes ++ post) {i : Nat} (hi : i < ps.length) :
    Vec3.read? b (pre.length + 12 * i) = some ps[i] := by
  have hsplit : b.data.toList = pre ++ (ps.take i).flatMap Vec3.bytes ++ ps[i].bytes ++
      ((ps.drop (i + 1)).flatMap Vec3.bytes ++ post) := by
    rw [h, flatMap_eq_take_getElem_drop Vec3.bytes hi]
    simp only [List.append_assoc]
  have hpre : (pre ++ (ps.take i).flatMap Vec3.bytes).length = pre.length + 12 * i := by
    rw [List.length_append, Shape.length_flatMap_bytes, List.length_take, min_eq_left hi.le]
  rw [← hpre]
  exact Vec3.read?_bytes hsplit

theorem Vec3.read?_isSome {b : ByteArray} {off : Nat} (h : off + 12 ≤ b.size) :
    (Vec3.read? b off).isSome := by
  obtain ⟨x, hx⟩ := Option.isSome_iff_exists.mp
    (LittleEndian.read?_isSome (w := 4) (by omega : off + 4 ≤ b.size))
  obtain ⟨y, hy⟩ := Option.isSome_iff_exists.mp
    (LittleEndian.read?_isSome (w := 4) (by omega : off + 4 + 4 ≤ b.size))
  obtain ⟨z, hz⟩ := Option.isSome_iff_exists.mp
    (LittleEndian.read?_isSome (w := 4) (by omega : off + 8 + 4 ≤ b.size))
  simp [Vec3.read?, hx, hy, hz]

end AnnotationStore
