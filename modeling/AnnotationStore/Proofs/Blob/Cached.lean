import Mathlib
import AnnotationStore.Blob.Cached
import AnnotationStore.Proofs.Cache.Lru
/-!
# What the block cache holds

A caching store fills its cache only through reads, and a read puts in only blocks of the
bytes its handle holds, under the handle's name (`CachedBlob.readAt_grows`). Writing or
deleting a blob through the store drops the blob's blocks first.

That is not enough for the cache to follow the store. A handle of the memory store holds the
bytes it was opened on, so a handle opened before a write and read after it puts the old
bytes back, under the name that now holds the new ones, and a handle opened after the write
reads them from the cache (`stale_block_after_put`). What does hold: as long as reads go
through handles that hold what the store now holds under their name (`CachedBlob.Current`),
every cached block is the block of the store's current bytes (`Session.Reachable.fresh`), and
then a read returns exactly those bytes.
-/

namespace AnnotationStore

/-! ## Blocks -/

/-- Block `k` of bytes `d` cut in blocks of `B` bytes: the bytes from `k * B` up to
`(k + 1) * B`, or to the end. -/
def blockOf (d : ByteArray) (B k : Int) : ByteArray := d.extract (k * B).toNat ((k + 1) * B).toNat

theorem ByteArray.extract_min_size (a : ByteArray) (i j : Nat) : a.extract i (min j a.size) = a.extract i j := by
  ext1
  simp [Array.extract_eq_extract_right]
  omega

theorem readBytes_block (d : ByteArray) {B k : Int} (hB : 0 < B) (hk : 0 ≤ k) :
    (readBytes d (k * B) B.toNat).data = blockOf d B k := by
  have hkB : 0 ≤ k * B := Int.mul_nonneg hk hB.le
  have hnext : ((k + 1) * B).toNat = (k * B).toNat + B.toNat := by
    rw [Int.add_mul, Int.one_mul]
    omega
  unfold readBytes blockOf
  split
  · -- at or past the end: nothing is read, and the block is empty
    rename_i hend
    have hend' : d.size ≤ (k * B).toNat := by omega
    symm
    exact ByteArray.extract_eq_empty_iff.mpr (by omega)
  · rw [hnext]

/-- The `i`-th block's worth of a read that starts at block `first` and covers `count` blocks,
or up to the end, is block `first + i`. -/
theorem extract_readBytes_run (d : ByteArray) {B first : Int} {count i : Nat} (hB : 0 < B) (hfirst : 0 ≤ first)
    (hi : i < count) (hlen : 0 < min (count * B) (d.size - first * B)) :
    (readBytes d (first * B) (min (count * B) (d.size - first * B)).toNat).data.extract
      (i * B.toNat) (i * B.toNat + B.toNat) = blockOf d B (first + i) := by
  obtain ⟨b, rfl⟩ : ∃ b : Nat, B = b := ⟨B.toNat, by omega⟩
  obtain ⟨f, rfl⟩ : ∃ f : Nat, first = f := ⟨first.toNat, by omega⟩
  have hsize : f * b < d.size := by
    have : (f : Int) * b < d.size := by omega
    exact_mod_cast this
  have hrun : (i + 1) * b ≤ count * b := Nat.mul_le_mul_right b hi
  have hstart : ¬ ((f : Int) * b < 0 ∨ d.size ≤ (f : Int) * b) := by omega
  unfold readBytes blockOf
  rw [if_neg hstart]
  simp only [Int.toNat_natCast]
  rw [ByteArray.extract_extract]
  -- every position as a count of bytes
  have h1 : ((f : Int) * b).toNat = f * b := by rw [← Int.natCast_mul, Int.toNat_natCast]
  have h2 : (((f : Int) + i) * b).toNat = f * b + i * b := by
    rw [← Int.natCast_add, ← Int.natCast_mul, Int.toNat_natCast, Nat.add_mul]
  have h3 : (((f : Int) + i + 1) * b).toNat = f * b + i * b + b := by
    rw [← Int.natCast_add, ← Int.natCast_add_one, ← Int.natCast_mul, Int.toNat_natCast, Nat.add_mul, Nat.add_mul,
      Nat.one_mul]
  have h4 : (min ((count : Int) * b) (d.size - (f : Int) * b)).toNat = min (count * b) (d.size - f * b) := by omega
  have hend : min (f * b + (i * b + b)) (f * b + min (count * b) (d.size - f * b)) = min (f * b + i * b + b) d.size := by
    rw [Nat.add_mul, Nat.one_mul] at hrun
    omega
  rw [h1, h2, h3, h4, hend, ByteArray.extract_min_size]

theorem readBytes_stop_ne_failed (d : ByteArray) (off : Int) (len : Nat) (e : StoreError) :
    (readBytes d off len).stop ≠ .failed e := by
  unfold readBytes
  split
  · simp [ReadOutcome.ended]
  · dsimp only
    split <;> simp

/-- A read of `len` bytes at `off` inside bytes in memory gets the `min len (size - off)` bytes
from `off`, and ends at the end exactly when they are fewer than asked for. -/
theorem readBytes_of_inside (d : ByteArray) {off : Int} (len : Nat) (hoff : 0 ≤ off) (hlt : off < d.size) :
    readBytes d off len =
      ⟨d.extract off.toNat (off.toNat + min len (d.size - off.toNat)),
        if min len (d.size - off.toNat) < len then .atEnd else .complete⟩ := by
  have hsize : (d.extract off.toNat (off.toNat + len)).size = min len (d.size - off.toNat) := by
    rw [ByteArray.size_extract]
    omega
  have hdata : d.extract off.toNat (off.toNat + len) = d.extract off.toNat (off.toNat + min len (d.size - off.toNat)) := by
    rw [← ByteArray.extract_min_size d _ (off.toNat + len), ← ByteArray.extract_min_size d _ (off.toNat + min _ _)]
    congr 1
    omega
  unfold readBytes
  rw [if_neg (by omega)]
  dsimp only
  rw [hsize, hdata]

theorem ByteArray.size_copySlice {src p : ByteArray} {i t n : Nat} (hp : t + n ≤ p.size) (hs : i + n ≤ src.size)
    (exact : Bool) : (src.copySlice i p t n exact).size = p.size := by
  rw [ByteArray.copySlice_eq_append]
  simp only [ByteArray.size_append, ByteArray.size_extract, ByteArray.size_data]
  omega

theorem ByteArray.extract_copySlice {src p : ByteArray} {i t n : Nat} (hp : t + n ≤ p.size) (hs : i + n ≤ src.size)
    (exact : Bool) : (src.copySlice i p t n exact).extract 0 (t + n) = p.extract 0 t ++ src.extract i (i + n) := by
  rw [ByteArray.copySlice_eq_append, ByteArray.extract_append_eq_left]
  simp only [ByteArray.size_append, ByteArray.size_extract]
  omega

/-- Copying the part of block `[s, s + Bn)` of `d` from `o + t` on, after the first `t` bytes of
`d` from `o`, gives the bytes of `d` from `o` that far. -/
theorem extract_copy_block (d p : ByteArray) {s Bn o t n : Nat} (hs : s ≤ o + t) (hn : o + t + n ≤ s + Bn)
    (hd : o + t + n ≤ d.size) (hp : t + n ≤ p.size) (hpre : p.extract 0 t = d.extract o (o + t)) (exact : Bool) :
    ((d.extract s (s + Bn)).copySlice (o + t - s) p t n exact).extract 0 (t + n) = d.extract o (o + t + n) := by
  have hsrc : o + t - s + n ≤ (d.extract s (s + Bn)).size := by
    rw [ByteArray.size_extract]
    omega
  have hlo : s + (o + t - s) = o + t := by omega
  have hhi : min (s + (o + t - s + n)) (s + Bn) = o + t + n := by omega
  rw [ByteArray.extract_copySlice hp hsrc, hpre, ByteArray.extract_extract, hlo, hhi,
    ← ByteArray.extract_eq_extract_append_extract (o + t) (by omega) (by omega)]

/-- A block `[s, s + B)` that ends after a read's start `off` and starts before its end
`off + want`, when the bytes read before it reach `max s off`: the block's part of the read
starts there and is not empty. -/
theorem range_meets_block {off want s B : Int} {total : Nat} (hfirst : off < s + B) (hB : 0 < B)
    (hnext : s < off + want) (hwant0 : 0 < want) (htotal : off + total = min (max s off) (off + want)) :
    max s off = off + total ∧ ∃ m : Nat, 0 < m ∧ min (s + B) (off + want) = off + total + m :=
  ⟨by omega, (min (s + B) (off + want) - (off + total)).toNat, by omega, by omega⟩

/-! ## What a read puts in the cache -/

namespace CachedBlob

/-- An entry a handle over bytes `d` may put in the cache: a block of `d` under its name. -/
def BlockOf (h : CachedBlob) (d : ByteArray) (e : LruEntry (String × Int) ByteArray) : Prop :=
  e.key.1 = h.name ∧ 0 ≤ e.key.2 ∧ e.value = blockOf d h.blockSize e.key.2

/-- The cache `c'` holds only entries of `c` and blocks the handle may put. -/
def Grows (h : CachedBlob) (d : ByteArray) (c c' : BlockCache) : Prop :=
  ∀ e ∈ c'.entries, e ∈ c.entries ∨ h.BlockOf d e

variable {h : CachedBlob} {d : ByteArray}

theorem Grows.refl (c : BlockCache) : h.Grows d c c := fun _ he => .inl he

theorem Grows.trans {c c' c'' : BlockCache} (h₁ : h.Grows d c c') (h₂ : h.Grows d c' c'') :
    h.Grows d c c'' := by
  intro e he
  rcases h₂ e he with he' | hb
  · exact h₁ e he'
  · exact .inr hb

theorem grows_get (c : BlockCache) (key : String × Int) : h.Grows d c (c.get key).2 :=
  fun _ he => .inl (Lru.mem_get he)

theorem grows_set {c : BlockCache} {blk : Int} {v : ByteArray} (hblk : 0 ≤ blk)
    (hv : v = blockOf d h.blockSize blk) : h.Grows d c (c.set (h.name, blk) v).2.1 := by
  intro e he
  rcases Lru.mem_set he with he' | rfl
  · exact .inl he'
  · exact .inr ⟨rfl, hblk, hv⟩

theorem grows_foldl {α : Type} (f : BlockCache → α → BlockCache) :
    ∀ (xs : List α), (∀ c, ∀ x ∈ xs, h.Grows d c (f c x)) → ∀ c : BlockCache, h.Grows d c (xs.foldl f c)
  | [], _, c => Grows.refl c
  | x :: xs, hf, c =>
    (hf c x List.mem_cons_self).trans (grows_foldl f xs (fun c y hy => hf c y (List.mem_cons_of_mem x hy)) (f c x))

/-- Every block the cache holds under the handle's name is the block of bytes `d`. -/
def FreshFor (h : CachedBlob) (d : ByteArray) (c : BlockCache) : Prop :=
  ∀ e ∈ c.entries, e.key.1 = h.name → h.BlockOf d e

theorem Grows.freshFor {c c' : BlockCache} (hg : h.Grows d c c') (hf : h.FreshFor d c) : h.FreshFor d c' := by
  intro e he hname
  rcases hg e he with he' | hb
  · exact hf e he' hname
  · exact hb

theorem range_map_succ (b : Int) (n : Nat) :
    (List.range (n + 1)).map (fun i : Nat => b + i) = b :: (List.range n).map (fun i : Nat => b + 1 + i) := by
  rw [List.range_succ_eq_map, List.map_cons, List.map_map]
  congr 1
  · simp
  · apply List.map_congr_left
    intro i _
    simp only [Function.comp, Nat.cast_succ]
    omega

theorem size_of_memory (hmem : h.inner = .memory d) : h.size = d.size := by simp [size, hmem, Blob.size]

theorem missingRuns_nonneg (c : BlockCache) (name : String) {blocks : List Int} (hblocks : ∀ b ∈ blocks, 0 ≤ b) :
    ∀ r ∈ missingRuns c name blocks, 0 ≤ r.1 := by
  intro r hr
  unfold missingRuns at hr
  rw [List.mem_reverse] at hr
  revert r hr
  -- each step keeps the starts of the runs so far and may start a run at its block
  refine @List.foldlRecOn _ _ (fun runs : List (Int × Nat) => ∀ r ∈ runs, 0 ≤ r.1) blocks _ _ (by simp) ?_
  intro runs hruns b hb
  have hb : 0 ≤ b := hblocks b hb
  split
  · exact hruns
  · split
    · rename_i first n rest
      split
      · intro r hr
        rcases List.mem_cons.mp hr with rfl | hr
        · exact hruns (first, n) List.mem_cons_self
        · exact hruns r (List.mem_cons_of_mem _ hr)
      · intro r hr
        rcases List.mem_cons.mp hr with rfl | hr
        · exact hb
        · exact hruns r hr
    · simpa using hb

variable (hmem : h.inner = .memory d) (hB : 0 < h.blockSize)
include hmem hB

theorem grows_fetchBlock (c : BlockCache) {blk : Int} (hblk : 0 ≤ blk) :
    h.Grows d c (h.fetchBlock c blk).2 := by
  unfold fetchBlock
  have hget : h.Grows d c (c.get (h.name, blk)).2 := grows_get c (h.name, blk)
  split
  · rename_i c' heq
    rw [heq] at hget
    exact hget
  · rename_i c' heq
    rw [heq] at hget
    have hread : (h.inner.readAt (blk * h.blockSize) h.blockSize.toNat).data = blockOf d h.blockSize blk := by
      rw [hmem]
      exact readBytes_block d hB hblk
    dsimp only
    split
    · exact hget
    · split
      · exact hget.trans (grows_set hblk hread)
      · exact hget

theorem grows_fillRun (c : BlockCache) {run : Int × Nat} (hrun : 0 ≤ run.1) :
    h.Grows d c (h.fillRun c run).1 := by
  obtain ⟨first, count⟩ := run
  have hsize := size_of_memory hmem
  unfold fillRun
  dsimp only
  split
  · exact Grows.refl c
  · rename_i hlen
    split
    · exact Grows.refl c
    · apply grows_foldl
      intro c' i hi
      split
      · exact Grows.refl c'
      · apply grows_set (by simp only at hrun; omega)
        rw [hmem, Blob.readAt, hsize]
        rw [hsize] at hlen
        exact extract_readBytes_run d hB hrun (List.mem_range.mp hi) (by omega)

theorem grows_fill (c : BlockCache) {runs : List (Int × Nat)} (hruns : ∀ r ∈ runs, 0 ≤ r.1) :
    h.Grows d c (h.fill c runs).1 := by
  unfold fill
  -- the fold carries the first failure beside the cache; only the cache matters here
  refine @List.foldlRecOn _ _ (fun acc : BlockCache × Option StoreError => h.Grows d c acc.1) runs _ _ (Grows.refl c) ?_
  intro acc hacc r hr
  exact hacc.trans (grows_fillRun hmem hB acc.1 (hruns r hr))

theorem grows_copyBlocks (off want : Int) :
    ∀ (blocks : List Int), (∀ b ∈ blocks, 0 ≤ b) → ∀ (c : BlockCache) (p : ByteArray) (total : Nat),
      h.Grows d c (h.copyBlocks off want blocks c p total).2.2.2
  | [], _, c, _, _ => Grows.refl c
  | blk :: rest, hblocks, c, p, total => by
    have hfetch := grows_fetchBlock hmem hB c (hblocks blk List.mem_cons_self)
    unfold copyBlocks
    split
    · rename_i e c' heq
      rw [heq] at hfetch
      exact hfetch
    · rename_i data c' heq
      rw [heq] at hfetch
      dsimp only
      split
      · exact hfetch
      · exact hfetch.trans (grows_copyBlocks off want rest (fun b hb => hblocks b (List.mem_cons_of_mem blk hb)) c' _ _)

/-- A read through a handle over bytes `d` adds only blocks of `d` under its name. -/
theorem readAt_grows (c : BlockCache) (cancelled : Bool) (off : Int) (len : Nat) :
    h.Grows d c (h.readAt c cancelled off len).2 := by
  unfold readAt
  split
  · exact Grows.refl c
  · split
    · exact Grows.refl c
    · split
      · exact Grows.refl c
      · rename_i hlen hcancel hrange
        -- the blocks from the one holding `off` on are not negative
        have hfirst : 0 ≤ off / h.blockSize := Int.ediv_nonneg (by omega) hB.le
        have hblocks : ∀ b ∈ (List.range ((off + min (len : Int) (h.size - off) - 1) / h.blockSize -
            off / h.blockSize + 1).toNat).map (fun i : Nat => off / h.blockSize + (i : Int)), 0 ≤ b := by
          intro b hb
          obtain ⟨i, -, rfl⟩ := List.mem_map.mp hb
          omega
        dsimp only
        have hfill := grows_fill hmem hB c (missingRuns_nonneg c h.name hblocks)
        split
        · rename_i c' e heq
          rw [heq] at hfill
          exact hfill
        · rename_i c' heq
          rw [heq] at hfill
          -- the copy ends with or without a failure; the cache it leaves is the same
          have hcopy := hfill.trans (grows_copyBlocks hmem hB off (min (len : Int) (h.size - off)) _ hblocks c'
            (ByteArray.mk (Array.replicate len 0)) 0)
          split <;> exact hcopy

/-! ## What a read returns -/

/-- A block is read from the cache or from memory, and either way it is the block of `d`. -/
theorem fetchBlock_of_freshFor {c : BlockCache} (hf : h.FreshFor d c) {blk : Int} (hblk : 0 ≤ blk) :
    (h.fetchBlock c blk).1 = .ok (blockOf d h.blockSize blk) := by
  unfold fetchBlock
  split
  · rename_i v c' heq
    have hget : (c.get (h.name, blk)).1 = some v := by rw [heq]
    obtain ⟨e, he, hkey, hval⟩ := Lru.get_fst_eq_some hget
    obtain ⟨-, -, hblock⟩ := hf e he (by rw [hkey])
    rw [← hval, hblock, hkey]
  · dsimp only
    split
    · rename_i e' hstop
      rw [hmem] at hstop
      exact absurd hstop (readBytes_stop_ne_failed _ _ _ e')
    · rw [hmem, Blob.readAt, readBytes_block d hB hblk]

omit hB in
theorem fill_snd (c : BlockCache) (runs : List (Int × Nat)) : (h.fill c runs).2 = none := by
  unfold fill
  -- the fold keeps the first failure, and no run fails
  refine @List.foldlRecOn _ _ (fun acc : BlockCache × Option StoreError => acc.2 = none) runs _ _ rfl ?_
  intro acc hacc r _
  have hrun : (h.fillRun acc.1 r).2 = none := by
    unfold fillRun
    dsimp only
    split
    · rfl
    · split
      · rename_i e hstop
        rw [hmem] at hstop
        exact absurd hstop (readBytes_stop_ne_failed _ _ _ e)
      · rfl
  dsimp only
  simp only [hacc, hrun]
  rfl

/-- The copy of a read of `want` bytes at `off` from a cache fresh for `d`, from block `b` on,
`n` blocks, the `total` bytes before block `b` already copied: it copies every byte of the
range, and they are the bytes of `d`. -/
theorem copyBlocks_of_freshFor {off want : Int} (hoff : 0 ≤ off) (hwant0 : 0 < want) (hwant : off + want ≤ d.size) :
    ∀ (n : Nat) (b : Int) (c : BlockCache) (p : ByteArray) (total : Nat), h.FreshFor d c → 0 ≤ b →
      off < (b + 1) * h.blockSize → off + want ≤ (b + n) * h.blockSize →
      (0 < n → (b + n - 1) * h.blockSize < off + want) →
      off + total = min (max (b * h.blockSize) off) (off + want) → off + want ≤ off + p.size →
      p.extract 0 total = d.extract off.toNat (off.toNat + total) →
      ∃ p' c', h.copyBlocks off want ((List.range n).map fun i : Nat => b + i) c p total = (p', want.toNat, none, c') ∧
        p'.extract 0 want.toNat = d.extract off.toNat (off + want).toNat := by
  intro n
  induction n with
  | zero =>
    intro b c p total _ _ _ hlast _ htotal _ hpre
    have hbend : off + want ≤ b * h.blockSize := by simpa using hlast
    have htw : total = want.toNat := by omega
    refine ⟨p, c, by rw [htw]; rfl, ?_⟩
    rw [← htw, hpre]
    congr 1
    omega
  | succ n ih =>
    intro b c p total hf hb hfirst hlast hstart htotal hp hpre
    -- positions of block `b` and of the next one, with `b * B` and `(b + n) * B` as atoms
    have e1 : (b + 1) * h.blockSize = b * h.blockSize + h.blockSize := by ring
    have e2 : (b + ((n + 1 : Nat) : Int)) * h.blockSize = (b + n) * h.blockSize + h.blockSize := by push_cast; ring
    have e3 : (b + ((n + 1 : Nat) : Int) - 1) * h.blockSize = (b + n) * h.blockSize := by push_cast; ring
    have e4 : (b + 1 + 1) * h.blockSize = b * h.blockSize + h.blockSize + h.blockSize := by ring
    have e5 : (b + 1 + (n : Int)) * h.blockSize = (b + n) * h.blockSize + h.blockSize := by ring
    have e6 : (b + 1 + (n : Int) - 1) * h.blockSize = (b + n) * h.blockSize := by ring
    have hbn : b * h.blockSize ≤ (b + n) * h.blockSize :=
      Int.mul_le_mul_of_nonneg_right (by omega) hB.le
    have hbB : 0 ≤ b * h.blockSize := Int.mul_nonneg hb hB.le
    have hnext : (b + (n + 1 : Nat) - 1) * h.blockSize < off + want := hstart (by omega)
    rw [e3] at hnext
    rw [e2] at hlast
    rw [e1] at hfirst
    -- block `b` holds the read's bytes from `off + total` to `off + total + m`
    obtain ⟨hlo, m, hm0, hhi⟩ := range_meets_block hfirst hB (by omega) hwant0 htotal
    have hnextTotal : off + ((total + m : Nat) : Int) = min (max (b * h.blockSize + h.blockSize) off) (off + want) := by
      push_cast
      omega
    have hge : b * h.blockSize ≤ off + total := by omega
    have hle : off + total + m ≤ b * h.blockSize + h.blockSize ∧ off + total + m ≤ off + want := by omega
    clear htotal
    have hfetch := fetchBlock_of_freshFor hmem hB hf hb
    have hf' : h.FreshFor d (h.fetchBlock c b).2 := (grows_fetchBlock hmem hB c hb).freshFor hf
    rw [range_map_succ]
    unfold copyBlocks
    rw [show h.fetchBlock c b = (.ok (blockOf d h.blockSize b), (h.fetchBlock c b).2) from Prod.ext hfetch rfl]
    dsimp only
    have hblock : blockOf d h.blockSize b =
        d.extract (b * h.blockSize).toNat ((b * h.blockSize).toNat + h.blockSize.toNat) := by
      unfold blockOf
      congr 1
      omega
    have hsrc : (off + total - b * h.blockSize).toNat = off.toNat + total - (b * h.blockSize).toNat := by omega
    have hdst : (off + total - off).toNat = total := by omega
    have hmn : (off + total + m - (off + total)).toNat = m := by omega
    rw [hlo, hhi, hsrc, hdst, hmn, hblock, ByteArray.size_extract]
    clear hlo hhi hsrc hdst hmn
    have hlo' : (b * h.blockSize).toNat ≤ off.toNat + total := by omega
    have hhi' : off.toNat + total + m ≤ (b * h.blockSize).toNat + h.blockSize.toNat := by omega
    have hend : off.toNat + total + m ≤ d.size := by omega
    have hpm : total + m ≤ p.size := by omega
    rw [if_neg (by omega), Nat.min_eq_left (by omega)]
    -- block `b + 1` on, with the bytes up to its start copied
    have hsrcm : off.toNat + total - (b * h.blockSize).toNat + m ≤
        (d.extract (b * h.blockSize).toNat ((b * h.blockSize).toNat + h.blockSize.toNat)).size := by
      rw [ByteArray.size_extract]
      omega
    have hq := ByteArray.size_copySlice hpm hsrcm true
    have hqpre := extract_copy_block d p hlo' hhi' hend hpm hpre true
    obtain ⟨p', c', hcopy, hdata⟩ := ih (b + 1) (h.fetchBlock c b).2 _ (total + m) hf' (by omega)
      (by rw [e4]; omega) (by rw [e5]; omega) (fun _ => by rw [e6]; omega) (by rw [e1]; exact hnextTotal)
      (by rw [hq]; omega) (by rw [hqpre, Nat.add_assoc])
    exact ⟨p', c', hcopy, hdata⟩

/-- Through a cache that holds only blocks of the handle's bytes under its name, a read of
some bytes returns exactly what reading the bytes themselves returns. -/
theorem readAt_of_freshFor {c : BlockCache} (hf : h.FreshFor d c) (off : Int) {len : Nat} (hlen : 0 < len) :
    (h.readAt c false off len).1 = readBytes d off len := by
  have hsize := size_of_memory hmem
  unfold readAt
  rw [if_neg (by omega), if_neg Bool.false_ne_true]
  by_cases hr : off < 0 ∨ (h.size : Int) ≤ off
  · rw [if_pos hr]
    unfold readBytes
    rw [if_pos (by rwa [hsize] at hr)]
  · rw [if_neg hr]
    dsimp only
    have hoff : 0 ≤ off := by omega
    generalize hw : min (len : Int) (h.size - off) = want
    have hwant0 : 0 < want := by omega
    have hwant : off + want ≤ d.size := by omega
    -- the blocks from the one holding `off` to the one holding the last byte read
    have hfirst : 0 ≤ off / h.blockSize := Int.ediv_nonneg hoff hB.le
    have hle : off / h.blockSize ≤ (off + want - 1) / h.blockSize := Int.ediv_le_ediv hB (by omega)
    generalize hn : ((off + want - 1) / h.blockSize - off / h.blockSize + 1).toNat = n
    have hlastn : off / h.blockSize + (n : Int) = (off + want - 1) / h.blockSize + 1 := by omega
    have hblocks : ∀ b ∈ (List.range n).map (fun i : Nat => off / h.blockSize + (i : Int)), 0 ≤ b := by
      intro b hb
      obtain ⟨i, -, rfl⟩ := List.mem_map.mp hb
      omega
    -- filling never fails, and keeps the cache fresh
    have hfill := fill_snd hmem c (missingRuns c h.name ((List.range n).map fun i : Nat => off / h.blockSize + i))
    have hfresh := (grows_fill hmem hB c (missingRuns_nonneg c h.name hblocks)).freshFor hf
    generalize h.fill c (missingRuns c h.name ((List.range n).map fun i : Nat => off / h.blockSize + i)) = r
      at hfill hfresh ⊢
    obtain ⟨c₁, e⟩ := r
    simp only at hfill hfresh
    subst hfill
    dsimp only
    have hstart := Int.ediv_mul_le off hB.ne'
    have hend := Int.lt_ediv_add_one_mul_self (off + want - 1) hB
    have hlastle := Int.ediv_mul_le (off + want - 1) hB.ne'
    obtain ⟨p', c', hcopy, hdata⟩ := copyBlocks_of_freshFor hmem hB hoff hwant0 hwant n (off / h.blockSize) c₁
      (ByteArray.mk (Array.replicate len 0)) 0 hfresh hfirst (Int.lt_ediv_add_one_mul_self off hB)
      (by rw [hlastn]; omega) (fun _ => by rw [show off / h.blockSize + (n : Int) - 1 = (off + want - 1) / h.blockSize by omega]; omega)
      (by omega) (by rw [show (ByteArray.mk (Array.replicate len 0)).size = len from Array.size_replicate]; omega)
      (by simp)
    rw [hcopy]
    dsimp only
    unfold readBytes
    rw [if_neg (show ¬(off < 0 ∨ (d.size : Int) ≤ off) by omega), hdata]
    -- the bytes read reach `off + want`, the end of the request or of the bytes
    have hreach : (off + want).toNat = min (off.toNat + len) d.size := by omega
    have hgot : want.toNat = min (off.toNat + len) d.size - off.toNat := by omega
    rw [hreach, ByteArray.extract_min_size]
    dsimp only
    rw [ByteArray.size_extract, hgot]

/-- Reading through the block cache is reading the bytes themselves. For bytes `d` of size
`n` in memory under a handle with positive block size, every offset, every read of at least one
byte and every cache whose blocks under the handle's name are blocks of `d` (any of them, the
rest evicted or refused): the read gets nothing and ends at the end when `off < 0` or
`off ≥ n`, and otherwise the `k = min len (n - off)` bytes of `d` from `off`, ending at the end
exactly when `k < len`. A block fetched from such a cache is the block of `d` whether it is
still cached or was evicted, and the read leaves the cache holding only blocks of `d` under
the name, so the premise survives every later read. -/
theorem readAt_agrees_with_memory {c : BlockCache} (hf : h.FreshFor d c) (off : Int) {len : Nat} (hlen : 0 < len) :
    (h.readAt c false off len).1 = readBytes d off len ∧
    ((off < 0 ∨ d.size ≤ off) → (h.readAt c false off len).1 = .ended) ∧
    (0 ≤ off → off < d.size →
      (h.readAt c false off len).1.data = d.extract off.toNat (off.toNat + min len (d.size - off.toNat)) ∧
      (h.readAt c false off len).1.data.size = min len (d.size - off.toNat) ∧
      (h.readAt c false off len).1.stop = if min len (d.size - off.toNat) < len then .atEnd else .complete) ∧
    (∀ c', h.FreshFor d c' → ∀ blk, 0 ≤ blk → (h.fetchBlock c' blk).1 = .ok (blockOf d h.blockSize blk)) ∧
    h.FreshFor d (h.readAt c false off len).2 := by
  have hread := readAt_of_freshFor hmem hB hf off hlen
  refine ⟨hread, fun hout => ?_, fun hoff hlt => ?_, fun c' hf' blk hblk => fetchBlock_of_freshFor hmem hB hf' hblk,
    (readAt_grows hmem hB c false off len).freshFor hf⟩
  · rw [hread]
    unfold readBytes
    rw [if_pos hout]
  · rw [hread, readBytes_of_inside d len hoff hlt]
    refine ⟨rfl, ?_, rfl⟩
    rw [ByteArray.size_extract]
    omega

omit hmem hB in
/-- Five bytes in blocks of two, read four at a time from byte 3 through an empty cache: the
last two bytes, ending at the end. -/
theorem readAt_agrees_with_memory_short_tail :
    let d : ByteArray := ⟨#[1, 2, 3, 4, 5]⟩
    let h : CachedBlob := ⟨.memory d, "blob", 2⟩
    let c := BlockCache.make 4
    h.inner = .memory d ∧ 0 < h.blockSize ∧ h.FreshFor d c ∧ 0 < (4 : Nat) ∧
      ((h.readAt c false 3 4).1 = readBytes d 3 4 ∧
      (((3 : Int) < 0 ∨ (d.size : Int) ≤ 3) → (h.readAt c false 3 4).1 = .ended) ∧
      ((0 : Int) ≤ 3 → (3 : Int) < d.size →
        (h.readAt c false 3 4).1.data = d.extract (3 : Int).toNat ((3 : Int).toNat + min 4 (d.size - (3 : Int).toNat)) ∧
        (h.readAt c false 3 4).1.data.size = min 4 (d.size - (3 : Int).toNat) ∧
        (h.readAt c false 3 4).1.stop = if min 4 (d.size - (3 : Int).toNat) < 4 then .atEnd else .complete) ∧
      (∀ c', h.FreshFor d c' → ∀ blk, 0 ≤ blk → (h.fetchBlock c' blk).1 = .ok (blockOf d h.blockSize blk)) ∧
      h.FreshFor d (h.readAt c false 3 4).2) := by
  intro d h c
  have hf : h.FreshFor d c := fun e he => by simp [c, BlockCache.make, Lru.empty] at he
  exact ⟨rfl, by decide, hf, by decide, readAt_agrees_with_memory (h := h) (d := d) rfl (by decide) hf 3 (by decide : 0 < (4 : Nat))⟩

end CachedBlob

/-! ## The memory store under the cache -/

namespace BlobStore

theorem lookup_filter_of_ne {blobs : List (String × ByteArray)} {name k : String} (hk : k ≠ name) :
    (blobs.filter (·.1 != name)).lookup k = blobs.lookup k := by
  induction blobs with
  | nil => rfl
  | cons b blobs ih =>
    obtain ⟨k', v⟩ := b
    by_cases hk' : k' = name
    · subst hk'
      have hne : (k == k') = false := by simpa using hk
      rw [List.filter_cons_of_neg (by simp), ih, List.lookup_cons, hne]
    · rw [List.filter_cons_of_pos (by simpa using hk'), List.lookup_cons, List.lookup_cons, ih]

theorem lookup_put_of_ne {blobs : List (String × ByteArray)} {name k : String} (hk : k ≠ name) (data : ByteArray) :
    (blobs.filter (·.1 != name) ++ [(name, data)]).lookup k = blobs.lookup k := by
  rw [List.lookup_append, lookup_filter_of_ne hk]
  cases blobs.lookup k with
  | some _ => rfl
  | none => simpa using hk

theorem read_memory_congr {blobs blobs' : List (String × ByteArray)} {k : String}
    (h : blobs'.lookup k = blobs.lookup k) (c c' : Bool) :
    (BlobStore.memory blobs').read c k = (BlobStore.memory blobs).read c' k := by
  simp only [read, openBlob, h]

end BlobStore

namespace CachingStore

/-- Every block the cache holds is the block of what the store now holds under its name. -/
structure Fresh (s : CachingStore) : Prop where
  blockSize_pos : 0 < s.blockSize
  blocks : ∀ e ∈ s.cache.entries, ∃ d, s.inner.read false e.key.1 = .ok d ∧ 0 ≤ e.key.2 ∧
    e.value = blockOf d s.blockSize e.key.2

variable {s : CachingStore} {blobs : List (String × ByteArray)}

theorem fresh_make (inner : BlobStore) (capacity blockSize : Int) : (make inner capacity blockSize).Fresh where
  blockSize_pos := by
    show 0 < if blockSize ≤ 0 then 4096 else blockSize
    split <;> omega
  blocks := fun _ he => nomatch he

theorem invalidate_entries (name : String) :
    (s.invalidate name).cache.entries = s.cache.entries.filter fun e => !(e.key.1 == name) := by
  simp only [CachingStore.invalidate, Lru.invalidate_entries]

theorem put_of_memory (hmem : s.inner = .memory blobs) (cancelled : Bool) (name : String) (data : ByteArray) :
    (s.put cancelled name data).1 =
      { s.invalidate name with inner := .memory (blobs.filter (·.1 != name) ++ [(name, data)]) } := by
  unfold put
  simp only [invalidate, hmem, BlobStore.put]

theorem delete_of_memory (hmem : s.inner = .memory blobs) (cancelled : Bool) (name : String) :
    (s.delete cancelled name).1 = { s.invalidate name with inner := .memory (blobs.filter (·.1 != name)) } := by
  unfold delete
  simp only [invalidate, hmem, BlobStore.delete]

theorem read_put_of_ne (hmem : s.inner = .memory blobs) {name k : String} (hk : k ≠ name) (cancelled : Bool)
    (data : ByteArray) : (s.put cancelled name data).1.inner.read false k = s.inner.read false k := by
  rw [put_of_memory hmem, hmem]
  exact BlobStore.read_memory_congr (BlobStore.lookup_put_of_ne hk data) false false

theorem read_delete_of_ne (hmem : s.inner = .memory blobs) {name k : String} (hk : k ≠ name) (cancelled : Bool) :
    (s.delete cancelled name).1.inner.read false k = s.inner.read false k := by
  rw [delete_of_memory hmem, hmem]
  exact BlobStore.read_memory_congr (BlobStore.lookup_filter_of_ne hk) false false

/-- A store whose cache lost a blob's blocks, and whose reads changed at most at that blob,
stays fresh. -/
theorem Fresh.of_invalidate (hs : s.Fresh) {s' : CachingStore} {name : String}
    (hcache : s'.cache = (s.invalidate name).cache) (hblock : s'.blockSize = s.blockSize)
    (hsame : ∀ k, k ≠ name → s'.inner.read false k = s.inner.read false k) : s'.Fresh where
  blockSize_pos := hblock ▸ hs.blockSize_pos
  blocks := by
    intro e he
    rw [hcache, invalidate_entries, List.mem_filter] at he
    obtain ⟨he, hname⟩ := he
    obtain ⟨d, hread, hk, hv⟩ := hs.blocks e he
    exact ⟨d, by rw [hsame _ (by simpa using hname), hread], hk, by rw [hblock, hv]⟩

theorem Fresh.put (hs : s.Fresh) (hmem : s.inner = .memory blobs) (cancelled : Bool) (name : String)
    (data : ByteArray) : (s.put cancelled name data).1.Fresh :=
  hs.of_invalidate (by rw [put_of_memory hmem]) (by rw [put_of_memory hmem]; rfl)
    fun _ hk => read_put_of_ne hmem hk cancelled data

theorem Fresh.delete (hs : s.Fresh) (hmem : s.inner = .memory blobs) (cancelled : Bool) (name : String) :
    (s.delete cancelled name).1.Fresh :=
  hs.of_invalidate (by rw [delete_of_memory hmem]) (by rw [delete_of_memory hmem]; rfl)
    fun _ hk => read_delete_of_ne hmem hk cancelled

end CachingStore

namespace CachedBlob

variable {h : CachedBlob} {s : CachingStore} {d : ByteArray}

/-- A handle is current in a store when it reads the bytes `d` the store now holds under its
name, in the store's blocks. -/
def Current (h : CachedBlob) (s : CachingStore) (d : ByteArray) : Prop :=
  h.inner = .memory d ∧ s.inner.read false h.name = .ok d ∧ h.blockSize = s.blockSize

theorem Current.freshFor (hc : h.Current s d) (hs : s.Fresh) : h.FreshFor d s.cache := by
  intro e he hname
  obtain ⟨d', hread, hk, hv⟩ := hs.blocks e he
  rw [hname, hc.2.1] at hread
  cases hread
  exact ⟨hname, hk, by rw [hv, hc.2.2]⟩

theorem Current.fresh_readAt (hc : h.Current s d) (hs : s.Fresh) (cancelled : Bool) (off : Int) (len : Nat) :
    { s with cache := (h.readAt s.cache cancelled off len).2 }.Fresh where
  blockSize_pos := hs.blockSize_pos
  blocks := by
    intro e he
    have hB : 0 < h.blockSize := hc.2.2 ▸ hs.blockSize_pos
    rcases readAt_grows hc.1 hB s.cache cancelled off len e he with he' | ⟨hname, hk, hv⟩
    · exact hs.blocks e he'
    · refine ⟨d, ?_, hk, ?_⟩
      · rw [hname]
        exact hc.2.1
      · rw [hv, hc.2.2]

/-- Through a current handle of a fresh store, a read returns exactly the bytes the store
holds. -/
theorem Current.readAt (hc : h.Current s d) (hs : s.Fresh) (off : Int) {len : Nat} (hlen : 0 < len) :
    (h.readAt s.cache false off len).1 = readBytes d off len :=
  readAt_of_freshFor hc.1 (hc.2.2 ▸ hs.blockSize_pos) (hc.freshFor hs) off hlen

theorem current_of_openBlob {blobs : List (String × ByteArray)} (hmem : s.inner = .memory blobs) {cancelled : Bool}
    {name : String} (hopen : s.openBlob cancelled name = .ok h) : ∃ d, h.Current s d := by
  unfold CachingStore.openBlob at hopen
  rw [hmem] at hopen
  simp only [BlobStore.openBlob] at hopen
  split at hopen
  · rename_i b hb
    cases hopen
    exact ⟨b, rfl, by simp only [BlobStore.read, BlobStore.openBlob, hmem, hb]; rfl, rfl⟩
  · cases hopen

end CachedBlob

/-! ## Sessions -/

/-- A caching store over memory and the handles it returned. -/
structure Session where
  store : CachingStore
  handles : List CachedBlob

namespace Session

/-- A call on the store or on a handle. Asking a handle its size changes nothing and is left
out. -/
inductive Op where
  | openBlob (cancelled : Bool) (name : String)
  | put (cancelled : Bool) (name : String) (data : ByteArray)
  | delete (cancelled : Bool) (name : String)
  | read (h : CachedBlob) (cancelled : Bool) (off : Int) (len : Nat)
  | close (h : CachedBlob)

def apply (σ : Session) : Op → Session
  | .openBlob cancelled name =>
    match σ.store.openBlob cancelled name with
    | .ok h => { σ with handles := h :: σ.handles }
    | .error _ => σ
  | .put cancelled name data => { σ with store := (σ.store.put cancelled name data).1 }
  | .delete cancelled name => { σ with store := (σ.store.delete cancelled name).1 }
  | .read h cancelled off len =>
    { σ with store := { σ.store with cache := (h.readAt σ.store.cache cancelled off len).2 } }
  | .close h => { σ with handles := h.close :: σ.handles }

/-- Calls on handles go to handles the store returned. -/
def Issued (σ : Session) : Op → Prop
  | .read h .. => h ∈ σ.handles
  | .close h => h ∈ σ.handles
  | _ => True

/-- Calls on handles go to handles the store returned, and reads to handles current in it. -/
def ReadsCurrent (σ : Session) : Op → Prop
  | .read h .. => h ∈ σ.handles ∧ ∃ d, h.Current σ.store d
  | .close h => h ∈ σ.handles
  | _ => True

/-- The sessions reached by allowed calls from a caching store over a memory store. -/
inductive Reachable (allowed : Session → Op → Prop) : Session → Prop
  | start (blobs : List (String × ByteArray)) (capacity blockSize : Int) :
      Reachable allowed ⟨CachingStore.make (.memory blobs) capacity blockSize, []⟩
  | step {σ : Session} (op : Op) : Reachable allowed σ → allowed σ op → Reachable allowed (σ.apply op)

variable {allowed : Session → Op → Prop} {σ : Session}

theorem Reachable.memory (hσ : Reachable allowed σ) : ∃ blobs, σ.store.inner = .memory blobs := by
  induction hσ with
  | start blobs _ _ => exact ⟨blobs, rfl⟩
  | step op _ _ ih =>
    obtain ⟨blobs, hmem⟩ := ih
    cases op with
    | openBlob cancelled name =>
      simp only [apply]
      split <;> exact ⟨blobs, hmem⟩
    | put cancelled name data =>
      refine ⟨blobs.filter (·.1 != name) ++ [(name, data)], ?_⟩
      simp only [apply, CachingStore.put_of_memory hmem]
    | delete cancelled name =>
      refine ⟨blobs.filter (·.1 != name), ?_⟩
      simp only [apply, CachingStore.delete_of_memory hmem]
    | read h cancelled off len => exact ⟨blobs, hmem⟩
    | close h => exact ⟨blobs, hmem⟩

/-- One call of a run whose reads go through current handles keeps the cache fresh. -/
theorem fresh_apply (hs : σ.store.Fresh) (hmem : ∃ blobs, σ.store.inner = .memory blobs) {op : Op}
    (hop : ReadsCurrent σ op) : (σ.apply op).store.Fresh := by
  obtain ⟨blobs, hmem⟩ := hmem
  cases op with
  | openBlob cancelled name =>
    simp only [apply]
    split <;> exact hs
  | put cancelled name data => exact hs.put hmem cancelled name data
  | delete cancelled name => exact hs.delete hmem cancelled name
  | read h cancelled off len =>
    obtain ⟨-, d, hc⟩ := hop
    exact hc.fresh_readAt hs cancelled off len
  | close h => exact hs

theorem Reachable.fresh (hσ : Reachable ReadsCurrent σ) : σ.store.Fresh := by
  induction hσ with
  | start blobs capacity blockSize => exact CachingStore.fresh_make _ capacity blockSize
  | step op hσ hop ih => exact fresh_apply ih hσ.memory hop

def Op.Changes (name : String) : Op → Prop
  | .put _ n _ => n = name
  | .delete _ n => n = name
  | _ => False

/-- A handle stays current through every call that neither writes nor deletes its blob: a
handle opened after the last write or delete of its name is current. -/
theorem current_apply {h : CachedBlob} {d : ByteArray} (hc : h.Current σ.store d)
    (hmem : ∃ blobs, σ.store.inner = .memory blobs) {op : Op} (hop : ¬ op.Changes h.name) :
    h.Current (σ.apply op).store d := by
  obtain ⟨blobs, hmem⟩ := hmem
  obtain ⟨hinner, hread, hblock⟩ := hc
  cases op with
  | openBlob cancelled name =>
    simp only [apply]
    split <;> exact ⟨hinner, hread, hblock⟩
  | put cancelled name data =>
    have hne : h.name ≠ name := fun heq => hop heq.symm
    refine ⟨hinner, ?_, ?_⟩
    · rw [← hread]
      exact CachingStore.read_put_of_ne hmem hne cancelled data
    · rw [hblock]
      simp only [apply, CachingStore.put_of_memory hmem]
      rfl
  | delete cancelled name =>
    have hne : h.name ≠ name := fun heq => hop heq.symm
    refine ⟨hinner, ?_, ?_⟩
    · rw [← hread]
      exact CachingStore.read_delete_of_ne hmem hne cancelled
    · rw [hblock]
      simp only [apply, CachingStore.delete_of_memory hmem]
      rfl
  | read h' cancelled off len => exact ⟨hinner, hread, hblock⟩
  | close h' => exact ⟨hinner, hread, hblock⟩

/-- Along every run whose reads go through handles current in the store, every cached block
is the block of the bytes the store now holds under its name, and a read through a current
handle returns exactly those bytes. -/
theorem Reachable.cache_never_stale (hσ : Reachable ReadsCurrent σ) :
    σ.store.Fresh ∧ ∀ (h : CachedBlob) (d : ByteArray), h.Current σ.store d → ∀ (off : Int) (len : Nat),
      0 < len → (h.readAt σ.store.cache false off len).1 = readBytes d off len :=
  ⟨hσ.fresh, fun _ _ hc off _ hlen => hc.readAt hσ.fresh off hlen⟩

theorem cache_never_stale_after_open_read :
    let h : CachedBlob := ⟨.memory ⟨#[1, 2, 3, 4, 5]⟩, "a", 4⟩
    let σ := ((⟨CachingStore.make (.memory [("a", ⟨#[1, 2, 3, 4, 5]⟩)]) 1000 4, []⟩ : Session).apply
      (.openBlob false "a")).apply (.read h false 2 3)
    σ.store.Fresh ∧ ∀ (h : CachedBlob) (d : ByteArray), h.Current σ.store d → ∀ (off : Int) (len : Nat),
      0 < len → (h.readAt σ.store.cache false off len).1 = readBytes d off len :=
  Reachable.cache_never_stale (.step _ (.step _ (.start _ _ _) trivial)
    ⟨List.mem_singleton_self _, _, rfl, rfl, rfl⟩)

/-- A handle opened before a write and read after it puts the old bytes back in the cache,
under the name that now holds the new ones; a handle opened after the write then reads the
old bytes. -/
theorem stale_block_after_put :
    let old : CachedBlob := ⟨.memory ⟨#[1, 2, 3, 4]⟩, "a", 4⟩
    let σ := ((((⟨CachingStore.make (.memory []) 1000 4, []⟩ : Session).apply (.put false "a" ⟨#[1, 2, 3, 4]⟩)).apply
      (.openBlob false "a")).apply (.put false "a" ⟨#[5, 6, 7, 8]⟩)).apply (.read old false 0 4)
    Reachable Issued σ ∧ ¬ σ.store.Fresh ∧ σ.store.inner.read false "a" = .ok ⟨#[5, 6, 7, 8]⟩ ∧
      ∃ h, σ.store.openBlob false "a" = .ok h ∧ (h.readAt σ.store.cache false 0 4).1.data = ⟨#[1, 2, 3, 4]⟩ := by
  intro old σ
  have hread : σ.store.inner.read false "a" = .ok ⟨#[5, 6, 7, 8]⟩ := rfl
  let new : CachedBlob := ⟨.memory ⟨#[5, 6, 7, 8]⟩, "a", 4⟩
  have hcurrent : new.Current σ.store ⟨#[5, 6, 7, 8]⟩ := ⟨rfl, hread, rfl⟩
  have hstale : (new.readAt σ.store.cache false 0 4).1.data = ⟨#[1, 2, 3, 4]⟩ := by decide +kernel
  refine ⟨.step _ (.step _ (.step _ (.step _ (.start [] 1000 4) trivial) trivial) trivial) (List.mem_singleton_self old),
    fun hfresh => ?_, hread, new, rfl, hstale⟩
  -- a fresh cache would make the new handle read the new bytes
  have hfreshRead := congrArg ReadOutcome.data (hcurrent.readAt hfresh 0 (show 0 < 4 by decide))
  rw [hstale] at hfreshRead
  exact absurd hfreshRead (by decide)

end Session

end AnnotationStore
