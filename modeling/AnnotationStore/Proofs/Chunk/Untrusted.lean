import Mathlib
import AnnotationStore.Proofs.Chunk.Codec
/-!
# Decoding untrusted bytes

Every decoder of the chunk and snapshot formats takes arbitrary bytes. A cursor has one fault,
a read before the start of its bytes; reading a chunk's payload starts at the front and only
moves forward, so decoding a chunk never faults (`Chunk.decode_ne_beforeStart`). What it
decodes is well laid out, and a region's instance count is acted on only when sixteen bytes
per instance (two words and two string lengths) remain after its three counts: a larger count
is refused right after them (`Chunk.readRegion_refuses`), and every region of a decoded buffer
holds at most one instance per sixteen payload bytes (`Chunk.decode_eq_ok_bounded`). A block
takes no more bytes than it is given and gives exactly the size its header announces
(`unblock_eq_ok`), and a snapshot decodes only past all of its header's checks
(`Snapshot.decode_eq_ok`).

A reading is followed by `SafeRun`: run from a cursor, it does not end in the fault, keeps the
bytes, moves forward, and what it gives satisfies a postcondition. Each read has its own
`SafeRun` lemma and `SafeRun.bind` chains them, so the payload reader's lemmas follow its
definition read by read.
-/

namespace AnnotationStore

theorem throw_eq_error {ε α : Type} (x : ε) : (throw x : Except ε α) = .error x := rfl

/-! ## Readings that never fault -/

/-- A run from `c` that ends at `c'` keeps the bytes and moves forward. -/
structure Cursor.Advance (c c' : Cursor) : Prop where
  bytes : c'.bytes = c.bytes
  offset : c.offset ≤ c'.offset

theorem Cursor.Advance.refl (c : Cursor) : c.Advance c := ⟨rfl, le_rfl⟩

theorem Cursor.Advance.trans {c c' c'' : Cursor} (h : c.Advance c') (h' : c'.Advance c'') : c.Advance c'' :=
  ⟨h'.bytes.trans h.bytes, h.offset.trans h'.offset⟩

/-- Run from `c`, the reading `r` does not end in `fault`, keeps the bytes and moves forward, and
what it gives satisfies `post` at the cursor it leaves. -/
def SafeRun {ε α : Type} (fault : ε) (r : ExceptT ε (StateM Cursor) α) (c : Cursor)
    (post : α → Cursor → Prop) : Prop :=
  (r.run.run c).1 ≠ .error fault ∧ c.Advance (r.run.run c).2 ∧
    ∀ a, (r.run.run c).1 = .ok a → post a (r.run.run c).2

section SafeRun
variable {ε α β : Type} {e : ε} {c : Cursor}

theorem run_bind_ok {r : ExceptT ε (StateM Cursor) α} {f : α → ExceptT ε (StateM Cursor) β} {c' : Cursor}
    {a : α} (h : r.run.run c = (.ok a, c')) : (r >>= f).run.run c = (f a).run.run c' := by
  simp only [ExceptT.run_bind, StateT.run_bind, h]
  rfl

theorem run_bind_error {r : ExceptT ε (StateM Cursor) α} {f : α → ExceptT ε (StateM Cursor) β} {c' : Cursor}
    {x : ε} (h : r.run.run c = (.error x, c')) : (r >>= f).run.run c = (.error x, c') := by
  simp only [ExceptT.run_bind, StateT.run_bind, h]
  rfl

/-- The continuation runs from where the first reading stopped, with what it gave. -/
theorem SafeRun.bind {r : ExceptT ε (StateM Cursor) α} {f : α → ExceptT ε (StateM Cursor) β}
    {P : α → Cursor → Prop} {Q : β → Cursor → Prop} (hr : SafeRun e r c P)
    (hf : ∀ a c', c.Advance c' → P a c' → SafeRun e (f a) c' Q) : SafeRun e (r >>= f) c Q := by
  obtain ⟨hne, hadv, hpost⟩ := hr
  unfold SafeRun
  rcases hrun : r.run.run c with ⟨_ | a, c'⟩
  · rw [hrun] at hne hadv
    rw [run_bind_error hrun]
    simp only [ne_eq, Except.error.injEq] at hne ⊢
    exact ⟨hne, hadv, by rintro b ⟨⟩⟩
  · rw [hrun] at hadv hpost
    rw [run_bind_ok hrun]
    obtain ⟨hne', hadv', hpost'⟩ := hf a c' hadv (hpost a rfl)
    exact ⟨hne', hadv.trans hadv', hpost'⟩

theorem SafeRun.pure {a : α} {Q : α → Cursor → Prop} (h : Q a c) : SafeRun e (pure a) c Q :=
  ⟨by simp, .refl c, fun _ h' => by cases h'; exact h⟩

theorem SafeRun.throw_of_ne {x : ε} {Q : α → Cursor → Prop} (hx : x ≠ e) : SafeRun e (throw x) c Q := by
  unfold SafeRun
  rw [ExceptT.run_throw]
  exact ⟨fun h => hx (Except.error.inj h), .refl c, fun _ h' => by cases h'⟩

theorem SafeRun.mono {r : ExceptT ε (StateM Cursor) α} {P Q : α → Cursor → Prop} (h : SafeRun e r c P)
    (hPQ : ∀ a c', c.Advance c' → P a c' → Q a c') : SafeRun e r c Q :=
  ⟨h.1, h.2.1, fun a ha => hPQ a _ h.2.1 (h.2.2 a ha)⟩

end SafeRun

/-! ## Cursor reads -/

namespace Cursor

theorem get_bind_run {ε α : Type} (f : Cursor → ExceptT ε (StateM Cursor) α) (c : Cursor) :
    (get >>= f).run.run c = (f c).run.run c := rfl

theorem take_run (n : Int) (c : Cursor) :
    (take n).run.run c =
      if n < 0 ∨ (c.bytes.size : Int) < c.offset + n then (.error (.outOfBounds n c.offset c.bytes.size), c)
      else if c.offset < 0 then (.error .beforeStart, c)
      else (.ok (c.bytes.extract c.offset.toNat (c.offset.toNat + n.toNat)), { c with offset := c.offset + n }) := by
  unfold take
  rw [get_bind_run]
  by_cases hout : n < 0 ∨ (c.bytes.size : Int) < c.offset + n
  · simp only [if_pos hout]
    rfl
  · by_cases hbefore : c.offset < 0
    · simp only [if_neg hout, if_pos hbefore]
      rfl
    · simp only [if_neg hout, if_neg hbefore]
      rfl

theorem remaining_run (c : Cursor) :
    remaining.run.run c =
      if (c.bytes.size : Int) ≤ c.offset then (.ok ByteArray.empty, c)
      else if c.offset < 0 then (.error .beforeStart, c)
      else (.ok (c.bytes.extract c.offset.toNat c.bytes.size), c) := by
  unfold remaining
  rw [get_bind_run]
  by_cases hend : (c.bytes.size : Int) ≤ c.offset
  · simp only [if_pos hend]
    rfl
  · by_cases hbefore : c.offset < 0
    · simp only [if_neg hend, if_pos hbefore]
      rfl
    · simp only [if_neg hend, if_neg hbefore]
      rfl

variable {c : Cursor}

theorem take_safe (n : Int) (hc : 0 ≤ c.offset) :
    SafeRun .beforeStart (take n) c fun a c' => 0 ≤ n ∧ c'.offset = c.offset + n ∧ c'.offset ≤ c.bytes.size ∧
      a = c.bytes.extract c.offset.toNat (c.offset.toNat + n.toNat) := by
  unfold SafeRun
  rw [take_run]
  by_cases hout : n < 0 ∨ (c.bytes.size : Int) < c.offset + n
  · rw [if_pos hout]
    exact ⟨by simp, .refl c, fun _ h => by cases h⟩
  · rw [if_neg hout, if_neg (not_lt.mpr hc)]
    refine ⟨by simp, ⟨rfl, ?_⟩, fun _ h => ⟨by omega, rfl, ?_, by cases h; rfl⟩⟩ <;> dsimp only <;> omega

theorem word_safe (w : Nat) (hc : 0 ≤ c.offset) :
    SafeRun .beforeStart (word w) c fun v c' =>
      LittleEndian.read? c.bytes c.offset.toNat w = some v ∧ c'.offset = c.offset + w ∧ c'.offset ≤ c.bytes.size := by
  unfold word
  refine (take_safe w hc).bind fun a c' _ ⟨_, hend, hsize, ha⟩ => SafeRun.pure ⟨?_, hend, hsize⟩
  have hfit : c.offset.toNat + w ≤ c.bytes.size := by omega
  simp only [LittleEndian.read?, LittleEndian.slice?, if_pos hfit, Option.map_some, ha, Int.toNat_natCast]

theorem string_safe (hc : 0 ≤ c.offset) :
    SafeRun .beforeStart string c fun _ c' => c.offset + 4 ≤ c'.offset ∧ c'.offset ≤ c.bytes.size := by
  unfold string
  refine (word_safe 4 hc).bind fun n c' hadv ⟨_, hlen, _⟩ => ?_
  refine (take_safe n (by omega)).mono fun _ c'' _ ⟨_, hend, hsize, _⟩ => ⟨by omega, ?_⟩
  rw [← hadv.bytes]
  exact hsize

theorem remaining_safe (hc : 0 ≤ c.offset) :
    SafeRun .beforeStart remaining c fun rest c' => c' = c ∧ rest.size = c.bytes.size - c.offset.toNat := by
  unfold SafeRun
  rw [remaining_run]
  by_cases hend : (c.bytes.size : Int) ≤ c.offset
  · rw [if_pos hend]
    exact ⟨by simp, .refl c, fun _ h => by cases h; exact ⟨rfl, by simp; omega⟩⟩
  · rw [if_neg hend, if_neg (not_lt.mpr hc)]
    exact ⟨by simp, .refl c, fun _ h => by cases h; exact ⟨rfl, by simp⟩⟩

theorem word_gives_of_read? {B : ByteArray} {off w v : Nat} (h : LittleEndian.read? B off w = some v) :
    Gives (word w) ⟨B, off⟩ v ⟨B, (off + w : Nat)⟩ := by
  unfold LittleEndian.read? LittleEndian.slice? at h
  split at h
  · rename_i hfit
    simp only [Option.map_some, Option.some.injEq] at h
    have htake : (take w).run.run ⟨B, off⟩ = (.ok (B.extract off (off + w)), ⟨B, (off + w : Nat)⟩) := by
      rw [take_run, if_neg (by dsimp only; omega), if_neg (by dsimp only; omega)]
      simp
    unfold Gives word
    rw [run_bind_ok htake, ← h]
    rfl
  · simp at h

end Cursor

/-! ## Blocks -/

/-- Compressed data decodes only to exactly the size it is asked for. -/
theorem decodeBlockData_size {code : Nat} {src out : ByteArray} {size : Nat}
    (h : decodeBlockData code src size = .ok out) : out.size = size := by
  unfold decodeBlockData at h
  split at h
  · split at h
    · split at h
      · cases h
        assumption
      · cases h
    all_goals cases h
  · split at h
    · split at h
      · cases h
        assumption
      · cases h
    · cases h
  · cases h

/-- A block takes its header and no more bytes than it is given, and gives exactly the size its
header announces. -/
theorem unblock_eq_ok {b p : ByteArray} {code n : Nat} (h : unblock b code = .ok (p, n)) :
    blockHeaderSize ≤ n ∧ n ≤ b.size ∧ p.size = LittleEndian.wordAt b 0 4 := by
  unfold unblock at h
  split at h
  · cases h
  dsimp only at h
  split at h
  · -- stored data: the bytes after the header
    split at h
    · cases h
    · rename_i hshort hfit
      simp only [Except.ok.injEq, Prod.mk.injEq] at h
      obtain ⟨rfl, rfl⟩ := h
      simp only [ByteArray.size_extract, blockHeaderSize] at hshort hfit ⊢
      omega
  · split at h
    · cases h
    · rename_i hshort hstored hfit
      cases hdec : decodeBlockData code (b.extract blockHeaderSize (blockHeaderSize + LittleEndian.wordAt b 4 4))
          (LittleEndian.wordAt b 0 4) with
      | error x => simp [hdec, Except.map] at h
      | ok out =>
        simp only [hdec, Except.map, Except.ok.injEq, Prod.mk.injEq] at h
        obtain ⟨rfl, rfl⟩ := h
        simp only [blockHeaderSize] at hshort hfit ⊢
        exact ⟨by omega, by omega, decodeBlockData_size hdec⟩

/-! ## Snapshots -/

namespace Snapshot

theorem readHeader_size {b : ByteArray} {h : Header} (hr : readHeader b = .ok h) : headerSize ≤ b.size := by
  unfold readHeader at hr
  split at hr
  · simp [throw_eq_error, bind, Except.bind] at hr
  · omega

/-- A snapshot decodes only when its header reads, names a known codec, announces the size of the
block after it and its checksum, and the block unblocks to the payload. -/
theorem decode_eq_ok {b p : ByteArray} {h : Header} (hd : decode b = .ok (h, p)) :
    readHeader b = .ok h ∧ ((String.fromUTF8? h.codecName).bind Codec.byName?).isSome ∧
      (b.extract headerSize b.size).size = h.blockSize ∧
      Crc32c.checksum (b.extract headerSize b.size) = h.checksum ∧
      ∃ n, unblock (b.extract headerSize b.size) h.compression = .ok (p, n) := by
  unfold decode at hd
  cases hh : readHeader b with
  | error x => simp [hh, bind, Except.bind] at hd
  | ok h' =>
    simp only [hh, bind, Except.bind] at hd
    -- the codec, block size and checksum checks: each failing one throws
    split at hd
    · simp [throw_eq_error] at hd
    rename_i hcodec
    split at hd
    · simp [throw_eq_error] at hd
    rename_i hsize
    split at hd
    · simp [throw_eq_error] at hd
    rename_i hsum
    cases hun : unblock (b.extract headerSize b.size) h'.compression with
    | error x => simp [hun, Except.mapError] at hd
    | ok pn =>
      simp only [hun, Except.mapError, pure, Except.pure, Except.ok.injEq, Prod.mk.injEq] at hd
      obtain ⟨rfl, rfl⟩ := hd
      refine ⟨rfl, ?_, not_not.mp hsize, not_not.mp hsum, pn.2, hun⟩
      revert hcodec
      cases (String.fromUTF8? h'.codecName).bind Codec.byName? <;> simp

end Snapshot

/-! ## Chunk payloads -/

namespace Chunk

theorem liftRead_run {α : Type} (r : Reading α) (c : Cursor) :
    (liftRead r).run.run c = ((r.run.run c).1.mapError .read, (r.run.run c).2) := by
  unfold liftRead
  show StateT.run (Except.mapError PayloadFault.read <$> r) c = _
  rw [StateT.run_map]
  rfl

variable {c : Cursor}

theorem liftRead_safe {α : Type} {r : Reading α} {e : ReadError} {Q : α → Cursor → Prop} (h : SafeRun e r c Q) :
    SafeRun (PayloadFault.read e) (liftRead r) c Q := by
  obtain ⟨hne, hadv, hpost⟩ := h
  unfold SafeRun
  rw [liftRead_run]
  refine ⟨?_, hadv, fun a ha => hpost a ?_⟩
  · cases hres : (r.run.run c).1 with
    | error x =>
      rw [hres] at hne
      simpa [Except.mapError] using hne
    | ok a => simp [Except.mapError]
  · cases hres : (r.run.run c).1 with
    | error x => simp [hres, Except.mapError] at ha
    | ok a' => simpa [hres, Except.mapError] using ha

theorem readInstances_safe (n : Nat) (hc : 0 ≤ c.offset) :
    SafeRun .beforeStart (readInstances n) c fun l _ => l.length = n := by
  induction n generalizing c with
  | zero => exact SafeRun.pure rfl
  | succ n ih =>
    unfold readInstances
    refine (Cursor.word_safe 4 hc).bind fun size c₁ h₁ _ => ?_
    refine (Cursor.word_safe 4 (hc.trans h₁.offset)).bind fun picks c₂ h₂ _ => ?_
    refine (Cursor.string_safe (hc.trans (h₁.trans h₂).offset)).bind fun id c₃ h₃ _ => ?_
    refine (Cursor.string_safe (hc.trans (h₁.trans h₂ |>.trans h₃).offset)).bind fun label c₄ h₄ _ => ?_
    refine (ih (hc.trans (h₁.trans h₂ |>.trans h₃ |>.trans h₄).offset)).bind fun rest c₅ _ hrest => ?_
    exact SafeRun.pure (by simp [hrest])

/-- A region read from `c` holds one instance per sixteen bytes after its three counts at most. -/
theorem readRegion_safe (k : Kind) (hc : 0 ≤ c.offset) :
    SafeRun (.read .beforeStart) (readRegion k) c fun r _ =>
      (16 * r.ids.length : Int) + c.offset + 12 ≤ c.bytes.size := by
  unfold readRegion
  refine (liftRead_safe (Cursor.word_safe 4 hc)).bind fun n c₁ h₁ ⟨_, hend₁, _⟩ => ?_
  refine (liftRead_safe (Cursor.word_safe 4 (hc.trans h₁.offset))).bind fun start c₂ h₂ ⟨_, hend₂, _⟩ => ?_
  refine (liftRead_safe (Cursor.word_safe 4 (hc.trans (h₁.trans h₂).offset))).bind
    fun picks c₃ h₃ ⟨_, hend₃, hsize₃⟩ => ?_
  refine (liftRead_safe (Cursor.remaining_safe (hc.trans (h₁.trans h₂ |>.trans h₃).offset))).bind
    fun rest c₄ h₄ ⟨hc₄, hrest⟩ => ?_
  have hbytes : c₃.bytes = c.bytes := (h₁.trans h₂ |>.trans h₃).bytes
  split
  · exact (SafeRun.throw_of_ne (Q := fun _ _ => False) (by simp)).bind fun _ _ _ h => h.elim
  · -- the count passed the guard: `16 * n` bytes remain after the counts
    refine (liftRead_safe (readInstances_safe n (hc.trans (h₁.trans h₂ |>.trans h₃ |>.trans h₄).offset))).bind
      fun inst c₅ _ hlen => SafeRun.pure ?_
    simp only [List.length_map, hlen]
    rw [hbytes] at hrest
    rw [(h₁.trans h₂).bytes] at hsize₃
    omega

/-- A region whose count leaves fewer than sixteen bytes per instance after the three counts is
refused right after them: no instance is read. -/
theorem readRegion_refuses {k : Kind} {B : ByteArray} {off n : Nat} (hn : LittleEndian.read? B off 4 = some n)
    (hfit : off + 12 ≤ B.size) (hbig : B.size < off + 12 + 16 * n) :
    (readRegion k).run.run ⟨B, off⟩ = (.error (.tooMany k n), ⟨B, off + 12⟩) := by
  obtain ⟨start, hstart⟩ :=
    Option.isSome_iff_exists.mp (LittleEndian.read?_isSome (by omega : off + 4 + 4 ≤ B.size))
  obtain ⟨picks, hpicks⟩ :=
    Option.isSome_iff_exists.mp (LittleEndian.read?_isSome (by omega : off + 4 + 4 + 4 ≤ B.size))
  obtain ⟨rest, hrest, hrem⟩ := Cursor.remaining_gives (by omega : off + 4 + 4 + 4 ≤ B.size)
  have hword : ∀ {o v : Nat}, LittleEndian.read? B o 4 = some v → Gives Cursor.u32 ⟨B, o⟩ v ⟨B, (o + 4 : Nat)⟩ :=
    fun h => Cursor.word_gives_of_read? h
  unfold readRegion
  rw [run_bind_ok (liftRead_gives (hword hn)), run_bind_ok (liftRead_gives (hword hstart)),
    run_bind_ok (liftRead_gives (hword hpicks)), run_bind_ok (liftRead_gives hrem)]
  dsimp only
  rw [if_pos (by omega)]
  rfl

theorem readRegions_safe (ks : List Kind) (hc : 0 ≤ c.offset) :
    SafeRun (.read .beforeStart) (readRegions ks) c fun rs _ =>
      ∀ x ∈ rs, 16 * x.2.ids.length ≤ c.bytes.size := by
  induction ks generalizing c with
  | nil => exact SafeRun.pure (by simp)
  | cons k ks ih =>
    unfold readRegions
    refine (readRegion_safe k hc).bind fun r c₁ h₁ hr => ?_
    refine (ih (hc.trans h₁.offset)).bind fun rs c₂ _ hrs => SafeRun.pure ?_
    rintro x (_ | ⟨_, hx⟩)
    · dsimp only
      omega
    · rw [← h₁.bytes]
      exact hrs x hx

/-- Reading a payload from the front never reads before it, and every region it reads holds at
most one instance per sixteen bytes of it. -/
theorem readPayload_safe (hc : 0 ≤ c.offset) :
    SafeRun (.read .beforeStart) readPayload c fun buf _ =>
      ∀ k, 16 * (buf.regions k).ids.length ≤ c.bytes.size := by
  unfold readPayload
  refine (liftRead_safe (Cursor.word_safe 8 hc)).bind fun generation c₁ h₁ _ => ?_
  refine (liftRead_safe (Cursor.word_safe 4 (hc.trans h₁.offset))).bind fun total c₂ h₂ _ => ?_
  refine (readRegions_safe Kind.all (hc.trans (h₁.trans h₂).offset)).bind fun regions c₃ h₃ hregions => ?_
  refine (liftRead_safe (Cursor.word_safe 4 (hc.trans (h₁.trans h₂ |>.trans h₃).offset))).bind
    fun n c₄ h₄ _ => ?_
  refine (liftRead_safe (Cursor.take_safe n (hc.trans (h₁.trans h₂ |>.trans h₃ |>.trans h₄).offset))).bind
    fun data c₅ _ _ => SafeRun.pure fun k => ?_
  rw [← (h₁.trans h₂).bytes]
  dsimp only
  -- a kind the regions miss has the empty region
  cases hfound : regions.find? (·.1 == k) with
  | none => simp
  | some x => exact hregions x (List.mem_of_find?_eq_some hfound)

/-! ## Chunks -/

/-- A chunk decodes to `buf` only when its block unblocks to a payload that reads to `buf` and
`buf` is well laid out. -/
theorem decode_eq_ok {b : ByteArray} {buf : PackedBuffer} (h : decode b = .ok buf) :
    ∃ p used c, unblock (b.extract headerSize b.size) (LittleEndian.wordAt b 6 1) = .ok (p, used) ∧
      readPayload.run.run ⟨p, 0⟩ = (.ok buf, c) ∧ buf.validate = .ok () := by
  unfold decode at h
  -- the header checks: each failing one throws
  split at h
  · simp [throw_eq_error, bind, Except.bind] at h
  dsimp only at h
  split at h
  · simp [throw_eq_error, bind, Except.bind] at h
  split at h
  · simp [throw_eq_error, bind, Except.bind] at h
  split at h
  · simp [throw_eq_error, bind, Except.bind] at h
  cases hun : unblock (b.extract headerSize b.size) (LittleEndian.wordAt b 6 1) with
  | error x => simp [hun, bind, Except.bind, Except.mapError] at h
  | ok pn =>
    obtain ⟨p, used⟩ := pn
    simp only [hun, bind, Except.bind, Except.mapError, pure, Except.pure] at h
    rcases hpay : readPayload.run.run ⟨p, 0⟩ with ⟨_ | buf', c⟩
    · rename_i x
      rw [hpay] at h
      rcases x with e | ⟨k, n⟩ <;> simp [throw_eq_error] at h
    · rw [hpay] at h
      cases hv : buf'.validate with
      | error err => simp [hv] at h
      | ok u =>
        simp only [hv, Except.ok.injEq] at h
        subst h
        exact ⟨p, used, c, rfl, hpay, hv⟩

/-- A chunk fails with a read error only when its block unblocks to a payload whose reading fails
with that error. -/
theorem decode_eq_error_read {b : ByteArray} {e : ReadError} (h : decode b = .error (.read e)) :
    ∃ p used c, unblock (b.extract headerSize b.size) (LittleEndian.wordAt b 6 1) = .ok (p, used) ∧
      readPayload.run.run ⟨p, 0⟩ = (.error (.read e), c) := by
  unfold decode at h
  split at h
  · simp [throw_eq_error, bind, Except.bind] at h
  dsimp only at h
  split at h
  · simp [throw_eq_error, bind, Except.bind] at h
  split at h
  · simp [throw_eq_error, bind, Except.bind] at h
  split at h
  · simp [throw_eq_error, bind, Except.bind] at h
  cases hun : unblock (b.extract headerSize b.size) (LittleEndian.wordAt b 6 1) with
  | error x => simp [hun, bind, Except.bind, Except.mapError] at h
  | ok pn =>
    obtain ⟨p, used⟩ := pn
    simp only [hun, bind, Except.bind, Except.mapError, pure, Except.pure] at h
    rcases hpay : readPayload.run.run ⟨p, 0⟩ with ⟨_ | buf', c⟩
    · rename_i x
      rw [hpay] at h
      rcases x with e' | ⟨k, n⟩
      · simp only [throw_eq_error, Except.error.injEq, DecodeError.read.injEq] at h
        subst h
        exact ⟨p, used, c, rfl, hpay⟩
      · simp [throw_eq_error] at h
    · rw [hpay] at h
      cases hv : buf'.validate <;> simp [hv] at h

theorem decode_ne_beforeStart (b : ByteArray) : decode b ≠ .error (.read .beforeStart) := by
  intro h
  obtain ⟨p, used, c, -, hpay⟩ := decode_eq_error_read h
  have hsafe := (readPayload_safe (c := ⟨p, 0⟩) le_rfl).1
  rw [hpay] at hsafe
  exact hsafe rfl

/-- A decoded buffer is well laid out, and each of its regions holds at most one instance per
sixteen bytes of the payload. -/
theorem decode_eq_ok_bounded {b : ByteArray} {buf : PackedBuffer} (h : decode b = .ok buf) :
    buf.validate = .ok () ∧
      ∃ p used, unblock (b.extract headerSize b.size) (LittleEndian.wordAt b 6 1) = .ok (p, used) ∧
        ∀ k, 16 * (buf.regions k).ids.length ≤ p.size := by
  obtain ⟨p, used, c, hun, hpay, hv⟩ := decode_eq_ok h
  have hbound := (readPayload_safe (c := ⟨p, 0⟩) le_rfl).2.2 buf (by rw [hpay])
  exact ⟨hv, p, used, hun, hbound⟩

/-- A region read from the offset `off` of a payload holds one instance per sixteen bytes after
its three counts at most. -/
theorem readRegion_count_fits {k : Kind} {B : ByteArray} {off : Nat} {r : Region} {c' : Cursor}
    (h : (readRegion k).run.run ⟨B, off⟩ = (.ok r, c')) : 16 * r.ids.length + off + 12 ≤ B.size := by
  have hbound := (readRegion_safe k (c := ⟨B, off⟩) (Int.natCast_nonneg off)).2.2 r (by rw [h])
  dsimp only at hbound
  omega

end Chunk

/-! ## Every decoder on arbitrary bytes -/

/-- On any bytes: decoding a chunk never faults, and what it decodes is well laid out with at most
one instance per sixteen payload bytes in each region; as a payload, the bytes give a region only
when sixteen bytes per instance follow its counts, and an instance count beyond that is refused
right after the counts; as a block, they give exactly the announced size from no more bytes than
there are; as a snapshot, they decode only past the header, codec, block size and checksum
checks, into a block read within its bytes. -/
theorem decoders_safe_on_untrusted_bytes (b : ByteArray) :
    Chunk.decode b ≠ .error (.read .beforeStart) ∧
    (∀ buf, Chunk.decode b = .ok buf → buf.validate = .ok () ∧
      ∃ p used, unblock (b.extract Chunk.headerSize b.size) (LittleEndian.wordAt b 6 1) = .ok (p, used) ∧
        ∀ k, 16 * (buf.regions k).ids.length ≤ p.size) ∧
    (∀ (k : Kind) (off : Nat),
      (∀ r c', (Chunk.readRegion k).run.run ⟨b, off⟩ = (.ok r, c') → 16 * r.ids.length + off + 12 ≤ b.size) ∧
      ∀ n, LittleEndian.read? b off 4 = some n → off + 12 ≤ b.size → b.size < off + 12 + 16 * n →
        (Chunk.readRegion k).run.run ⟨b, off⟩ = (.error (.tooMany k n), ⟨b, off + 12⟩)) ∧
    (∀ code p n, unblock b code = .ok (p, n) →
      blockHeaderSize ≤ n ∧ n ≤ b.size ∧ p.size = LittleEndian.wordAt b 0 4) ∧
    (∀ h p, Snapshot.decode b = .ok (h, p) →
      Snapshot.readHeader b = .ok h ∧ Snapshot.headerSize ≤ b.size ∧
      ((String.fromUTF8? h.codecName).bind Codec.byName?).isSome ∧
      h.blockSize = b.size - Snapshot.headerSize ∧
      Crc32c.checksum (b.extract Snapshot.headerSize b.size) = h.checksum ∧
      ∃ n, unblock (b.extract Snapshot.headerSize b.size) h.compression = .ok (p, n) ∧ n ≤ h.blockSize ∧
        p.size = LittleEndian.wordAt (b.extract Snapshot.headerSize b.size) 0 4) := by
  refine ⟨Chunk.decode_ne_beforeStart b, fun _ h => Chunk.decode_eq_ok_bounded h,
    fun k off => ⟨fun _ _ h => Chunk.readRegion_count_fits h, fun _ hn hfit hbig => Chunk.readRegion_refuses hn hfit hbig⟩,
    fun _ _ _ h => unblock_eq_ok h, fun h p hd => ?_⟩
  obtain ⟨hhead, hcodec, hsize, hsum, n, hun⟩ := Snapshot.decode_eq_ok hd
  obtain ⟨-, hn, hp⟩ := unblock_eq_ok hun
  have hblock : (b.extract Snapshot.headerSize b.size).size = b.size - Snapshot.headerSize := by simp
  exact ⟨hhead, Snapshot.readHeader_size hhead, hcodec, hsize ▸ hblock, hsum, n, hun, hsize ▸ hn, hp⟩

end AnnotationStore
