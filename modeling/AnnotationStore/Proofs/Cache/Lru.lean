import Mathlib
import AnnotationStore.Cache.Lru
/-!
# Accounts of the least-recently-used cache

The cache keeps its entries in one list, most recently used first, and a running total of
their costs beside it. Three things have to stay in step: every key stands once in the list
(so the list acts as the map from keys to entries), the running total is the sum of the
entry costs, and a memory controller used by this cache alone has handed out exactly that
total (`Accounts`, with `Mirrors` for the controller).

Dropping an entry keeps the accounts (`Accounts.drop`). Trimming drops entries from the
back while the total exceeds a room; with costs that are never negative this leaves the
longest front part of the list that fits (`fitting`), and the entries dropped are the rest
of the list, last first (`Accounts.trim`).

The membership lemmas at the end say what each operation can leave in the cache: only
entries it had, and for a write the entry written (`mem_set`).
-/

namespace AnnotationStore

namespace Lru

section Totals

variable {κ ν : Type}

def total (es : List (LruEntry κ ν)) : Int := (es.map (·.cost)).foldr (· + ·) 0

@[simp] theorem total_nil : total ([] : List (LruEntry κ ν)) = 0 := rfl

@[simp] theorem total_cons (e : LruEntry κ ν) (es : List (LruEntry κ ν)) :
    total (e :: es) = e.cost + total es := rfl

theorem total_append (es fs : List (LruEntry κ ν)) : total (es ++ fs) = total es + total fs := by
  induction es with
  | nil => simp
  | cons e es ih => simp [ih, Int.add_assoc]

def CostsNonneg (es : List (LruEntry κ ν)) : Prop := ∀ e ∈ es, 0 ≤ e.cost

theorem CostsNonneg.tail {e : LruEntry κ ν} {es : List (LruEntry κ ν)} (h : CostsNonneg (e :: es)) :
    CostsNonneg es :=
  fun f hf => h f (List.mem_cons_of_mem e hf)

theorem total_nonneg {es : List (LruEntry κ ν)} (h : CostsNonneg es) : 0 ≤ total es := by
  induction es with
  | nil => simp
  | cons e es ih =>
    have he : 0 ≤ e.cost := h e List.mem_cons_self
    have hes : 0 ≤ total es := ih h.tail
    simp only [total_cons]
    omega

theorem total_filter_le {es : List (LruEntry κ ν)} (hc : CostsNonneg es) (p : LruEntry κ ν → Bool) :
    total (es.filter p) ≤ total es := by
  induction es with
  | nil => simp
  | cons e es ih =>
    have he : 0 ≤ e.cost := hc e List.mem_cons_self
    have hrest := ih hc.tail
    rw [List.filter_cons]
    split <;> simp only [total_cons] <;> omega

/-- The longest front part of the entries whose costs fit in `room` together: what evicting
least recently used entries until they fit leaves. -/
def fitting (room : Int) : List (LruEntry κ ν) → List (LruEntry κ ν)
  | [] => []
  | e :: es => if e.cost ≤ room then e :: fitting (room - e.cost) es else []

theorem fitting_isPrefix (room : Int) (es : List (LruEntry κ ν)) : fitting room es <+: es := by
  induction es generalizing room with
  | nil => simp [fitting]
  | cons e es ih =>
    unfold fitting
    split
    · exact (List.prefix_cons_inj e).mpr (ih _)
    · exact List.nil_prefix

theorem fitting_of_total_le {room : Int} {es : List (LruEntry κ ν)} (hc : CostsNonneg es)
    (h : total es ≤ room) : fitting room es = es := by
  induction es generalizing room with
  | nil => rfl
  | cons e es ih =>
    have hrest : 0 ≤ total es := total_nonneg hc.tail
    simp only [total_cons] at h
    have hfit : e.cost ≤ room := by omega
    simp only [fitting, hfit, if_true, List.cons.injEq, true_and]
    exact ih hc.tail (by omega)

/-- An entry at the back that does not fit is never part of what fits. -/
theorem fitting_append_of_lt {room : Int} {es : List (LruEntry κ ν)} {e : LruEntry κ ν}
    (h : room < total (es ++ [e])) : fitting room (es ++ [e]) = fitting room es := by
  induction es generalizing room with
  | nil =>
    simp only [List.nil_append, total_cons, total_nil, Int.add_zero] at h
    simp [fitting, show ¬ e.cost ≤ room by omega]
  | cons f es ih =>
    simp only [List.cons_append, total_cons] at h
    simp only [List.cons_append, fitting]
    split
    · rw [ih (by omega)]
    · rfl

theorem total_fitting_le (room : Int) (es : List (LruEntry κ ν)) (hroom : 0 ≤ room) :
    total (fitting room es) ≤ room := by
  induction es generalizing room with
  | nil => simpa [fitting] using hroom
  | cons e es ih =>
    unfold fitting
    split
    · have := ih (room - e.cost) (by omega)
      simp only [total_cons]
      omega
    · simpa using hroom

def keys (es : List (LruEntry κ ν)) : List κ := es.map (·.key)

@[simp] theorem keys_nil : keys ([] : List (LruEntry κ ν)) = [] := rfl

@[simp] theorem keys_cons (e : LruEntry κ ν) (es : List (LruEntry κ ν)) :
    keys (e :: es) = e.key :: keys es := rfl

theorem mem_keys {es : List (LruEntry κ ν)} {k : κ} : k ∈ keys es ↔ ∃ e ∈ es, e.key = k := by
  simp [keys]

theorem keys_filter_nodup {es : List (LruEntry κ ν)} (hnd : (keys es).Nodup) (p : LruEntry κ ν → Bool) :
    (keys (es.filter p)).Nodup :=
  hnd.sublist (List.filter_sublist.map _)

end Totals

/-! ## Entries by key -/

section Keys

variable {κ ν : Type} [BEq κ] [LawfulBEq κ]

/-- On entries whose keys are distinct, the entry found for a key is the member with it. -/
theorem find?_eq_some_iff {es : List (LruEntry κ ν)} (hnd : (keys es).Nodup) {k : κ}
    {e : LruEntry κ ν} : es.find? (·.key == k) = some e ↔ e ∈ es ∧ e.key = k := by
  induction es with
  | nil => simp
  | cons f es ih =>
    simp only [keys_cons, List.nodup_cons] at hnd
    by_cases hf : f.key = k
    · -- the head has the key, so no later entry has it
      have hnot : e ∈ es → e.key ≠ k := fun he hek => hnd.1 (mem_keys.mpr ⟨e, he, hek.trans hf.symm⟩)
      simp only [List.find?_cons, hf, beq_self_eq_true, Option.some.injEq, List.mem_cons]
      constructor
      · rintro rfl
        exact ⟨.inl rfl, hf⟩
      · rintro ⟨rfl | he, hek⟩
        · rfl
        · exact absurd hek (hnot he)
    · have hne : (f.key == k) = false := by simpa using hf
      simp only [List.find?_cons, hne, List.mem_cons, ih hnd.2]
      constructor
      · rintro ⟨he, hek⟩
        exact ⟨.inr he, hek⟩
      · rintro ⟨rfl | he, hek⟩
        · exact absurd hek hf
        · exact ⟨he, hek⟩

theorem find?_eq_none_iff {es : List (LruEntry κ ν)} {k : κ} :
    es.find? (·.key == k) = none ↔ k ∉ keys es := by
  simp [List.find?_eq_none, mem_keys]

theorem mem_of_find?_eq_some {es : List (LruEntry κ ν)} {k : κ} {e : LruEntry κ ν}
    (h : es.find? (·.key == k) = some e) : e ∈ es ∧ e.key = k :=
  ⟨List.mem_of_find?_eq_some h, by simpa using List.find?_some h⟩

theorem total_filter_key {es : List (LruEntry κ ν)} (hnd : (keys es).Nodup) {e : LruEntry κ ν}
    (he : e ∈ es) : total (es.filter fun f => !(f.key == e.key)) = total es - e.cost := by
  induction es with
  | nil => cases he
  | cons f es ih =>
    simp only [keys_cons, List.nodup_cons] at hnd
    rcases List.mem_cons.mp he with rfl | hmem
    · -- the head goes, and no later entry shares its key
      have hkeep : es.filter (fun f => !(f.key == e.key)) = es := by
        apply List.filter_eq_self.mpr
        intro f hf
        have : f.key ≠ e.key := fun h => hnd.1 (mem_keys.mpr ⟨f, hf, h⟩)
        simpa using this
      simp [hkeep]
    · have hne : (f.key == e.key) = false := by
        simpa using fun h => hnd.1 (mem_keys.mpr ⟨e, hmem, h.symm⟩)
      simp only [List.filter_cons, hne, Bool.not_false, if_true, total_cons, ih hnd.2 hmem]
      omega

theorem filter_key_append_last {es : List (LruEntry κ ν)} {e : LruEntry κ ν} (hnd : (keys (es ++ [e])).Nodup) :
    (es ++ [e]).filter (fun f => !(f.key == e.key)) = es := by
  have hout : e.key ∉ keys es := by
    simp only [keys, List.map_append, List.map_singleton, List.nodup_append] at hnd
    exact fun h => hnd.2.2 e.key h e.key (List.mem_singleton_self _) rfl
  rw [List.filter_append, List.filter_eq_self.mpr, List.filter_singleton]
  · simp
  · intro f hf
    have : f.key ≠ e.key := fun h => hout (mem_keys.mpr ⟨f, hf, h⟩)
    simpa using this

end Keys

/-! ## The memory controller -/

/-- A memory controller that has handed out exactly `n` bytes: all of them counted as used,
and held by its semaphore when memory is limited. An absent controller keeps no account. -/
def Mirrors (rc : Option Controller) (n : Int) : Prop :=
  ∀ ctl, rc = some ctl → ctl.memoryUsed = n ∧ (0 < ctl.limits.memory → ctl.memoryHeld = n)

/-- The limit of a controller that may be absent; zero means none. -/
def memoryLimit (rc : Option Controller) : Int := (rc.map (·.limits.memory)).getD 0

theorem mirrors_make (l : ResourceLimits) : Mirrors (some (Controller.make l)) 0 := by
  intro ctl h
  cases h
  simp [Controller.make]

theorem releaseMemory_fst (ctl : Controller) {d : Int} (hd : 0 ≤ d)
    (hheld : 0 < ctl.limits.memory → d ≤ ctl.memoryHeld) :
    (ctl.releaseMemory d).1.limits = ctl.limits ∧ (ctl.releaseMemory d).1.memoryUsed = ctl.memoryUsed - d ∧
      (0 < ctl.limits.memory → (ctl.releaseMemory d).1.memoryHeld = ctl.memoryHeld - d) := by
  unfold Controller.releaseMemory Controller.memoryLimited
  by_cases hd0 : d ≤ 0
  · have : d = 0 := by omega
    subst this
    simp
  · by_cases hl : 0 < ctl.limits.memory
    · -- the semaphore holds what is released, so the release does not fault
      have : ¬ ctl.memoryHeld < d := by have := hheld hl; omega
      simp [hd0, hl, this]
    · simp [hd0, hl]

theorem tryAcquireMemory_snd (ctl : Controller) {d : Int} (hd : 0 ≤ d)
    (hok : (ctl.tryAcquireMemory d).1 = true) :
    (ctl.tryAcquireMemory d).2.limits = ctl.limits ∧ (ctl.tryAcquireMemory d).2.memoryUsed = ctl.memoryUsed + d ∧
      (0 < ctl.limits.memory → (ctl.tryAcquireMemory d).2.memoryHeld = ctl.memoryHeld + d) := by
  unfold Controller.tryAcquireMemory Controller.memoryLimited at *
  by_cases hd0 : d ≤ 0
  · have : d = 0 := by omega
    subst this
    simp
  · by_cases hl : 0 < ctl.limits.memory
    · by_cases hr : ctl.limits.memory - ctl.memoryHeld < d
      · simp [hd0, hl, hr] at hok
      · simp [hd0, hl, hr]
    · simp [hd0, hl]

theorem Mirrors.release {rc : Option Controller} {n d : Int} (h : Mirrors rc n) (hd : 0 ≤ d)
    (hdn : d ≤ n) : Mirrors (releaseMemory? rc d) (n - d) ∧ memoryLimit (releaseMemory? rc d) = memoryLimit rc := by
  cases rc with
  | none => exact ⟨fun _ h => (nomatch h), rfl⟩
  | some ctl =>
    obtain ⟨hused, hheld⟩ := h ctl rfl
    obtain ⟨hlim, hused', hheld'⟩ := releaseMemory_fst ctl hd fun hl => (hheld hl).symm ▸ hdn
    refine ⟨fun ctl' h' => ?_, by simp [releaseMemory?, memoryLimit, hlim]⟩
    cases h'
    refine ⟨by rw [hused', hused], fun hl => ?_⟩
    rw [hlim] at hl
    rw [hheld' hl, hheld hl]

theorem Mirrors.acquire {rc : Option Controller} {n d : Int} (h : Mirrors rc n) (hd : 0 ≤ d)
    (hok : (tryAcquireMemory? rc d).1 = true) :
    Mirrors (tryAcquireMemory? rc d).2 (n + d) ∧ memoryLimit (tryAcquireMemory? rc d).2 = memoryLimit rc := by
  cases rc with
  | none => exact ⟨fun _ h => (nomatch h), rfl⟩
  | some ctl =>
    obtain ⟨hused, hheld⟩ := h ctl rfl
    obtain ⟨hlim, hused', hheld'⟩ := tryAcquireMemory_snd ctl hd hok
    refine ⟨fun ctl' h' => ?_, by simp [tryAcquireMemory?, memoryLimit, hlim]⟩
    have hc : ctl' = (ctl.tryAcquireMemory d).2 := by
      simp only [tryAcquireMemory?, Option.some.injEq] at h'
      exact h'.symm
    subst hc
    refine ⟨by rw [hused', hused], fun hl => ?_⟩
    rw [hlim] at hl
    rw [hheld' hl, hheld hl]

/-- Whether a limit refuses `d` more bytes to a semaphore holding `used`; a limit that is
not positive is none. -/
def refuses (limit used d : Int) : Bool := 0 < limit ∧ 0 < d ∧ limit - used < d

/-- A controller that has handed out `n` bytes grants `d` more unless its limit refuses them. -/
theorem Mirrors.acquire_fst {rc : Option Controller} {n d : Int} (h : Mirrors rc n) :
    (tryAcquireMemory? rc d).1 = !refuses (memoryLimit rc) n d := by
  cases rc with
  | none => rfl
  | some ctl =>
    obtain ⟨-, hheld⟩ := h ctl rfl
    simp only [tryAcquireMemory?, memoryLimit, Option.map_some, Option.getD_some, refuses]
    unfold Controller.tryAcquireMemory Controller.memoryLimited
    by_cases hd0 : d ≤ 0
    · simp [hd0, show ¬ 0 < d by omega]
    · by_cases hl : 0 < ctl.limits.memory
      · by_cases hr : ctl.limits.memory - n < d
        · simp [hd0, hl, hheld hl, hr, show 0 < d by omega]
        · simp [hd0, hl, hheld hl, hr]
      · simp [hd0, hl]

/-- The controller's part in rewriting an entry of cost `old` as one of cost `new` out of `n`
handed out: a growth is asked for, and once granted a shrinkage is given back. -/
theorem Mirrors.resize {rc : Option Controller} {n old new : Int} (h : Mirrors rc n) (hold : old ≤ n)
    (hnew : 0 ≤ new) {ok : Bool} {rc₁ : Option Controller}
    (hg : (if old < new then tryAcquireMemory? rc (new - old) else (true, rc)) = (ok, rc₁)) :
    ok = !(decide (old < new) && refuses (memoryLimit rc) n (new - old)) ∧
    (ok = true → Mirrors (if new < old then releaseMemory? rc₁ (old - new) else rc₁) (n + new - old) ∧
      memoryLimit (if new < old then releaseMemory? rc₁ (old - new) else rc₁) = memoryLimit rc) := by
  have hsum : n + new - old = n + (new - old) := by omega
  by_cases hgrow : old < new
  · rw [if_pos hgrow] at hg
    have hok : (tryAcquireMemory? rc (new - old)).1 = ok := by rw [hg]
    have hrc : (tryAcquireMemory? rc (new - old)).2 = rc₁ := by rw [hg]
    refine ⟨by rw [← hok, h.acquire_fst]; simp [hgrow], fun hgranted => ?_⟩
    rw [if_neg (by omega), hsum, ← hrc]
    exact h.acquire (by omega) (hok.trans hgranted)
  · rw [if_neg hgrow] at hg
    obtain ⟨rfl, rfl⟩ := Prod.mk.inj hg
    refine ⟨by simp [hgrow], fun _ => ?_⟩
    by_cases hshrink : new < old
    · -- the shrinkage goes back to the controller
      rw [if_pos hshrink, show n + new - old = n - (old - new) by omega]
      exact h.release (by omega) (by omega)
    · rw [if_neg hshrink, show n + new - old = n by omega]
      exact ⟨h, rfl⟩

/-! ## Accounts kept -/

section Setup

variable {κ ν : Type}

/-- The cache's bookkeeping agrees with its entries: distinct keys, costs that are never
negative, a running total equal to their sum, and a controller that has handed out that
total. -/
structure Accounts (c : Lru κ ν) : Prop where
  nodup : (keys c.entries).Nodup
  nonneg : CostsNonneg c.entries
  size_eq : c.size = total c.entries
  memory : Mirrors c.controller c.size

/-- What an operation keeps of the cache's setup: the capacity, the cost function and the
controller's limit. -/
structure SameSetup (c c' : Lru κ ν) : Prop where
  capacity : c'.capacity = c.capacity
  cost : c'.cost = c.cost
  limit : memoryLimit c'.controller = memoryLimit c.controller

theorem SameSetup.refl (c : Lru κ ν) : SameSetup c c := ⟨rfl, rfl, rfl⟩

theorem SameSetup.trans {c c' c'' : Lru κ ν} (h : SameSetup c c') (h' : SameSetup c' c'') :
    SameSetup c c'' :=
  ⟨h'.capacity.trans h.capacity, h'.cost.trans h.cost, h'.limit.trans h.limit⟩

/-- Putting an entry of a key not cached in front, the controller having granted its cost,
keeps the accounts. -/
theorem Accounts.insert {c : Lru κ ν} (h : Accounts c) {k : κ} (hk : k ∉ keys c.entries) (v : ν) {cost : Int}
    (hcost : 0 ≤ cost) {rc : Option Controller} (hrc : Mirrors rc (c.size + cost))
    (hlim : memoryLimit rc = memoryLimit c.controller) :
    Accounts { c with entries := ⟨k, v, cost⟩ :: c.entries, size := c.size + cost, controller := rc } ∧
    SameSetup c { c with entries := ⟨k, v, cost⟩ :: c.entries, size := c.size + cost, controller := rc } := by
  refine ⟨⟨List.nodup_cons.mpr ⟨hk, h.nodup⟩, ?_, ?_, hrc⟩, ⟨rfl, rfl, hlim⟩⟩
  · intro f hf
    rcases List.mem_cons.mp hf with rfl | hf
    · exact hcost
    · exact h.nonneg f hf
  · simp only [total_cons, h.size_eq]
    omega

end Setup

section Kept

variable {κ ν : Type} [BEq κ]

theorem mem_trim {tooBig : Lru κ ν → Bool} :
    ∀ (fuel : Nat) (c : Lru κ ν) {e : LruEntry κ ν}, e ∈ (Lru.trim tooBig fuel c).1.entries → e ∈ c.entries
  | 0, c, e, h => by simpa [Lru.trim] using h
  | fuel + 1, c, e, h => by
    unfold Lru.trim at h
    split at h
    · split at h
      · rename_i f _
        have := mem_trim fuel (c.drop f) h
        simp only [Lru.drop, without] at this
        exact List.mem_of_mem_filter this
      · exact h
    · exact h

theorem mem_set {c : Lru κ ν} {k : κ} {v : ν} {e : LruEntry κ ν} (h : e ∈ (c.set k v).2.1.entries) :
    e ∈ c.entries ∨ e = ⟨k, v, c.cost v⟩ := by
  by_cases hcap : c.capacity < c.cost v
  · simp only [Lru.set, hcap, if_true] at h
    exact .inl h
  cases hf : c.find? k with
  | some f =>
    -- the key is cached: unless the controller refuses the growth, its entry is replaced at
    -- the front and the back is trimmed
    simp only [Lru.set, hcap, if_false, hf] at h
    generalize (if f.cost < c.cost v then tryAcquireMemory? c.controller (c.cost v - f.cost)
      else (true, c.controller)) = g at h
    obtain ⟨ok, rc⟩ := g
    cases ok
    · exact .inl h
    · have hmem := mem_trim _ _ h
      rcases List.mem_cons.mp hmem with rfl | hmem
      · exact .inr rfl
      · exact .inl (List.mem_of_mem_filter hmem)
  | none =>
    -- a new key: the back is trimmed first, then the entry goes in front unless refused
    simp only [Lru.set, hcap, if_false, hf] at h
    generalize tryAcquireMemory? _ (c.cost v) = g at h
    obtain ⟨ok, rc⟩ := g
    cases ok
    · exact .inl (mem_trim _ _ h)
    · rcases List.mem_cons.mp h with rfl | hmem
      · exact .inr rfl
      · exact .inl (mem_trim _ _ hmem)

variable [LawfulBEq κ]

theorem Accounts.drop {c : Lru κ ν} (h : Accounts c) {e : LruEntry κ ν} (he : e ∈ c.entries) :
    Accounts (c.drop e) ∧ SameSetup c (c.drop e) := by
  have htotal := total_filter_key h.nodup he
  have hcost : 0 ≤ e.cost := h.nonneg e he
  have hle : e.cost ≤ c.size := by
    have : 0 ≤ total (c.entries.filter fun f => !(f.key == e.key)) :=
      total_nonneg fun f hf => h.nonneg f (List.mem_of_mem_filter hf)
    rw [h.size_eq]
    omega
  obtain ⟨hmem, hlim⟩ := h.memory.release hcost hle
  refine ⟨⟨keys_filter_nodup h.nodup _, fun f hf => h.nonneg f (List.mem_of_mem_filter hf), ?_, hmem⟩,
    ⟨rfl, rfl, hlim⟩⟩
  simp only [Lru.drop, without, htotal, h.size_eq]

theorem Accounts.foldl_drop : ∀ (gone : List (LruEntry κ ν)) (c : Lru κ ν), Accounts c →
    (∀ g ∈ gone, g ∈ c.entries) → (keys gone).Nodup →
    Accounts (gone.foldl Lru.drop c) ∧ SameSetup c (gone.foldl Lru.drop c)
  | [], c, h, _, _ => ⟨h, SameSetup.refl c⟩
  | g :: gone, c, h, hin, hnd => by
    simp only [keys_cons, List.nodup_cons] at hnd
    obtain ⟨hacc, hsame⟩ := h.drop (hin g List.mem_cons_self)
    -- the other gone entries survive the drop: their keys differ from the one dropped
    have hin' : ∀ g' ∈ gone, g' ∈ (c.drop g).entries := by
      intro g' hg'
      have hne : g'.key ≠ g.key := fun heq => hnd.1 (mem_keys.mpr ⟨g', hg', heq⟩)
      simp only [Lru.drop, without, List.mem_filter]
      exact ⟨hin g' (List.mem_cons_of_mem g hg'), by simpa using hne⟩
    obtain ⟨hacc', hsame'⟩ := Accounts.foldl_drop gone (c.drop g) hacc hin' hnd.2
    exact ⟨hacc', hsame.trans hsame'⟩

theorem Accounts.invalidate {c : Lru κ ν} (h : Accounts c) (p : κ → Bool) :
    Accounts (c.invalidate p).1 ∧ SameSetup c (c.invalidate p).1 :=
  Accounts.foldl_drop _ c h (fun _ hg => (List.mem_filter.mp hg).1) (keys_filter_nodup h.nodup _)

/-- A lookup moves the entry it finds to the front and keeps the accounts. -/
theorem Accounts.get {c : Lru κ ν} (h : Accounts c) (k : κ) : Accounts (c.get k).2 ∧ SameSetup c (c.get k).2 := by
  unfold Lru.get
  split
  · rename_i e hf
    obtain ⟨he, hkey⟩ := mem_of_find?_eq_some hf
    have hwithout : c.without k = c.entries.filter fun f => !(f.key == e.key) := by rw [hkey]; rfl
    have hout : e.key ∉ keys (c.without k) := by
      rw [hwithout, mem_keys]
      rintro ⟨f, hf', hfk⟩
      simp [hfk] at hf'
    refine ⟨⟨?_, ?_, ?_, h.memory⟩, ⟨rfl, rfl, rfl⟩⟩
    · exact List.nodup_cons.mpr ⟨hout, keys_filter_nodup h.nodup _⟩
    · intro f hf'
      rcases List.mem_cons.mp hf' with rfl | hf'
      · exact h.nonneg f he
      · exact h.nonneg f (List.mem_of_mem_filter hf')
    · simp only [total_cons, hwithout, total_filter_key h.nodup he, h.size_eq]
      omega
  · exact ⟨⟨h.nodup, h.nonneg, h.size_eq, h.memory⟩, ⟨rfl, rfl, rfl⟩⟩

/-- Rewriting the entry of a cached key in front, the controller told of the change in cost,
keeps the accounts. -/
theorem Accounts.rewrite {c : Lru κ ν} (h : Accounts c) {e : LruEntry κ ν} (he : e ∈ c.entries) {k : κ}
    (hkey : e.key = k) (v : ν) {cost : Int} (hcost : 0 ≤ cost) {rc : Option Controller}
    (hrc : Mirrors rc (c.size + cost - e.cost)) (hlim : memoryLimit rc = memoryLimit c.controller) :
    Accounts { c with entries := ⟨k, v, cost⟩ :: c.without k, size := c.size + cost - e.cost, controller := rc } ∧
    SameSetup c { c with entries := ⟨k, v, cost⟩ :: c.without k, size := c.size + cost - e.cost, controller := rc } := by
  have hwithout : c.without k = c.entries.filter fun f => !(f.key == e.key) := by rw [hkey]; rfl
  have hout : k ∉ keys (c.without k) := by
    rw [mem_keys]
    rintro ⟨f, hf, hfk⟩
    simp [without, hfk] at hf
  refine ⟨⟨List.nodup_cons.mpr ⟨hout, keys_filter_nodup h.nodup _⟩, ?_, ?_, hrc⟩, ⟨rfl, rfl, hlim⟩⟩
  · intro f hf
    rcases List.mem_cons.mp hf with rfl | hf
    · exact hcost
    · exact h.nonneg f (List.mem_of_mem_filter hf)
  · simp only [total_cons, hwithout, total_filter_key h.nodup he, h.size_eq]
    omega

/-- Trimming while the total exceeds `room` leaves the longest front part of the entries
that fits and gives the rest, last first. The test may read only the size, against a room
fixed by the capacity. -/
theorem Accounts.trim {tooBig : Lru κ ν → Bool} {cap room : Int}
    (htb : ∀ c' : Lru κ ν, c'.capacity = cap → (tooBig c' = true ↔ room < c'.size)) :
    ∀ (fuel : Nat) (c : Lru κ ν), Accounts c → c.capacity = cap → c.entries.length ≤ fuel →
      (Lru.trim tooBig fuel c).1.entries = fitting room c.entries ∧
      (Lru.trim tooBig fuel c).2 = (c.entries.drop (fitting room c.entries).length).reverse ∧
      Accounts (Lru.trim tooBig fuel c).1 ∧ SameSetup c (Lru.trim tooBig fuel c).1
  | 0, c, _, _, hlen => by
    have hnil : c.entries = [] := List.eq_nil_of_length_eq_zero (by omega)
    simp [Lru.trim, fitting, *, SameSetup.refl]
  | fuel + 1, c, h, hcap, hlen => by
    by_cases hbig : tooBig c = true
    · have hroom : room < total c.entries := h.size_eq ▸ (htb c hcap).mp hbig
      cases hlast : c.entries.getLast? with
      | none =>
        have hnil : c.entries = [] := List.getLast?_eq_none_iff.mp hlast
        simp [Lru.trim, fitting, *, SameSetup.refl]
      | some e =>
        -- the last entry goes, then trimming goes on over the entries before it
        obtain ⟨init, hinit⟩ := List.getLast?_eq_some_iff.mp hlast
        have he : e ∈ c.entries := by simp [hinit]
        obtain ⟨hacc, hsame⟩ := h.drop he
        have hdrop : (c.drop e).entries = init := by
          simp only [Lru.drop, without]
          rw [hinit]
          exact filter_key_append_last (hinit ▸ h.nodup)
        have hlen' : (c.drop e).entries.length ≤ fuel := by
          rw [hdrop]
          have : c.entries.length = init.length + 1 := by simp [hinit]
          omega
        obtain ⟨h1, h2, h3, h4⟩ := Accounts.trim htb fuel (c.drop e) hacc (hsame.capacity.trans hcap) hlen'
        have hfit : fitting room c.entries = fitting room init := by
          rw [hinit] at hroom ⊢
          exact fitting_append_of_lt hroom
        have hpre : (fitting room init).length ≤ init.length := (fitting_isPrefix room init).length_le
        simp only [Lru.trim, hbig, hlast, if_true]
        refine ⟨by rw [h1, hdrop, hfit], ?_, h3, hsame.trans h4⟩
        rw [h2, hdrop, hfit, hinit, List.drop_append_of_le_length hpre]
        simp
    · have hfits : total c.entries ≤ room := by
        have := (htb c hcap).not.mp hbig
        rw [h.size_eq] at this
        omega
      simp [Lru.trim, hbig, fitting_of_total_le h.nonneg hfits, h, SameSetup.refl]

/-! ## What an operation can leave in the cache -/

theorem mem_get {c : Lru κ ν} {k : κ} {e : LruEntry κ ν} (h : e ∈ (c.get k).2.entries) : e ∈ c.entries := by
  unfold Lru.get at h
  split at h
  · rename_i f hf
    rcases List.mem_cons.mp h with rfl | hmem
    · exact (mem_of_find?_eq_some hf).1
    · exact List.mem_of_mem_filter hmem
  · exact h

theorem get_fst_eq_some {c : Lru κ ν} {k : κ} {v : ν} (h : (c.get k).1 = some v) :
    ∃ e ∈ c.entries, e.key = k ∧ e.value = v := by
  unfold Lru.get at h
  split at h
  · rename_i f hf
    obtain ⟨hmem, hkey⟩ := mem_of_find?_eq_some hf
    exact ⟨f, hmem, hkey, by simpa using h⟩
  · cases h

theorem contains_iff {c : Lru κ ν} {k : κ} : c.contains k = true ↔ k ∈ keys c.entries := by
  simp only [Lru.contains, Lru.find?, Option.isSome_iff_ne_none, ne_eq, find?_eq_none_iff, not_not]

theorem invalidate_entries (c : Lru κ ν) (p : κ → Bool) :
    (c.invalidate p).1.entries = c.entries.filter fun e => !p e.key := by
  unfold Lru.invalidate
  dsimp only
  -- dropping one gone entry removes its key; the gone entries are those whose keys `p` picks
  suffices h : ∀ (gone : List (LruEntry κ ν)) (d : Lru κ ν), (∀ e ∈ d.entries, p e.key = true → e.key ∈ keys gone) →
      (∀ g ∈ gone, p g.key = true) → (gone.foldl Lru.drop d).entries = d.entries.filter fun e => !p e.key by
    apply h
    · intro e he hp
      exact mem_keys.mpr ⟨e, List.mem_filter.mpr ⟨he, hp⟩, rfl⟩
    · intro g hg
      exact (List.mem_filter.mp hg).2
  intro gone
  induction gone with
  | nil =>
    intro d hcover _
    symm
    apply List.filter_eq_self.mpr
    intro e he
    cases hp : p e.key
    · rfl
    · exact absurd (hcover e he hp) (by simp)
  | cons g gone ih =>
    intro d hcover hgone
    rw [List.foldl_cons, ih]
    · simp only [Lru.drop, without, List.filter_filter]
      congr 1
      funext e
      by_cases hk : e.key = g.key
      · simp [hk, hgone g List.mem_cons_self]
      · simp [hk]
    · intro e he hp
      simp only [Lru.drop, without, List.mem_filter, Bool.not_eq_true'] at he
      rcases List.mem_cons.mp (hcover e he.1 hp) with hg | hrest
      · simp [hg] at he
      · exact hrest
    · exact fun g' hg' => hgone g' (List.mem_cons_of_mem g hg')

end Kept

end Lru

end AnnotationStore
