import Mathlib
import AnnotationStore.Proofs.Cache.Lru
/-!
# The cache refines a recency list

The specification of the least-recently-used cache is a list of entries, most recently used
first, with nothing kept beside it (`Recency`): the size is the sum of the costs, and the
memory controller's answer is read off that sum and the limit. Eviction drops least recently
used entries while the total is over the room (`Recency.shed`).

Every operation of the cache gives what the same operation of the list gives, and leaves the
cache standing for the list the operation leaves (`Lru.Sound.set` and its siblings), with its
accounts kept and its size within the capacity. Over any sequence of calls from an empty
cache, the answers of the two agree (`Lru.replay_refines`).
-/

namespace AnnotationStore

open Lru

/-- The recency-list model of the cache: its capacity, cost function and memory limit (zero
for none), and its entries, most recently used first. -/
structure Recency (κ ν : Type) where
  capacity : Int
  cost : ν → Int
  limit : Int
  entries : List (LruEntry κ ν)

inductive LruCall (κ ν : Type) where
  | set (k : κ) (v : ν)
  | get (k : κ)
  | contains (k : κ)
  | remove (k : κ)
  | invalidate (p : κ → Bool)
  | purge
  | len
  | size

/-- What a call answers: whether it cached or found, the value found, a count, a size, or
nothing. -/
inductive LruAnswer (ν : Type) where
  | flag (b : Bool)
  | found (v : Option ν)
  | count (n : Nat)
  | amount (n : Int)
  | done

/-- The answers of calls made one after another, each on the state the one before left, and
the last state. -/
def runCalls {σ α β : Type} (call : σ → α → β × σ) (s : σ) : List α → List β × σ
  | [] => ([], s)
  | a :: as =>
    let (b, s) := call s a
    let (bs, s) := runCalls call s as
    (b :: bs, s)

/-- Two ways of answering calls related by `R` at the start, and kept related with the same
answer by every call, answer every sequence of calls alike. -/
theorem runCalls_sim {σ τ α β : Type} {call : σ → α → β × σ} {call' : τ → α → β × τ} (R : σ → τ → Prop)
    (hstep : ∀ s t a, R s t → (call s a).1 = (call' t a).1 ∧ R (call s a).2 (call' t a).2) :
    ∀ (as : List α) (s : σ) (t : τ), R s t →
      (runCalls call s as).1 = (runCalls call' t as).1 ∧ R (runCalls call s as).2 (runCalls call' t as).2
  | [], _, _, hR => ⟨rfl, hR⟩
  | a :: as, s, t, hR => by
    obtain ⟨hans, hR'⟩ := hstep s t a hR
    obtain ⟨hrest, hlast⟩ := runCalls_sim R hstep as _ _ hR'
    simp only [runCalls]
    exact ⟨by rw [hans, hrest], hlast⟩

namespace Recency

section Shed

variable {κ ν : Type}

/-- Drops entries from the front of a list of entries, oldest first, while their total
exceeds `room`. -/
def shedOldest (room : Int) : List (LruEntry κ ν) → List (LruEntry κ ν)
  | [] => []
  | e :: es => if room < total (e :: es) then shedOldest room es else e :: es

/-- Evicts least recently used entries, from the back, while the total exceeds `room`. -/
def shed (room : Int) (es : List (LruEntry κ ν)) : List (LruEntry κ ν) := (shedOldest room es.reverse).reverse

theorem total_reverse (es : List (LruEntry κ ν)) : total es.reverse = total es := by
  induction es with
  | nil => rfl
  | cons e es ih =>
    rw [List.reverse_cons, total_append, ih, total_cons, total_cons, total_nil]
    omega

theorem shed_append_singleton (room : Int) (es : List (LruEntry κ ν)) (e : LruEntry κ ν) :
    shed room (es ++ [e]) = if room < total (es ++ [e]) then shed room es else es ++ [e] := by
  have htotal : total (e :: es.reverse) = total (es ++ [e]) := by
    rw [← total_reverse (es ++ [e]), List.reverse_append, List.reverse_singleton, List.singleton_append]
  unfold shed
  rw [List.reverse_append, List.reverse_singleton, List.singleton_append, shedOldest, htotal]
  split <;> simp

/-- With costs that are never negative, evicting from the back while over the room leaves
the longest front part that fits. -/
theorem shed_eq_fitting (room : Int) {es : List (LruEntry κ ν)} (hc : CostsNonneg es) :
    shed room es = fitting room es := by
  induction es using List.reverseRecOn with
  | nil => rfl
  | append_singleton es e ih =>
    have hc' : CostsNonneg es := fun f hf => hc f (List.mem_append_left _ hf)
    rw [shed_append_singleton]
    split
    · rename_i hover
      rw [ih hc', fitting_append_of_lt hover]
    · rename_i hfits
      rw [fitting_of_total_le hc (by omega)]

def size (r : Recency κ ν) : Int := total r.entries

end Shed

section Ops

variable {κ ν : Type} [BEq κ]

def find? (r : Recency κ ν) (k : κ) : Option (LruEntry κ ν) := r.entries.find? (·.key == k)

def without (r : Recency κ ν) (k : κ) : List (LruEntry κ ν) := r.entries.filter fun e => !(e.key == k)

/-- Looks a key up; a hit moves to the front. -/
def get (r : Recency κ ν) (k : κ) : Option ν × Recency κ ν :=
  match r.find? k with
  | some e => (some e.value, { r with entries := e :: r.without k })
  | none => (none, r)

/-- Whether a key is cached; nothing changes. -/
def contains (r : Recency κ ν) (k : κ) : Bool := (r.find? k).isSome

/-- Caches a value. One costing more than the capacity changes nothing. A present key is
rewritten at the front and the other entries evicted while the total exceeds the capacity,
unless the controller refuses the growth. An absent key first evicts while the total and its
cost exceed the capacity, then goes in front unless the controller refuses its cost. -/
def set (r : Recency κ ν) (k : κ) (v : ν) : Bool × Recency κ ν :=
  let cost := r.cost v
  if r.capacity < cost then (false, r)
  else
    match r.find? k with
    | some e =>
      if e.cost < cost ∧ refuses r.limit r.size (cost - e.cost) then (false, r)
      else (true, { r with entries := ⟨k, v, cost⟩ :: shed (r.capacity - cost) (r.without k) })
    | none =>
      let kept := shed (r.capacity - cost) r.entries
      if refuses r.limit (total kept) cost then (false, { r with entries := kept })
      else (true, { r with entries := ⟨k, v, cost⟩ :: kept })

def remove (r : Recency κ ν) (k : κ) : Bool × Recency κ ν := ((r.find? k).isSome, { r with entries := r.without k })

def invalidate (r : Recency κ ν) (p : κ → Bool) : Recency κ ν :=
  { r with entries := r.entries.filter fun e => !p e.key }

def purge (r : Recency κ ν) : Recency κ ν := { r with entries := [] }

end Ops

section Writes

variable {κ ν : Type} [BEq κ] {r : Recency κ ν} {k : κ} {v : ν}

theorem set_present_eq {e : LruEntry κ ν} (hcap : r.cost v ≤ r.capacity) (hf : r.find? k = some e) :
    r.set k v = if e.cost < r.cost v ∧ refuses r.limit r.size (r.cost v - e.cost) then (false, r)
      else (true, { r with entries := ⟨k, v, r.cost v⟩ :: shed (r.capacity - r.cost v) (r.without k) }) := by
  unfold set
  rw [if_neg (not_lt.mpr hcap), hf]

theorem set_absent_eq (hcap : r.cost v ≤ r.capacity) (hf : r.find? k = none) :
    r.set k v = if refuses r.limit (total (shed (r.capacity - r.cost v) r.entries)) (r.cost v) then
        (false, { r with entries := shed (r.capacity - r.cost v) r.entries })
      else (true, { r with entries := ⟨k, v, r.cost v⟩ :: shed (r.capacity - r.cost v) r.entries }) := by
  unfold set
  rw [if_neg (not_lt.mpr hcap), hf]

end Writes

variable {κ ν : Type} [BEq κ] in
def call (r : Recency κ ν) : LruCall κ ν → LruAnswer ν × Recency κ ν
  | .set k v => let (ok, r) := r.set k v; (.flag ok, r)
  | .get k => let (v, r) := r.get k; (.found v, r)
  | .contains k => (.flag (r.contains k), r)
  | .remove k => let (ok, r) := r.remove k; (.flag ok, r)
  | .invalidate p => (.done, r.invalidate p)
  | .purge => (.done, r.purge)
  | .len => (.count r.entries.length, r)
  | .size => (.amount r.size, r)

variable {κ ν : Type} [BEq κ] in
theorem capacity_call (r : Recency κ ν) (op : LruCall κ ν) : (r.call op).2.capacity = r.capacity := by
  cases op with
  | set k v =>
    simp only [call, Recency.set]
    split
    · rfl
    · split
      · split <;> rfl
      · split <;> rfl
  | get k =>
    simp only [call, Recency.get]
    split <;> rfl
  | _ => rfl

end Recency

namespace Lru

section Model

variable {κ ν : Type}

def model (c : Lru κ ν) : Recency κ ν := ⟨c.capacity, c.cost, memoryLimit c.controller, c.entries⟩

@[simp] theorem model_capacity (c : Lru κ ν) : c.model.capacity = c.capacity := rfl

@[simp] theorem model_cost (c : Lru κ ν) : c.model.cost = c.cost := rfl

@[simp] theorem model_limit (c : Lru κ ν) : c.model.limit = memoryLimit c.controller := rfl

@[simp] theorem model_entries (c : Lru κ ν) : c.model.entries = c.entries := rfl

@[simp] theorem model_size (c : Lru κ ν) : c.model.size = total c.entries := rfl

/-- What every cache reached from an empty one satisfies: its accounts are kept, its costs
are never negative, and its size is within its capacity. -/
structure Sound (c : Lru κ ν) : Prop where
  accounts : Accounts c
  costs : ∀ v, 0 ≤ c.cost v
  within : c.size ≤ c.capacity

theorem SameSetup.model_eq {c c' : Lru κ ν} (h : SameSetup c c') : c'.model = { c.model with entries := c'.entries } := by
  simp only [model, h.capacity, h.cost, h.limit]

theorem Sound.of_sameSetup {c c' : Lru κ ν} (h : Sound c) (hs : SameSetup c c') (hacc : Accounts c')
    (hwithin : c'.size ≤ c'.capacity) : Sound c' :=
  ⟨hacc, hs.cost ▸ h.costs, hwithin⟩

theorem Sound.size_nonneg {c : Lru κ ν} (h : Sound c) : 0 ≤ c.size :=
  h.accounts.size_eq ▸ total_nonneg h.accounts.nonneg

end Model

section Refines

variable {κ ν : Type} [BEq κ] {c : Lru κ ν}

theorem model_find? (c : Lru κ ν) (k : κ) : c.model.find? k = c.find? k := rfl

theorem contains_model (k : κ) : c.model.contains k = c.contains k := rfl

@[simp] theorem model_without (k : κ) : c.model.without k = c.without k := rfl

/-- A write of a cached key: unless the controller refuses the growth, the entry is rewritten
in front, the controller told of the change, and the back trimmed to the capacity. -/
theorem set_present_eq {k : κ} {v : ν} {e : LruEntry κ ν} (hcap : c.cost v ≤ c.capacity) (hf : c.find? k = some e)
    {ok : Bool} {rc : Option Controller}
    (hg : (if e.cost < c.cost v then tryAcquireMemory? c.controller (c.cost v - e.cost) else (true, c.controller)) =
      (ok, rc))
    {c' : Lru κ ν} (hc' : c' = { c with
        entries := ⟨k, v, c.cost v⟩ :: c.without k
        size := c.size + c.cost v - e.cost
        controller := if c.cost v < e.cost then releaseMemory? rc (e.cost - c.cost v) else rc }) :
    c.set k v = if ok then (true, trim (fun c => c.capacity < c.size) c'.len c') else (false, c, []) := by
  subst hc'
  unfold Lru.set
  rw [if_neg (not_lt.mpr hcap), hf]
  dsimp only
  rw [hg]
  cases ok <;> rfl

/-- A write of a key not cached: the back is trimmed until the value fits, and then the entry
goes in front unless the controller refuses its cost. -/
theorem set_absent_eq {k : κ} {v : ν} (hcap : c.cost v ≤ c.capacity) (hf : c.find? k = none)
    {c₁ : Lru κ ν} {gone : List (LruEntry κ ν)}
    (ht : trim (fun c' => c'.capacity < c'.size + c.cost v) c.len c = (c₁, gone))
    {ok : Bool} {rc : Option Controller} (hg : tryAcquireMemory? c₁.controller (c.cost v) = (ok, rc)) :
    c.set k v = if ok then
      (true, { c₁ with entries := ⟨k, v, c.cost v⟩ :: c₁.entries, size := c₁.size + c.cost v, controller := rc }, gone)
    else (false, c₁, gone) := by
  unfold Lru.set
  rw [if_neg (not_lt.mpr hcap), hf]
  dsimp only
  rw [ht]
  dsimp only
  rw [hg]
  cases ok <;> rfl


variable [LawfulBEq κ]

theorem Sound.get (h : Sound c) (k : κ) :
    (c.get k).1 = (c.model.get k).1 ∧ (c.get k).2.model = (c.model.get k).2 ∧ Sound (c.get k).2 := by
  obtain ⟨hacc, hsame⟩ := h.accounts.get k
  have hsize : (c.get k).2.size = c.size := by
    unfold Lru.get
    split <;> rfl
  refine ⟨?_, ?_, h.of_sameSetup hsame hacc (by rw [hsize, hsame.capacity]; exact h.within)⟩
  · unfold Lru.get Recency.get
    rw [model_find?]
    cases c.find? k <;> rfl
  · unfold Lru.get Recency.get
    rw [model_find?]
    cases c.find? k <;> rfl

theorem Sound.remove (h : Sound c) (k : κ) :
    (c.remove k).1 = (c.model.remove k).1 ∧ (c.remove k).2.1.model = (c.model.remove k).2 ∧
      Sound (c.remove k).2.1 := by
  unfold Lru.remove Recency.remove
  rw [model_find?]
  cases hf : c.find? k with
  | some e =>
    obtain ⟨he, hkey⟩ := mem_of_find?_eq_some hf
    obtain ⟨hacc, hsame⟩ := h.accounts.drop he
    have hwithin : (c.drop e).size ≤ (c.drop e).capacity := by
      have := h.accounts.nonneg e he
      simp only [Lru.drop]
      have := h.within
      omega
    refine ⟨rfl, ?_, h.of_sameSetup hsame hacc hwithin⟩
    rw [hsame.model_eq]
    simp only [Lru.drop, Lru.without, Recency.without, model, hkey]
  | none =>
    -- no entry has the key, so taking it out leaves the entries
    have hnone : c.entries.filter (fun e => !(e.key == k)) = c.entries := by
      apply List.filter_eq_self.mpr
      intro e he
      have : e.key ≠ k := fun heq => (find?_eq_none_iff.mp hf) (mem_keys.mpr ⟨e, he, heq⟩)
      simpa using this
    refine ⟨rfl, ?_, h⟩
    simp only [Recency.without, model, hnone]

theorem Sound.invalidate (h : Sound c) (p : κ → Bool) :
    (c.invalidate p).1.model = c.model.invalidate p ∧ Sound (c.invalidate p).1 := by
  obtain ⟨hacc, hsame⟩ := h.accounts.invalidate p
  have hentries := invalidate_entries c p
  have hwithin : (c.invalidate p).1.size ≤ (c.invalidate p).1.capacity := by
    have hle := total_filter_le h.accounts.nonneg fun e => !p e.key
    have hin := h.within
    rw [h.accounts.size_eq] at hin
    rw [hacc.size_eq, hentries, hsame.capacity]
    omega
  refine ⟨?_, h.of_sameSetup hsame hacc hwithin⟩
  rw [hsame.model_eq, hentries]
  rfl

theorem Sound.purge (h : Sound c) : c.purge.1.model = c.model.purge ∧ Sound c.purge.1 := by
  obtain ⟨hmodel, hsound⟩ := h.invalidate fun _ => true
  refine ⟨?_, hsound⟩
  rw [Lru.purge, hmodel]
  simp [Recency.invalidate, Recency.purge]

theorem Sound.set_present (h : Sound c) {k : κ} {v : ν} {e : LruEntry κ ν} (hcap : c.cost v ≤ c.capacity)
    (hf : c.find? k = some e) :
    (c.set k v).1 = (c.model.set k v).1 ∧ (c.set k v).2.1.model = (c.model.set k v).2 ∧ Sound (c.set k v).2.1 := by
  obtain ⟨he, hkey⟩ := mem_of_find?_eq_some hf
  have hcost := h.costs v
  -- the old entry's cost is part of the size
  have hle : e.cost ≤ c.size := by
    have hrest : 0 ≤ total (c.entries.filter fun f => !(f.key == e.key)) :=
      total_nonneg fun f hf => h.accounts.nonneg f (List.mem_of_mem_filter hf)
    rw [total_filter_key h.accounts.nodup he] at hrest
    rw [h.accounts.size_eq]
    omega
  obtain ⟨⟨ok, rc⟩, hg⟩ : ∃ g, (if e.cost < c.cost v then tryAcquireMemory? c.controller (c.cost v - e.cost)
      else (true, c.controller)) = g := ⟨_, rfl⟩
  obtain ⟨hok, hgranted⟩ := h.accounts.memory.resize hle hcost hg
  obtain ⟨c', hc'⟩ : ∃ c' : Lru κ ν, c' = { c with
      entries := ⟨k, v, c.cost v⟩ :: c.without k
      size := c.size + c.cost v - e.cost
      controller := if c.cost v < e.cost then releaseMemory? rc (e.cost - c.cost v) else rc } := ⟨_, rfl⟩
  rw [set_present_eq hcap hf hg hc', Recency.set_present_eq hcap ((model_find? c k).trans hf)]
  simp only [model_cost, model_limit, model_size, model_capacity, model_without, ← h.accounts.size_eq]
  cases ok with
  | false =>
    -- the controller refused the growth: nothing changes
    have hrefused : e.cost < c.cost v ∧ refuses (memoryLimit c.controller) c.size (c.cost v - e.cost) = true := by
      simpa using hok
    rw [if_pos hrefused]
    exact ⟨rfl, rfl, h⟩
  | true =>
    have hgrant : ¬ (e.cost < c.cost v ∧ refuses (memoryLimit c.controller) c.size (c.cost v - e.cost) = true) := by
      rintro ⟨hlt, hr⟩
      simp [hlt, hr] at hok
    rw [if_neg hgrant, if_pos rfl]
    obtain ⟨hrc, hlim⟩ := hgranted rfl
    obtain ⟨hacc, hsame⟩ := h.accounts.rewrite he hkey v hcost hrc hlim
    rw [← hc'] at hacc hsame
    -- trimming to the capacity never reaches the rewritten entry, which fits on its own
    have htb : ∀ c'' : Lru κ ν, c''.capacity = c.capacity →
        ((fun c : Lru κ ν => decide (c.capacity < c.size)) c'' = true ↔ c.capacity < c''.size) := by
      intro c'' hc''
      simp [hc'']
    obtain ⟨hentries, -, hacc', hsame'⟩ := Accounts.trim htb c'.len c' hacc hsame.capacity le_rfl
    have hrest : CostsNonneg (c.without k) := fun f hf => h.accounts.nonneg f (List.mem_of_mem_filter hf)
    have hfit : fitting c.capacity c'.entries = ⟨k, v, c.cost v⟩ :: fitting (c.capacity - c.cost v) (c.without k) := by
      rw [hc']
      simp only [fitting, if_pos hcap]
    rw [hfit] at hentries
    have hwithin : (trim (fun c => decide (c.capacity < c.size)) c'.len c').1.size ≤
        (trim (fun c => decide (c.capacity < c.size)) c'.len c').1.capacity := by
      have hnew : (⟨k, v, c.cost v⟩ : LruEntry κ ν).cost = c.cost v := rfl
      have hfits := total_fitting_le (c.capacity - c.cost v) (c.without k) (by omega)
      rw [hacc'.size_eq, hentries, hsame'.capacity, hsame.capacity, total_cons]
      omega
    refine ⟨rfl, ?_, h.of_sameSetup (hsame.trans hsame') hacc' hwithin⟩
    rw [(hsame.trans hsame').model_eq, hentries, Recency.shed_eq_fitting _ hrest]
    rfl

theorem Sound.set_absent (h : Sound c) {k : κ} {v : ν} (hcap : c.cost v ≤ c.capacity) (hf : c.find? k = none) :
    (c.set k v).1 = (c.model.set k v).1 ∧ (c.set k v).2.1.model = (c.model.set k v).2 ∧ Sound (c.set k v).2.1 := by
  have hcost := h.costs v
  -- trimming until the value fits leaves what fits in the room beside it
  have htb : ∀ c' : Lru κ ν, c'.capacity = c.capacity →
      ((fun c' : Lru κ ν => decide (c'.capacity < c'.size + c.cost v)) c' = true ↔
        c.capacity - c.cost v < c'.size) := by
    intro c' hc'
    simp only [hc', decide_eq_true_eq]
    omega
  obtain ⟨hentries, -, hacc, hsame⟩ := Accounts.trim htb c.len c h.accounts rfl le_rfl
  obtain ⟨⟨c₁, gone⟩, ht⟩ : ∃ t, trim (fun c' => c'.capacity < c'.size + c.cost v) c.len c = t := ⟨_, rfl⟩
  rw [ht] at hentries hacc hsame
  dsimp only at hentries hacc hsame
  have hkept : total c₁.entries ≤ c.capacity - c.cost v := by
    rw [hentries]
    exact total_fitting_le _ _ (by omega)
  obtain ⟨⟨ok, rc⟩, hg⟩ : ∃ g, tryAcquireMemory? c₁.controller (c.cost v) = g := ⟨_, rfl⟩
  have hok : ok = !refuses (memoryLimit c.controller) (total c₁.entries) (c.cost v) := by
    rw [← hsame.limit, ← hacc.size_eq, ← hacc.memory.acquire_fst, hg]
  rw [set_absent_eq hcap hf ht hg, Recency.set_absent_eq hcap ((model_find? c k).trans hf)]
  simp only [model_cost, model_limit, model_capacity, model_entries,
    Recency.shed_eq_fitting _ h.accounts.nonneg, ← hentries]
  cases ok with
  | false =>
    -- refused: the evictions stay
    have hrefused : refuses (memoryLimit c.controller) (total c₁.entries) (c.cost v) = true := by simpa using hok
    rw [if_neg Bool.false_ne_true, if_pos hrefused]
    refine ⟨rfl, by rw [hsame.model_eq]; rfl, h.of_sameSetup hsame hacc ?_⟩
    rw [hacc.size_eq, hsame.capacity]
    omega
  | true =>
    have hgranted : (tryAcquireMemory? c₁.controller (c.cost v)).1 = true := by rw [hg]
    obtain ⟨hrc, hlim⟩ := hacc.memory.acquire hcost hgranted
    rw [hg] at hrc hlim
    -- the key was not cached, so it is not among the entries kept
    have hk : k ∉ keys c₁.entries := by
      intro hmem
      apply find?_eq_none_iff.mp hf
      rw [hentries] at hmem
      exact ((fitting_isPrefix _ _).sublist.map _).subset hmem
    obtain ⟨hacc', hsame'⟩ := hacc.insert hk v hcost hrc hlim
    have hgrant : ¬ refuses (memoryLimit c.controller) (total c₁.entries) (c.cost v) = true := by simpa using hok
    rw [if_pos rfl, if_neg hgrant]
    refine ⟨rfl, ?_, h.of_sameSetup (hsame.trans hsame') hacc' ?_⟩
    · rw [(hsame.trans hsame').model_eq]
      rfl
    · simp only [hacc.size_eq, hsame.capacity]
      omega

/-- A write, answered and left as the list would. -/
theorem Sound.set (h : Sound c) (k : κ) (v : ν) :
    (c.set k v).1 = (c.model.set k v).1 ∧ (c.set k v).2.1.model = (c.model.set k v).2 ∧ Sound (c.set k v).2.1 := by
  by_cases hcap : c.capacity < c.cost v
  · -- a value costing more than the whole capacity changes nothing
    have hlhs : c.set k v = (false, c, []) := by simp [Lru.set, hcap]
    have hrhs : c.model.set k v = (false, c.model) := by simp [Recency.set, hcap]
    rw [hlhs, hrhs]
    exact ⟨rfl, rfl, h⟩
  · cases hf : c.find? k with
    | some e => exact h.set_present (not_lt.mp hcap) hf
    | none => exact h.set_absent (not_lt.mp hcap) hf

end Refines

section Calls

variable {κ ν : Type} [BEq κ]

def call (c : Lru κ ν) : LruCall κ ν → LruAnswer ν × Lru κ ν
  | .set k v => let (ok, c, _) := c.set k v; (.flag ok, c)
  | .get k => let (v, c) := c.get k; (.found v, c)
  | .contains k => (.flag (c.contains k), c)
  | .remove k => let (ok, c, _) := c.remove k; (.flag ok, c)
  | .invalidate p => (.done, (c.invalidate p).1)
  | .purge => (.done, c.purge.1)
  | .len => (.count c.len, c)
  | .size => (.amount c.size, c)

variable [LawfulBEq κ] {c : Lru κ ν}

/-- One call is answered as the list answers it and leaves the cache standing for the list it
leaves. -/
theorem Sound.call (h : Sound c) (op : LruCall κ ν) :
    (c.call op).1 = (c.model.call op).1 ∧ (c.call op).2.model = (c.model.call op).2 ∧ Sound (c.call op).2 := by
  cases op with
  | set k v =>
    obtain ⟨hans, hmodel, hsound⟩ := h.set k v
    exact ⟨by simp only [Lru.call, Recency.call, hans], hmodel, hsound⟩
  | get k =>
    obtain ⟨hans, hmodel, hsound⟩ := h.get k
    exact ⟨by simp only [Lru.call, Recency.call, hans], hmodel, hsound⟩
  | contains k => exact ⟨rfl, rfl, h⟩
  | remove k =>
    obtain ⟨hans, hmodel, hsound⟩ := h.remove k
    exact ⟨by simp only [Lru.call, Recency.call, hans], hmodel, hsound⟩
  | invalidate p =>
    obtain ⟨hmodel, hsound⟩ := h.invalidate p
    exact ⟨rfl, hmodel, hsound⟩
  | purge =>
    obtain ⟨hmodel, hsound⟩ := h.purge
    exact ⟨rfl, hmodel, hsound⟩
  | len => exact ⟨rfl, rfl, h⟩
  | size => exact ⟨by simp only [Lru.call, Recency.call, Recency.size, model_entries, h.accounts.size_eq], rfl, h⟩

/-- From an empty cache of capacity `C ≥ 0`, with costs that are never negative and a
controller that has handed out nothing, every sequence of calls is answered as the recency
list answers it, the cache stands for the list the calls leave, and its accounts are kept:
distinct keys, a size that is the sum of the costs and within `C`, and a controller that has
handed out exactly that size. -/
theorem replay_refines (C : Int) (hC : 0 ≤ C) (cost : ν → Int) (hcost : ∀ v, 0 ≤ cost v)
    (rc : Option Controller) (hrc : Mirrors rc 0) (calls : List (LruCall κ ν)) :
    (runCalls Lru.call (Lru.empty C cost rc) calls).1 = (runCalls Recency.call ⟨C, cost, memoryLimit rc, []⟩ calls).1 ∧
    (runCalls Lru.call (Lru.empty C cost rc) calls).2.model = (runCalls Recency.call ⟨C, cost, memoryLimit rc, []⟩ calls).2 ∧
    (keys (runCalls Lru.call (Lru.empty C cost rc) calls).2.entries).Nodup ∧
    (runCalls Lru.call (Lru.empty C cost rc) calls).2.size = total (runCalls Lru.call (Lru.empty C cost rc) calls).2.entries ∧
    (runCalls Lru.call (Lru.empty C cost rc) calls).2.size ≤ C ∧
    Mirrors (runCalls Lru.call (Lru.empty C cost rc) calls).2.controller (runCalls Lru.call (Lru.empty C cost rc) calls).2.size := by
  -- the cache stands for the list, is sound, and the capacity stays `C`
  have hsim := @runCalls_sim (Lru κ ν) (Recency κ ν) (LruCall κ ν) (LruAnswer ν) Lru.call Recency.call
    (fun c r => c.model = r ∧ Sound c ∧ r.capacity = C)
    (fun c r op ⟨hmodel, hsound, hcap⟩ => by
      obtain ⟨hans, hmodel', hsound'⟩ := hsound.call op
      subst hmodel
      exact ⟨hans, hmodel', hsound', by rw [Recency.capacity_call, hcap]⟩)
    calls (Lru.empty C cost rc) ⟨C, cost, memoryLimit rc, []⟩
    ⟨rfl, ⟨⟨List.nodup_nil, fun _ h => (nomatch h), rfl, hrc⟩, hcost, hC⟩, rfl⟩
  obtain ⟨hans, hmodel, hsound, hcap⟩ := hsim
  have hwithin : (runCalls Lru.call (Lru.empty C cost rc) calls).2.size ≤ C := by
    have := hsound.within
    rw [← model_capacity, hmodel, hcap] at this
    exact this
  exact ⟨hans, hmodel, hsound.accounts.nodup, hsound.accounts.size_eq, hwithin, hsound.accounts.memory⟩

theorem replay_refines_writes_and_reads :
    let calls : List (LruCall Nat Nat) := [.set 1 4, .set 2 5, .get 1, .set 3 3, .remove 2, .len, .size]
    let rc := some (Controller.make { memory := 8 })
    let run := runCalls Lru.call (Lru.empty 10 (fun v : Nat => (v : Int)) rc) calls
    let spec := runCalls Recency.call ⟨10, fun v : Nat => (v : Int), memoryLimit rc, []⟩ calls
    run.1 = spec.1 ∧ run.2.model = spec.2 ∧ (keys run.2.entries).Nodup ∧ run.2.size = total run.2.entries ∧
      run.2.size ≤ 10 ∧ Mirrors run.2.controller run.2.size :=
  replay_refines 10 (by decide) _ (fun v => Int.natCast_nonneg v) _ (mirrors_make _) _

end Calls

end Lru

end AnnotationStore
