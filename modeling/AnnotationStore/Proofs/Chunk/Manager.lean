import Mathlib
import AnnotationStore.Chunk.Manager
import AnnotationStore.Proofs.Cache.Lru
/-!
# Tickets and arrivals of the chunk manager

The manager is driven by three calls in any order: a request for keys, a delivery of an
arrival from any party, and a flush (`Step`, `Manager.run`).

* Tickets. A request gives every key it newly wants the next ticket, counting on from the
  last one, and lets every key still wanted keep its own (`request_spec`). Over a run from
  a new manager the tickets issued are `1, 2, …` in order, so none is issued twice
  (`issued_eq_range'`).
* Arrivals. Deliveries queue up and a flush takes the whole queue, so each flush examines
  exactly the arrivals delivered since the flush before it, in delivery order
  (`batches_eq_flushBatches`).
* Storing. A flush caches a chunk only from an arrival of its queue that carries the
  key's wanted ticket and a chunk whose layout checks (`flush_mem_cache`); a failed arrival
  with the wanted ticket leaves its key unwanted (`flush_failed`), so the next request for it
  issues a fresh ticket (`request_fresh_ticket`). Once a request has left a key unwanted, the
  key's wanted ticket, whenever it has one again, is above every ticket issued by then
  (`unwanted_stays_fresh`), so no arrival for an older ticket is ever stored.

The flush's pass over its queue is `flushStep` folded over it (`flush_fst`), and each fact
about a flush is one about `receive` (`receive_cases`) carried along the pass by induction.
-/

namespace AnnotationStore.Chunk

/-- A call on the manager: asking for keys, a delivery from any party, or a flush. -/
inductive Step where
  | request (keys : List String)
  | deliver (a : Arrival)
  | flush

/-- What a run of calls delivers between flushes: for each flush, the arrivals delivered since
the flush before it, in delivery order, the first flush also taking those `pending`. -/
def Step.flushBatches (pending : List Arrival) : List Step → List (List Arrival)
  | [] => []
  | .deliver a :: rest => flushBatches (pending ++ [a]) rest
  | .request _ :: rest => flushBatches pending rest
  | .flush :: rest => pending :: flushBatches [] rest

def Step.delivered : List Step → List Arrival
  | [] => []
  | .deliver a :: rest => a :: delivered rest
  | .request _ :: rest => delivered rest
  | .flush :: rest => delivered rest

namespace Manager

def step (m : Manager) : Step → Manager
  | .request keys => (m.request keys).1
  | .deliver a => m.deliver a
  | .flush => m.flush.1

def run (m : Manager) (steps : List Step) : Manager := steps.foldl step m

/-- The tickets a request issues: those of the keys it newly wants, in order. -/
def newTickets (m : Manager) (keys : List String) : List Nat :=
  ((m.request keys).1.wanted.filter fun p => (m.wanted.lookup p.1).isNone).map (·.2)

def issued (m : Manager) : List Step → List Nat
  | [] => []
  | .request keys :: rest => m.newTickets keys ++ issued (m.step (.request keys)) rest
  | .deliver a :: rest => issued (m.step (.deliver a)) rest
  | .flush :: rest => issued (m.step .flush) rest

/-- The arrivals each flush of a run examines, flush by flush: the queue it finds. -/
def batches (m : Manager) : List Step → List (List Arrival)
  | [] => []
  | .request keys :: rest => batches (m.step (.request keys)) rest
  | .deliver a :: rest => batches (m.step (.deliver a)) rest
  | .flush :: rest => m.queue :: batches (m.step .flush) rest

/-! ## Requests -/

/-- What a request's pass over the keys keeps of the wanted keys `next` it builds and the last
ticket `last` it gave: the newly wanted keys have the tickets after the old last one, in
order, and every other key its old ticket. -/
def RequestInv (m : Manager) (acc : List (String × Nat) × Nat × List (String × Nat)) : Prop :=
  m.lastTicket ≤ acc.2.1 ∧
  (acc.1.filter fun p => (m.wanted.lookup p.1).isNone).map (·.2) =
    List.range' (m.lastTicket + 1) (acc.2.1 - m.lastTicket) ∧
  ∀ p ∈ acc.1, m.wanted.lookup p.1 = some p.2 ∨ (m.wanted.lookup p.1 = none ∧ m.lastTicket < p.2)

theorem request_spec (m : Manager) (keys : List String) :
    RequestInv m ((m.request keys).1.wanted, (m.request keys).1.lastTicket, (m.request keys).2) := by
  unfold request
  split
  rename_i next last starts hfold
  dsimp only
  rw [← hfold]
  refine @List.foldlRecOn _ _ (RequestInv m) keys _ _ ⟨le_rfl, by simp, by simp⟩ ?_
  rintro ⟨next, last, starts⟩ ⟨hlast, hnew, hold⟩ k -
  dsimp only at hlast hnew hold ⊢
  unfold RequestInv
  split
  · exact ⟨hlast, hnew, hold⟩
  · split
    · rename_i t ht
      refine ⟨hlast, ?_, ?_⟩
      · simp [List.filter_append, ht, hnew]
      · intro p hp
        rcases List.mem_append.mp hp with hp | hp
        · exact hold p hp
        · simp only [List.mem_singleton] at hp
          subst hp
          exact .inl ht
    · rename_i ht
      dsimp only
      refine ⟨by omega, ?_, ?_⟩
      · rw [List.filter_append, List.map_append, hnew, show last + 1 - m.lastTicket = last - m.lastTicket + 1 by omega,
          List.range'_1_concat]
        simp [ht]
        omega
      · intro p hp
        rcases List.mem_append.mp hp with hp | hp
        · exact hold p hp
        · simp only [List.mem_singleton] at hp
          subst hp
          exact .inr ⟨ht, by omega⟩

theorem request_lastTicket (m : Manager) (keys : List String) : m.lastTicket ≤ (m.request keys).1.lastTicket :=
  (request_spec m keys).1

/-- A request issues the tickets after the last one, one per key it newly wants. -/
theorem newTickets_eq (m : Manager) (keys : List String) :
    m.newTickets keys = List.range' (m.lastTicket + 1) ((m.request keys).1.lastTicket - m.lastTicket) :=
  (request_spec m keys).2.1

theorem request_lookup {m : Manager} {keys : List String} {k : String} {t : Nat}
    (h : (m.request keys).1.wanted.lookup k = some t) : m.wanted.lookup k = some t ∨ m.lastTicket < t := by
  obtain ⟨l₁, l₂, heq, -⟩ := List.lookup_eq_some_iff.mp h
  have hmem : (k, t) ∈ (m.request keys).1.wanted := by simp [heq]
  rcases (request_spec m keys).2.2 (k, t) hmem with hold | ⟨-, hnew⟩
  · exact .inl hold
  · exact .inr hnew

theorem request_queue (m : Manager) (keys : List String) : (m.request keys).1.queue = m.queue := by
  unfold request
  split
  rfl

/-- One key of a request: skipped when already taken, otherwise wanted with its old ticket or
the next one. -/
def requestStep (m : Manager) (acc : List (String × Nat) × Nat × List (String × Nat)) (k : String) :
    List (String × Nat) × Nat × List (String × Nat) :=
  let (next, last, starts) := acc
  if (next.lookup k).isSome then (next, last, starts)
  else match m.wanted.lookup k with
    | some t => (next ++ [(k, t)], last, starts)
    | none =>
      let t := last + 1
      (next ++ [(k, t)], t, if m.cache.contains k then starts else starts ++ [(k, t)])

/-- A key of the request is wanted after its turn, and a key wanted before stays wanted. -/
theorem requestStep_lookup (m : Manager) (acc : List (String × Nat) × Nat × List (String × Nat)) (k k' : String) :
    ((requestStep m acc k).1.lookup k).isSome ∧
      ((acc.1.lookup k').isSome → ((requestStep m acc k).1.lookup k').isSome) := by
  obtain ⟨next, last, starts⟩ := acc
  unfold requestStep
  dsimp only
  split
  · exact ⟨by assumption, id⟩
  · split <;>
    · simp only [List.lookup_append, List.lookup_cons, beq_self_eq_true, List.lookup_nil]
      exact ⟨by cases next.lookup k <;> rfl, fun h => by cases hk : next.lookup k' <;> simp_all⟩

theorem requestSteps_lookup (m : Manager) (keys : List String) (acc : List (String × Nat) × Nat × List (String × Nat))
    {k : String} (hk : k ∈ keys ∨ (acc.1.lookup k).isSome) : ((keys.foldl (requestStep m) acc).1.lookup k).isSome := by
  induction keys generalizing acc with
  | nil => simpa using hk
  | cons k' keys ih =>
    rw [List.foldl_cons]
    apply ih
    rcases hk with hk | hk
    · rcases List.mem_cons.mp hk with rfl | hk
      · exact .inr (requestStep_lookup m acc k k).1
      · exact .inl hk
    · exact .inr ((requestStep_lookup m acc k' k).2 hk)

theorem request_wanted_of_mem (m : Manager) {keys : List String} {k : String} (hk : k ∈ keys) :
    ((m.request keys).1.wanted.lookup k).isSome := by
  unfold request
  split
  rename_i next last starts hfold
  have hsteps : keys.foldl (requestStep m) ([], m.lastTicket, []) = (next, last, starts) := hfold
  have hwanted := requestSteps_lookup m keys ([], m.lastTicket, []) (.inl hk)
  rw [hsteps] at hwanted
  exact hwanted

/-- A key asked for that was not wanted gets a ticket after the last one. -/
theorem request_fresh_ticket (m : Manager) {keys : List String} {k : String} (hk : k ∈ keys)
    (hnone : m.wanted.lookup k = none) :
    ∃ t, (m.request keys).1.wanted.lookup k = some t ∧ m.lastTicket < t := by
  obtain ⟨t, ht⟩ := Option.isSome_iff_exists.mp (request_wanted_of_mem m hk)
  refine ⟨t, ht, ?_⟩
  rcases request_lookup ht with hold | hnew
  · rw [hnone] at hold
    cases hold
  · exact hnew

/-! ## Arrivals -/

section Lookups

theorem lookup_filter_key {l : List (String × Nat)} {q : String × Nat → Bool} (hq : ∀ x y, x.1 = y.1 → q x = q y)
    (k : String) : (l.filter q).lookup k = if q (k, 0) then l.lookup k else none := by
  induction l with
  | nil => split <;> rfl
  | cons p l ih =>
    obtain ⟨k', t'⟩ := p
    by_cases hk : k' = k
    · subst hk
      have hsame : q (k', t') = q (k', 0) := hq _ _ rfl
      by_cases hpass : q (k', 0) = true
      · rw [List.filter_cons_of_pos (by rw [hsame]; exact hpass), if_pos hpass]
        simp
      · rw [List.filter_cons_of_neg (by rw [hsame]; exact hpass), ih, if_neg hpass, if_neg hpass]
    · have hne : (k == k') = false := by simpa using Ne.symm hk
      rw [List.filter_cons]
      split
      · rw [List.lookup_cons, hne, ih, List.lookup_cons, hne]
      · rw [ih, List.lookup_cons, hne]

theorem lookup_of_lookup_filter {l : List (String × Nat)} {q : String × Nat → Bool}
    (hq : ∀ x y, x.1 = y.1 → q x = q y) {k : String} {t : Nat} (h : (l.filter q).lookup k = some t) :
    l.lookup k = some t := by
  rw [lookup_filter_key hq] at h
  split at h
  · exact h
  · cases h

end Lookups

/-- What applying one arrival can do: a stale one is dropped and counted, a failed or invalid
one makes its key no longer wanted, and an accepted one is offered to the cache. -/
theorem receive_cases (m : Manager) (a : Arrival) :
    (m.wanted.lookup a.key ≠ some a.ticket ∧ (m.receive a).1 = { m with dropped := m.dropped + 1 }) ∨
    (m.wanted.lookup a.key = some a.ticket ∧ a.delivery.accepted = none ∧
      (m.receive a).1 = { m with wanted := m.wanted.filter (·.1 != a.key) }) ∨
    (∃ b, m.wanted.lookup a.key = some a.ticket ∧ a.delivery.accepted = some b ∧
      (m.receive a).1 = { m with cache := (m.cache.set a.key b).2.1 }) := by
  unfold receive
  split
  · rename_i hstale
    exact .inl ⟨by simpa using hstale, rfl⟩
  · rename_i hfresh
    have hticket : m.wanted.lookup a.key = some a.ticket := by simpa using hfresh
    split
    · rename_i hnone
      exact .inr (.inl ⟨hticket, hnone, rfl⟩)
    · rename_i b hb
      refine .inr (.inr ⟨b, hticket, hb, ?_⟩)
      split
      rename_i ok cache gone hset
      rw [hset]

/-- One arrival of a flush: applied, its key collected if its chunk was cached, and the keys
pushed out collected. -/
def flushStep (acc : Manager × List String × List String) (a : Arrival) : Manager × List String × List String :=
  let (m, ready, evicted) := acc
  let (m, got, gone) := m.receive a
  (m, ready ++ got.toList, evicted ++ gone)

theorem flushStep_fst (acc : Manager × List String × List String) (a : Arrival) :
    (flushStep acc a).1 = (acc.1.receive a).1 := by
  obtain ⟨m, ready, evicted⟩ := acc
  rfl

/-- A flush applies its queue arrival by arrival, from the manager with the queue emptied, and
then stops wanting the keys pushed out. -/
theorem flush_fst (m : Manager) :
    m.flush.1 = { (m.queue.foldl flushStep ({ m with queue := [] }, [], [])).1 with
      wanted := (m.queue.foldl flushStep ({ m with queue := [] }, [], [])).1.wanted.filter fun (k, _) =>
        !(m.queue.foldl flushStep ({ m with queue := [] }, [], [])).2.2.contains k } := by
  unfold flush
  split
  rename_i m' ready evicted hfold
  have hsteps : m.queue.foldl flushStep ({ m with queue := [] }, [], []) = (m', ready, evicted) := hfold
  rw [hsteps]

section Receive

variable (m : Manager) (a : Arrival)

theorem receive_queue : (m.receive a).1.queue = m.queue := by
  rcases receive_cases m a with ⟨-, h⟩ | ⟨-, -, h⟩ | ⟨b, -, -, h⟩ <;> rw [h]

theorem receive_lastTicket : (m.receive a).1.lastTicket = m.lastTicket := by
  rcases receive_cases m a with ⟨-, h⟩ | ⟨-, -, h⟩ | ⟨b, -, -, h⟩ <;> rw [h]

theorem receive_lookup {k : String} {t : Nat} (h : (m.receive a).1.wanted.lookup k = some t) :
    m.wanted.lookup k = some t := by
  rcases receive_cases m a with ⟨-, hr⟩ | ⟨-, -, hr⟩ | ⟨b, -, -, hr⟩ <;> rw [hr] at h
  · exact h
  · exact lookup_of_lookup_filter (fun _ _ hxy => congrArg (· != a.key) hxy) h
  · exact h

theorem receive_failed (hticket : m.wanted.lookup a.key = some a.ticket) (hnone : a.delivery.accepted = none) :
    (m.receive a).1.wanted.lookup a.key = none := by
  rcases receive_cases m a with ⟨hstale, -⟩ | ⟨-, -, hr⟩ | ⟨b, -, hb, -⟩
  · exact absurd hticket hstale
  · rw [hr, lookup_filter_key (fun _ _ hxy => congrArg (· != a.key) hxy), if_neg (by simp)]
  · rw [hnone] at hb
    cases hb

/-- An entry cached after an arrival was cached before, or holds the chunk of the arrival, which
carried the wanted ticket of its key. -/
theorem receive_mem_cache {e : LruEntry String PackedBuffer} (he : e ∈ (m.receive a).1.cache.entries) :
    e ∈ m.cache.entries ∨
      (e.key = a.key ∧ m.wanted.lookup a.key = some a.ticket ∧ a.delivery.accepted = some e.value) := by
  rcases receive_cases m a with ⟨-, hr⟩ | ⟨-, -, hr⟩ | ⟨b, hticket, hb, hr⟩ <;> rw [hr] at he
  · exact .inl he
  · exact .inl he
  · rcases Lru.mem_set he with hold | rfl
    · exact .inl hold
    · exact .inr ⟨rfl, hticket, hb⟩

theorem receive_dropped :
    (m.receive a).1.dropped = m.dropped + if m.wanted.lookup a.key = some a.ticket then 0 else 1 := by
  rcases receive_cases m a with ⟨hstale, hr⟩ | ⟨hticket, -, hr⟩ | ⟨b, hticket, -, hr⟩
  · rw [hr, if_neg hstale]
  · rw [hr, if_pos hticket]
    rfl
  · rw [hr, if_pos hticket]
    rfl

end Receive

/-! ## Flushes -/

section FlushSteps

/-! Each lemma is by induction on the arrivals, from any start of the pass over them. -/

theorem flushSteps_field {β : Type} (f : Manager → β) (hf : ∀ m a, f (m.receive a).1 = f m)
    (l : List Arrival) (acc : Manager × List String × List String) : f (l.foldl flushStep acc).1 = f acc.1 := by
  induction l generalizing acc with
  | nil => rfl
  | cons a l ih => rw [List.foldl_cons, ih, flushStep_fst, hf]

theorem flushSteps_queue (l : List Arrival) (acc : Manager × List String × List String) :
    (l.foldl flushStep acc).1.queue = acc.1.queue :=
  flushSteps_field Manager.queue receive_queue l acc

theorem flushSteps_lastTicket (l : List Arrival) (acc : Manager × List String × List String) :
    (l.foldl flushStep acc).1.lastTicket = acc.1.lastTicket :=
  flushSteps_field Manager.lastTicket receive_lastTicket l acc

theorem flushSteps_lookup (l : List Arrival) (acc : Manager × List String × List String) {k : String} {t : Nat}
    (h : (l.foldl flushStep acc).1.wanted.lookup k = some t) : acc.1.wanted.lookup k = some t := by
  induction l generalizing acc with
  | nil => exact h
  | cons a l ih =>
    have hstep := ih (flushStep acc a) h
    rw [flushStep_fst] at hstep
    exact receive_lookup acc.1 a hstep

theorem flushSteps_lookup_none (l : List Arrival) (acc : Manager × List String × List String) {k : String}
    (h : acc.1.wanted.lookup k = none) : (l.foldl flushStep acc).1.wanted.lookup k = none := by
  cases hk : (l.foldl flushStep acc).1.wanted.lookup k with
  | none => rfl
  | some t =>
    rw [flushSteps_lookup l acc hk] at h
    cases h

theorem flushSteps_mem_cache (l : List Arrival) (acc : Manager × List String × List String)
    {e : LruEntry String PackedBuffer} (he : e ∈ (l.foldl flushStep acc).1.cache.entries) :
    e ∈ acc.1.cache.entries ∨ ∃ a ∈ l, a.key = e.key ∧ acc.1.wanted.lookup a.key = some a.ticket ∧
      a.delivery.accepted = some e.value := by
  induction l generalizing acc with
  | nil => exact .inl he
  | cons a l ih =>
    rcases ih (flushStep acc a) he with hstep | ⟨a', ha', hkey, hticket, hacc⟩
    · rw [flushStep_fst] at hstep
      rcases receive_mem_cache acc.1 a hstep with hold | ⟨hkey, hticket, hacc⟩
      · exact .inl hold
      · exact .inr ⟨a, List.mem_cons_self .., hkey.symm, hticket, hacc⟩
    · rw [flushStep_fst] at hticket
      exact .inr ⟨a', List.mem_cons_of_mem _ ha', hkey, receive_lookup acc.1 a hticket, hacc⟩

theorem flushSteps_failed (l : List Arrival) (acc : Manager × List String × List String) {a : Arrival}
    (ha : a ∈ l) (hticket : acc.1.wanted.lookup a.key = some a.ticket) (hnone : a.delivery.accepted = none) :
    (l.foldl flushStep acc).1.wanted.lookup a.key = none := by
  induction l generalizing acc with
  | nil => cases ha
  | cons b l ih =>
    rw [List.foldl_cons]
    rcases List.mem_cons.mp ha with rfl | ha
    · apply flushSteps_lookup_none
      rw [flushStep_fst]
      exact receive_failed acc.1 a hticket hnone
    · -- an earlier arrival of the pass may already have left the key unwanted
      cases hb : (flushStep acc b).1.wanted.lookup a.key with
      | none => exact flushSteps_lookup_none l _ hb
      | some t =>
        have hbefore := receive_lookup acc.1 b (by rw [← flushStep_fst]; exact hb)
        rw [hticket, Option.some_inj] at hbefore
        subst hbefore
        exact ih _ ha hb

/-- Every arrival whose ticket is stale when the pass starts is counted as dropped: wanted
tickets only go away, so it is still stale at its turn. -/
theorem flushSteps_dropped (l : List Arrival) (acc : Manager × List String × List String) :
    acc.1.dropped + (l.filter fun a => acc.1.wanted.lookup a.key != some a.ticket).length ≤
      (l.foldl flushStep acc).1.dropped := by
  induction l generalizing acc with
  | nil => simp
  | cons a l ih =>
    have hrest := ih (flushStep acc a)
    have hstill : (l.filter fun a' => acc.1.wanted.lookup a'.key != some a'.ticket).length ≤
        (l.filter fun a' => (flushStep acc a).1.wanted.lookup a'.key != some a'.ticket).length := by
      refine (List.monotone_filter_right l fun a' hstale => ?_).length_le
      simp only [bne_iff_ne, ne_eq] at hstale ⊢
      exact fun hnow => hstale (receive_lookup acc.1 a (by rw [← flushStep_fst]; exact hnow))
    have hdrop := receive_dropped acc.1 a
    rw [← flushStep_fst] at hdrop
    rw [List.foldl_cons, List.filter_cons]
    split <;> rename_i hstale <;> simp only [bne_iff_ne, ne_eq] at hstale
    · rw [if_neg hstale] at hdrop
      simp only [List.length_cons]
      omega
    · rw [if_pos (not_not.mp hstale)] at hdrop
      omega

end FlushSteps

theorem flush_filter_keys (evicted : List String) (x y : String × Nat) (hxy : x.1 = y.1) :
    (fun (k, _) => !evicted.contains k : String × Nat → Bool) x =
      (fun (k, _) => !evicted.contains k : String × Nat → Bool) y := by
  obtain ⟨k, t⟩ := x
  obtain ⟨k', t'⟩ := y
  dsimp only at hxy
  subst hxy
  rfl

theorem flush_queue (m : Manager) : m.flush.1.queue = [] := by
  rw [flush_fst]
  exact flushSteps_queue _ _

theorem flush_lastTicket (m : Manager) : m.flush.1.lastTicket = m.lastTicket := by
  rw [flush_fst]
  exact flushSteps_lastTicket _ _

theorem flush_lookup {m : Manager} {k : String} {t : Nat} (h : m.flush.1.wanted.lookup k = some t) :
    m.wanted.lookup k = some t := by
  rw [flush_fst] at h
  exact flushSteps_lookup _ _ (lookup_of_lookup_filter (flush_filter_keys _) h)

/-- A flush caches a chunk only from an arrival of its queue that carries the wanted ticket of
its key and a chunk whose layout checks. -/
theorem flush_mem_cache {m : Manager} {e : LruEntry String PackedBuffer} (he : e ∈ m.flush.1.cache.entries) :
    e ∈ m.cache.entries ∨ ∃ a ∈ m.queue, a.key = e.key ∧ m.wanted.lookup a.key = some a.ticket ∧
      a.delivery.accepted = some e.value := by
  rw [flush_fst] at he
  exact flushSteps_mem_cache _ _ he

theorem flush_dropped (m : Manager) :
    m.dropped + (m.queue.filter fun a => m.wanted.lookup a.key != some a.ticket).length ≤ m.flush.1.dropped := by
  rw [flush_fst]
  exact flushSteps_dropped m.queue ({ m with queue := [] }, [], [])

/-- After a flush, the key of a queued arrival that carried its wanted ticket but no chunk that
checks is no longer wanted. -/
theorem flush_failed {m : Manager} {a : Arrival} (ha : a ∈ m.queue) (hticket : m.wanted.lookup a.key = some a.ticket)
    (hnone : a.delivery.accepted = none) : m.flush.1.wanted.lookup a.key = none := by
  rw [flush_fst]
  dsimp only
  rw [lookup_filter_key (flush_filter_keys _),
    flushSteps_failed m.queue ({ m with queue := [] }, [], []) ha hticket hnone, ite_self]

/-! ## Runs -/

theorem run_cons (m : Manager) (s : Step) (steps : List Step) : m.run (s :: steps) = (m.step s).run steps := rfl

theorem run_append (m : Manager) (xs ys : List Step) : m.run (xs ++ ys) = (m.run xs).run ys := List.foldl_append

theorem step_lastTicket_le (m : Manager) : ∀ s, m.lastTicket ≤ (m.step s).lastTicket
  | .request keys => request_lastTicket m keys
  | .deliver _ => le_rfl
  | .flush => (flush_lastTicket m).ge

theorem run_lastTicket_le (m : Manager) (steps : List Step) : m.lastTicket ≤ (m.run steps).lastTicket := by
  induction steps generalizing m with
  | nil => exact le_rfl
  | cons s steps ih => exact (step_lastTicket_le m s).trans (ih _)

/-- The tickets a run issues are those after the last one before it, in order, each once. -/
theorem issued_eq_range' (m : Manager) (steps : List Step) :
    issued m steps = List.range' (m.lastTicket + 1) ((m.run steps).lastTicket - m.lastTicket) := by
  induction steps generalizing m with
  | nil => simp [issued, run]
  | cons s steps ih =>
    have hstep := step_lastTicket_le m s
    have hrest := run_lastTicket_le (m.step s) steps
    rw [run_cons]
    cases s with
    | request keys =>
      have hs : m.step (.request keys) = (m.request keys).1 := rfl
      rw [hs] at hstep hrest ⊢
      -- the request's tickets and the rest's are two adjacent runs of numbers
      rw [issued, ih, newTickets_eq, hs,
        show (m.request keys).1.lastTicket + 1 = m.lastTicket + 1 + 1 * ((m.request keys).1.lastTicket - m.lastTicket)
          by omega,
        List.range'_append]
      congr 1
      omega
    | deliver a => rw [issued, ih]; rfl
    | flush => rw [issued, ih, show (m.step .flush).lastTicket = m.lastTicket from flush_lastTicket m]

/-- Each flush examines the arrivals delivered since the flush before it, in delivery order. -/
theorem batches_eq_flushBatches (m : Manager) (steps : List Step) :
    batches m steps = Step.flushBatches m.queue steps := by
  induction steps generalizing m with
  | nil => rfl
  | cons s steps ih =>
    cases s with
    | request keys =>
      rw [batches, ih, Step.flushBatches]
      exact congrArg (Step.flushBatches · steps) (request_queue m keys)
    | deliver a => rw [batches, ih, Step.flushBatches]; rfl
    | flush =>
      rw [batches, ih, Step.flushBatches]
      exact congrArg (m.queue :: Step.flushBatches · steps) (flush_queue m)

/-- No arrival is lost or examined twice: the flushes of a run examine, in order, the queue it
starts with and every arrival it delivers, but those still queued at its end. -/
theorem batches_flatten (m : Manager) (steps : List Step) :
    (batches m steps).flatten ++ (m.run steps).queue = m.queue ++ Step.delivered steps := by
  induction steps generalizing m with
  | nil => simp [batches, run, Step.delivered]
  | cons s steps ih =>
    cases s with
    | request keys =>
      rw [batches, run_cons, ih, Step.delivered]
      exact congrArg (· ++ _) (request_queue m keys)
    | deliver a =>
      rw [batches, run_cons, ih, Step.delivered]
      simp [step, deliver]
    | flush =>
      rw [batches, run_cons, List.flatten_cons, List.append_assoc, ih, Step.delivered]
      simp [step, flush_queue]

/-- Every ticket the key `k` is wanted with is above `L`. -/
def TicketAbove (k : String) (L : Nat) (m : Manager) : Prop := ∀ t, m.wanted.lookup k = some t → L < t

/-- A request gives new tickets only above the last one, and arrivals and flushes only take
wanted keys away. -/
theorem TicketAbove.step {k : String} {L : Nat} {m : Manager} (h : TicketAbove k L m) (hL : L ≤ m.lastTicket) :
    ∀ s, TicketAbove k L (m.step s)
  | .request _ => fun t ht => (request_lookup ht).elim (h t) (lt_of_le_of_lt hL)
  | .deliver _ => h
  | .flush => fun t ht => h t (flush_lookup ht)

theorem TicketAbove.run {k : String} {L : Nat} {m : Manager} (h : TicketAbove k L m) (hL : L ≤ m.lastTicket)
    (steps : List Step) : TicketAbove k L (m.run steps) := by
  induction steps generalizing m with
  | nil => exact h
  | cons s steps ih => exact ih (h.step hL s) (hL.trans (step_lastTicket_le m s))

/-- Once a request leaves a key unwanted, the key is never again wanted with a ticket issued
before that request. -/
theorem unwanted_stays_fresh {m : Manager} {keys : List String} {k : String}
    (hnone : (m.request keys).1.wanted.lookup k = none) (steps : List Step) :
    TicketAbove k m.lastTicket (((m.request keys).1).run steps) := by
  refine TicketAbove.run (fun t ht => ?_) (request_lastTicket m keys) steps
  rw [hnone] at ht
  cases ht

/-! ## Every run -/

/-- Over every run of calls from a new manager, and the flush that follows it: the tickets
issued strictly increase; the flushes examined exactly the arrivals delivered since the flush
before each, in delivery order, none lost and none twice; the flush caches a chunk only from a
queued arrival carrying the wanted ticket of its key and a chunk that checks, counts every
stale arrival as dropped, and leaves unwanted the key of an arrival with the wanted ticket but
no such chunk, so that asking for it again gives a fresh ticket; and once a request of the run
has left a key unwanted, the flush caches no chunk for the key from an arrival for a ticket
issued before that request. -/
theorem run_tickets_and_arrivals (capacity : Int) (rc : Option Controller) (steps : List Step) :
    let m := (make capacity rc).run steps
    (issued (make capacity rc) steps).Pairwise (· < ·) ∧
    batches (make capacity rc) steps = Step.flushBatches [] steps ∧
    (batches (make capacity rc) steps).flatten ++ m.queue = Step.delivered steps ∧
    (∀ e ∈ m.flush.1.cache.entries, e ∈ m.cache.entries ∨
      ∃ a ∈ m.queue, a.key = e.key ∧ m.wanted.lookup a.key = some a.ticket ∧ a.delivery.accepted = some e.value) ∧
    m.dropped + (m.queue.filter fun a => m.wanted.lookup a.key != some a.ticket).length ≤ m.flush.1.dropped ∧
    (∀ a ∈ m.queue, m.wanted.lookup a.key = some a.ticket → a.delivery.accepted = none →
      m.flush.1.wanted.lookup a.key = none ∧
        ∀ keys, a.key ∈ keys → ∃ t, (m.flush.1.request keys).1.wanted.lookup a.key = some t ∧ m.lastTicket < t) ∧
    ∀ pre keys mid k, steps = pre ++ .request keys :: mid →
      (((make capacity rc).run pre).request keys).1.wanted.lookup k = none →
      ∀ e ∈ m.flush.1.cache.entries, e.key = k → e ∈ m.cache.entries ∨
        ∃ a ∈ m.queue, a.key = k ∧ a.ticket ∉ issued (make capacity rc) pre ∧ a.delivery.accepted = some e.value := by
  intro m
  have hfirst : (make capacity rc).lastTicket = 0 := rfl
  refine ⟨?_, batches_eq_flushBatches _ _, (batches_flatten _ _).trans (List.nil_append _),
    fun e he => flush_mem_cache he, flush_dropped m, ?_, ?_⟩
  · rw [issued_eq_range']
    exact List.pairwise_lt_range'
  · intro a ha hticket hnone
    have hgone := flush_failed ha hticket hnone
    refine ⟨hgone, fun keys hk => ?_⟩
    obtain ⟨t, ht, hfresh⟩ := request_fresh_ticket m.flush.1 hk hgone
    rw [flush_lastTicket] at hfresh
    exact ⟨t, ht, hfresh⟩
  · intro pre keys mid k hsteps hnone e he hkey
    rcases flush_mem_cache he with hold | ⟨a, ha, hakey, hticket, hacc⟩
    · exact .inl hold
    · refine .inr ⟨a, ha, hakey.trans hkey, ?_, hacc⟩
      -- the run goes on from the request that left the key unwanted
      have hm : m = (((make capacity rc).run pre).request keys).1.run mid := by
        rw [show m = (make capacity rc).run steps from rfl, hsteps, run_append, run_cons]
        rfl
      rw [hm, hakey, hkey] at hticket
      have habove := unwanted_stays_fresh hnone mid a.ticket hticket
      rw [issued_eq_range', List.mem_range'_1]
      omega

/-- A failed fetch is retried under a fresh ticket, and an arrival for the old one is dropped. -/
example : let m := (make 0 none).run [.request ["a"], .deliver ⟨"a", 1, .failed "io"⟩, .flush,
      .request ["a"], .deliver ⟨"a", 1, .nothing⟩, .flush]
    m.wanted = [("a", 2)] ∧ m.dropped = 1 := by
  decide +kernel

end Manager

end AnnotationStore.Chunk
