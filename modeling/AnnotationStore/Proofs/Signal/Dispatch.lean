import Mathlib
import AnnotationStore.Service.Signals
import AnnotationStore.Proofs.Segment.Forest
/-!
# Dispatch under re-entrancy

The handlers of a signal may add handlers, dispose tokens and dispatch again while a
dispatch runs. Whatever they do, it reaches the registry as a sequence of `Call`s, adds and
disposals of tokens handed out earlier (`CallsOnly`). Under that assumption alone this
module shows:

* after any calls on a new registry, the registered handlers are those added and not
  disposed, in order of addition (`callAll_handlers`);
* a dispatch runs a sub-list of the handlers registered when it started, in their order and
  each once, none added after it started, and it runs a handler just when the handler's
  token is live at its turn, in the state the handlers before it left (`fire_turn`);
* a dispatch's own effect on the registry is again a sequence of calls, so nested and later
  dispatches are covered by the same statements.

The main statement is `Registry.dispatch_fires_live_snapshot`. Its witness runs the scripted
handlers of the signal program, whose actions are calls of this kind (`fireOne_callsOnly`).
-/

namespace AnnotationStore

namespace Registry

variable {α : Type}

/-- A call on a registry: adding a handler, or disposing the handler of a token. -/
inductive Call (α : Type) where
  | add (h : α)
  | dispose (t : Nat)

def call (r : Registry α) : Call α → Registry α
  | .add h => (r.add h).2
  | .dispose t => r.dispose t

def callAll (r : Registry α) (cs : List (Call α)) : Registry α := cs.foldl call r

/-- Calls that dispose only tokens handed out before them: a token is only ever obtained by
adding a handler. -/
def ValidFrom : Registry α → List (Call α) → Prop
  | _, [] => True
  | r, .add h :: cs => ValidFrom (r.call (.add h)) cs
  | r, .dispose t :: cs => t < r.nextToken ∧ ValidFrom (r.call (.dispose t)) cs

/-- The handlers calls add, under the tokens they get when tokens count from `n`. -/
def added : Nat → List (Call α) → List (Nat × α)
  | _, [] => []
  | n, .add h :: cs => (n, h) :: added (n + 1) cs
  | n, .dispose _ :: cs => added n cs

def disposedBy : List (Call α) → List Nat
  | [] => []
  | .add _ :: cs => disposedBy cs
  | .dispose t :: cs => t :: disposedBy cs

/-- The handlers calls on a new registry added and did not dispose, in order of addition. -/
def registered (cs : List (Call α)) : List (Nat × α) :=
  (added 0 cs).filter fun e => !(disposedBy cs).contains e.1

/-- The registries calls keep: tokens ascend in the list and lie below the next token, no
registered token is disposed, and every disposed token was handed out. -/
structure WellFormed (r : Registry α) : Prop where
  ascending : (r.handlers.map (·.1)).Pairwise (· < ·)
  below : ∀ e ∈ r.handlers, e.1 < r.nextToken
  live_of_mem : ∀ e ∈ r.handlers, r.live e.1 = true
  disposed_below : ∀ t ∈ r.disposed, t < r.nextToken

@[simp] theorem live_iff {r : Registry α} {t : Nat} : r.live t = true ↔ t ∉ r.disposed := by
  simp [live]

theorem wellFormed_empty : ({} : Registry α).WellFormed where
  ascending := List.Pairwise.nil
  below := by simp
  live_of_mem := by simp
  disposed_below := by simp

/-! ## Calls -/

variable {r : Registry α} {cs : List (Call α)}

theorem callAll_cons (c : Call α) (cs : List (Call α)) :
    r.callAll (c :: cs) = (r.call c).callAll cs := rfl

theorem callAll_append (cs cs' : List (Call α)) :
    r.callAll (cs ++ cs') = (r.callAll cs).callAll cs' := List.foldl_append

theorem validFrom_append : ∀ (r : Registry α) (cs cs' : List (Call α)),
    ValidFrom r (cs ++ cs') ↔ ValidFrom r cs ∧ ValidFrom (r.callAll cs) cs'
  | r, [], cs' => by simp [ValidFrom, callAll]
  | r, .add h :: cs, cs' => by
    simp only [List.cons_append, ValidFrom, callAll_cons]
    exact validFrom_append _ cs cs'
  | r, .dispose t :: cs, cs' => by
    simp only [List.cons_append, ValidFrom, callAll_cons, and_assoc]
    rw [validFrom_append _ cs cs']

theorem le_of_mem_added {e : Nat × α} {n : Nat} {cs : List (Call α)} (he : e ∈ added n cs) :
    n ≤ e.1 := by
  induction cs generalizing n with
  | nil => simp [added] at he
  | cons c cs ih =>
    cases c with
    | add h =>
      rcases List.mem_cons.mp he with rfl | he
      · exact Nat.le_refl _
      · exact Nat.le_of_succ_le (ih he)
    | dispose t => exact ih he

theorem WellFormed.add (hw : r.WellFormed) (h : α) : (r.call (.add h)).WellFormed where
  ascending := by
    simp only [call, Registry.add, List.map_append, List.map_cons, List.map_nil]
    refine List.pairwise_append.mpr ⟨hw.ascending, List.pairwise_singleton _ _, ?_⟩
    intro a ha b hb
    obtain ⟨e, he, rfl⟩ := List.mem_map.mp ha
    simp only [List.mem_singleton] at hb
    exact hb ▸ hw.below e he
  below e he := by
    simp only [call, Registry.add, List.mem_append, List.mem_singleton] at he ⊢
    rcases he with he | rfl
    · exact Nat.lt_succ_of_lt (hw.below e he)
    · exact Nat.lt_succ_self _
  live_of_mem e he := by
    simp only [call, Registry.add, List.mem_append, List.mem_singleton] at he
    rcases he with he | rfl
    · exact hw.live_of_mem e he
    · exact (live_iff).mpr fun hmem => Nat.lt_irrefl _ (hw.disposed_below _ hmem)
  disposed_below t ht := Nat.lt_succ_of_lt (hw.disposed_below t ht)

theorem WellFormed.dispose (hw : r.WellFormed) {t : Nat} (ht : t < r.nextToken) :
    (r.call (.dispose t)).WellFormed := by
  simp only [call, Registry.dispose]
  split
  · exact {
      ascending := hw.ascending.sublist (List.filter_sublist.map _)
      below := fun e he => hw.below e (List.mem_of_mem_filter he)
      live_of_mem := fun e he => by
        have hne : e.1 ≠ t := by simpa using (List.mem_filter.mp he).2
        have hlive := live_iff.mp (hw.live_of_mem e (List.mem_of_mem_filter he))
        simp only [live_iff, List.mem_cons, not_or]
        exact ⟨hne, hlive⟩
      disposed_below := fun t' ht' => by
        rcases List.mem_cons.mp ht' with rfl | ht'
        · exact ht
        · exact hw.disposed_below t' ht' }
  · exact hw

/-- Calls handed only tokens they may name keep the list exactly the handlers there before
and the handlers the calls added, less those the calls disposed, in that order. -/
theorem callAll_handlers : ∀ (r : Registry α) (cs : List (Call α)), r.WellFormed → ValidFrom r cs →
    (r.callAll cs).WellFormed ∧ r.nextToken ≤ (r.callAll cs).nextToken ∧
    (r.callAll cs).handlers =
      (r.handlers ++ added r.nextToken cs).filter fun e => !(disposedBy cs).contains e.1
  | r, [], hw, _ => by
    refine ⟨hw, Nat.le_refl _, ?_⟩
    simp [callAll, added, disposedBy]
  | r, .add h :: cs, hw, hv => by
    obtain ⟨hw', hle, heq⟩ := callAll_handlers _ cs (hw.add h) hv
    refine ⟨hw', Nat.le_of_succ_le hle, ?_⟩
    rw [callAll_cons, heq]
    simp [call, Registry.add, added, disposedBy]
  | r, .dispose t :: cs, hw, hv => by
    obtain ⟨ht, hv⟩ := hv
    obtain ⟨hw', hle, heq⟩ := callAll_handlers _ cs (hw.dispose ht) hv
    have hnext : (r.call (.dispose t)).nextToken = r.nextToken := by
      simp only [call, Registry.dispose]
      split <;> rfl
    -- a token that is not live has no handler left, so disposing filters in either case
    have hkeep : (r.call (.dispose t)).handlers = r.handlers.filter fun e => e.1 != t := by
      simp only [call, Registry.dispose]
      split
      · rfl
      · rename_i hlive
        refine (List.filter_eq_self.mpr fun e he => ?_).symm
        have := hw.live_of_mem e he
        simp only [bne_iff_ne, ne_eq]
        rintro rfl
        simp_all
    refine ⟨hw', hnext ▸ hle, ?_⟩
    rw [callAll_cons, heq, hnext, hkeep]
    simp only [disposedBy, List.filter_append, List.filter_filter]
    congr 1
    · apply List.filter_congr
      intro e _
      simp only [List.contains_cons, Bool.not_or]
      grind
    · -- the handlers the later calls add all come after `t`
      apply List.filter_congr
      intro e he
      have := le_of_mem_added he
      simp only [List.contains_cons, Bool.not_or]
      grind

/-- After calls on a new registry the registered handlers are those added and not disposed,
in order of addition. -/
theorem handlers_callAll_empty (hv : ValidFrom {} cs) :
    (({} : Registry α).callAll cs).handlers = registered cs := by
  simpa [registered] using (callAll_handlers {} cs wellFormed_empty hv).2.2

/-! ## Dispatch -/

section Dispatch

variable {σ : Type} (reg : σ → Registry α) (run : α → σ → σ) (P : σ → Prop)

/-- Handlers that touch the registry only through calls: from a state where `P` holds, a
handler's run keeps `P` and changes the registry by a sequence of calls naming only tokens
handed out. Nested dispatches included, a signal's handlers can do no more than this. -/
structure CallsOnly : Prop where
  keeps : ∀ h s, P s → P (run h s)
  calls : ∀ h s, P s → ∃ cs, ValidFrom (reg s) cs ∧ reg (run h s) = (reg s).callAll cs

variable {reg run P}

/-- Firing a list of handlers is itself a sequence of calls on the registry. -/
theorem fire_calls (hrun : CallsOnly reg run P) : ∀ (hs : List (Nat × α)) (s : σ), P s →
    P (fire reg run hs s).1 ∧
      ∃ cs, ValidFrom (reg s) cs ∧ reg (fire reg run hs s).1 = (reg s).callAll cs
  | [], s, hP => ⟨hP, [], trivial, rfl⟩
  | (t, h) :: rest, s, hP => by
    simp only [fire]
    split
    · obtain ⟨cs, hv, heq⟩ := hrun.calls h s hP
      obtain ⟨hP', cs', hv', heq'⟩ := fire_calls hrun rest (run h s) (hrun.keeps h s hP)
      refine ⟨hP', cs ++ cs', (validFrom_append _ _ _).mpr ⟨hv, heq ▸ hv'⟩, ?_⟩
      rw [heq', heq, callAll_append]
    · exact fire_calls hrun rest s hP

/-- A dispatch runs handlers of its list only, in their order. -/
theorem fire_sublist : ∀ (hs : List (Nat × α)) (s : σ),
    (fire reg run hs s).2.Sublist (hs.map (·.1))
  | [], _ => List.Sublist.slnil
  | (t, h) :: rest, s => by
    simp only [fire, List.map_cons]
    split
    · exact (fire_sublist rest (run h s)).cons_cons t
    · exact (fire_sublist rest s).cons t

/-- A dispatch runs a handler of its list just when the handler's token is live at its turn,
in the state the handlers before it left. -/
theorem fire_turn : ∀ (hs : List (Nat × α)) (s : σ), (hs.map (·.1)).Nodup →
    ∀ t h, (t, h) ∈ hs →
      (t ∈ (fire reg run hs s).2 ↔ (reg (fire reg run (hs.takeWhile (·.1 != t)) s).1).live t)
  | [], _, _, _, _, hmem => by simp at hmem
  | (t', h') :: rest, s, hnodup, t, h, hmem => by
    simp only [List.map_cons, List.nodup_cons, List.mem_map] at hnodup
    by_cases htt : t' = t
    · -- the handler's own turn: the state is the one the dispatch started from
      subst htt
      have hnot : t' ∉ (fire reg run rest (run h' s)).2 ∧ t' ∉ (fire reg run rest s).2 := by
        constructor <;> intro hin <;>
          exact hnodup.1 (List.mem_map.mp ((fire_sublist rest _).subset hin))
      simp only [List.takeWhile_cons, bne_self_eq_false, fire]
      split <;> simp_all [fire]
    · -- a later turn: the first handler has had its turn
      have hmem' : (t, h) ∈ rest := by
        rcases List.mem_cons.mp hmem with heq | hmem'
        · exact absurd (congrArg Prod.fst heq).symm htt
        · exact hmem'
      have hne : (t' != t) = true := bne_iff_ne.mpr htt
      rw [List.takeWhile_cons, if_pos hne]
      simp only [fire]
      split
      · simp only [List.mem_cons, Ne.symm htt, false_or]
        exact fire_turn rest _ hnodup.2 t h hmem'
      · exact fire_turn rest _ hnodup.2 t h hmem'

/-- A dispatch on a registry that calls made, with handlers that only make calls, runs a
sub-list of the registered handlers in registration order, each at most once, a handler just
when its token is still live at its turn, and leaves a registry that calls made again.
Handlers added while it runs are not in its list, and the registered handlers are always
those added and not disposed, counted by `len`. -/
theorem dispatch_fires_live_snapshot (hrun : CallsOnly reg run P) {s : σ} (hP : P s)
    {cs : List (Call α)} (hv : ValidFrom {} cs) (hs : reg s = ({} : Registry α).callAll cs) :
    (reg s).handlers = registered cs ∧ (reg s).len = (registered cs).length ∧
    (dispatch reg run s).2.Sublist ((registered cs).map (·.1)) ∧
    (dispatch reg run s).2.Nodup ∧
    (∀ t h, (t, h) ∈ registered cs →
      (t ∈ (dispatch reg run s).2 ↔
        (reg (fire reg run ((registered cs).takeWhile (·.1 != t)) s).1).live t)) ∧
    ∃ cs', ValidFrom {} (cs ++ cs') ∧
      reg (dispatch reg run s).1 = ({} : Registry α).callAll (cs ++ cs') ∧ P (dispatch reg run s).1 := by
  have hwf : (reg s).WellFormed := hs ▸ (callAll_handlers {} cs wellFormed_empty hv).1
  have hreg : (reg s).handlers = registered cs := hs ▸ handlers_callAll_empty hv
  have hnodup : ((registered cs).map (·.1)).Nodup :=
    hreg ▸ hwf.ascending.imp Nat.ne_of_lt
  have hsub : (dispatch reg run s).2.Sublist ((registered cs).map (·.1)) :=
    hreg ▸ fire_sublist (reg s).handlers s
  obtain ⟨hP', cs', hv', heq⟩ := fire_calls hrun (reg s).handlers s hP
  refine ⟨hreg, congrArg List.length hreg, hsub, hsub.nodup hnodup, ?_, cs', ?_, ?_, hP'⟩
  · intro t h hmem
    have := @fire_turn _ _ reg run (registered cs) s hnodup t h hmem
    rwa [dispatch, hreg]
  · exact (validFrom_append _ _ _).mpr ⟨hv, hs ▸ hv'⟩
  · rw [callAll_append, ← hs]
    exact heq

end Dispatch

end Registry

/-! ## The signal program's handlers -/

namespace Service

open Registry

/-- Every token the run remembers under a name was handed out by its registry. -/
def SignalRun.Issued (r : SignalRun) : Prop := ∀ e ∈ r.latest, e.2 < r.registry.nextToken

/-- `r'` keeps remembered tokens handed out, and its registry comes from that of `r` by calls. -/
def SignalRun.Reaches (r r' : SignalRun) : Prop :=
  r'.Issued ∧ ∃ cs, ValidFrom r.registry cs ∧ r'.registry = r.registry.callAll cs

namespace SignalRun

theorem reaches_refl {r : SignalRun} (hr : r.Issued) : r.Reaches r := ⟨hr, [], trivial, rfl⟩

theorem Reaches.trans {r r' r'' : SignalRun} (h₁ : r.Reaches r') (h₂ : r'.Reaches r'') :
    r.Reaches r'' := by
  obtain ⟨-, cs, hv, heq⟩ := h₁
  obtain ⟨hi, cs', hv', heq'⟩ := h₂
  refine ⟨hi, cs ++ cs', (validFrom_append _ _ _).mpr ⟨hv, heq ▸ hv'⟩, ?_⟩
  rw [heq', heq, callAll_append]

theorem reaches_add {r : SignalRun} (hr : r.Issued) (h : NamedHandler) : r.Reaches (r.add h) := by
  refine ⟨?_, [.add h], trivial, rfl⟩
  intro e he
  simp only [SignalRun.add, Registry.add, List.mem_cons, List.mem_filter] at he ⊢
  rcases he with rfl | ⟨he, -⟩
  · exact Nat.lt_succ_self _
  · exact Nat.lt_succ_of_lt (hr e he)

theorem reaches_dispose {r : SignalRun} (hr : r.Issued) (n : String) :
    r.Reaches (r.dispose n) := by
  unfold SignalRun.dispose
  split
  · rename_i t ht
    have hlt : t < r.registry.nextToken := hr (n, t) (mem_of_lookup_eq_some ht)
    refine ⟨fun e he => ?_, [.dispose t], ⟨hlt, trivial⟩, rfl⟩
    -- disposing keeps the next token
    have := hr e he
    simp only [Registry.dispose]
    split <;> exact this
  · exact reaches_refl hr

/-- A handler's actions are calls, given that its nested dispatches are. -/
theorem reaches_perform {d : String → SignalRun → SignalRun × List String}
    (hd : ∀ w (r : SignalRun), r.Issued → r.Reaches (d w r).1) :
    ∀ (as : List HandlerAction) (r : SignalRun), r.Issued → r.Reaches (perform d as r).1
  | [], _, hr => reaches_refl hr
  | .dispose n :: rest, _, hr =>
    have h₁ := reaches_dispose hr n
    h₁.trans (reaches_perform hd rest _ h₁.1)
  | .add n :: rest, _, hr =>
    have h₁ := reaches_add hr ⟨n, []⟩
    h₁.trans (reaches_perform hd rest _ h₁.1)
  | .dispatch w :: rest, r, hr =>
    have h₁ := hd w r hr
    h₁.trans (reaches_perform hd rest _ h₁.1)

theorem fireOne_callsOnly_of {d : String → SignalRun → SignalRun × List String}
    (hd : ∀ w (r : SignalRun), r.Issued → r.Reaches (d w r).1) (v : String) :
    CallsOnly (fun s : SignalRun × List String => s.1.registry) (fireOne d v) (·.1.Issued) where
  keeps h s hs := (reaches_perform hd h.actions s.1 hs).1
  calls h s hs := (reaches_perform hd h.actions s.1 hs).2

/-- A dispatch of the signal program, nested ones included, changes its registry by calls.
The induction is on the nesting bound: the handlers of a dispatch dispatch with one less. -/
theorem reaches_dispatch : ∀ (fuel : Nat) (w : String) (r : SignalRun), r.Issued →
    r.Reaches (SignalRun.dispatch fuel w r).1
  | 0, _, _, hr => reaches_refl hr
  | fuel + 1, w, r, hr =>
    fire_calls (fireOne_callsOnly_of (reaches_dispatch fuel) w) _ (r, []) hr

/-- The scripted handlers of the signal program only make calls on its registry. -/
theorem fireOne_callsOnly (fuel : Nat) (v : String) :
    CallsOnly (fun s : SignalRun × List String => s.1.registry) (fireOne (SignalRun.dispatch fuel) v)
      (·.1.Issued) :=
  fireOne_callsOnly_of (reaches_dispatch fuel) v

end SignalRun

/-- Two scripted handlers, the first of which disposes the second when it fires. -/
def disposingPair : SignalRun := (SignalRun.add {} ⟨"a", [.dispose "b"]⟩).add ⟨"b", []⟩

def disposingPairCalls : List (Call NamedHandler) := [.add ⟨"a", [.dispose "b"]⟩, .add ⟨"b", []⟩]

theorem dispatch_fires_live_snapshot_disposingPair :
    CallsOnly (·.1.registry) (SignalRun.fireOne (SignalRun.dispatch 1) "x") (·.1.Issued) ∧
    disposingPair.Issued ∧ ValidFrom {} disposingPairCalls ∧
    disposingPair.registry = ({} : Registry NamedHandler).callAll disposingPairCalls ∧
    disposingPair.registry.handlers = registered disposingPairCalls ∧
    disposingPair.registry.len = (registered disposingPairCalls).length ∧
    (dispatch (·.1.registry) (SignalRun.fireOne (SignalRun.dispatch 1) "x") (disposingPair, [])).2.Sublist
      ((registered disposingPairCalls).map (·.1)) ∧
    (dispatch (·.1.registry) (SignalRun.fireOne (SignalRun.dispatch 1) "x") (disposingPair, [])).2.Nodup ∧
    (∀ t h, (t, h) ∈ registered disposingPairCalls →
      (t ∈ (dispatch (·.1.registry) (SignalRun.fireOne (SignalRun.dispatch 1) "x") (disposingPair, [])).2 ↔
        (fire (·.1.registry) (SignalRun.fireOne (SignalRun.dispatch 1) "x")
          ((registered disposingPairCalls).takeWhile (·.1 != t)) (disposingPair, [])).1.1.registry.live t)) ∧
    ∃ cs', ValidFrom {} (disposingPairCalls ++ cs') ∧
      (dispatch (·.1.registry) (SignalRun.fireOne (SignalRun.dispatch 1) "x") (disposingPair, [])).1.1.registry =
        ({} : Registry NamedHandler).callAll (disposingPairCalls ++ cs') ∧
      (dispatch (·.1.registry) (SignalRun.fireOne (SignalRun.dispatch 1) "x") (disposingPair, [])).1.1.Issued := by
  have hrun := SignalRun.fireOne_callsOnly 1 "x"
  have hP : disposingPair.Issued := by
    unfold SignalRun.Issued
    decide
  have hv : ValidFrom {} disposingPairCalls := trivial
  have hs : disposingPair.registry = ({} : Registry NamedHandler).callAll disposingPairCalls := rfl
  exact ⟨hrun, hP, hv, hs, dispatch_fires_live_snapshot hrun (s := (disposingPair, [])) hP hv hs⟩

-- the first handler fires and disposes the second before its turn
example : (dispatch (·.1.registry) (SignalRun.fireOne (SignalRun.dispatch 1) "x")
    (disposingPair, [])).1.2 = ["a:x"] := by decide

end Service

end AnnotationStore
