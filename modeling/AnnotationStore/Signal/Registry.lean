/-!
# Signal registries

A signal keeps its handlers in registration order, each under the token that `add` gave
it. Handlers are data here: what running one does is up to whoever dispatches.

A dispatch works on the handlers registered when it starts, and before running each one
checks that its token is still live, so a handler removed during the dispatch is skipped if
it has not run yet, and one added during it waits for the next dispatch. Disposing a token
twice does nothing the second time.
-/

namespace AnnotationStore

/-- Registered handlers under their tokens, and the tokens disposed so far. -/
structure Registry (α : Type) where
  handlers : List (Nat × α) := []
  disposed : List Nat := []
  nextToken : Nat := 0

namespace Registry

variable {α : Type}

/-- Registers a handler; gives its token. -/
def add (r : Registry α) (h : α) : Nat × Registry α :=
  (r.nextToken, { r with handlers := r.handlers ++ [(r.nextToken, h)], nextToken := r.nextToken + 1 })

/-- Whether a token's handler may still run. -/
def live (r : Registry α) (t : Nat) : Bool := !r.disposed.contains t

def dispose (r : Registry α) (t : Nat) : Registry α :=
  if r.live t then
    { r with handlers := r.handlers.filter (·.1 != t), disposed := t :: r.disposed }
  else r

def len (r : Registry α) : Nat := r.handlers.length

section Dispatch

variable {σ : Type} (reg : σ → Registry α) (run : α → σ → σ)

/-- Runs the handlers of `hs` in order on a state holding the registry (`reg` reads it),
each through `run` on the state the ones before it left, skipping those whose token is no
longer live when their turn comes. Gives the state after them and the tokens of those that
ran, in order. -/
def fire : List (Nat × α) → σ → σ × List Nat
  | [], s => (s, [])
  | (t, h) :: rest, s =>
    if (reg s).live t then
      let after := fire rest (run h s)
      (after.1, t :: after.2)
    else fire rest s

/-- A dispatch: fires the handlers registered when it starts. -/
def dispatch (s : σ) : σ × List Nat := fire reg run (reg s).handlers s

end Dispatch

end Registry

end AnnotationStore
