import AnnotationStore.Service.Request
import AnnotationStore.Service.Answer
import AnnotationStore.Signal.Registry
/-!
# The signal program

A scripted run of one signal of strings. Handlers are named; firing one records
`name:value` and then performs its actions, which may dispose the latest handler of a
name, add a handler, or dispatch again from inside the handler.
-/

namespace AnnotationStore.Service

open Read

/-- What a handler does when it fires, after recording itself. -/
inductive HandlerAction where
  | dispose (name : String)
  | add (name : String)
  | dispatch (value : String)

structure NamedHandler where
  name : String
  actions : List HandlerAction := []

/-- The signal and the latest token of each name. -/
structure SignalRun where
  registry : Registry NamedHandler := {}
  latest : List (String × Nat) := []

/-- Adds a handler, remembering its token under its name. -/
def SignalRun.add (r : SignalRun) (h : NamedHandler) : SignalRun :=
  let (t, reg) := r.registry.add h
  { registry := reg, latest := (h.name, t) :: r.latest.filter (·.1 != h.name) }

/-- Disposes the latest handler of a name. -/
def SignalRun.dispose (r : SignalRun) (name : String) : SignalRun :=
  match r.latest.lookup name with
  | some t => { r with registry := r.registry.dispose t }
  | none => r

/-- Performs a handler's actions, dispatching through `dispatch`. -/
def SignalRun.perform (dispatch : String → SignalRun → SignalRun × List String) :
    List HandlerAction → SignalRun → SignalRun × List String
  | [], r => (r, [])
  | a :: rest, r =>
    let (r, fired) := match a with
      | .dispose n => (r.dispose n, [])
      | .add n => (r.add ⟨n, []⟩, [])
      | .dispatch w => dispatch w r
    let (r, later) := SignalRun.perform dispatch rest r
    (r, fired ++ later)

/-- What firing a handler does to the run and to what fired so far: it records itself and
performs its actions. -/
def SignalRun.fireOne (dispatch : String → SignalRun → SignalRun × List String) (v : String)
    (h : NamedHandler) (s : SignalRun × List String) : SignalRun × List String :=
  let (r, inner) := SignalRun.perform dispatch h.actions s.1
  (r, s.2 ++ (h.name ++ ":" ++ v) :: inner)

/-- Dispatches a value to the handlers registered now; `fuel` bounds nested dispatches.
Gives the run after it and what fired, in order. -/
def SignalRun.dispatch : Nat → String → SignalRun → SignalRun × List String
  | 0, _, r => (r, [])
  | fuel + 1, v, r =>
    (Registry.dispatch (·.1.registry) (SignalRun.fireOne (SignalRun.dispatch fuel) v) (r, [])).1

def actionOf (a : Json) : HandlerAction :=
  match text a "do" with
  | "dispose" => .dispose (text a "name")
  | "add" => .add (text a "name")
  | _ => .dispatch (text a "value")

/-- The bound on nested dispatches: one more than the number of handlers added so far.
Only handlers a step added have actions, and each nested dispatch is started by a running
one, so a dispatch nested deeper has some handler running inside itself. -/
def dispatchDepth (r : SignalRun) : Nat := r.registry.nextToken + 1

def signalSteps : List Json → SignalRun → List Json
  | [], _ => []
  | s :: rest, r =>
    let (r, fired) := match text s "do" with
      | "add" => (r.add ⟨text s "name", (items s "on_fire").map actionOf⟩, [])
      | "dispose" => (r.dispose (text s "name"), [])
      | "dispatch" => r.dispatch (dispatchDepth r) (text s "value")
      | _ => (r, [])
    .obj [("fired", .arr (fired.map Json.str)), ("len", Write.nat r.registry.len)] ::
      signalSteps rest r

def signalAnswer (j : Json) : Json := .obj [("steps", .arr (signalSteps (items j "steps") {}))]

end AnnotationStore.Service
