/-!
# Log levels and sinks

Records carry one of four levels, ordered by number: debug (-4), info (0), warn (4) and
error (8). A sink writes the records at or above its threshold; the discarding sink
writes none.
-/

namespace AnnotationStore.Log

inductive Level where
  | debug
  | info
  | warn
  | error
  deriving DecidableEq, Repr

namespace Level

/-- All levels, from lowest. -/
def all : List Level := [.debug, .info, .warn, .error]

def number : Level → Int
  | .debug => -4
  | .info => 0
  | .warn => 4
  | .error => 8

def name : Level → String
  | .debug => "DEBUG"
  | .info => "INFO"
  | .warn => "WARN"
  | .error => "ERROR"

end Level

inductive Sink where
  /-- Writes records at or above a threshold. -/
  | threshold (least : Int)
  | discard
  deriving DecidableEq, Repr

/-- Whether a sink writes records of a level. -/
def Sink.enabled : Sink → Level → Bool
  | .threshold least, l => decide (least ≤ l.number)
  | .discard, _ => false

end AnnotationStore.Log
