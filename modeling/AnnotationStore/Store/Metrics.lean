import AnnotationStore.Number.Power
/-!
# Operation metrics

The store reports each add, update, delete, packing and restore to a collector. Three
collectors exist: one that keeps nothing, a basic one of plain counts, and a labelled one
that counts operations by name and outcome, records the sizes of packed buffers in a
histogram, and adds up restored and skipped entries.

Durations are clock readings and are not modelled.
-/

namespace AnnotationStore

/-- Plain counts of operations. -/
structure BasicMetrics where
  addCount : Nat := 0
  addErrors : Nat := 0
  updateCount : Nat := 0
  updateErrors : Nat := 0
  deleteCount : Nat := 0
  deleteErrors : Nat := 0
  serializeCount : Nat := 0
  serializeBytes : Nat := 0
  restoreCount : Nat := 0
  restoreErrors : Nat := 0
  restoredEntries : Nat := 0
  skippedEntries : Nat := 0

/-- Labelled counts of operations. -/
structure LabelledMetrics where
  /-- Operations by name and outcome (`success` or `error`), in first-seen order. -/
  operations : List ((String × String) × Nat) := []
  /-- The byte sizes of packed buffers, in order. -/
  serialized : List Nat := []
  /-- Restored and skipped entries, once a restore was reported. -/
  restored : Option (Nat × Nat) := none

inductive Metrics where
  | none
  | basic (m : BasicMetrics)
  | labelled (m : LabelledMetrics)

namespace LabelledMetrics

def observe (m : LabelledMetrics) (op : String) (ok : Bool) : LabelledMetrics :=
  let key := (op, if ok then "success" else "error")
  match m.operations.lookup key with
  | some n => { m with operations := m.operations.map fun (k, v) => if k == key then (k, n + 1) else (k, v) }
  | none => { m with operations := m.operations ++ [(key, 1)] }

/-- The upper bounds of the packed-size histogram: 64 times the powers of four. -/
def bounds : List Nat := (List.range 12).map fun i => 64 * 4 ^ i

end LabelledMetrics

namespace Metrics

def recordAdd (m : Metrics) (ok : Bool) : Metrics :=
  match m with
  | .none => .none
  | .basic b => .basic { b with addCount := b.addCount + 1,
                                addErrors := b.addErrors + if ok then 0 else 1 }
  | .labelled l => .labelled (l.observe "add" ok)

def recordUpdate (m : Metrics) (ok : Bool) : Metrics :=
  match m with
  | .none => .none
  | .basic b => .basic { b with updateCount := b.updateCount + 1,
                                updateErrors := b.updateErrors + if ok then 0 else 1 }
  | .labelled l => .labelled (l.observe "update" ok)

/-- Reports a delete; deletes do not fail. -/
def recordDelete (m : Metrics) : Metrics :=
  match m with
  | .none => .none
  | .basic b => .basic { b with deleteCount := b.deleteCount + 1 }
  | .labelled l => .labelled (l.observe "delete" true)

/-- Reports a packing of `bytes` bytes. -/
def recordSerialize (m : Metrics) (bytes : Nat) : Metrics :=
  match m with
  | .none => .none
  | .basic b => .basic { b with serializeCount := b.serializeCount + 1,
                                serializeBytes := b.serializeBytes + bytes }
  | .labelled l => .labelled { l.observe "serialize" true with serialized := l.serialized ++ [bytes] }

/-- Reports a restore; a failed one has no entries. -/
def recordRestore (m : Metrics) (restored skipped : Nat) (ok : Bool) : Metrics :=
  match m with
  | .none => .none
  | .basic b =>
    if ok then .basic { b with restoreCount := b.restoreCount + 1,
                               restoredEntries := b.restoredEntries + restored,
                               skippedEntries := b.skippedEntries + skipped }
    else .basic { b with restoreCount := b.restoreCount + 1, restoreErrors := b.restoreErrors + 1 }
  | .labelled l =>
    let (r, k) := l.restored.getD (0, 0)
    .labelled { l.observe "restore" ok with restored := some (r + restored, k + skipped) }

end Metrics

end AnnotationStore
