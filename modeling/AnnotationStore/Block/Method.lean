/-!
# Compression methods

A block names its compression method by one byte: 0 none, 1 LZ4, 2 Zstandard. Other bytes
name no method and are written `Type(n)`.
-/

namespace AnnotationStore

inductive Method where
  | none
  | lz4
  | zstd
  deriving DecidableEq, Repr, Inhabited

namespace Method

def code : Method → Nat
  | .none => 0
  | .lz4 => 1
  | .zstd => 2

def ofCode? : Nat → Option Method
  | 0 => some .none
  | 1 => some .lz4
  | 2 => some .zstd
  | _ => Option.none

def nameOf (n : Nat) : String :=
  match ofCode? n with
  | some .none => "none"
  | some .lz4 => "lz4"
  | some .zstd => "zstd"
  | Option.none => "Type(" ++ toString n ++ ")"

def name (m : Method) : String := nameOf m.code

theorem ofCode?_code (m : Method) : ofCode? m.code = some m := by cases m <;> rfl

end Method

end AnnotationStore
