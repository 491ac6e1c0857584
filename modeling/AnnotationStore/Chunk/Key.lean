/-!
# Chunk keys

Chunks are named by text keys: the chunk of a segment is `segment/<id>`, and the chunk of
grid cell `(x, y, z)` at scale level `lod` is `spatial/<lod>/<x>_<y>_<z>`, all in decimal.
-/

namespace AnnotationStore.ChunkKey

def segment (id : UInt64) : String := "segment/" ++ toString id.toNat

def spatial (lod x y z : Int) : String :=
  "spatial/" ++ toString lod ++ "/" ++ toString x ++ "_" ++ toString y ++ "_" ++ toString z

end AnnotationStore.ChunkKey
