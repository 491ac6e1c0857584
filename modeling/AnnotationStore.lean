import AnnotationStore.Number.Power
import AnnotationStore.Bytes.Hex
import AnnotationStore.Bytes.LittleEndian
import AnnotationStore.Bytes.Crc32c
import AnnotationStore.Number.Binary
import AnnotationStore.Number.Shortest
import AnnotationStore.Number.Text
import AnnotationStore.Number.Read
import AnnotationStore.Text.Printable
import AnnotationStore.Text.Quote
import AnnotationStore.Text.Utf8
import AnnotationStore.Json.Basic
import AnnotationStore.Json.Reader
import AnnotationStore.Json.Writer
import AnnotationStore.Json.Codec
import AnnotationStore.Geometry.Vec3
import AnnotationStore.Annotation.Kind
import AnnotationStore.Annotation.Basic
import AnnotationStore.Annotation.Malformed
import AnnotationStore.Annotation.Segment
import AnnotationStore.Annotation.Plain
import AnnotationStore.Annotation.PlainJson
import AnnotationStore.Annotation.Packing
import AnnotationStore.Annotation.Snap
import AnnotationStore.Service.Request
import AnnotationStore.Service.Answer
import AnnotationStore.Annotation.Id
import AnnotationStore.Render.Layout
import AnnotationStore.Service.Shapes
import AnnotationStore.Number.Narrow
import AnnotationStore.Log.Level
import AnnotationStore.Block.Method
import AnnotationStore.Chunk.Key
import AnnotationStore.Service.Buffers
import AnnotationStore.Service.Respond
import AnnotationStore.Buffer.Basic
import AnnotationStore.Buffer.Validate
import AnnotationStore.Buffer.Build
import AnnotationStore.Buffer.Pick
import AnnotationStore.Bytes.Xxh64
import AnnotationStore.Lz4.Block
import AnnotationStore.Lz4.Compress
import AnnotationStore.Zstd.Bits
import AnnotationStore.Zstd.Fse
import AnnotationStore.Zstd.Huffman
import AnnotationStore.Zstd.Literals
import AnnotationStore.Zstd.Sequences
import AnnotationStore.Zstd.Frame
import AnnotationStore.Zstd.Matcher
import AnnotationStore.Zstd.Compress
import AnnotationStore.Block.Framing
import AnnotationStore.Service.Compression
import AnnotationStore.Bytes.Cursor
import AnnotationStore.Chunk.Codec
import AnnotationStore.Service.Chunks
import AnnotationStore.Snapshot.Format
import AnnotationStore.Service.Snapshots
import AnnotationStore.Service.Binary
import AnnotationStore.Resource.Controller
import AnnotationStore.Cache.Lru
import AnnotationStore.Signal.Registry
import AnnotationStore.Service.Caching
import AnnotationStore.Service.Signals
import AnnotationStore.Segment.Visibility
import AnnotationStore.Store.Error
import AnnotationStore.Log.Record
import AnnotationStore.Store.SegmentIndex
import AnnotationStore.Store.SizeRange
import AnnotationStore.Store.Source
import AnnotationStore.Store.Memo
import AnnotationStore.Blob.Store
import AnnotationStore.Snapshot.Manager
import AnnotationStore.Store.Metrics
import AnnotationStore.Store.Facade
import AnnotationStore.Render.Layer
import AnnotationStore.Service.StoreAnswers
import AnnotationStore.Service.Session
import AnnotationStore.Text.Path
import AnnotationStore.Bytes.Base64
import AnnotationStore.Blob.Handle
import AnnotationStore.Blob.Cached
import AnnotationStore.Blob.Remote
import AnnotationStore.Service.Blobs
import AnnotationStore.Random.Source
import AnnotationStore.Random.Draw
import AnnotationStore.Random.Sample
import AnnotationStore.Service.Samples
import AnnotationStore.Chunk.Fetcher
import AnnotationStore.Chunk.Manager
import AnnotationStore.Render.Chunked
import AnnotationStore.Service.Drawing
import AnnotationStore.Service.ChunkFetcher
import AnnotationStore.Service.ChunkViewer
import AnnotationStore.Proofs.SegmentIndex
import AnnotationStore.Proofs.Source.Run
import AnnotationStore.Proofs.Source.Representation
import AnnotationStore.Proofs.Source.References
import AnnotationStore.Proofs.FloatOrder
import AnnotationStore.Proofs.SizeRange
import AnnotationStore.Proofs.Source.Range
import AnnotationStore.Proofs.FailedOperations
import AnnotationStore.Proofs.Buffer.Layout
import AnnotationStore.Proofs.Buffer.Pick
import AnnotationStore.Proofs.Bytes.Read
import AnnotationStore.Proofs.Buffer.Build
import AnnotationStore.Proofs.Buffer.Memo
import AnnotationStore.Proofs.Text.Utf8
import AnnotationStore.Proofs.Snapshot.Format
import AnnotationStore.Proofs.Annotation.Plain
import AnnotationStore.Proofs.Source.Restore
import AnnotationStore.Proofs.Snapshot.Manager
import AnnotationStore.Proofs.Cache.Lru
import AnnotationStore.Proofs.Blob.Cached
import AnnotationStore.Proofs.Cache.Recency
import AnnotationStore.Proofs.Chunk.Manager
import AnnotationStore.Proofs.Chunk.Codec
import AnnotationStore.Proofs.Segment.Forest
import AnnotationStore.Proofs.Segment.Partition
import AnnotationStore.Proofs.Render.Commands
import AnnotationStore.Proofs.Signal.Dispatch
import AnnotationStore.Proofs.Render.Chunks
import AnnotationStore.Proofs.Blob.Remote
import AnnotationStore.Proofs.Annotation.Validation
import AnnotationStore.Proofs.Annotation.RoundTrip
import AnnotationStore.Proofs.Buffer.PickFaults
import AnnotationStore.Proofs.Source.Accounting
import AnnotationStore.Proofs.Buffer.Lookup
import AnnotationStore.Proofs.Buffer.Reading
import AnnotationStore.Proofs.Render.Hover
import AnnotationStore.Proofs.Chunk.Untrusted
import AnnotationStore.Proofs.Segment.Walk
import AnnotationStore.Proofs.Annotation.PolylineParts
