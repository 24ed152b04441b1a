import Axo.Data.OtherWriters
import Axo.Data.StreamRequests
import Axo.Wire.StateRoundTrip

/-!
# Data for functions

`dataio.py`, at the side of a function, and `resolve_io_request` of `core/dataio/protocol.py`, at an
endpoint that has a data registry over a file system.

* `answerIoRequest` answers one request;
* `channelRequest` is a request of a function, before which others may do something;
* `writeChunks` and `iterChunks` are made of these.
-/

namespace Axo

open FileStore

/-! ### The requests -/

/-- What a function asks for; others are refused. -/
inductive IoOp
  | read
  | write
  | chunkStatus
  | readChunk
  | openStream
  | appendChunk
  | finalizeStream
  | other (op : String)

/-- `IORef`, with the chunk index. -/
structure ChunkRef extends IORef where
  chunkIndex : Option ℤ := none

/-- The `UnknownIORefKindError` of a kind without a backend. -/
def unknownRefKindError (kind : String) : AxoError :=
  { code := 7002
    name := "UNKNOWN_IO_REF_KIND"
    message := "no storage backend for kind=" ++ reprStr kind
    context := [("kind", .str kind)] }

/-- The `IONotFoundError` of a location without a blob. -/
def blobNotFoundError (ref : IORef) : AxoError :=
  { code := 7005
    name := "IO_NOT_FOUND"
    message := "no blob at " ++ reprStr ref.location
    context := [("location", .str ref.location), ("kind", .str ref.kind)] }

/-- The `IONotFoundError` of a dataset that is not registered. -/
def datasetNotFoundError (key : RecordKey) : AxoError :=
  { code := 7005
    name := "IO_NOT_FOUND"
    message := key.combined ++ " is not registered"
    context := DataRegistry.keyContext key }

/-- The `UnknownIOOpError` of `read_chunk`. -/
def chunkIndexMissingError (ref : IORef) : AxoError :=
  { code := 7001
    name := "UNKNOWN_IO_OP"
    message := "read_chunk requires ref.chunk_index"
    context := [("location", .str ref.location)] }

/-- The `UnknownIOOpError` of any other operation. -/
def unknownOpError (op : String) : AxoError :=
  { code := 7001
    name := "UNKNOWN_IO_OP"
    message := "unknown io op " ++ reprStr op
    context := [("op", .str op)] }

/-- The data of `open_stream`, as `write_chunks` sends it. -/
def streamDocument (chunkBytes : ℤ) : Value := .dict [("chunk_bytes", .int chunkBytes)]

/-- The answer to `chunk_status`. -/
def statusDocument (totalChunks chunkBytes : ℤ) : Value :=
  .dict [("total_chunks", .int totalChunks), ("chunk_bytes", .int chunkBytes)]

/-- What a request leaves, and its result; there is none when an exception is raised. -/
structure FileHandled where
  store : FileStore
  events : List DataEvent := []
  result : Option (Except AxoError (List UInt8))

section Requests

variable (json : JsonLib) (floats : PyFloats) (B : DataBackends) (s : FileStore)

/-- A request that leaves the files alone. -/
def ofRegistry (handled : IoHandled) : FileHandled where
  store := { s with registry := handled.store }
  events := handled.events
  result := handled.result

/-- The answer to a request that changes nothing. -/
def answered (ref : IORef) : Except DataFailure (List UInt8) → FileHandled
  | .ok data => { store := s, result := some (.ok data) }
  | .error (.err err) => { store := s, result := some (.error (wrapError err ref)) }
  | .error (.raised _) => { store := s, result := none }

/-- The dataset that a reference names, if it is registered. -/
def registeredKey (ref : IORef) : Option RecordKey :=
  (parseRegisteredRef ref.location).filter fun key => (s.registry.catalog.lookup key).isSome

/-- `_read`. -/
def readRequest (ref : IORef) : FileHandled :=
  match registeredKey s ref with
  | some key => answered s ref (s.readWhole B key)
  | none =>
    if ref.kind ∈ B.kinds then
      match s.files.get ref.location with
      | .ok none => { store := s, result := some (.error (blobNotFoundError ref)) }
      | .ok (some data) => { store := s, result := some (.ok data) }
      | .error e => answered s ref (.error e)
    else { store := s, result := some (.error (unknownRefKindError ref.kind)) }

/-- `_write`. -/
def writeRequest (ref : IORef) (data : List UInt8) : FileHandled :=
  if ref.kind ∈ B.kinds then
    match s.files.put ref.location data with
    | .ok files => { store := { s with files := files }, result := some (.ok []) }
    | .error e => answered s ref (.error e)
  else { store := s, result := some (.error (unknownRefKindError ref.kind)) }

/-- `_chunk_status`. -/
def chunkStatusRequest (ref : IORef) : FileHandled :=
  match parseRegisteredRef ref.location with
  | none => { store := s, result := some (.error (unparsedRefError ref)) }
  | some key =>
    match s.status B key with
    | .error _ => { store := s, result := none }
    | .ok (s, st) =>
      if st.registered then
        { store := s
          result := some (.ok (utf8Encode (json.dumps (statusDocument st.totalChunks
            st.chunkBytes)))) }
      else { store := s, result := some (.error (datasetNotFoundError key)) }

/-- `_read_chunk`. -/
def readChunkRequest (ref : ChunkRef) : FileHandled :=
  match ref.chunkIndex with
  | none => { store := s, result := some (.error (chunkIndexMissingError ref.toIORef)) }
  | some index =>
    match parseRegisteredRef ref.location with
    | none => { store := s, result := some (.error (unparsedRefError ref.toIORef)) }
    | some key => answered s ref.toIORef (s.readChunk B key index)

/-- The number in the data of `open_stream`. -/
def saidChunkBytes (data : Frame) : Except PyException ℤ := do
  match json.loads (← decodeText data) with
  | .malformed _ => .error .valueError
  | .raised e => .error e
  | .value v => floats.intOf (← v.getItem "chunk_bytes" (.int defaultChunkBytes))

/-- The `chunk_bytes` of `_open_stream`; not every exception is caught. -/
def streamChunkBytes (data : Frame) : Except PyException ℤ :=
  if data = [] then .ok defaultChunkBytes
  else
    match saidChunkBytes json floats data with
    | .ok chunkBytes => .ok chunkBytes
    | .error e =>
      if e ∈ [.unicodeDecodeError, .valueError, .typeError] then .ok defaultChunkBytes
      else .error e

/-- `_open_stream`; a reference that names no dataset is refused before the data is read. -/
def openStreamRequest (ref : IORef) (data : Frame) (now : ℚ) : FileHandled :=
  if parseRegisteredRef ref.location = none then
    ofRegistry s (resolveIoRequest B s.registry (.openStream none) ref now)
  else
    match streamChunkBytes json floats data with
    | .error _ => { store := s, result := none }
    | .ok chunkBytes =>
      ofRegistry s (resolveIoRequest B s.registry (.openStream (some chunkBytes)) ref now)

/-- `_append_chunk`. -/
def appendChunkRequest (ref : IORef) (data : List UInt8) : FileHandled :=
  match parseRegisteredRef ref.location with
  | none => { store := s, result := some (.error (unparsedRefError ref)) }
  | some key =>
    match s.appendChunk B key data with
    | .error e => answered s ref (.error e)
    | .ok (s, index) => { store := s, result := some (.ok index.repr.toUTF8.toList) }

/-- `resolve_io_request`. -/
def answerIoRequest (op : IoOp) (ref : ChunkRef) (data : Option Frame) (now : ℚ) : FileHandled :=
  match op with
  | .read => readRequest B s ref.toIORef
  | .write => writeRequest B s ref.toIORef (data.getD [])
  | .chunkStatus => chunkStatusRequest json B s ref.toIORef
  | .readChunk => readChunkRequest B s ref
  | .openStream => openStreamRequest json floats B s ref.toIORef (data.getD []) now
  | .appendChunk => appendChunkRequest B s ref.toIORef (data.getD [])
  | .finalizeStream =>
    ofRegistry s (resolveIoRequest B s.registry .finalizeStream ref.toIORef now)
  | .other op => { store := s, result := some (.error (unknownOpError op)) }

end Requests

/-! ### The function's side -/

/-- How a call of `dataio` fails: the request is refused, nobody answers it because of an exception
at the endpoint, or the answer cannot be read. -/
inductive IoException
  | refused (error : AxoError)
  | unanswered
  | raised (e : PyException)

/-- What surrounds the requests of a function: what others do before each of them, and the time at
each. -/
structure IoWorld where
  acts : ℕ → List OtherAct
  now : ℕ → ℚ

/-- The registry, and the number of requests so far. -/
structure Served where
  store : FileStore
  count : ℕ := 0

/-- The digits of an integer that `str` takes. -/
def Printable (n : ℤ) : Prop := n.natAbs.repr.length ≤ 4300

instance : DecidablePred Printable := fun _ => inferInstanceAs (Decidable (_ ≤ _))

section Function

variable (json : JsonLib) (floats : PyFloats) (B : DataBackends) (world : IoWorld)

/-- The registry when the next request comes. -/
def Served.met (c : Served) : FileStore := (world.acts c.count).foldl (performOther B) c.store

/-- `channel.request`. -/
def channelRequest (op : IoOp) (ref : ChunkRef) (data : Option Frame) (c : Served) :
    Except IoException (Frame × Served) :=
  let handled := answerIoRequest json floats B (c.met B world) op ref data (world.now c.count)
  match handled.result with
  | none => .error .unanswered
  | some (.error e) => .error (.refused e)
  | some (.ok answer) => .ok (answer, { store := handled.store, count := c.count + 1 })

/-- The location `f"{name}/{version}"`. -/
def streamLocation (key : RecordKey) : String := key.id ++ "/" ++ key.version.repr

/-- The reference that `write_chunks` makes up. -/
def streamRef (key : RecordKey) (kind format : String) : ChunkRef where
  kind := kind
  location := streamLocation key
  format := format

/-- The loop of `write_chunks`. -/
def appendChunks (ref : ChunkRef) : List Frame → Served → Except IoException Served
  | [], c => .ok c
  | chunk :: chunks, c => do
    let (_, c) ← channelRequest json floats B world .appendChunk ref (some chunk) c
    appendChunks ref chunks c

/-- `write_chunks`; a version with too many digits has no text. -/
def writeChunks (key : RecordKey) (chunks : List Frame) (format kind : String) (chunkBytes : ℤ)
    (c : Served) : Except IoException (ChunkRef × Served) :=
  if Printable key.version then do
    let ref := streamRef key kind format
    let document := utf8Encode (json.dumps (streamDocument chunkBytes))
    let (_, c) ← channelRequest json floats B world .openStream ref (some document) c
    let c ← appendChunks json floats B world ref chunks c
    let (_, c) ← channelRequest json floats B world .finalizeStream ref none c
    return (ref, c)
  else .error (.raised .valueError)

/-- `json.loads(status_raw.decode("utf-8"))["total_chunks"]`, of which `range` is taken. -/
def totalChunksOf (answer : Frame) : Except PyException ℤ := do
  match json.loads (← decodeText answer) with
  | .malformed _ => .error .valueError
  | .raised e => .error e
  | .value v =>
    match ← v.item "total_chunks" with
    | .int n => .ok n
    | .bool b => .ok b.toInt
    | _ => .error .typeError

/-- The loop of `iter_chunks`, with what it yields. -/
def readChunks (ref : ChunkRef) : List ℕ → Served → Except IoException (List Frame × Served)
  | [], c => .ok ([], c)
  | i :: rest, c => do
    let (chunk, c) ←
      channelRequest json floats B world .readChunk { ref with chunkIndex := some i } none c
    let (chunks, c) ← readChunks ref rest c
    return (chunk :: chunks, c)

/-- `iter_chunks`, read to its end. -/
def iterChunks (ref : ChunkRef) (c : Served) : Except IoException (List Frame × Served) := do
  let (answer, c) ← channelRequest json floats B world .chunkStatus ref none c
  match totalChunksOf json answer with
  | .error e => .error (.raised e)
  | .ok totalChunks => readChunks json floats B world ref (chunkRange totalChunks) c

end Function

end Axo
