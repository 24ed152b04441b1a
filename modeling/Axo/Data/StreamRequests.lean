import Axo.Data.DataHandlers

/-!
# The io requests of a running function

`core/dataio/protocol.py`: the three requests by which a function writes a dataset, at an endpoint
that has a data registry.

* a reference names a dataset by `name/version`;
* `resolveIoRequest` answers a request.
-/

namespace Axo

/-- `IORef`, without the chunk index that only `read_chunk` reads. -/
structure IORef where
  kind : String
  location : String
  format : String := "raw"

/-- The requests, with their data; `chunkBytes` is what the data of `open_stream` says, if it says
anything that `int` reads. -/
inductive StreamOp
  | openStream (chunkBytes : Option ℤ)
  | appendChunk (data : List UInt8)
  | finalizeStream

/-- `location.rpartition("/")`, without the separator. -/
def rpartitionSlash (location : String) : String × String :=
  if '/' ∈ location.toList then
    let tail := location.toList.reverse.takeWhile (· ≠ '/')
    (String.ofList (location.toList.take (location.toList.length - (tail.length + 1))),
      String.ofList tail.reverse)
  else ("", location)

/-- `int(version_str)`, if `version_str.isdigit()`.  Digits beyond ASCII name no version that ASCII
digits do not; for a `²`, and for more than 4300 digits, which no `str` writes, `int` raises an
exception. -/
def versionOf (versionStr : String) : Option ℤ :=
  if versionStr ≠ "" ∧ versionStr.toList.all Char.isDigit then intOfStr versionStr.toList
  else none

/-- `_parse_registered_ref`. -/
def parseRegisteredRef (location : String) : Option RecordKey :=
  let (name, versionStr) := rpartitionSlash location
  if name = "" then none
  else (versionOf versionStr).map fun version => { id := name, version := version }

example : parseRegisteredRef "b/out/2" = some { id := "b/out", version := 2 } := by decide

/-- `_DEFAULT_CHUNK_BYTES`. -/
def defaultChunkBytes : ℤ := 262144

/-- The error of a reference that names no dataset. -/
def unparsedRefError (ref : IORef) : AxoError :=
  { code := 7002
    name := "UNKNOWN_IO_REF_KIND"
    message := reprStr ref.location ++
      " is not a registered-data ref (expected \"name/version\")"
    context := [("location", .str ref.location)] }

/-- `_wrap_error`. -/
def wrapError (err : AxoError) (ref : IORef) : AxoError :=
  { code := 7006
    name := "IO_BACKEND_ERROR"
    message := err.message
    context := [("location", .str ref.location), ("kind", .str ref.kind)] }

/-- What a request leaves, and its result; there is none when an exception is raised. -/
structure IoHandled where
  store : DataStore
  events : List DataEvent := []
  result : Option (Except AxoError (List UInt8))

/-- The result of a request that fails. -/
def ioFailed (s : DataStore) (ref : IORef) : DataFailure → IoHandled
  | .err err => { store := s, result := some (.error (wrapError err ref)) }
  | .raised _ => { store := s, result := none }

/-- `resolve_io_request`, for the requests that write a dataset. -/
def resolveIoRequest (B : DataBackends) (s : DataStore) (op : StreamOp) (ref : IORef) (now : ℚ) :
    IoHandled :=
  match parseRegisteredRef ref.location with
  | none => { store := s, result := some (.error (unparsedRefError ref)) }
  | some key =>
    match op with
    | .openStream chunkBytes =>
      { store := s.openStream key ref.format ref.kind (chunkBytes.getD defaultChunkBytes)
        result := some (.ok []) }
    | .appendChunk data =>
      match s.appendChunk B key data with
      | .error e => ioFailed s ref e
      | .ok (s, index) => { store := s, result := some (.ok index.repr.toUTF8.toList) }
    | .finalizeStream =>
      match s.finalizeStream B key now with
      | .error e => ioFailed s ref e
      | .ok (s, events, _) => { store := s, events := events, result := some (.ok []) }

variable {B : DataBackends} {s : DataStore} {ref : IORef} {now : ℚ}

theorem store_ioFailed (e : DataFailure) : (ioFailed s ref e).store = s := by
  cases e <;> rfl

/-- `finalize_stream` puts the record of the stream. -/
theorem catalog_finalizeStream {key : RecordKey} {stream : OpenStream}
    (hkey : parseRegisteredRef ref.location = some key)
    (hstream : s.openStreams.lookup key = some stream) :
    (resolveIoRequest B s .finalizeStream ref now).store.catalog =
      s.catalog.insert key (DataStore.streamRecord B key stream now) := by
  simp only [resolveIoRequest, hkey, DataStore.finalizeStream, hstream]
  unfold DataStore.completeUpload
  split_ifs <;> rfl

/-- The catalog does not change otherwise. -/
theorem catalog_resolveIoRequest {op : StreamOp}
    (h : op = .finalizeStream → ∀ key ∈ parseRegisteredRef ref.location,
      s.openStreams.lookup key = none) :
    (resolveIoRequest B s op ref now).store.catalog = s.catalog := by
  unfold resolveIoRequest
  rcases hkey : parseRegisteredRef ref.location with _ | key
  · rfl
  cases op with
  | openStream chunkBytes => rfl
  | appendChunk data =>
    dsimp only
    rcases hstream : s.openStreams.lookup key with _ | stream <;>
      simp only [DataStore.appendChunk, hstream]
    · exact congrArg DataStore.catalog (store_ioFailed _)
    · by_cases hkind : stream.kind ∈ B.kinds
      · rw [if_neg (not_not.2 hkind)]
      · rw [if_pos hkind]
        exact congrArg DataStore.catalog (store_ioFailed _)
  | finalizeStream =>
    simp only [DataStore.finalizeStream, h rfl key hkey]
    exact congrArg DataStore.catalog (store_ioFailed _)

end Axo
