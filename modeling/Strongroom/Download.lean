import Strongroom.Service.Basic
import Strongroom.Stream.Decoder

/-! # Downloads

A download reads a blob through a buffer and serves its plaintext in pieces. It
ends cleanly only if the stream is whole and as long as the record of the file
says. The blob is looked up when the download starts and read when the first
piece is asked for.
-/

namespace Strongroom

structure Download where
  record : FileRecord
  /-- The most bytes of one piece. -/
  chunkSize : Nat
  decoder : Stream.Decoder (Stream.Buffered Stream.Source)
  opened : Bool := false
  served : Nat := 0
  finished : Bool := false

/-- Bytes that a buffer can have room for at all. -/
def maxBuffer : Nat := 0x7FFFFFFFFFFFFFFF

namespace Download

def ofSource (record : FileRecord) (key : DataKey) (config : TransferConfig)
    (source : Stream.Source) : Download where
  record := record
  chunkSize := config.downloadChunkSize
  decoder := .create key ⟨config.readBufferSize, [], source⟩

/-- The next piece of plaintext, or nothing at the end, and the download after
    it. -/
def advance (download : Download) : Except Error (Option Bytes) × Download :=
  if download.finished then (.ok none, download)
  else
    match download.decoder.read download.chunkSize with
    | (.error e, decoder) => (.error e, { download with decoder })
    | (.ok (some piece), decoder) =>
      (.ok (some piece), { download with decoder, served := download.served + piece.length })
    | (.ok none, decoder) =>
      if download.served = download.record.fileSize then
        (.ok none, { download with decoder, finished := true })
      else
        (.error (Stream.Fault.lengthMismatch download.served download.record.fileSize).toError,
          { download with decoder })

/-- Start a download of a file that a user may read. -/
def start (service : Service) (id : FileId) (user : UserId) :
    Script (Except Halt Download × Service) := do
  match service.ownedRecord id user with
  | .error e => return (.error (.failed e), service)
  | .ok record =>
    match service.keyOf record.owner with
    | .error e => return (.error (.failed e), service)
    | .ok key =>
      let service := service.note .get record.blobName
      match ← service.blobs.find record.blobName with
      | .error (.notFound what) =>
        return (.error (.failed (.storage s!"{what} missing for file {id}")), service)
      | .error e => return (.error (.failed e), service)
      | .ok () =>
        if maxBuffer < service.config.readBufferSize then return (.error .panicked, service)
        else return (.ok (ofSource record key service.config []), service)

def load (service : Service) (download : Download) : Script Download := do
  if download.opened then return download
  else
    let piece ← match ← service.blobs.read download.record.blobName with
      | .ok data => pure (Stream.Piece.data data)
      | .error text => pure (Stream.Piece.fault text)
    let reader := { download.decoder.reader with inner := [piece] }
    return { download with opened := true, decoder := { download.decoder with reader } }

/-- Serve the next piece of plaintext, or nothing at the end. -/
def next (service : Service) (download : Download) :
    Script (Except Error (Option Bytes) × Download) := do
  return (← download.load service).advance

/-- Serve pieces until the end or the first error. Every piece spends one unit
    of `fuel`. -/
def piecesFor :
    (fuel : Nat) → Download → List Bytes → List Bytes × Except Error Unit × Download
  | 0, download, done => (done.reverse, .ok (), download)
  | fuel + 1, download, done =>
    match download.advance with
    | (.ok (some piece), download) => piecesFor fuel download (piece :: done)
    | (.ok none, download) => (done.reverse, .ok (), download)
    | (.error e, download) => (done.reverse, .error e, download)

/-- A bound on how many pieces can be asked for: there are no more of them than
    bytes to come. -/
def bound (download : Download) : Nat :=
  download.decoder.ready.length + Stream.ByteReader.left download.decoder.reader + 2

def pieces (service : Service) (download : Download) :
    Script (List Bytes × Except Error Unit × Download) := do
  let download ← download.load service
  return download.piecesFor download.bound []

end Download

end Strongroom
