import Pluribus.Core.Delivery
import Pluribus.Lib.Map
import Pluribus.Lib.Service

namespace Pluribus.Blobs

open Lib Pluribus.Core

abbrev BlobUploadId := String

structure BlobChunk where
  bytes : Bytes
  eof : Bool
deriving DecidableEq, Repr

inductive Call where
  | beginPut (mediaType : String) (expectedSize : Option Nat)
  | write (upload : BlobUploadId) (offset : Nat) (bytes : Bytes)
  | finishPut (upload : BlobUploadId)
  | abortPut (upload : BlobUploadId)
  | read (blob : BlobRef) (offset maxBytes : Nat)
deriving DecidableEq, Repr

inductive Value where
  | upload (id : BlobUploadId)
  | offset (next : Nat)
  | blob (ref : BlobRef)
  | chunk (chunk : BlobChunk)
  | done
deriving DecidableEq, Repr

abbrev Answer := Except BlobError Value

abbrev Sha256 := Bytes → Bytes

def hexDigit (n : Nat) : Char := if n < 10 then Char.ofNat (48 + n) else Char.ofNat (87 + n)

def hex (bytes : Bytes) : String :=
  String.ofList (bytes.flatMap fun byte => [hexDigit (byte.toNat / 16), hexDigit (byte.toNat % 16)])

def sha256Hex (sha256 : Sha256) (bytes : Bytes) : String := hex (sha256 bytes)

def expectedBytes (expected size : Nat) : BlobError :=
  .invalid ("expected " ++ expected.repr ++ " bytes, received " ++ size.repr)

def mismatch : BlobError := .corrupt "reference does not match stored bytes"

structure MemoryUpload where
  mediaType : String
  expectedSize : Option Nat
  bytes : Bytes
  previousWrite : Option (Nat × Bytes)
deriving DecidableEq

structure MemoryBlobs where
  nextUpload : Nat
  uploads : Map BlobUploadId MemoryUpload
  blobs : Map String Bytes
deriving DecidableEq

def MemoryBlobs.empty : MemoryBlobs := ⟨0, .empty, .empty⟩

def memoryId (n : Nat) : BlobUploadId := "memory-upload-" ++ n.repr

def MemoryUpload.write (upload : MemoryUpload) (maxBlobBytes offset : Nat) (bytes : Bytes) :
    Except BlobError (Nat × MemoryUpload) :=
  let current := upload.bytes.length
  if offset ≠ current then
    if upload.previousWrite = some (offset, bytes) then .ok (current, upload)
    else .error (.conflict current offset)
  else if u64Max < bytes.length then .error (.resourceExhausted "chunk size exceeds u64")
  else
    let next := current + bytes.length
    if u64Max < next then .error (.resourceExhausted "blob size exceeds u64")
    else if maxBlobBytes < next ∨ upload.expectedSize.any (· < next) then
      .error (.resourceExhausted "write exceeds declared or configured blob size")
    else .ok (next, { upload with bytes := upload.bytes ++ bytes, previousWrite := some (offset, bytes) })

namespace InMemoryBlobStore

variable (sha256 : Sha256) (maxBlobBytes : Nat)

def beginPut (s : MemoryBlobs) (mediaType : String) (expectedSize : Option Nat) : Answer × MemoryBlobs :=
  match validateMediaType mediaType with
  | .error error => (.error error, s)
  | .ok () =>
    if expectedSize.any (maxBlobBytes < ·) then
      (.error (.resourceExhausted "expected size exceeds blob limit"), s)
    else if s.nextUpload = u64Max then (.error (.storage "upload identifier exhausted"), s)
    else
      let id := memoryId (s.nextUpload + 1)
      (.ok (.upload id), { s with
        nextUpload := s.nextUpload + 1
        uploads := s.uploads.insert id ⟨mediaType, expectedSize, [], none⟩ })

def write (s : MemoryBlobs) (id : BlobUploadId) (offset : Nat) (bytes : Bytes) : Answer × MemoryBlobs :=
  match s.uploads.find id with
  | none => (.error .notFound, s)
  | some upload =>
    match upload.write maxBlobBytes offset bytes with
    | .error error => (.error error, s)
    | .ok (next, upload) => (.ok (.offset next), { s with uploads := s.uploads.insert id upload })

def finishPut (s : MemoryBlobs) (id : BlobUploadId) : Answer × MemoryBlobs :=
  match s.uploads.find id with
  | none => (.error .notFound, s)
  | some upload =>
    let s := { s with uploads := s.uploads.erase id }
    let size := upload.bytes.length
    match upload.expectedSize.filter (· ≠ size) with
    | some expected => (.error (expectedBytes expected size), s)
    | none =>
      let digest := sha256Hex sha256 upload.bytes
      (.ok (.blob ⟨sha256Algorithm, digest, size, upload.mediaType⟩),
        if s.blobs.contains digest then s else { s with blobs := s.blobs.insert digest upload.bytes })

def abortPut (s : MemoryBlobs) (id : BlobUploadId) : Answer × MemoryBlobs :=
  (.ok .done, { s with uploads := s.uploads.erase id })

def chunkOf (bytes : Bytes) (offset maxBytes : Nat) : Except BlobError Value :=
  if bytes.length < offset then .error (.invalid "offset exceeds blob size")
  else
    let finish := min (offset + maxBytes) bytes.length
    .ok (.chunk ⟨(bytes.drop offset).take (finish - offset), finish = bytes.length⟩)

def read (s : MemoryBlobs) (blob : BlobRef) (offset maxBytes : Nat) : Answer :=
  match validateBlobRef blob with
  | .error error => .error error
  | .ok () =>
    match s.blobs.find blob.digest with
    | none => .error .notFound
    | some bytes =>
      if bytes.length ≠ blob.size ∨ sha256Hex sha256 bytes ≠ blob.digest then .error mismatch
      else chunkOf bytes offset maxBytes

def serve : Service MemoryBlobs Call Answer
  | s, .beginPut mediaType expectedSize => beginPut maxBlobBytes s mediaType expectedSize
  | s, .write id offset bytes => write maxBlobBytes s id offset bytes
  | s, .finishPut id => finishPut sha256 s id
  | s, .abortPut id => abortPut s id
  | s, .read blob offset maxBytes => (read sha256 s blob offset maxBytes, s)

end InMemoryBlobStore

end Pluribus.Blobs
