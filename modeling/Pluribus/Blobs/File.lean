import Pluribus.Blobs.Memory

namespace Pluribus.Blobs

open Lib Pluribus.Core

structure PreviousWrite where
  offset : Nat
  length : Nat
  digest : Bytes
deriving DecidableEq

structure FileUpload where
  file : Bytes
  mediaType : String
  expectedSize : Option Nat
  size : Nat
  previousWrite : Option PreviousWrite
deriving DecidableEq

/-- The open uploads, the published files by their path, and the references checked so far. -/
structure FileBlobs where
  nextUpload : Nat
  uploads : Map BlobUploadId FileUpload
  objects : Map String Bytes
  verified : List BlobRef
deriving DecidableEq

def FileBlobs.empty : FileBlobs := ⟨0, .empty, .empty, []⟩

def fileId (n : Nat) : BlobUploadId := "file-upload-" ++ n.repr

def objectPath (digest : String) : String :=
  String.ofList (digest.toList.take 2) ++ "/" ++ String.ofList (digest.toList.drop 2)

def FileUpload.write (sha256 : Sha256) (upload : FileUpload) (limit offset : Nat) (bytes : Bytes) :
    Except BlobError (Nat × FileUpload) :=
  let digest := sha256 bytes
  if offset ≠ upload.size then
    if upload.previousWrite = some ⟨offset, bytes.length, digest⟩ then .ok (upload.size, upload)
    else .error (.conflict upload.size offset)
  else if u64Max < bytes.length then .error (.storage "out of range integral type conversion attempted")
  else
    let next := upload.size + bytes.length
    if u64Max < next then .error (.resourceExhausted "blob size exceeds u64")
    else if limit < next ∨ upload.expectedSize.any (· < next) then
      .error (.resourceExhausted "write exceeds declared or configured blob size")
    else .ok (next, { upload with
      file := upload.file ++ bytes
      size := next
      previousWrite := some ⟨offset, bytes.length, digest⟩ })

namespace FileBlobStore

variable (sha256 : Sha256) (maxBlobBytes : Nat)

def beginPut (s : FileBlobs) (mediaType : String) (expectedSize : Option Nat) : Answer × FileBlobs :=
  match validateMediaType mediaType with
  | .error error => (.error error, s)
  | .ok () =>
    if expectedSize.any (maxBlobBytes < ·) then
      (.error (.resourceExhausted "expected size exceeds blob limit"), s)
    else if s.nextUpload = u64Max then (.error (.storage "upload identifier exhausted"), s)
    else
      let id := fileId (s.nextUpload + 1)
      (.ok (.upload id), { s with
        nextUpload := s.nextUpload + 1
        uploads := s.uploads.insert id ⟨[], mediaType, expectedSize, 0, none⟩ })

def write (s : FileBlobs) (id : BlobUploadId) (offset : Nat) (bytes : Bytes) : Answer × FileBlobs :=
  match s.uploads.find id with
  | none => (.error .notFound, s)
  | some upload =>
    match upload.write sha256 maxBlobBytes offset bytes with
    | .error error => (.error error, s)
    | .ok (next, upload) => (.ok (.offset next), { s with uploads := s.uploads.insert id upload })

def verifyFile (s : FileBlobs) (blob : BlobRef) (path : String) : Except BlobError FileBlobs :=
  if s.verified.contains blob then .ok s
  else
    match s.objects.find path with
    | none => .error .notFound
    | some file =>
      if file.length ≠ blob.size ∨ sha256Hex sha256 file ≠ blob.digest then .error mismatch
      else .ok { s with verified := s.verified.insert blob }

/-- A published file is never replaced: one that is there already is checked instead. -/
def publish (s : FileBlobs) (file : Bytes) (blob : BlobRef) : Except BlobError FileBlobs :=
  let destination := objectPath blob.digest
  match s.objects.find destination with
  | none => .ok { s with objects := s.objects.insert destination file }
  | some _ => verifyFile sha256 s blob destination

def finishPut (s : FileBlobs) (id : BlobUploadId) : Answer × FileBlobs :=
  match s.uploads.find id with
  | none => (.error .notFound, s)
  | some upload =>
    let s := { s with uploads := s.uploads.erase id }
    match upload.expectedSize.filter (· ≠ upload.size) with
    | some expected => (.error (expectedBytes expected upload.size), s)
    | none =>
      let blob := ⟨sha256Algorithm, sha256Hex sha256 upload.file, upload.size, upload.mediaType⟩
      match publish sha256 s upload.file blob with
      | .error error => (.error error, s)
      | .ok s => (.ok (.blob blob), { s with verified := s.verified.insert blob })

def abortPut (s : FileBlobs) (id : BlobUploadId) : Answer × FileBlobs :=
  (.ok .done, { s with uploads := s.uploads.erase id })

def readFile (file : Bytes) (blob : BlobRef) (offset maxBytes : Nat) : BlobChunk :=
  let bytes := (file.drop offset).take (min maxBytes (blob.size - offset))
  ⟨bytes, offset + bytes.length = blob.size⟩

def read (s : FileBlobs) (blob : BlobRef) (offset maxBytes : Nat) : Answer × FileBlobs :=
  match validateBlobRef blob with
  | .error error => (.error error, s)
  | .ok () =>
    if blob.size < offset then (.error (.invalid "offset exceeds blob size"), s)
    else
      match verifyFile sha256 s blob (objectPath blob.digest) with
      | .error error => (.error error, s)
      | .ok s =>
        match s.objects.find (objectPath blob.digest) with
        | none => (.error (.storage "No such file or directory (os error 2)"), s)
        | some file => (.ok (.chunk (readFile file blob offset maxBytes)), s)

def serve : Service FileBlobs Call Answer
  | s, .beginPut mediaType expectedSize => beginPut maxBlobBytes s mediaType expectedSize
  | s, .write id offset bytes => write sha256 maxBlobBytes s id offset bytes
  | s, .finishPut id => finishPut sha256 s id
  | s, .abortPut id => abortPut s id
  | s, .read blob offset maxBytes => read sha256 s blob offset maxBytes

end FileBlobStore

end Pluribus.Blobs
