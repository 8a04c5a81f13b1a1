import Mathlib.Data.List.Sublists
import Pluribus.Blobs.Faithful
import Pluribus.Blobs.File
import Pluribus.Lib.Results

namespace Pluribus.Blobs

open Lib Pluribus.Core List Option Function

/-- The identifiers of the same upload in the two stores, or identifiers that neither ever gives out. -/
inductive SameId : BlobUploadId → BlobUploadId → Prop where
  | issued (n : Nat) : SameId (memoryId n) (fileId n)
  | unknown {id id' : BlobUploadId} (h : ∀ n, id ≠ memoryId n) (h' : ∀ n, id' ≠ fileId n) : SameId id id'

inductive SameCall : Call → Call → Prop where
  | beginPut (mediaType : String) (expectedSize : Option Nat) :
    SameCall (.beginPut mediaType expectedSize) (.beginPut mediaType expectedSize)
  | write {id id' : BlobUploadId} (h : SameId id id') (offset : Nat) (bytes : Bytes) :
    SameCall (.write id offset bytes) (.write id' offset bytes)
  | finishPut {id id' : BlobUploadId} (h : SameId id id') : SameCall (.finishPut id) (.finishPut id')
  | abortPut {id id' : BlobUploadId} (h : SameId id id') : SameCall (.abortPut id) (.abortPut id')
  | read (blob : BlobRef) (offset maxBytes : Nat) : SameCall (.read blob offset maxBytes) (.read blob offset maxBytes)

/-- The same call refused by both stores, or accepted by both with the same answer. -/
inductive SameEntry : Call × Answer → Call × Answer → Prop where
  | refused {call call' : Call} (h : SameCall call call') (error error' : BlobError) :
    SameEntry (call, .error error) (call', .error error')
  | begun (mediaType : String) (expectedSize : Option Nat) (n : Nat) :
    SameEntry (.beginPut mediaType expectedSize, .ok (.upload (memoryId n)))
      (.beginPut mediaType expectedSize, .ok (.upload (fileId n)))
  | written (n offset : Nat) (bytes : Bytes) (next : Nat) :
    SameEntry (.write (memoryId n) offset bytes, .ok (.offset next)) (.write (fileId n) offset bytes, .ok (.offset next))
  | finished (n : Nat) (ref : BlobRef) :
    SameEntry (.finishPut (memoryId n), .ok (.blob ref)) (.finishPut (fileId n), .ok (.blob ref))
  | aborted {id id' : BlobUploadId} (h : SameId id id') : SameEntry (.abortPut id, .ok .done) (.abortPut id', .ok .done)
  | read (blob : BlobRef) (offset maxBytes : Nat) (chunk : BlobChunk) :
    SameEntry (.read blob offset maxBytes, .ok (.chunk chunk)) (.read blob offset maxBytes, .ok (.chunk chunk))

section Traces

variable {trace trace' : List (Call × Answer)}

theorem fileId_inj {m n : Nat} (h : fileId m = fileId n) : m = n := by
  have hlist := congrArg String.toList h
  rw [fileId, fileId, String.toList_append, String.toList_append] at hlist
  exact nat_repr_inj (String.toList_inj.mp (append_cancel_left hlist))

theorem SameId.eq_iff {id id' : BlobUploadId} (h : SameId id id') (n : Nat) : memoryId n = id ↔ fileId n = id' := by
  cases h with
  | issued m =>
    constructor
    · intro heq
      rw [memoryId_inj heq]
    · intro heq
      rw [fileId_inj heq]
  | unknown h h' => exact ⟨fun heq => absurd heq.symm (h n), fun heq => absurd heq.symm (h' n)⟩

theorem SameEntry.heard {entry entry' : Call × Answer} (h : SameEntry entry entry') (n : Nat) (before : Bytes)
    (last : Option (Nat × Bytes)) : receive (memoryId n) before entry = receive (fileId n) before entry' ∧
      accept (memoryId n) last entry = accept (fileId n) last entry' := by
  cases h with
  | written m offset bytes next =>
    have hiff : memoryId m = memoryId n ↔ fileId m = fileId n := (SameId.issued n).eq_iff m
    simp only [receive, accept, hiff, and_self]
  | refused h => cases h <;> exact ⟨rfl, rfl⟩
  | _ => exact ⟨rfl, rfl⟩

theorem received_same (h : Forall₂ SameEntry trace trace') (n : Nat) :
    received trace (memoryId n) = received trace' (fileId n) :=
  rel_foldl (P := Eq) (fun before _ hsame _ _ hentry => hsame ▸ (hentry.heard n before none).1) rfl h

theorem lastAccepted_same (h : Forall₂ SameEntry trace trace') (n : Nat) :
    lastAccepted trace (memoryId n) = lastAccepted trace' (fileId n) :=
  rel_foldl (P := Eq) (fun last _ hsame _ _ hentry => hsame ▸ (hentry.heard n [] last).2) rfl h

theorem finished_same (h : Forall₂ SameEntry trace trace') {ref : BlobRef} {bytes : Bytes}
    (hfinished : Finished trace' ref bytes) : Finished trace ref bytes := by
  obtain ⟨before', id', after', rfl, rfl⟩ := hfinished
  obtain ⟨before, entry, after, rfl, hbefore, hentry⟩ := forall₂_append_cons h
  cases hentry with
  | finished n ref => exact ⟨before, memoryId n, after, rfl, (received_same hbefore n).symm⟩

end Traces

theorem objectPath_inj {a b : String} (ha : a.toList.length = 64) (hb : b.toList.length = 64)
    (h : objectPath a = objectPath b) : a = b := by
  have hlist := congrArg String.toList h
  simp only [objectPath, String.toList_append, String.toList_ofList, append_assoc] at hlist
  obtain ⟨htake, hrest⟩ := append_inj hlist (by rw [length_take, length_take, ha, hb])
  have hdrop := append_cancel_left hrest
  apply String.toList_inj.mp
  rw [← take_append_drop 2 a.toList, ← take_append_drop 2 b.toList, htake, hdrop]

theorem validateBlobRef_length {blob : BlobRef} (h : validateBlobRef blob = .ok ()) :
    blob.digest.toList.length = 64 := by
  unfold validateBlobRef at h
  split at h
  · cases h
  split at h
  · cases h
  · rename_i hdigest
    exact not_not.mp (not_or.mp hdigest).1

variable {sha256 : Sha256} {maxBlobBytes : Nat} {trace : List (Call × Answer)} {s : MemoryBlobs} {t : FileBlobs}
  {id id' : BlobUploadId}

section Relation

/-- The upload as the file store has it: its bytes are in the staging file, the last write is kept as a digest. -/
def MemoryUpload.toFile (sha256 : Sha256) (upload : MemoryUpload) : FileUpload where
  file := upload.bytes
  mediaType := upload.mediaType
  expectedSize := upload.expectedSize
  size := upload.bytes.length
  previousWrite := upload.previousWrite.map fun last => ⟨last.1, last.2.length, sha256 last.2⟩

structure SameUploads (sha256 : Sha256) (uploads : Map BlobUploadId MemoryUpload)
    (uploads' : Map BlobUploadId FileUpload) : Prop where
  issued : ∀ id upload, uploads'.find id = some upload → ∃ n, id = fileId n
  upload : ∀ n, uploads'.find (fileId n) = (uploads.find (memoryId n)).map (·.toFile sha256)

/-- The same bytes under every digest, and every reference on the list of checked ones refers to them. -/
structure SameObjects (blobs objects : Map String Bytes) (verified : List BlobRef) : Prop where
  object : ∀ digest : String, digest.toList.length = 64 → objects.find (objectPath digest) = blobs.find digest
  checked : ∀ ref ∈ verified, ∃ bytes, blobs.find ref.digest = some bytes ∧ bytes.length = ref.size

structure Linked (sha256 : Sha256) (s : MemoryBlobs) (t : FileBlobs) : Prop where
  next : t.nextUpload = s.nextUpload
  uploads : SameUploads sha256 s.uploads t.uploads
  objects : SameObjects s.blobs t.objects t.verified

/-- The stores answer a call alike and stay linked. -/
def Agrees (sha256 : Sha256) (call call' : Call) (result : Answer × MemoryBlobs) (result' : Answer × FileBlobs) : Prop :=
  SameEntry (call, result.1) (call', result'.1) ∧ Linked sha256 result.2 result'.2

theorem linked_empty : Linked sha256 .empty .empty where
  next := rfl
  uploads := ⟨nofun, fun _ => rfl⟩
  objects := ⟨fun _ _ => rfl, nofun⟩

theorem SameUploads.update {uploads after : Map BlobUploadId MemoryUpload} {uploads' after' : Map BlobUploadId FileUpload}
    (h : SameUploads sha256 uploads uploads') (hid : SameId id id') {upload : Option MemoryUpload}
    (hissued : upload = none ∨ ∃ n, id' = fileId n) (hafter : after.find = update uploads.find id upload)
    (hafter' : after'.find = update uploads'.find id' (upload.map (·.toFile sha256))) :
    SameUploads sha256 after after' where
  issued other upload' hfind := by
    rw [hafter', update_apply] at hfind
    split at hfind
    · rename_i heq
      rcases hissued with rfl | hn
      · cases hfind
      · rw [heq]
        exact hn
    · exact h.issued other upload' hfind
  upload n := by
    rw [hafter, hafter', update_apply, update_apply]
    by_cases heq : memoryId n = id
    · rw [if_pos heq, if_pos ((hid.eq_iff n).mp heq)]
    · rw [if_neg heq, if_neg (mt (hid.eq_iff n).mpr heq), h.upload n]

theorem SameUploads.erase {uploads : Map BlobUploadId MemoryUpload} {uploads' : Map BlobUploadId FileUpload}
    (h : SameUploads sha256 uploads uploads') (hid : SameId id id') :
    SameUploads sha256 (uploads.erase id) (uploads'.erase id') :=
  h.update hid (.inl rfl) (Map.find_erase_update _ _) (Map.find_erase_update _ _)

theorem Linked.find (h : Linked sha256 s t) (hkept : Kept sha256 maxBlobBytes trace s) (hid : SameId id id') :
    t.uploads.find id' = (s.uploads.find id).map (·.toFile sha256) := by
  cases hid with
  | issued n => exact h.uploads.upload n
  | unknown hne hne' =>
    have hnone : s.uploads.find id = none := by
      refine eq_none_iff_forall_ne_some.mpr fun upload hfind => ?_
      obtain ⟨n, hn, -⟩ := hkept.uploads.issued id upload hfind
      exact hne n hn
    have hnone' : t.uploads.find id' = none := by
      refine eq_none_iff_forall_ne_some.mpr fun upload hfind => ?_
      obtain ⟨n, hn⟩ := h.uploads.issued id' upload hfind
      exact hne' n hn
    rw [hnone, hnone']
    rfl

theorem SameId.of_find (hid : SameId id id') (h : Uploads maxBlobBytes trace s) {upload : MemoryUpload}
    (hfind : s.uploads.find id = some upload) : ∃ n, id = memoryId n ∧ id' = fileId n := by
  cases hid with
  | issued n => exact ⟨n, rfl, rfl⟩
  | unknown hne hne' =>
    obtain ⟨n, hn, -⟩ := h.issued id upload hfind
    exact absurd hn (hne n)

variable (sha256 maxBlobBytes) in
/-- The answer of the file store to a write, where a chunk with the digest of the last one is the last one. -/
theorem toFile_write {upload : MemoryUpload} (offset : Nat) {bytes : Bytes}
    (hsame : ∀ offset' bytes', upload.previousWrite = some (offset', bytes') → sha256 bytes' = sha256 bytes →
      bytes' = bytes) :
    ((upload.toFile sha256).write sha256 maxBlobBytes offset bytes).toOption =
      (upload.write maxBlobBytes offset bytes).toOption.map fun result => (result.1, result.2.toFile sha256) := by
  have hprevious : (upload.toFile sha256).previousWrite = some ⟨offset, bytes.length, sha256 bytes⟩ ↔
      upload.previousWrite = some (offset, bytes) := by
    constructor
    · intro h
      obtain ⟨⟨offset', bytes'⟩, hlast, heq⟩ := map_eq_some_iff.mp h
      obtain ⟨rfl, -, hdigest⟩ := PreviousWrite.mk.inj heq
      rw [hlast, hsame _ _ hlast hdigest]
    · intro h
      simp [MemoryUpload.toFile, h]
  have hsize : (upload.toFile sha256).size = upload.bytes.length := rfl
  have hexpected : (upload.toFile sha256).expectedSize = upload.expectedSize := rfl
  unfold MemoryUpload.write FileUpload.write
  simp only [hprevious, hsize, hexpected]
  split
  · split <;> rfl
  split
  · rfl
  split
  · rfl
  split
  · rfl
  · simp [MemoryUpload.toFile, Except.toOption]

end Relation

section Steps

variable {calls : List Call}

theorem beginPut_linked (h : Linked sha256 s t) (mediaType : String) (expectedSize : Option Nat) :
    Agrees sha256 (.beginPut mediaType expectedSize) (.beginPut mediaType expectedSize)
      (InMemoryBlobStore.beginPut maxBlobBytes s mediaType expectedSize)
      (FileBlobStore.beginPut maxBlobBytes t mediaType expectedSize) := by
  have hcall := SameCall.beginPut mediaType expectedSize
  unfold InMemoryBlobStore.beginPut FileBlobStore.beginPut
  cases validateMediaType mediaType with
  | error error => exact ⟨.refused hcall _ _, h⟩
  | ok _ =>
    by_cases hexpected : expectedSize.any (maxBlobBytes < ·)
    · simp only [if_pos hexpected]
      exact ⟨.refused hcall _ _, h⟩
    simp only [if_neg hexpected, h.next]
    by_cases hlast : s.nextUpload = u64Max
    · simp only [if_pos hlast]
      exact ⟨.refused hcall _ _, h⟩
    · simp only [if_neg hlast]
      refine ⟨.begun _ _ _, rfl, ?_, h.objects⟩
      exact h.uploads.update (.issued _) (.inr ⟨_, rfl⟩) (Map.find_insert_update _ _ _)
        (Map.find_insert_update _ _ _)

theorem write_linked (h : Linked sha256 s t) (hkept : Kept sha256 maxBlobBytes trace s) (hid : SameId id id') (offset : Nat)
    (bytes : Bytes) (hfree : CollisionFree sha256 (trace.map Prod.fst ++ [.write id offset bytes])) :
    Agrees sha256 (.write id offset bytes) (.write id' offset bytes)
      (InMemoryBlobStore.write maxBlobBytes s id offset bytes)
      (FileBlobStore.write sha256 maxBlobBytes t id' offset bytes) := by
  have hcall := SameCall.write hid offset bytes
  have hfile := h.find hkept hid
  unfold InMemoryBlobStore.write FileBlobStore.write
  cases hfind : s.uploads.find id with
  | none =>
    rw [hfile, hfind]
    exact ⟨.refused hcall _ _, h⟩
  | some upload =>
    rw [hfile, hfind]
    have hsame : ∀ offset' bytes', upload.previousWrite = some (offset', bytes') → sha256 bytes' = sha256 bytes →
        bytes' = bytes := by
      intro offset' bytes' hlast hdigest
      rw [(hkept.uploads.upload id upload hfind).previous] at hlast
      exact hfree bytes' bytes ((assembled_lastAccepted hlast).mono (prefix_append _ _))
        (.chunk _ id offset bytes) hdigest
    have hanswer := toFile_write sha256 maxBlobBytes offset hsame
    cases hwrite : upload.write maxBlobBytes offset bytes with
    | error error =>
      obtain ⟨error', herror'⟩ := error_of_toOption (hwrite ▸ hanswer)
      simp only [map_some, hwrite, herror']
      exact ⟨.refused hcall _ _, h⟩
    | ok result =>
      obtain ⟨next, upload'⟩ := result
      simp only [map_some, hwrite, ok_of_toOption (hwrite ▸ hanswer)]
      obtain ⟨n, rfl, rfl⟩ := hid.of_find hkept.uploads hfind
      refine ⟨.written n offset bytes next, h.next, ?_, h.objects⟩
      exact h.uploads.update (.issued n) (.inr ⟨n, rfl⟩) (Map.find_insert_update _ _ _)
        (Map.find_insert_update _ _ _)

variable (sha256 t) in
theorem verifyFile_ok (blob : BlobRef) {path : String} {file : Bytes} (hfind : t.objects.find path = some file)
    (hsize : file.length = blob.size) (hdigest : sha256Hex sha256 file = blob.digest) :
    ∃ verified, FileBlobStore.verifyFile sha256 t blob path = .ok { t with verified := verified } ∧
      ∀ ref ∈ verified, ref = blob ∨ ref ∈ t.verified := by
  unfold FileBlobStore.verifyFile
  by_cases hchecked : t.verified.contains blob
  · exact ⟨t.verified, if_pos hchecked, fun _ => .inr⟩
  · refine ⟨t.verified.insert blob, ?_, fun _ => mem_insert_iff.mp⟩
    rw [if_neg hchecked, hfind]
    simp [hsize, hdigest]

theorem SameObjects.check {blobs objects : Map String Bytes} {verified verified' : List BlobRef}
    (h : SameObjects blobs objects verified) {blob : BlobRef} {bytes : Bytes}
    (hstored : blobs.find blob.digest = some bytes) (hsize : bytes.length = blob.size)
    (hverified : ∀ ref ∈ verified', ref = blob ∨ ref ∈ verified) : SameObjects blobs objects verified' where
  object := h.object
  checked ref href := by
    rcases hverified ref href with rfl | hold
    · exact ⟨bytes, hstored, hsize⟩
    · exact h.checked ref hold

theorem SameObjects.insert {blobs objects : Map String Bytes} {verified : List BlobRef}
    (h : SameObjects blobs objects verified) {digest : String} (hdigest : digest.toList.length = 64)
    (hnew : blobs.find digest = none) (bytes : Bytes) :
    SameObjects (blobs.insert digest bytes) (objects.insert (objectPath digest) bytes) verified where
  object other hother := by
    rw [Map.find_insert, Map.find_insert]
    by_cases heq : digest = other
    · rw [if_pos heq, if_pos (congrArg objectPath heq)]
    · rw [if_neg heq, if_neg fun hpath => heq (objectPath_inj hdigest hother hpath), h.object other hother]
  checked ref href := by
    obtain ⟨stored, hstored, hsize⟩ := h.checked ref href
    refine ⟨stored, ?_, hsize⟩
    rw [Map.find_insert, if_neg]
    · exact hstored
    · rintro rfl
      rw [hnew] at hstored
      cases hstored

theorem finishPut_linked (hwell : sha256.WellSized) (h : Linked sha256 s t) (hkept : Kept sha256 maxBlobBytes trace s)
    (hid : SameId id id') (hcalls : trace.map Prod.fst <+: calls) (hfree : CollisionFree sha256 calls) :
    Agrees sha256 (.finishPut id) (.finishPut id') (InMemoryBlobStore.finishPut sha256 s id)
      (FileBlobStore.finishPut sha256 t id') := by
  have hcall := SameCall.finishPut hid
  have hfile := h.find hkept hid
  have huploads := h.uploads.erase hid
  unfold InMemoryBlobStore.finishPut FileBlobStore.finishPut
  cases hfind : s.uploads.find id with
  | none =>
    rw [hfile, hfind]
    exact ⟨.refused hcall _ _, h⟩
  | some upload =>
    rw [hfile, hfind]
    simp only [map_some, MemoryUpload.toFile]
    cases hfilter : upload.expectedSize.filter (· ≠ upload.bytes.length) with
    | some expected => exact ⟨.refused hcall _ _, h.next, huploads, h.objects⟩
    | none =>
      have hdigest := sha256Hex_length hwell upload.bytes
      obtain ⟨n, rfl, rfl⟩ := hid.of_find hkept.uploads hfind
      unfold FileBlobStore.publish
      simp only [h.objects.object _ hdigest]
      cases hstored : s.blobs.find (sha256Hex sha256 upload.bytes) with
      | none =>
        simp only [Map.contains, hstored, isSome_none]
        refine ⟨.finished n _, h.next, huploads, ?_⟩
        exact (h.objects.insert hdigest hstored upload.bytes).check (Map.find_insert_self _ _ _) rfl
          fun _ => mem_insert_iff.mp
      | some bytes =>
        obtain rfl := hkept.found hcalls hfree hfind hstored
        have hobject : t.objects.find (objectPath (sha256Hex sha256 upload.bytes)) = some upload.bytes := by
          rw [h.objects.object _ hdigest, hstored]
        obtain ⟨verified, hverify, hchecked⟩ := verifyFile_ok sha256
          { t with uploads := t.uploads.erase (fileId n) }
          ⟨sha256Algorithm, sha256Hex sha256 upload.bytes, upload.bytes.length, upload.mediaType⟩ hobject rfl rfl
        simp only [Map.contains, hstored, isSome_some, hverify, if_true]
        refine ⟨.finished n _, h.next, huploads, ?_⟩
        have hafter := h.objects.check hstored rfl hchecked
        exact hafter.check hstored rfl fun _ => mem_insert_iff.mp

theorem readFile_eq {file : Bytes} {blob : BlobRef} (hsize : file.length = blob.size) {offset : Nat}
    (hoffset : offset ≤ file.length) (maxBytes : Nat) :
    FileBlobStore.readFile file blob offset maxBytes =
      ⟨(file.drop offset).take maxBytes, file.length ≤ offset + maxBytes⟩ := by
  have htake : (file.drop offset).take (min maxBytes (blob.size - offset)) = (file.drop offset).take maxBytes := by
    rw [take_eq_take_iff, length_drop]
    omega
  have heof : offset + ((file.drop offset).take maxBytes).length = blob.size ↔ file.length ≤ offset + maxBytes := by
    rw [length_take, length_drop]
    omega
  simp only [FileBlobStore.readFile, htake, heof]

theorem read_linked (h : Linked sha256 s t) (hkept : Kept sha256 maxBlobBytes trace s) (blob : BlobRef) (offset maxBytes : Nat) :
    Agrees sha256 (.read blob offset maxBytes) (.read blob offset maxBytes)
      (InMemoryBlobStore.read sha256 s blob offset maxBytes, s) (FileBlobStore.read sha256 t blob offset maxBytes) := by
  have hcall := SameCall.read blob offset maxBytes
  unfold InMemoryBlobStore.read FileBlobStore.read
  cases hvalid : validateBlobRef blob with
  | error error => exact ⟨.refused hcall _ _, h⟩
  | ok _ =>
    have hobject := h.objects.object _ (validateBlobRef_length hvalid)
    cases hstored : s.blobs.find blob.digest with
    | none =>
      have hchecked : ¬ t.verified.contains blob := by
        intro hmem
        obtain ⟨bytes, hbytes, -⟩ := h.objects.checked blob (contains_iff_mem.mp hmem)
        rw [hstored] at hbytes
        cases hbytes
      simp only [FileBlobStore.verifyFile, if_neg hchecked, hobject, hstored]
      split <;> exact ⟨.refused hcall _ _, h⟩
    | some bytes =>
      have hdigest := (hkept.stored _ bytes hstored).1
      by_cases hsize : bytes.length = blob.size
      · have hmatch : ¬ (bytes.length ≠ blob.size ∨ sha256Hex sha256 bytes ≠ blob.digest) := by
          simp [hsize, hdigest]
        obtain ⟨verified, hverify, hchecked⟩ := verifyFile_ok _ _ _ (hobject.trans hstored) hsize hdigest
        simp only [if_neg hmatch, hverify, hobject, hstored]
        by_cases hoffset : blob.size < offset
        · simp only [if_pos hoffset, InMemoryBlobStore.chunkOf, hsize]
          exact ⟨.refused hcall _ _, h⟩
        · have hle : offset ≤ bytes.length := hsize ▸ Nat.not_lt.mp hoffset
          simp only [if_neg hoffset, chunkOf_ok hle, readFile_eq hsize hle]
          exact ⟨.read _ _ _ _, h.next, h.uploads, h.objects.check hstored hsize hchecked⟩
      · have hmatch : bytes.length ≠ blob.size ∨ sha256Hex sha256 bytes ≠ blob.digest := .inl hsize
        have hchecked : ¬ t.verified.contains blob := by
          intro hmem
          obtain ⟨bytes', hbytes, hsize'⟩ := h.objects.checked blob (contains_iff_mem.mp hmem)
          obtain rfl := Option.some.inj (hstored.symm.trans hbytes)
          exact hsize hsize'
        simp only [FileBlobStore.verifyFile, if_neg hchecked, hobject, hstored, if_pos hmatch]
        split <;> exact ⟨.refused hcall _ _, h⟩

theorem serve_linked (hwell : sha256.WellSized) (h : Linked sha256 s t) (hkept : Kept sha256 maxBlobBytes trace s)
    {call call' : Call} (hcall : SameCall call call') (hfree : CollisionFree sha256 (trace.map Prod.fst ++ [call])) :
    Agrees sha256 call call' (InMemoryBlobStore.serve sha256 maxBlobBytes s call)
      (FileBlobStore.serve sha256 maxBlobBytes t call') := by
  cases hcall with
  | beginPut mediaType expectedSize => exact beginPut_linked h mediaType expectedSize
  | write hid offset bytes => exact write_linked h hkept hid offset bytes hfree
  | finishPut hid => exact finishPut_linked hwell h hkept hid (prefix_append _ _) hfree
  | abortPut hid => exact ⟨.aborted hid, h.next, h.uploads.erase hid, h.objects⟩
  | read blob offset maxBytes => exact read_linked h hkept blob offset maxBytes

end Steps

section Runs

variable {calls calls' : List Call}

variable (maxBlobBytes) in
theorem run_linked (hwell : sha256.WellSized) (hcalls : Forall₂ SameCall calls calls')
    (hfree : CollisionFree sha256 calls) :
    Forall₂ SameEntry ((InMemoryBlobStore.serve sha256 maxBlobBytes).trace .empty calls)
        ((FileBlobStore.serve sha256 maxBlobBytes).trace .empty calls') ∧
      Kept sha256 maxBlobBytes ((InMemoryBlobStore.serve sha256 maxBlobBytes).trace .empty calls)
        ((InMemoryBlobStore.serve sha256 maxBlobBytes).after .empty calls) ∧
      Linked sha256 ((InMemoryBlobStore.serve sha256 maxBlobBytes).after .empty calls)
        ((FileBlobStore.serve sha256 maxBlobBytes).after .empty calls') := by
  refine Service.related (R := fun trace s t => Kept sha256 maxBlobBytes trace s ∧ Linked sha256 s t) hcalls
    ⟨kept_empty, linked_empty⟩ ?_
  rintro past call call' s t hprefix ⟨hkept, hlinked⟩ hcall
  have hnow := hfree.mono hprefix
  obtain ⟨hentry, hnext⟩ := serve_linked hwell hlinked hkept hcall hnow
  exact ⟨hentry, serve_kept hkept hnow, hnext⟩

theorem Linked.read {trace : List (Call × Answer)} {s : MemoryBlobs} {t : FileBlobs} (h : Linked sha256 s t)
    (hkept : Kept sha256 maxBlobBytes trace s) (hwell : sha256.WellSized) {ref : BlobRef} {bytes : Bytes}
    (hfinished : Finished trace ref bytes) {offset : Nat} (hoffset : offset ≤ bytes.length) (maxBytes : Nat) :
    (FileBlobStore.read sha256 t ref offset maxBytes).1 =
      .ok (.chunk ⟨(bytes.drop offset).take maxBytes, bytes.length ≤ offset + maxBytes⟩) := by
  have hentry := (read_linked h hkept ref offset maxBytes).1
  rw [hkept.read hwell hfinished hoffset maxBytes] at hentry
  generalize (FileBlobStore.read sha256 t ref offset maxBytes).1 = answer at hentry
  cases hentry
  rfl

theorem file_faithful (hwell : sha256.WellSized) (hcalls : Forall₂ SameCall calls calls')
    (hfree : CollisionFree sha256 calls) : Faithful sha256 (FileBlobStore.serve sha256 maxBlobBytes) .empty calls' := by
  obtain ⟨htrace, hkept, hlinked⟩ := run_linked maxBlobBytes hwell hcalls hfree
  constructor
  · intro ref bytes hfinished
    obtain ⟨hrefers, -⟩ := hkept.finished ref bytes (finished_same htrace hfinished)
    exact ⟨hrefers.algorithm, hrefers.digest, hrefers.size⟩
  · intro id offset bytes hlast
    simp only [FileBlobStore.serve, FileBlobStore.write]
    split
    · exact ⟨rfl, .inr rfl⟩
    rename_i file hfile
    obtain ⟨n, rfl⟩ := hlinked.uploads.issued id file hfile
    obtain ⟨upload, hfind, rfl⟩ := map_eq_some_iff.mp ((hlinked.uploads.upload n).symm.trans hfile)
    rw [← lastAccepted_same htrace] at hlast
    have hupload := hkept.uploads.upload (memoryId n) upload hfind
    have hwrite := hupload.repeated hlast
    have hsame : ∀ offset' bytes', upload.previousWrite = some (offset', bytes') → sha256 bytes' = sha256 bytes →
        bytes' = bytes := by
      intro offset' bytes' hprevious _
      rw [hupload.previous, hlast] at hprevious
      cases hprevious
      rfl
    have hanswer := toFile_write sha256 maxBlobBytes offset hsame
    rw [hwrite] at hanswer
    rw [ok_of_toOption hanswer]
    refine ⟨?_, .inl rfl⟩
    dsimp only
    rw [Map.insert_self _ hfile]
  · intro ref bytes hfinished offset maxBytes hoffset
    exact hlinked.read hkept hwell (finished_same htrace hfinished) hoffset maxBytes
  · intro ref bytes hfinished sizes hsizes
    have hread := readOut_ok (FileBlobStore.serve sha256 maxBlobBytes) ref bytes
      (Linked sha256 ((InMemoryBlobStore.serve sha256 maxBlobBytes).after .empty calls))
      (fun _ _ maxBytes hs hoffset => hs.read hkept hwell (finished_same htrace hfinished) hoffset maxBytes)
      (fun _ offset maxBytes hs => (read_linked hs hkept ref offset maxBytes).2) hsizes hlinked (Nat.zero_le _)
    simpa using hread

/-- The two stores accept and refuse the same calls with the same answers, and both return what was stored. -/
theorem blob_stores_agree (sha256 : Sha256) (maxBlobBytes : Nat) (calls calls' : List Call)
    (hwell : sha256.WellSized) (hcalls : List.Forall₂ SameCall calls calls') (hfree : CollisionFree sha256 calls) :
    List.Forall₂ SameEntry ((InMemoryBlobStore.serve sha256 maxBlobBytes).trace .empty calls)
        ((FileBlobStore.serve sha256 maxBlobBytes).trace .empty calls') ∧
      Faithful sha256 (InMemoryBlobStore.serve sha256 maxBlobBytes) .empty calls ∧
      Faithful sha256 (FileBlobStore.serve sha256 maxBlobBytes) .empty calls' :=
  ⟨(run_linked maxBlobBytes hwell hcalls hfree).1, memory_faithful hwell hfree, file_faithful hwell hcalls hfree⟩

def hello : Bytes := [104, 101, 108, 108, 111]

def helloSha256 (bytes : Bytes) : Bytes :=
  if bytes = [] then
    [0xe3, 0xb0, 0xc4, 0x42, 0x98, 0xfc, 0x1c, 0x14, 0x9a, 0xfb, 0xf4, 0xc8, 0x99, 0x6f, 0xb9, 0x24,
    0x27, 0xae, 0x41, 0xe4, 0x64, 0x9b, 0x93, 0x4c, 0xa4, 0x95, 0x99, 0x1b, 0x78, 0x52, 0xb8, 0x55]
  else if bytes = hello then
    [0x2c, 0xf2, 0x4d, 0xba, 0x5f, 0xb0, 0xa3, 0x0e, 0x26, 0xe8, 0x3b, 0x2a, 0xc5, 0xb9, 0xe2, 0x9e,
    0x1b, 0x16, 0x1e, 0x5c, 0x1f, 0xa7, 0x42, 0x5e, 0x73, 0x04, 0x33, 0x62, 0x93, 0x8b, 0x98, 0x24]
  else List.replicate 32 0

def helloCalls (id : Nat → BlobUploadId) (ref : BlobRef) : List Call :=
  [.beginPut "text/plain" (some 5), .write (id 1) 0 hello, .finishPut (id 1), .read ref 0 3, .write "other" 0 []]

def helloRef : BlobRef :=
  ⟨sha256Algorithm, "2cf24dba5fb0a30e26e83b2ac5b9e29e1b161e5c1fa7425e73043362938b9824", 5, "text/plain"⟩

theorem blob_stores_agree_hello :
    List.Forall₂ SameEntry
        ((InMemoryBlobStore.serve helloSha256 64).trace .empty (helloCalls memoryId helloRef))
        ((FileBlobStore.serve helloSha256 64).trace .empty (helloCalls fileId helloRef)) ∧
      ((FileBlobStore.serve helloSha256 64).trace .empty (helloCalls fileId helloRef)).map Prod.snd =
        [.ok (.upload (fileId 1)), .ok (.offset 5), .ok (.blob helloRef), .ok (.chunk ⟨hello.take 3, false⟩),
          .error .notFound] := by
  have hwell : Sha256.WellSized helloSha256 := by
    intro bytes
    unfold helloSha256
    split
    · rfl
    split
    · rfl
    · exact length_replicate
  have hother : SameId "other" "other" := by
    refine .unknown (fun n heq => ?_) fun n heq => ?_
    · have hlist := congrArg String.toList heq
      rw [memoryId, String.toList_append] at hlist
      exact absurd (cons.inj hlist).1 (by decide)
    · have hlist := congrArg String.toList heq
      rw [fileId, String.toList_append] at hlist
      exact absurd (cons.inj hlist).1 (by decide)
  have hcalls : Forall₂ SameCall (helloCalls memoryId helloRef) (helloCalls fileId helloRef) :=
    .cons (.beginPut _ _) (.cons (.write (.issued 1) _ _) (.cons (.finishPut (.issued 1))
      (.cons (.read _ _ _) (.cons (.write hother _ _) .nil))))
  have hfree : CollisionFree helloSha256 (helloCalls memoryId helloRef) := by
    have hassembled : ∀ bytes, Assembled (helloCalls memoryId helloRef) bytes →
        bytes = [] ∨ bytes = hello := by
      rintro bytes ⟨parts, hsub, rfl⟩
      have hmem : parts ∈ ([hello, []] : List Bytes).sublists := mem_sublists.mpr hsub
      have hall : ∀ parts ∈ ([hello, []] : List Bytes).sublists, parts.flatten = [] ∨ parts.flatten = hello := by
        decide
      exact hall parts hmem
    intro a b ha hb heq
    rcases hassembled a ha with rfl | rfl
    · rcases hassembled b hb with rfl | rfl
      · rfl
      · exact absurd heq (by decide)
    · rcases hassembled b hb with rfl | rfl
      · exact absurd heq (by decide)
      · rfl
  exact ⟨(blob_stores_agree helloSha256 64 _ _ hwell hcalls hfree).1, by decide +kernel⟩

end Runs

end Pluribus.Blobs
