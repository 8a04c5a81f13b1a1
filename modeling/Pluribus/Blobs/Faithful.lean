import Pluribus.Blobs.Contents

namespace Pluribus.Blobs

open Lib Pluribus.Core List Function

section Spec

variable {σ : Type}

/-- Reads on from an offset in chunks of the given sizes until a chunk says it is the last. -/
def readOut (serve : Service σ Call Answer) (ref : BlobRef) : σ → Nat → List Nat → Except BlobError (Bytes × Bool)
  | _, _, [] => .ok ([], false)
  | s, offset, size :: sizes =>
    match serve s (.read ref offset size) with
    | (.ok (.chunk chunk), s) =>
      if chunk.eof then .ok (chunk.bytes, true)
      else (readOut serve ref s (offset + chunk.bytes.length) sizes).map fun rest => (chunk.bytes ++ rest.1, rest.2)
    | (.ok _, _) => .ok ([], false)
    | (.error error, _) => .error error

/-- The store has returned `ref` for an upload that had received `bytes`. -/
def Finished (trace : List (Call × Answer)) (ref : BlobRef) (bytes : Bytes) : Prop :=
  ∃ before id after, trace = before ++ (.finishPut id, .ok (.blob ref)) :: after ∧ bytes = received before id

structure Faithful (sha256 : Sha256) (serve : Service σ Call Answer) (start : σ) (calls : List Call) : Prop where
  reference : ∀ ref bytes, Finished (serve.trace start calls) ref bytes →
    ref.algorithm = sha256Algorithm ∧ ref.digest = sha256Hex sha256 bytes ∧ ref.size = bytes.length
  repeated : ∀ id offset bytes, lastAccepted (serve.trace start calls) id = some (offset, bytes) →
    (serve (serve.after start calls) (.write id offset bytes)).2 = serve.after start calls ∧
    ((serve (serve.after start calls) (.write id offset bytes)).1 = .ok (.offset (offset + bytes.length)) ∨
      (serve (serve.after start calls) (.write id offset bytes)).1 = .error .notFound)
  chunk : ∀ ref bytes, Finished (serve.trace start calls) ref bytes → ∀ offset maxBytes, offset ≤ bytes.length →
    (serve (serve.after start calls) (.read ref offset maxBytes)).1 =
      .ok (.chunk ⟨(bytes.drop offset).take maxBytes, bytes.length ≤ offset + maxBytes⟩)
  consecutive : ∀ ref bytes, Finished (serve.trace start calls) ref bytes →
    ∀ sizes : List Nat, (∀ size ∈ sizes, 1 ≤ size) →
      readOut serve ref (serve.after start calls) 0 sizes =
        .ok (bytes.take sizes.sum, sizes ≠ [] ∧ bytes.length ≤ sizes.sum)

/-- A store that answers every read from `bytes`, in this state and after such reads, is read out in order. -/
theorem readOut_ok (serve : Service σ Call Answer) (ref : BlobRef) (bytes : Bytes) (P : σ → Prop)
    (hread : ∀ s offset maxBytes, P s → offset ≤ bytes.length → (serve s (.read ref offset maxBytes)).1 =
      .ok (.chunk ⟨(bytes.drop offset).take maxBytes, bytes.length ≤ offset + maxBytes⟩))
    (hkeep : ∀ s offset maxBytes, P s → P (serve s (.read ref offset maxBytes)).2)
    {sizes : List Nat} (hsizes : ∀ size ∈ sizes, 1 ≤ size) {s : σ} (hs : P s) {offset : Nat}
    (hoffset : offset ≤ bytes.length) :
    readOut serve ref s offset sizes =
      .ok ((bytes.drop offset).take sizes.sum, sizes ≠ [] ∧ bytes.length ≤ offset + sizes.sum) := by
  induction sizes generalizing s offset with
  | nil => simp [readOut]
  | cons size sizes ih =>
    have hanswer := hread s offset size hs hoffset
    have hnext := hkeep s offset size hs
    unfold readOut
    generalize serve s (.read ref offset size) = result at hanswer hnext ⊢
    obtain ⟨answer, s'⟩ := result
    subst hanswer
    by_cases hend : bytes.length ≤ offset + size
    · have hall : (bytes.drop offset).take size = (bytes.drop offset).take (size :: sizes).sum := by
        rw [take_of_length_le, take_of_length_le]
        · rw [length_drop, sum_cons]
          omega
        · rw [length_drop]
          omega
      simp only [hend, decide_true, if_true, hall]
      have hsum : bytes.length ≤ offset + (size :: sizes).sum := by
        rw [sum_cons]
        omega
      simp only [ne_eq, reduceCtorEq, not_false_eq_true, hsum, and_self, decide_true]
    · have hlength : ((bytes.drop offset).take size).length = size := by
        rw [length_take, length_drop]
        omega
      have hrest := ih (fun n hn => hsizes n (mem_cons_of_mem _ hn)) hnext (show offset + size ≤ bytes.length by omega)
      simp only [hend, decide_false, Bool.false_eq_true, if_false, hlength, hrest, Except.map]
      have htake : (bytes.drop offset).take size ++ (bytes.drop (offset + size)).take sizes.sum =
          (bytes.drop offset).take (size :: sizes).sum := by
        rw [sum_cons, take_add, drop_drop]
      rw [htake]
      cases sizes with
      | nil => simp [hend]
      | cons => simp [Nat.add_assoc]

end Spec

section Memory

variable {id : BlobUploadId} {upload : MemoryUpload} {bytes : Bytes} {offset : Nat}

/-- What a store holds after a trace: its uploads, and under every digest bytes that have it. -/
structure Kept (sha256 : Sha256) (maxBlobBytes : Nat) (trace : List (Call × Answer)) (s : MemoryBlobs) : Prop where
  uploads : Uploads maxBlobBytes trace s
  stored : ∀ digest bytes, s.blobs.find digest = some bytes →
    sha256Hex sha256 bytes = digest ∧ Assembled (trace.map Prod.fst) bytes
  finished : ∀ ref bytes, Finished trace ref bytes →
    RefersTo sha256 ref bytes ∧ s.blobs.find ref.digest = some bytes

variable {sha256 : Sha256} {maxBlobBytes : Nat} {trace : List (Call × Answer)} {s s' : MemoryBlobs} {call : Call}
  {answer : Answer}

theorem kept_empty : Kept sha256 maxBlobBytes [] MemoryBlobs.empty where
  uploads := ⟨nofun, fun _ _ => ⟨rfl, rfl⟩, nofun⟩
  stored := nofun
  finished := by
    rintro ref bytes ⟨before, id, after, htrace, -⟩
    simp at htrace

theorem Kept.unstored (h : Kept sha256 maxBlobBytes trace s) (hblobs : s'.blobs = s.blobs)
    (huploads : Uploads maxBlobBytes (trace ++ [(call, answer)]) s') (hcall : ∀ id, call ≠ .finishPut id ∨ ∃ e, answer = .error e) :
    Kept sha256 maxBlobBytes (trace ++ [(call, answer)]) s' where
  uploads := huploads
  stored digest bytes hfind := by
    obtain ⟨hdigest, hassembled⟩ := h.stored digest bytes (hblobs ▸ hfind)
    refine ⟨hdigest, hassembled.mono ?_⟩
    rw [map_append]
    exact prefix_append _ _
  finished := by
    rintro ref bytes ⟨before, id, after, htrace, rfl⟩
    rw [hblobs]
    rcases snoc_eq_append_cons htrace with ⟨hlast, -⟩ | ⟨rest, hpast⟩
    · obtain ⟨hfinish, hanswer⟩ := Prod.mk.inj hlast
      rcases hcall id with hne | ⟨e, he⟩
      · exact absurd hfinish hne
      · rw [he] at hanswer
        cases hanswer
    · exact h.finished ref _ ⟨before, id, rest, hpast, rfl⟩

theorem beginPut_kept (h : Kept sha256 maxBlobBytes trace s) (mediaType : String) (expectedSize : Option Nat) :
    Kept sha256 maxBlobBytes (trace ++ [(.beginPut mediaType expectedSize,
        (InMemoryBlobStore.beginPut maxBlobBytes s mediaType expectedSize).1)])
      (InMemoryBlobStore.beginPut maxBlobBytes s mediaType expectedSize).2 := by
  have hsame : ∀ answer, Kept sha256 maxBlobBytes (trace ++ [(.beginPut mediaType expectedSize, answer)]) s := fun answer =>
    h.unstored rfl (h.uploads.silent (by trivial) rfl fun _ _ hu => hu) fun _ => .inl nofun
  unfold InMemoryBlobStore.beginPut
  split
  · exact hsame _
  rename_i hmedia
  split
  · exact hsame _
  split
  · exact hsame _
  · exact h.unstored rfl (h.uploads.opened (by trivial) hmedia) fun _ => .inl nofun

theorem write_kept (h : Kept sha256 maxBlobBytes trace s) (id : BlobUploadId) (offset : Nat) (bytes : Bytes) :
    Kept sha256 maxBlobBytes (trace ++ [(.write id offset bytes, (InMemoryBlobStore.write maxBlobBytes s id offset bytes).1)])
      (InMemoryBlobStore.write maxBlobBytes s id offset bytes).2 := by
  have hsame : ∀ e, Kept sha256 maxBlobBytes (trace ++ [(.write id offset bytes, .error e)]) s := fun e =>
    h.unstored rfl (h.uploads.silent (by trivial) rfl fun _ _ hu => hu) fun _ => .inl nofun
  unfold InMemoryBlobStore.write
  split
  · exact hsame _
  rename_i upload hfind
  split
  · exact hsame _
  · rename_i next upload' hwrite
    exact h.unstored rfl (h.uploads.written hfind hwrite _) fun _ => .inl nofun

theorem erase_uploads (h : Uploads maxBlobBytes trace s) {entry : Call × Answer} (hsilent : Silent entry) (id : BlobUploadId) :
    Uploads maxBlobBytes (trace ++ [entry]) { s with uploads := s.uploads.erase id } := by
  refine h.silent hsilent rfl fun other upload hu => ?_
  rw [Map.find_erase] at hu
  split at hu
  · cases hu
  · exact hu

/-- Bytes that are there already under the digest of an upload are the bytes of the upload. -/
theorem Kept.found (h : Kept sha256 maxBlobBytes trace s) {calls : List Call} (hcalls : trace.map Prod.fst <+: calls)
    (hfree : CollisionFree sha256 calls) (hfind : s.uploads.find id = some upload)
    (hstored : s.blobs.find (sha256Hex sha256 upload.bytes) = some bytes) : bytes = upload.bytes := by
  obtain ⟨hdigest, hold⟩ := h.stored _ bytes hstored
  have hassembled : Assembled (trace.map Prod.fst) upload.bytes := by
    rw [(h.uploads.upload id upload hfind).bytes]
    exact assembled_received trace id
  exact hfree.hex (hold.mono hcalls) (hassembled.mono hcalls) hdigest

theorem finishPut_kept (h : Kept sha256 maxBlobBytes trace s) (id : BlobUploadId)
    (hfree : CollisionFree sha256 (trace.map Prod.fst ++ [.finishPut id])) :
    Kept sha256 maxBlobBytes (trace ++ [(.finishPut id, (InMemoryBlobStore.finishPut sha256 s id).1)])
      (InMemoryBlobStore.finishPut sha256 s id).2 := by
  unfold InMemoryBlobStore.finishPut
  split
  · exact h.unstored rfl (h.uploads.silent (by trivial) rfl fun _ _ hu => hu) fun _ => .inr ⟨_, rfl⟩
  rename_i upload hfind
  dsimp only
  split
  · exact h.unstored rfl (erase_uploads h.uploads (by trivial) id) fun _ => .inr ⟨_, rfl⟩
  have hbytes := (h.uploads.upload id upload hfind).bytes
  have hprefix : trace.map Prod.fst <+: trace.map Prod.fst ++ [.finishPut id] := prefix_append _ _
  have hassembled : Assembled (trace.map Prod.fst ++ [.finishPut id]) upload.bytes := by
    rw [hbytes]
    exact (assembled_received trace id).mono hprefix
  have hfound : ∀ bytes, s.blobs.find (sha256Hex sha256 upload.bytes) = some bytes → bytes = upload.bytes :=
    fun _ hstored => h.found hprefix hfree hfind hstored
  generalize hblobs : (if s.blobs.contains (sha256Hex sha256 upload.bytes) then _ else _ : MemoryBlobs) = after
  have hafter : after.uploads = s.uploads.erase id ∧ after.nextUpload = s.nextUpload ∧
      after.blobs.find = update s.blobs.find (sha256Hex sha256 upload.bytes) (some upload.bytes) := by
    rw [← hblobs]
    split
    · rename_i hcontains
      obtain ⟨bytes, hstored⟩ := Map.contains_iff.mp hcontains
      refine ⟨rfl, rfl, ?_⟩
      obtain rfl := hfound bytes hstored
      rw [← hstored, update_eq_self]
    · exact ⟨rfl, rfl, Map.find_insert_update _ _ _⟩
  obtain ⟨hafterUploads, hafterNext, hafterBlobs⟩ := hafter
  constructor
  · refine h.uploads.silent (by trivial) hafterNext fun other upload' hu => ?_
    rw [hafterUploads, Map.find_erase] at hu
    split at hu
    · cases hu
    · exact hu
  · intro digest bytes hstored
    rw [hafterBlobs, update_apply] at hstored
    rw [map_append]
    split at hstored
    · rename_i heq
      cases hstored
      exact ⟨heq.symm, hassembled⟩
    · obtain ⟨hdigest, hold⟩ := h.stored digest bytes hstored
      exact ⟨hdigest, hold.mono hprefix⟩
  · rintro ref bytes ⟨before, other, rest, htrace, rfl⟩
    rw [hafterBlobs]
    rcases snoc_eq_append_cons htrace with ⟨hlast, rfl⟩ | ⟨rest', hpast⟩
    · obtain ⟨hid, href⟩ := Prod.mk.inj hlast
      obtain rfl := Call.finishPut.inj hid
      obtain rfl := Value.blob.inj (Except.ok.inj href)
      rw [← hbytes, update_self]
      exact ⟨⟨rfl, rfl, rfl, (h.uploads.upload id upload hfind).mediaType⟩, rfl⟩
    · obtain ⟨hrefers, hstored⟩ := h.finished ref _ ⟨before, other, rest', hpast, rfl⟩
      refine ⟨hrefers, ?_⟩
      rw [update_apply]
      split
      · rename_i heq
        rw [heq] at hstored
        rw [hfound _ hstored]
      · exact hstored

theorem serve_kept (h : Kept sha256 maxBlobBytes trace s) (hfree : CollisionFree sha256 (trace.map Prod.fst ++ [call])) :
    Kept sha256 maxBlobBytes (trace ++ [(call, (InMemoryBlobStore.serve sha256 maxBlobBytes s call).1)])
      (InMemoryBlobStore.serve sha256 maxBlobBytes s call).2 := by
  cases call with
  | beginPut mediaType expectedSize => exact beginPut_kept h mediaType expectedSize
  | write id offset bytes => exact write_kept h id offset bytes
  | finishPut id => exact finishPut_kept h id hfree
  | abortPut id => exact h.unstored rfl (erase_uploads h.uploads (by trivial) id) fun _ => .inl nofun
  | read blob offset maxBytes =>
    exact h.unstored rfl (h.uploads.silent (by trivial) rfl fun _ _ hu => hu) fun _ => .inl nofun

theorem Upload.repeated (h : Upload maxBlobBytes trace id upload) (hlast : lastAccepted trace id = some (offset, bytes)) :
    upload.write maxBlobBytes offset bytes = .ok (offset + bytes.length, upload) := by
  have hprevious : upload.previousWrite = some (offset, bytes) := h.previous.trans hlast
  have hend := h.last offset bytes hprevious
  obtain ⟨hsize, hmax, hexpected⟩ := h.fits
  unfold MemoryUpload.write
  by_cases hoffset : offset = upload.bytes.length
  · -- an empty chunk follows on itself
    have hnil : bytes = [] := eq_nil_of_length_eq_zero (by omega)
    subst hnil
    have hover : ¬ (maxBlobBytes < upload.bytes.length ∨ upload.expectedSize.any (· < upload.bytes.length)) := by
      rw [not_or]
      exact ⟨Nat.not_lt.mpr hmax, hexpected⟩
    simp only [hoffset, ne_eq, not_true_eq_false, if_false, length_nil, Nat.add_zero, Nat.not_lt_zero,
      Nat.not_lt.mpr hsize, hover, append_nil]
    rw [← hoffset, ← hprevious]
  · simp only [ne_eq, hoffset, not_false_eq_true, if_true, hprevious, hend]

theorem chunkOf_ok (h : offset ≤ bytes.length) (maxBytes : Nat) :
    InMemoryBlobStore.chunkOf bytes offset maxBytes =
      .ok (.chunk ⟨(bytes.drop offset).take maxBytes, bytes.length ≤ offset + maxBytes⟩) := by
  have htake : (bytes.drop offset).take (min (offset + maxBytes) bytes.length - offset) =
      (bytes.drop offset).take maxBytes := by
    rw [take_eq_take_iff, length_drop]
    omega
  have heof : min (offset + maxBytes) bytes.length = bytes.length ↔ bytes.length ≤ offset + maxBytes := by omega
  simp only [InMemoryBlobStore.chunkOf, Nat.not_lt.mpr h, if_false, htake, heof]

theorem Kept.read (h : Kept sha256 maxBlobBytes trace s) (hsize : sha256.WellSized) {ref : BlobRef}
    (hfinished : Finished trace ref bytes) (hoffset : offset ≤ bytes.length) (maxBytes : Nat) :
    InMemoryBlobStore.read sha256 s ref offset maxBytes =
      .ok (.chunk ⟨(bytes.drop offset).take maxBytes, bytes.length ≤ offset + maxBytes⟩) := by
  obtain ⟨hrefers, hstored⟩ := h.finished ref bytes hfinished
  have hmatch : ¬ (bytes.length ≠ ref.size ∨ sha256Hex sha256 bytes ≠ ref.digest) := by
    rw [hrefers.size, hrefers.digest]
    simp
  simp only [InMemoryBlobStore.read, hrefers.valid hsize, hstored, hmatch, if_false]
  exact chunkOf_ok hoffset maxBytes

variable {calls : List Call}

variable (maxBlobBytes) in
theorem memory_kept (hfree : CollisionFree sha256 calls) :
    Kept sha256 maxBlobBytes ((InMemoryBlobStore.serve sha256 maxBlobBytes).trace .empty calls)
      ((InMemoryBlobStore.serve sha256 maxBlobBytes).after .empty calls) :=
  Service.history kept_empty fun _ _ _ hprefix h => serve_kept h (hfree.mono hprefix)

theorem memory_faithful (hsize : sha256.WellSized) (hfree : CollisionFree sha256 calls) :
    Faithful sha256 (InMemoryBlobStore.serve sha256 maxBlobBytes) .empty calls := by
  have hkept := memory_kept maxBlobBytes hfree
  constructor
  · intro ref bytes hfinished
    obtain ⟨hrefers, -⟩ := hkept.finished ref bytes hfinished
    exact ⟨hrefers.algorithm, hrefers.digest, hrefers.size⟩
  · intro id offset bytes hlast
    simp only [InMemoryBlobStore.serve, InMemoryBlobStore.write]
    split
    · exact ⟨rfl, .inr rfl⟩
    rename_i upload hfind
    rw [(hkept.uploads.upload id upload hfind).repeated hlast]
    refine ⟨?_, .inl rfl⟩
    dsimp only
    rw [Map.insert_self _ hfind]
  · intro ref bytes hfinished offset maxBytes hoffset
    exact hkept.read hsize hfinished hoffset maxBytes
  · intro ref bytes hfinished sizes hsizes
    have hread := readOut_ok (InMemoryBlobStore.serve sha256 maxBlobBytes) ref bytes
      (· = (InMemoryBlobStore.serve sha256 maxBlobBytes).after .empty calls)
      (fun _ offset maxBytes hs hoffset => hs ▸ hkept.read hsize hfinished hoffset maxBytes)
      (fun _ _ _ hs => hs) hsizes rfl (Nat.zero_le _)
    simpa using hread

end Memory

end Pluribus.Blobs
