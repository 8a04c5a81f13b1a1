import Pluribus.Blobs.Memory
import Pluribus.Lib.Numeral

namespace Pluribus.Blobs

open Lib Pluribus.Core List

section Chunks

variable {calls : List Call}

def chunks (calls : List Call) : List Bytes :=
  calls.filterMap fun
    | .write _ _ bytes => some bytes
    | _ => none

/-- Bytes put together from some of the written chunks, in order. -/
def Assembled (calls : List Call) (bytes : Bytes) : Prop :=
  ∃ parts : List Bytes, parts.Sublist (chunks calls) ∧ parts.flatten = bytes

/-- No two byte strings that the writes of a run can put together share a digest. -/
def CollisionFree (sha256 : Sha256) (calls : List Call) : Prop :=
  ∀ a b, Assembled calls a → Assembled calls b → sha256 a = sha256 b → a = b

theorem Assembled.mono {more : List Call} {bytes : Bytes} (h : Assembled calls bytes) (hmore : calls <+: more) :
    Assembled more bytes := by
  obtain ⟨parts, hsub, hflat⟩ := h
  exact ⟨parts, hsub.trans (hmore.sublist.filterMap _), hflat⟩

theorem Assembled.nil (calls : List Call) : Assembled calls [] := ⟨[], nil_sublist _, rfl⟩

theorem CollisionFree.mono {sha256 : Sha256} {more : List Call} (h : CollisionFree sha256 more) (hmore : calls <+: more) :
    CollisionFree sha256 calls :=
  fun a b ha hb => h a b (ha.mono hmore) (hb.mono hmore)

theorem chunks_snoc_write (calls : List Call) (id : BlobUploadId) (offset : Nat) (bytes : Bytes) :
    chunks (calls ++ [.write id offset bytes]) = chunks calls ++ [bytes] := by
  simp [chunks]

theorem Assembled.snoc {before : Bytes} (h : Assembled calls before) (id : BlobUploadId) (offset : Nat) (bytes : Bytes) :
    Assembled (calls ++ [.write id offset bytes]) (before ++ bytes) := by
  obtain ⟨parts, hsub, rfl⟩ := h
  refine ⟨parts ++ [bytes], ?_, by simp⟩
  rw [chunks_snoc_write]
  exact hsub.append (Sublist.refl _)

theorem Assembled.chunk (calls : List Call) (id : BlobUploadId) (offset : Nat) (bytes : Bytes) :
    Assembled (calls ++ [.write id offset bytes]) bytes :=
  (Assembled.nil calls).snoc id offset bytes

end Chunks

/-- The bytes an upload has received: an accepted write that follows on the bytes so far adds its
chunk, an accepted repetition adds nothing. -/
def receive (id : BlobUploadId) (received : Bytes) : Call × Answer → Bytes
  | (.write upload offset bytes, .ok _) =>
    if upload = id ∧ offset = received.length then received ++ bytes else received
  | _ => received

def received (trace : List (Call × Answer)) (id : BlobUploadId) : Bytes := trace.foldl (receive id) []

def accept (id : BlobUploadId) (last : Option (Nat × Bytes)) : Call × Answer → Option (Nat × Bytes)
  | (.write upload offset bytes, .ok _) => if upload = id then some (offset, bytes) else last
  | _ => last

def lastAccepted (trace : List (Call × Answer)) (id : BlobUploadId) : Option (Nat × Bytes) :=
  trace.foldl (accept id) none

theorem received_snoc (trace : List (Call × Answer)) (entry : Call × Answer) (id : BlobUploadId) :
    received (trace ++ [entry]) id = receive id (received trace id) entry := by
  simp [received]

theorem lastAccepted_snoc (trace : List (Call × Answer)) (entry : Call × Answer) (id : BlobUploadId) :
    lastAccepted (trace ++ [entry]) id = accept id (lastAccepted trace id) entry := by
  simp [lastAccepted]

theorem assembled_receive {calls : List Call} {before : Bytes} (h : Assembled calls before) (id : BlobUploadId)
    (entry : Call × Answer) : Assembled (calls ++ [entry.1]) (receive id before entry) := by
  have hkept : Assembled (calls ++ [entry.1]) before := h.mono (prefix_append _ _)
  obtain ⟨call, answer⟩ := entry
  cases call with
  | write upload offset bytes =>
    cases answer with
    | error e => exact hkept
    | ok value =>
      simp only [receive]
      split
      · exact h.snoc upload offset bytes
      · exact hkept
  | _ => exact hkept

theorem assembled_received (trace : List (Call × Answer)) (id : BlobUploadId) :
    Assembled (trace.map Prod.fst) (received trace id) := by
  induction trace using reverseRecOn with
  | nil => exact .nil _
  | append_singleton past entry ih =>
    rw [map_append, received_snoc]
    exact assembled_receive ih id entry

theorem assembled_lastAccepted {trace : List (Call × Answer)} {id : BlobUploadId} {offset : Nat} {bytes : Bytes}
    (h : lastAccepted trace id = some (offset, bytes)) : Assembled (trace.map Prod.fst) bytes := by
  induction trace using reverseRecOn with
  | nil => cases h
  | append_singleton past entry ih =>
    rw [lastAccepted_snoc] at h
    rw [map_append]
    obtain ⟨call, answer⟩ := entry
    cases call with
    | write upload offset' bytes' =>
      cases answer with
      | error e => exact (ih h).mono (prefix_append _ _)
      | ok value =>
        simp only [accept] at h
        split at h
        · obtain ⟨rfl, rfl⟩ := Prod.mk.inj (Option.some.inj h)
          exact .chunk _ upload offset' bytes'
        · exact (ih h).mono (prefix_append _ _)
    | _ => exact (ih h).mono (prefix_append _ _)

section Memory

variable {upload' : MemoryUpload} {maxBlobBytes offset next : Nat} {bytes : Bytes}

theorem memoryId_inj {m n : Nat} (h : memoryId m = memoryId n) : m = n := by
  have hlist := congrArg String.toList h
  rw [memoryId, memoryId, String.toList_append, String.toList_append] at hlist
  exact nat_repr_inj (String.toList_inj.mp (append_cancel_left hlist))

theorem MemoryUpload.write_ok {upload : MemoryUpload} (h : upload.write maxBlobBytes offset bytes = .ok (next, upload')) :
    (offset ≠ upload.bytes.length ∧ upload.previousWrite = some (offset, bytes) ∧
      next = upload.bytes.length ∧ upload' = upload) ∨
    (offset = upload.bytes.length ∧ next = upload.bytes.length + bytes.length ∧
      upload' = { upload with bytes := upload.bytes ++ bytes, previousWrite := some (offset, bytes) } ∧
      next ≤ u64Max ∧ next ≤ maxBlobBytes ∧ ¬ upload.expectedSize.any (· < next)) := by
  unfold MemoryUpload.write at h
  dsimp only at h
  split at h
  · rename_i hoffset
    split at h
    · rename_i hprevious
      cases h
      exact .inl ⟨hoffset, hprevious, rfl, rfl⟩
    · cases h
  · rename_i hoffset
    split at h
    · cases h
    split at h
    · cases h
    rename_i hu64
    split at h
    · cases h
    rename_i hlimit
    cases h
    obtain ⟨hwithin, hdeclared⟩ := not_or.mp hlimit
    exact .inr ⟨not_not.mp hoffset, rfl, rfl, Nat.not_lt.mp hu64, Nat.not_lt.mp hwithin, hdeclared⟩

structure Upload (maxBlobBytes : Nat) (trace : List (Call × Answer)) (id : BlobUploadId) (upload : MemoryUpload) : Prop where
  bytes : upload.bytes = received trace id
  previous : upload.previousWrite = lastAccepted trace id
  last : ∀ offset bytes, upload.previousWrite = some (offset, bytes) → offset + bytes.length = upload.bytes.length
  mediaType : validateMediaType upload.mediaType = .ok ()
  fits : upload.bytes.length ≤ u64Max ∧ upload.bytes.length ≤ maxBlobBytes ∧
    ¬ upload.expectedSize.any (· < upload.bytes.length)

/-- The uploads of a store after a trace. Identifiers are given out once and in order. -/
structure Uploads (maxBlobBytes : Nat) (trace : List (Call × Answer)) (s : MemoryBlobs) : Prop where
  issued : ∀ id upload, s.uploads.find id = some upload → ∃ n, id = memoryId n ∧ n ≤ s.nextUpload
  fresh : ∀ n, s.nextUpload < n → received trace (memoryId n) = [] ∧ lastAccepted trace (memoryId n) = none
  upload : ∀ id upload, s.uploads.find id = some upload → Upload maxBlobBytes trace id upload

def Silent : Call × Answer → Prop
  | (.write _ _ _, .ok _) => False
  | _ => True

theorem Silent.receive {entry : Call × Answer} (h : Silent entry) (id : BlobUploadId) (before : Bytes) :
    receive id before entry = before := by
  unfold Blobs.receive
  split
  · exact False.elim h
  · rfl

theorem Silent.accept {entry : Call × Answer} (h : Silent entry) (id : BlobUploadId) (last : Option (Nat × Bytes)) :
    accept id last entry = last := by
  unfold Blobs.accept
  split
  · exact False.elim h
  · rfl

variable {trace : List (Call × Answer)} {s : MemoryBlobs} {entry : Call × Answer} {id : BlobUploadId}
  {upload : MemoryUpload}

theorem Upload.silent (h : Upload maxBlobBytes trace id upload) (hsilent : Silent entry) :
    Upload maxBlobBytes (trace ++ [entry]) id upload :=
  { h with
    bytes := by rw [received_snoc, hsilent.receive, h.bytes]
    previous := by rw [lastAccepted_snoc, hsilent.accept, h.previous] }

theorem Uploads.silent (h : Uploads maxBlobBytes trace s) (hsilent : Silent entry) {s' : MemoryBlobs}
    (hnext : s'.nextUpload = s.nextUpload)
    (hfind : ∀ id upload, s'.uploads.find id = some upload → s.uploads.find id = some upload) :
    Uploads maxBlobBytes (trace ++ [entry]) s' where
  issued id upload hu := by
    rw [hnext]
    exact h.issued id upload (hfind id upload hu)
  fresh n hn := by
    rw [received_snoc, lastAccepted_snoc, hsilent.receive, hsilent.accept]
    exact h.fresh n (hnext ▸ hn)
  upload id upload hu := (h.upload id upload (hfind id upload hu)).silent hsilent

theorem Uploads.opened (h : Uploads maxBlobBytes trace s) (hsilent : Silent entry) {mediaType : String} {expectedSize : Option Nat}
    (hmedia : validateMediaType mediaType = .ok ()) :
    Uploads maxBlobBytes (trace ++ [entry]) { s with
      nextUpload := s.nextUpload + 1
      uploads := s.uploads.insert (memoryId (s.nextUpload + 1)) ⟨mediaType, expectedSize, [], none⟩ } where
  issued id upload hu := by
    rw [Map.find_insert] at hu
    split at hu
    · rename_i heq
      exact ⟨s.nextUpload + 1, heq.symm, Nat.le_refl _⟩
    · obtain ⟨n, hn, hle⟩ := h.issued id upload hu
      exact ⟨n, hn, Nat.le_succ_of_le hle⟩
  fresh n hn := by
    rw [received_snoc, lastAccepted_snoc, hsilent.receive, hsilent.accept]
    exact h.fresh n (Nat.lt_of_succ_lt hn)
  upload id upload hu := by
    rw [Map.find_insert] at hu
    split at hu
    · rename_i heq
      cases hu
      obtain ⟨hbytes, hlast⟩ := h.fresh (s.nextUpload + 1) (Nat.lt_succ_self _)
      refine Upload.silent ⟨?_, ?_, nofun, hmedia, Nat.zero_le _, Nat.zero_le _, by cases expectedSize <;> simp⟩ hsilent
      · rw [← heq, hbytes]
      · rw [← heq, hlast]
    · exact (h.upload id upload hu).silent hsilent

theorem Upload.written (h : Upload maxBlobBytes trace id upload)
    (hwrite : upload.write maxBlobBytes offset bytes = .ok (next, upload')) (value : Value) :
    Upload maxBlobBytes (trace ++ [(.write id offset bytes, .ok value)]) id upload' := by
  rcases MemoryUpload.write_ok hwrite with ⟨hoffset, hprevious, -, rfl⟩ | ⟨hoffset, rfl, rfl, hfits⟩
  · refine ⟨?_, ?_, h.last, h.mediaType, h.fits⟩
    · rw [received_snoc, receive, if_neg (by rw [← h.bytes]; simp [hoffset]), h.bytes]
    · rw [lastAccepted_snoc, accept, if_pos rfl, hprevious]
  · refine ⟨?_, ?_, ?_, h.mediaType, length_append ▸ hfits⟩
    · rw [received_snoc, receive, if_pos ⟨rfl, by rw [← h.bytes, hoffset]⟩, h.bytes]
    · rw [lastAccepted_snoc, accept, if_pos rfl]
    · intro offset' bytes' heq
      obtain ⟨rfl, rfl⟩ := Prod.mk.inj (Option.some.inj heq)
      rw [length_append, hoffset]

theorem Upload.other (h : Upload maxBlobBytes trace id upload) {other : BlobUploadId} (hne : other ≠ id) (offset : Nat)
    (bytes : Bytes) (value : Value) : Upload maxBlobBytes (trace ++ [(.write other offset bytes, .ok value)]) id upload :=
  { h with
    bytes := by rw [received_snoc, receive, if_neg (by simp [hne]), h.bytes]
    previous := by rw [lastAccepted_snoc, accept, if_neg hne, h.previous] }

theorem Uploads.written (h : Uploads maxBlobBytes trace s) (hfind : s.uploads.find id = some upload)
    (hwrite : upload.write maxBlobBytes offset bytes = .ok (next, upload')) (value : Value) :
    Uploads maxBlobBytes (trace ++ [(.write id offset bytes, .ok value)]) { s with uploads := s.uploads.insert id upload' } where
  issued id' upload'' hu := by
    rw [Map.find_insert] at hu
    split at hu
    · rename_i heq
      exact heq ▸ h.issued id upload hfind
    · exact h.issued id' upload'' hu
  fresh n hn := by
    obtain ⟨k, hk, hle⟩ := h.issued id upload hfind
    have hne : id ≠ memoryId n := by
      intro heq
      have := memoryId_inj (hk.symm.trans heq)
      change s.nextUpload < n at hn
      omega
    rw [received_snoc, lastAccepted_snoc, receive, accept, if_neg (by simp [hne]), if_neg hne]
    exact h.fresh n hn
  upload id' upload'' hu := by
    rw [Map.find_insert] at hu
    split at hu
    · rename_i heq
      subst heq
      cases hu
      exact (h.upload id upload hfind).written hwrite value
    · rename_i hne
      exact (h.upload id' upload'' hu).other hne offset bytes value

end Memory

section Digests

theorem hexDigit_lower {n : Nat} (h : n < 16) : isLowerHex (hexDigit n) = true := by
  have hall : ∀ n < 16, isLowerHex (hexDigit n) = true := by decide
  exact hall n h

theorem hexDigit_inj {m n : Nat} (hm : m < 16) (hn : n < 16) (h : hexDigit m = hexDigit n) : m = n := by
  have hall : ∀ m < 16, ∀ n < 16, hexDigit m = hexDigit n → m = n := by decide
  exact hall m hm n hn h

theorem high_lt (byte : UInt8) : byte.toNat / 16 < 16 := by
  have := byte.toNat_lt
  omega

theorem low_lt (byte : UInt8) : byte.toNat % 16 < 16 := Nat.mod_lt _ (by decide)

theorem hex_length (bytes : Bytes) : (hex bytes).toList.length = 2 * bytes.length := by
  rw [hex, String.toList_ofList]
  induction bytes with
  | nil => rfl
  | cons byte rest ih =>
    rw [flatMap_cons, length_append, ih, length_cons]
    simp only [length_cons, length_nil]
    omega

theorem hex_lower (bytes : Bytes) : (hex bytes).toList.all isLowerHex = true := by
  rw [hex, String.toList_ofList]
  induction bytes with
  | nil => rfl
  | cons byte rest ih =>
    rw [flatMap_cons, all_append, ih]
    simp [hexDigit_lower (high_lt byte), hexDigit_lower (low_lt byte)]

theorem hex_inj {a b : Bytes} (h : hex a = hex b) : a = b := by
  have hlist := congrArg String.toList h
  rw [hex, hex, String.toList_ofList, String.toList_ofList] at hlist
  induction a generalizing b with
  | nil =>
    cases b with
    | nil => rfl
    | cons byte rest => cases hlist
  | cons byte rest ih =>
    cases b with
    | nil => cases hlist
    | cons byte' rest' =>
      simp only [flatMap_cons, cons_append, nil_append, cons.injEq] at hlist
      obtain ⟨hhigh, hlow, htail⟩ := hlist
      have h₁ := hexDigit_inj (high_lt byte) (high_lt byte') hhigh
      have h₂ := hexDigit_inj (low_lt byte) (low_lt byte') hlow
      have hbyte : byte = byte' := UInt8.toNat_inj.mp (by omega)
      rw [hbyte, ih (by rw [hex, hex, htail]) htail]

def Sha256.WellSized (sha256 : Sha256) : Prop := ∀ bytes, (sha256 bytes).length = 32

variable {sha256 : Sha256}

theorem sha256Hex_length (hsize : sha256.WellSized) (bytes : Bytes) : (sha256Hex sha256 bytes).toList.length = 64 := by
  rw [sha256Hex, hex_length, hsize]

theorem CollisionFree.hex {calls : List Call} (h : CollisionFree sha256 calls) {a b : Bytes} (ha : Assembled calls a)
    (hb : Assembled calls b) (heq : sha256Hex sha256 a = sha256Hex sha256 b) : a = b :=
  h a b ha hb (hex_inj heq)

structure RefersTo (sha256 : Sha256) (ref : BlobRef) (bytes : Bytes) : Prop where
  algorithm : ref.algorithm = sha256Algorithm
  digest : ref.digest = sha256Hex sha256 bytes
  size : ref.size = bytes.length
  mediaType : validateMediaType ref.mediaType = .ok ()

theorem RefersTo.valid {ref : BlobRef} {bytes : Bytes} (h : RefersTo sha256 ref bytes) (hsize : sha256.WellSized) :
    validateBlobRef ref = .ok () := by
  have hdigest : ¬ (ref.digest.toList.length ≠ 64 ∨ ¬ ref.digest.toList.all isLowerHex) := by
    rw [h.digest, not_or, not_not, not_not]
    exact ⟨sha256Hex_length hsize bytes, hex_lower _⟩
  rw [validateBlobRef, if_neg (by simp [h.algorithm]), if_neg hdigest, h.mediaType]

end Digests

end Pluribus.Blobs
