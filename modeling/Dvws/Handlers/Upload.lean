import Dvws.Handlers.Admin
import Dvws.Memory.Block

/-!
# Where an upload is written

`upload_file` allocates the sum of three 32-bit numbers, writes the record header to the front of
the allocation, and receives the body behind it. The sum may wrap around once or twice; each time
the allocation gets too small for the header and the body together, so the upload stays inside
exactly when the sum does not wrap (`upload_stays_inside_iff`).
-/

namespace Dvws

open Effect Memory

/-- The bytes of a `uint32_t`, in the order of memory. -/
def wordBytes (n : UInt32) : Bytes :=
  [n.toUInt8, (n >>> 8).toUInt8, (n >>> 16).toUInt8, (n >>> 24).toUInt8]

/-- `UploadHeader header{}` with its two fields set. -/
def uploadHeader (filenameLen : UInt32) : Bytes :=
  wordBytes 0x44565753 ++ wordBytes filenameLen ++ List.replicate 56 0

/-- `allocation`. -/
def allocationSize (contentLen filenameLen : UInt32) : UInt32 :=
  UInt32.ofNat uploadHeaderSize + contentLen + filenameLen

/-- The writes of `upload_file` to `file_buffer`: the header, and what `recv` gives behind it. -/
def storeUpload (contentLen filenameLen : UInt32) (received : Bytes) :
    Except Fault (Block UInt8) := do
  let fileBuffer := fresh (allocationSize contentLen filenameLen).toNat
  let fileBuffer ← storeAll fileBuffer 0 (uploadHeader filenameLen)
  storeAll fileBuffer uploadHeaderSize received

/-- The client is sent an answer, or up to `content_len` bytes are received into the allocation, for
the truncated values of the two headers. -/
def UploadEvent (req : HttpRequest) : Event → Prop
  | .send _ _ => True
  | .receive capacity length => ∃ contentLength filenameLength,
      header req.text (lit "Content-Length") = .ok contentLength ∧
      header req.text (lit "X-Filename-Length") = .ok filenameLength ∧
      capacity = (allocationSize (UInt32.ofNat (strtoul contentLength))
        (UInt32.ofNat (strtoul filenameLength))).toNat ∧
      length = (UInt32.ofNat (strtoul contentLength)).toNat
  | _ => False

/-- The header fills its 64 bytes. -/
theorem length_upload_header (filenameLen : UInt32) :
    (uploadHeader filenameLen).length = uploadHeaderSize := by
  simp [uploadHeader, wordBytes, uploadHeaderSize]

/-- The allocation is the sum up to a multiple of `2 ^ 32`. -/
theorem allocation_size_eq (contentLen filenameLen : UInt32) :
    (allocationSize contentLen filenameLen).toNat =
      (uploadHeaderSize + contentLen.toNat + filenameLen.toNat) % 2 ^ 32 := by
  simp [allocationSize, uploadHeaderSize, UInt32.toNat_add]

/-- This is what `uploadAllocation` computes from the truncated numbers. -/
theorem upload_allocation_eq (m n : Nat) :
    uploadAllocation (m % 2 ^ 32) (n % 2 ^ 32) =
      (allocationSize (UInt32.ofNat m) (UInt32.ofNat n)).toNat := by
  rw [allocation_size_eq, uploadAllocation, UInt32.toNat_ofNat', UInt32.toNat_ofNat']

/-- `upload_file` emits an `UploadEvent` or nothing. -/
theorem upload_file_emits (plat : Platform) (req : HttpRequest) :
    Behaves (UploadEvent req) id (uploadFile plat req) := by
  obtain ⟨contentLength, hcontent⟩ :=
    extract_header_value_returns req.text (lit "Content-Length" ++ lit ":")
  obtain ⟨filenameLength, hfilename⟩ :=
    extract_header_value_returns req.text (lit "X-Filename-Length" ++ lit ":")
  have hanswer (body : Bytes) (headOnly : Bool) :
      Behaves (UploadEvent req) id (sendJson plat body headOnly) :=
    send_json_emits (fun _ => trivial) body headOnly
  unfold uploadFile
  rw [show header req.text (lit "Content-Length") = .ok contentLength from hcontent, lift_ok_bind,
    show header req.text (lit "X-Filename-Length") = .ok filenameLength from hfilename]
  refine .ite (hanswer _ _) ?_
  rw [lift_ok_bind]
  refine .ite (hanswer _ _) (.ite (.bind (.emit ?_) fun _ => hanswer _ _) (.pure ()))
  refine ⟨contentLength, filenameLength, hcontent, hfilename, upload_allocation_eq _ _, ?_⟩
  rw [UInt32.toNat_ofNat']

/-- The writes are possible exactly when the header and the body fit. -/
theorem store_upload_ok_iff {contentLen filenameLen : UInt32} {received : Bytes} :
    (∃ block, storeUpload contentLen filenameLen received = .ok block) ↔
      uploadHeaderSize + received.length ≤ (allocationSize contentLen filenameLen).toNat := by
  have hheader : (∃ block, storeAll (fresh (allocationSize contentLen filenameLen).toNat) 0
      (uploadHeader filenameLen) = .ok block) ↔
        uploadHeaderSize ≤ (allocationSize contentLen filenameLen).toNat := by
    rw [store_all_ok_iff, length_upload_header, fresh, List.length_replicate, Nat.zero_add,
      or_iff_right]
    exact List.ne_nil_of_length_pos (by rw [length_upload_header]; decide)
  unfold storeUpload
  dsimp only
  cases hstore : storeAll (fresh (allocationSize contentLen filenameLen).toNat) 0
      (uploadHeader filenameLen) with
  | error fault =>
      rw [hstore] at hheader
      have hsmall : ¬ uploadHeaderSize ≤ (allocationSize contentLen filenameLen).toNat :=
        fun hroom => nomatch hheader.mpr hroom
      refine iff_of_false (fun hsome => ?_) (by omega)
      obtain ⟨block, hblock⟩ := hsome
      cases hblock
  | ok middle =>
      rw [hstore] at hheader
      have hroom : uploadHeaderSize ≤ (allocationSize contentLen filenameLen).toNat :=
        hheader.mp ⟨middle, rfl⟩
      rw [bind_fault, store_all_ok_iff, length_of_store_all hstore, fresh, List.length_replicate]
      constructor
      · rintro (rfl | hinside)
        · exact hroom
        · exact hinside
      · exact Or.inr

/-- Everything that may be received is written inside the allocation exactly when the sum of the
three numbers does not wrap around. -/
theorem upload_stays_inside_iff (contentLen filenameLen : UInt32) :
    (∀ received : Bytes, received.length ≤ contentLen.toNat →
      ∃ block, storeUpload contentLen filenameLen received = .ok block) ↔
      64 + contentLen.toNat + filenameLen.toNat < 2 ^ 32 := by
  have hcontent : contentLen.toNat < 2 ^ 32 := contentLen.toNat_lt
  have hfilename : filenameLen.toNat < 2 ^ 32 := filenameLen.toNat_lt
  simp only [store_upload_ok_iff, allocation_size_eq, uploadHeaderSize]
  constructor
  · intro hinside
    have hwhole := hinside (List.replicate contentLen.toNat 0) (by simp)
    rw [List.length_replicate] at hwhole
    omega
  · intro hsum received hreceived
    rw [Nat.mod_eq_of_lt hsum]
    omega

end Dvws
