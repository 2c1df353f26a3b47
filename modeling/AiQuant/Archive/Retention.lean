import AiQuant.Archive.ReceiverRun
import Mathlib.Algebra.Order.BigOperators.Group.List
import Mathlib.Algebra.Order.Ring.Int

/-! Local retention.  Old local files are deleted only when a signed receipt of the remote
archive verifies for them, so the copy behind the receipt must be there. -/
namespace AiQuant.Archive

structure ArchivedObject where
  relativePath : String
  sha256 : String
  sizeBytes : Int
  rowCount : Int
  schemaVersion : String

/-- `verify_remote_decryption_receipt`.  The signature check is a parameter. -/
def verifyRemoteDecryptionReceipt (signatureValid : Receipt → Bool) (receipt : Receipt)
    (archived : ArchivedObject) (expectedCiphertextSha256 : String)
    (expectedCiphertextSizeBytes : Int) (expectedSignerKeyId : String)
    (seenReceiptIds : Finset String) : Bool :=
  if receipt.objectPath ≠ archived.relativePath ∨
      receipt.plaintextSha256 ≠ archived.sha256 ∨
      receipt.plaintextSizeBytes ≠ archived.sizeBytes ∨
      receipt.ciphertextSha256 ≠ expectedCiphertextSha256 ∨
      receipt.ciphertextSizeBytes ≠ expectedCiphertextSizeBytes ∨
      receipt.remoteEtag ≠ expectedCiphertextSha256 ∨
      receipt.parquetRowCount ≠ archived.rowCount ∨
      receipt.parquetSchemaVersion ≠ archived.schemaVersion ∨
      receipt.signerKeyId ≠ expectedSignerKeyId ∨
      receipt.decryptedAt.microseconds < receipt.uploadedAt.microseconds ∨
      receipt.receiptId ∈ seenReceiptIds then
    false
  else
    signatureValid receipt

structure RetentionCandidate where
  path : String
  sizeBytes : Int
  modifiedAt : Moment
deriving DecidableEq

/-- The order `plan_verified_deletions` sorts by: the oldest first, then by path. -/
def RetentionCandidate.Before (left right : RetentionCandidate) : Prop :=
  left.modifiedAt.microseconds < right.modifiedAt.microseconds ∨
    left.modifiedAt.microseconds = right.modifiedAt.microseconds ∧ left.path ≤ right.path

instance : DecidableRel RetentionCandidate.Before :=
  fun left right => inferInstanceAs (Decidable (_ ∨ _ ∧ left.path ≤ right.path))

/-- The second loop of `plan_verified_deletions`. -/
def selectOldest (remotelyVerified : Finset String) (maximumBytes : Int) :
    List RetentionCandidate → List RetentionCandidate → Int → List RetentionCandidate
  | [], selected, _ => selected
  | item :: rest, selected, remainingBytes =>
    if remainingBytes ≤ maximumBytes then
      selected
    else if item.path ∈ remotelyVerified ∧ item.path ∉ selected.map RetentionCandidate.path then
      selectOldest remotelyVerified maximumBytes rest (selected ++ [item])
        (remainingBytes - item.sizeBytes)
    else
      selectOldest remotelyVerified maximumBytes rest selected remainingBytes

/-- The default `maximum_age`, 72 hours in microseconds. -/
def defaultMaximumAge : Int := 72 * 60 * 60 * 1000000

/-- The default `maximum_bytes`. -/
def defaultMaximumBytes : Int := 80 * 1024 ^ 3

/-- The instants of a `datetime`, in microseconds of the Unix epoch. -/
def datetimeRepresents (microseconds : Int) : Bool :=
  -62135596800000000 ≤ microseconds && microseconds < 253402300800000000

def comparisonError (candidates : List RetentionCandidate) (now : Moment) (maximumAge : Int) :
    Option PyError :=
  let mismatch := ⟨"TypeError", "can't compare offset-naive and offset-aware datetimes"⟩
  let zones := candidates.map fun item => item.modifiedAt.utcOffset.isSome
  if true ∈ zones ∧ false ∈ zones then some mismatch
  else if zones ≠ [] ∧ ¬ datetimeRepresents (now.microseconds - maximumAge) then
    some ⟨"OverflowError", "date value out of range"⟩
  else if false ∈ zones then some mismatch
  else none

def planVerifiedDeletions (candidates : List RetentionCandidate)
    (remotelyVerified : Finset String) (now : Moment) (maximumAge : Int := defaultMaximumAge)
    (maximumBytes : Int := defaultMaximumBytes) : Except PyError (List RetentionCandidate) :=
  if now.utcOffset ≠ some 0 then
    raise "now must be timezone-aware UTC"
  else if let some error := comparisonError candidates now maximumAge then
    .error error
  else
    let ordered := candidates.insertionSort RetentionCandidate.Before
    let selected := ordered.filter fun item =>
      item.modifiedAt.microseconds < now.microseconds - maximumAge ∧ item.path ∈ remotelyVerified
    let remainingBytes := ((ordered.filter fun item =>
      item.path ∉ selected.map RetentionCandidate.path).map RetentionCandidate.sizeBytes).sum
    .ok (selectOldest remotelyVerified maximumBytes ordered selected remainingBytes)

theorem selectOldest_verified {remotelyVerified : Finset String} {maximumBytes : Int}
    {items selected : List RetentionCandidate} {remainingBytes : Int}
    (hs : ∀ item ∈ selected, item.path ∈ remotelyVerified) :
    ∀ item ∈ selectOldest remotelyVerified maximumBytes items selected remainingBytes,
      item.path ∈ remotelyVerified := by
  induction items generalizing selected remainingBytes with
  | nil => exact hs
  | cons first rest ih =>
    rw [selectOldest]
    split_ifs with he ht
    · exact hs
    · apply ih
      rw [List.forall_mem_append]
      exact ⟨hs, by simpa using ht.1⟩
    · exact ih hs

theorem planVerifiedDeletions_verified {cands selected : List RetentionCandidate}
    {remotelyVerified : Finset String} {now : Moment} {maximumAge maximumBytes : Int}
    (hp : planVerifiedDeletions cands remotelyVerified now maximumAge maximumBytes =
      .ok selected) : ∀ item ∈ selected, item.path ∈ remotelyVerified := by
  rw [planVerifiedDeletions] at hp
  split_ifs at hp
  · cases hp
  split at hp
  · cases hp
  · cases hp
    apply selectOldest_verified
    intro item hi
    rw [List.mem_filter, decide_eq_true_eq] at hi
    exact hi.2.2

/-- A receipt of the archive verifies for the local file at `path`, whose upload had the
given ciphertext hash and size. -/
def VerifiedRemotely (signatureValid : Receipt → Bool) (archive : ArchiveRoot) (path : String)
    (ciphertextSha256 : String) (ciphertextSizeBytes : Int) : Prop :=
  ∃ receiptId receipt archived signerKeyId seenReceiptIds,
    archive.receipts.lookup receiptId = some receipt ∧ archived.relativePath = path ∧
      verifyRemoteDecryptionReceipt signatureValid receipt archived ciphertextSha256
        ciphertextSizeBytes signerKeyId seenReceiptIds = true

/-- The archive holds an object with the given hash and size. -/
def HasRemoteCopy (receiver : Receiver) (archive : ArchiveRoot) (ciphertextSha256 : String)
    (ciphertextSizeBytes : Int) : Prop :=
  ∃ receiptId content, archive.objects.lookup (.ciphertext receiptId) = some (.file content) ∧
    receiver.sha256 content = ciphertextSha256 ∧ (content.length : Int) = ciphertextSizeBytes

theorem ReceiptsBacked.hasRemoteCopy {receiver : Receiver} {signatureValid : Receipt → Bool}
    {archive : ArchiveRoot} {path ciphertextSha256 : String} {ciphertextSizeBytes : Int}
    (hba : ReceiptsBacked receiver archive)
    (hve : VerifiedRemotely signatureValid archive path ciphertextSha256 ciphertextSizeBytes) :
    HasRemoteCopy receiver archive ciphertextSha256 ciphertextSizeBytes := by
  obtain ⟨receiptId, rcpt, archived, signerKeyId, seen, hr, -, hv⟩ := hve
  obtain ⟨content, hc, hh, hs⟩ := hba receiptId rcpt hr
  have hb : rcpt.ciphertextSha256 = ciphertextSha256 ∧
      rcpt.ciphertextSizeBytes = ciphertextSizeBytes := by
    rw [verifyRemoteDecryptionReceipt] at hv
    split at hv
    · cases hv
    · rename_i hm
      simp only [not_or, ne_eq, not_not] at hm
      exact ⟨hm.2.2.2.1, hm.2.2.2.2.1⟩
  exact ⟨receiptId, content, hc, hh.trans hb.1, hs.trans hb.2⟩

def ArchiveRoot.initial (incoming : Directory) : ArchiveRoot where
  incoming
  objects := ∅
  receipts := ∅
  quarantine := []

theorem initial_backed (receiver : Receiver) (incoming : Directory) :
    ReceiptsBacked receiver (.initial incoming) := by
  intro receiptId rcpt hr
  exact nomatch hr

/-- Over every history of uploads and receiver runs, every receipt has its object in every
state exactly when no run takes up a metadata file of an id that already has a receipt.  In
such a history retention deletes no file whose remote copy is missing. -/
theorem receipts_backed_iff_no_receipt_repeated (receiver : Receiver)
    (signatureValid : Receipt → Bool) (incoming : Directory) (events : List ArchiveEvent) :
    ((∀ st ∈ archivesOf receiver (.initial incoming) events, ReceiptsBacked receiver st) ↔
        NoReceiptRepeated receiver (.initial incoming) events) ∧
      (NoReceiptRepeated receiver (.initial incoming) events →
        ∀ st ∈ archivesOf receiver (.initial incoming) events,
        ∀ (cands selected : List RetentionCandidate) (remotelyVerified : Finset String)
          (ciphertextSha256 : String → String) (ciphertextSizeBytes : String → Int)
          (now : Moment) (maximumAge maximumBytes : Int),
          (∀ path ∈ remotelyVerified, VerifiedRemotely signatureValid st path
            (ciphertextSha256 path) (ciphertextSizeBytes path)) →
          planVerifiedDeletions cands remotelyVerified now maximumAge maximumBytes =
            .ok selected → ∀ item ∈ selected, HasRemoteCopy receiver st (ciphertextSha256 item.path)
            (ciphertextSizeBytes item.path)) := by
  have hi := archivesOf_backed_iff events (initial_backed receiver incoming)
  refine ⟨hi, ?_⟩
  intro hf st hs cands selected remotelyVerified sha size now age bytes hv hplan item hitem
  have hb := hi.mpr hf st hs
  exact hb.hasRemoteCopy (hv item.path (planVerifiedDeletions_verified hplan item hitem))

/-! ### An id that is uploaded twice -/

def sampleId : String := "0000000000000000000000000000000a"

def sampleDigest : String := "00000000000000000000000000000000000000000000000000000000000000ff"

def sampleFields : Fields :=
  [⟨"schema_version", .string "1.0.0"⟩, ⟨"receipt_id", .string sampleId⟩,
    ⟨"object_path", .string "trades/part.parquet"⟩, ⟨"plaintext_sha256", .string sampleDigest⟩,
    ⟨"plaintext_size_bytes", .integer 2⟩, ⟨"ciphertext_sha256", .string sampleDigest⟩,
    ⟨"ciphertext_size_bytes", .integer 2⟩, ⟨"uploaded_at", .string "2026-01-01T00:00:00Z"⟩,
    ⟨"encryption_format", .string "age-v1-x25519"⟩, ⟨"inspection_type", .string "PARQUET"⟩,
    ⟨"expected_parquet_row_count", .integer 1⟩,
    ⟨"expected_parquet_schema_version", .string "1.0.0"⟩].toAList

def sampleReceiver : Receiver where
  remoteUriPrefix := "sftp://archive/"
  signerKeyId := "receiver-1"
  sha256 content := if content = [7, 8] then sampleDigest else ""
  loadsJson content :=
    if content = [1] then .ok (.object sampleFields) else .error ⟨"JSONDecodeError", ""⟩
  fromisoformat text :=
    if text = "2026-01-01T00:00:00Z" then .ok ⟨0, some 0⟩ else raise "Invalid isoformat string"
  ageDecrypt content := if content = [7, 8] then some [7, 8] else none
  readParquet content :=
    if content = [7, 8] then .ok (1, [.string "1.0.0"]) else .error ⟨"ArrowInvalid", ""⟩
  sign _ := "signature"
  follow _ _ := none

def sampleUpload : Directory :=
  [⟨.metadata sampleId, .file [1]⟩, ⟨.ciphertext sampleId, .file [7, 8]⟩].toAList

def sampleInputs (_ : String) : HostInputs where
  decryptedAt := ⟨1, some 0⟩
  receiptWrite := .written
  uuid := "00"

def sampleArchive : ArchiveRoot :=
  (ArchiveRoot.initial sampleUpload).applyAll
    (main sampleReceiver sampleInputs (.initial sampleUpload)).1

def repeatedArchive : ArchiveRoot :=
  let uploaded := { sampleArchive with incoming := sampleUpload }
  uploaded.applyAll (main sampleReceiver sampleInputs uploaded).1

def repeatedUpload : List ArchiveEvent :=
  [.receive sampleInputs, .upload sampleUpload, .receive sampleInputs]

theorem pendingUploads_sampleUpload (archive : ArchiveRoot)
    (hi : archive.incoming = sampleUpload) : pendingUploads archive = [sampleId] := by
  rw [pendingUploads, hi]
  decide

theorem sampleUpload_unreceipted :
    NoReceiptRepeated sampleReceiver (.initial sampleUpload) [.receive sampleInputs] := by
  refine ⟨?_, trivial⟩
  rw [pendingUploads_sampleUpload _ rfl]
  exact ⟨⟨rfl, fun _ hw => nomatch hw⟩, trivial⟩

theorem sampleArchive_verified :
    VerifiedRemotely (fun _ => true) sampleArchive "trades/part.parquet" sampleDigest 2 := by
  have hs : ∃ rcpt, sampleArchive.receipts.lookup sampleId = some rcpt ∧
      verifyRemoteDecryptionReceipt (fun _ => true) rcpt
        ⟨"trades/part.parquet", sampleDigest, 2, 1, "1.0.0"⟩ sampleDigest 2 "receiver-1" ∅ := by
    refine ⟨signReceipt sampleReceiver (receiptBody sampleReceiver sampleId
      ⟨⟨"trades/part.parquet", sampleDigest, 2, sampleDigest, 2, ⟨0, some 0⟩, 1, "1.0.0"⟩, 1,
        "1.0.0"⟩ ⟨1, some 0⟩), ?_, ?_⟩
    · decide
    · decide
  obtain ⟨rcpt, hr, hv⟩ := hs
  exact ⟨sampleId, rcpt, _, _, _, hr, rfl, hv⟩

theorem receipts_backed_single_upload :
    (∀ st ∈ archivesOf sampleReceiver (.initial sampleUpload) [.receive sampleInputs],
        ReceiptsBacked sampleReceiver st) ∧
      HasRemoteCopy sampleReceiver sampleArchive sampleDigest 2 := by
  have hm := receipts_backed_iff_no_receipt_repeated sampleReceiver (fun _ => true)
    sampleUpload [.receive sampleInputs]
  have hl : sampleArchive ∈
      archivesOf sampleReceiver (.initial sampleUpload) [.receive sampleInputs] := by
    simp [archivesOf, sampleArchive]
  refine ⟨hm.1.mpr sampleUpload_unreceipted, ?_⟩
  refine hm.2 sampleUpload_unreceipted sampleArchive hl
    [⟨"trades/part.parquet", 2, ⟨0, some 0⟩⟩] [⟨"trades/part.parquet", 2, ⟨0, some 0⟩⟩]
    {"trades/part.parquet"} (fun _ => sampleDigest) (fun _ => 2) ⟨300000000000, some 0⟩
    defaultMaximumAge defaultMaximumBytes ?_ ?_ _ (List.mem_singleton.mpr rfl)
  · intro path hp
    rw [Finset.mem_singleton] at hp
    rw [hp]
    exact sampleArchive_verified
  · decide

/-- The second run finds the id taken, and its quarantine sweeps the accepted object away. -/
theorem repeated_upload_loses_object :
    ¬ ∀ (receiver : Receiver) (incoming : Directory) (events : List ArchiveEvent),
      ∀ st ∈ archivesOf receiver (.initial incoming) events, ReceiptsBacked receiver st := by
  intro hcl
  have hl : repeatedArchive ∈ archivesOf sampleReceiver (.initial sampleUpload) repeatedUpload := by
    simp [archivesOf, repeatedUpload, repeatedArchive, sampleArchive]
  have hr : (repeatedArchive.receipts.lookup sampleId).isSome := by
    decide
  have hg : repeatedArchive.objects.lookup (.ciphertext sampleId) = none := by
    decide
  obtain ⟨rcpt, hr⟩ := Option.isSome_iff_exists.mp hr
  obtain ⟨content, hc, -⟩ :=
    hcl sampleReceiver sampleUpload repeatedUpload repeatedArchive hl sampleId rcpt hr
  cases hg.symm.trans hc

end AiQuant.Archive
