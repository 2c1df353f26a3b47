import Mathlib.Data.Finset.Basic
import Mathlib.Data.List.AList
import Mathlib.Data.List.Sort
import AiQuant.Lib.Fallible

/-! The archive receiver: it decrypts and inspects what the sending host uploads to
`incoming`, moves an accepted pair to `objects` and signs a receipt for it.  Whatever it
refuses goes to `quarantine`.  Hashing, decryption, the Parquet reader, the JSON reader
and the signature are parameters; every move of a file is a step of its own. -/
namespace AiQuant.Archive
open AiQuant.Lib

abbrev Content := List UInt8

inductive FileName where
  /-- `{receiptId}.metadata.json`. -/
  | metadata (receiptId : String)
  /-- `{receiptId}.age`. -/
  | ciphertext (receiptId : String)
deriving DecidableEq

def FileName.text : FileName → String
  | .metadata receiptId => receiptId ++ ".metadata.json"
  | .ciphertext receiptId => receiptId ++ ".age"

/-- The id of a metadata file, as `removesuffix` leaves it. -/
def FileName.metadataId? : FileName → Option String
  | .metadata receiptId => some receiptId
  | .ciphertext _ => none

inductive Node where
  | file (content : Content)
  | directory
  | symlink (target : String)

abbrev Directory := AList fun _ : FileName => Node

/-- An exception of the receiver, as `failure.json` names it. -/
structure PyError where
  kind : String
  message : String
deriving DecidableEq

def raise {α : Type} (message : String) : Except PyError α :=
  .error ⟨"ValueError", message⟩

inductive JsonValue where
  | string (text : String)
  | integer (value : Int)
  | boolean (value : Bool)
  | other
deriving DecidableEq

abbrev Fields := AList fun _ : String => JsonValue

/-- What `json.loads` returns: a `dict`, or anything else. -/
inductive JsonText where
  | object (fields : Fields)
  | other

/-- An instant and the offset of its time zone, when it has one. -/
structure Moment where
  microseconds : Int
  utcOffset : Option Int
deriving DecidableEq

/-- A metadata document that `_validate_metadata` let through. -/
structure ArchiveMetadata where
  objectPath : String
  plaintextSha256 : String
  plaintextSizeBytes : Int
  ciphertextSha256 : String
  ciphertextSizeBytes : Int
  uploadedAt : Moment
  expectedParquetRowCount : Int
  expectedParquetSchemaVersion : String

structure ReceiptBody where
  schemaVersion : String
  receiptId : String
  objectPath : String
  remoteCiphertextPath : String
  plaintextSha256 : String
  plaintextSizeBytes : Int
  ciphertextSha256 : String
  ciphertextSizeBytes : Int
  remoteUri : String
  remoteEtag : String
  uploadedAt : Moment
  decryptedAt : Moment
  encryptionFormat : String
  inspectionType : String
  inspectionStatus : String
  parquetRowCount : Int
  parquetSchemaVersion : String
  signerKeyId : String
deriving DecidableEq

structure Receipt extends ReceiptBody where
  signatureBase64 : String
deriving DecidableEq

/-- The configuration of the receiver and the code it calls outside the repository. -/
structure Receiver where
  remoteUriPrefix : String
  signerKeyId : String
  sha256 : Content → String
  /-- `json.loads(path.read_text())`. -/
  loadsJson : Content → Except PyError JsonText
  fromisoformat : String → Except PyError Moment
  /-- `age --decrypt`, `none` on a return code other than zero. -/
  ageDecrypt : Content → Option Content
  /-- The row count and the distinct values of the `schema_version` column. -/
  readParquet : Content → Except PyError (Int × List JsonValue)
  sign : ReceiptBody → String
  /-- Where a symbolic link of a directory leads to, `none` when it dangles. -/
  follow : Directory → String → Option Node

/-! ### Checks of the metadata -/

def isLowerHex (digits : Nat) (text : String) : Bool :=
  text.toList.all (fun c => ('0' ≤ c && c ≤ '9') || ('a' ≤ c && c ≤ 'f')) &&
    text.toList.length == digits

/-- `_IDENTIFIER.fullmatch`. -/
def isIdentifier (text : String) : Bool := isLowerHex 32 text

/-- `_SHA256.fullmatch`. -/
def isSha256 (text : String) : Bool := isLowerHex 64 text

def metadataFields : List String :=
  ["schema_version", "receipt_id", "object_path", "plaintext_sha256", "plaintext_size_bytes",
    "ciphertext_sha256", "ciphertext_size_bytes", "uploaded_at", "encryption_format",
    "inspection_type", "expected_parquet_row_count", "expected_parquet_schema_version"]

def isArchivePathChar (c : Char) : Bool :=
  ('A' ≤ c && c ≤ 'Z') || ('a' ≤ c && c ≤ 'z') || ('0' ≤ c && c ≤ '9') ||
    c == '.' || c == '_' || c == '=' || c == '/' || c == '-'

def normalizedRelativePath (value : Option JsonValue) : Except PyError String :=
  match value with
  | some (.string text) =>
    if text.toList = [] ∨ text.toList.head? = some '/' ∨
        ¬ text.toList.all isArchivePathChar ∨
        (text.toList.splitOn '/').any fun part => part = [] ∨ part = ['.'] ∨ part = ['.', '.'] then
      raise "object_path must be a normalized relative path"
    else
      .ok text
  | _ => raise "object_path must be a string"

def utcTimestamp (receiver : Receiver) (value : Option JsonValue) : Except PyError Moment :=
  match value with
  | some (.string text) => do
    let parsed ← receiver.fromisoformat text
    if parsed.utcOffset ≠ some 0 then
      raise "uploaded_at must be UTC"
    else
      return parsed
  | _ => raise "uploaded_at must be a string"

def digestField (document : Fields) (field : String) : Except PyError String :=
  match document.lookup field with
  | some (.string text) => if isSha256 text then .ok text else raise ("invalid " ++ field)
  | _ => raise ("invalid " ++ field)

def positiveField (document : Fields) (field : String) : Except PyError Int :=
  match document.lookup field with
  | some (.integer value) => if 0 < value then .ok value else raise ("invalid " ++ field)
  | _ => raise ("invalid " ++ field)

def nonemptyField (document : Fields) (field message : String) : Except PyError String :=
  match document.lookup field with
  | some (.string text) => if text.toList ≠ [] then .ok text else raise message
  | _ => raise message

def requireThat (condition : Bool) (message : String) : Except PyError Unit :=
  if condition then .ok () else raise message

/-- `_validate_metadata`, with the values it has checked. -/
def validateMetadata (receiver : Receiver) (document : Fields) (receiptId : String) :
    Except PyError ArchiveMetadata := do
  requireThat (document.keys.toFinset = metadataFields.toFinset) "metadata field set is not exact"
  requireThat (document.lookup "schema_version" = some (.string "1.0.0"))
    "unsupported metadata schema"
  requireThat (document.lookup "receipt_id" = some (.string receiptId) ∧ isIdentifier receiptId)
    "receipt identity mismatch"
  let objectPath ← normalizedRelativePath (document.lookup "object_path")
  let plaintextSha256 ← digestField document "plaintext_sha256"
  let ciphertextSha256 ← digestField document "ciphertext_sha256"
  let plaintextSizeBytes ← positiveField document "plaintext_size_bytes"
  let ciphertextSizeBytes ← positiveField document "ciphertext_size_bytes"
  let expectedParquetRowCount ← positiveField document "expected_parquet_row_count"
  requireThat (document.lookup "encryption_format" = some (.string "age-v1-x25519"))
    "unsupported encryption format"
  requireThat (document.lookup "inspection_type" = some (.string "PARQUET"))
    "unsupported inspection type"
  let expectedParquetSchemaVersion ← nonemptyField document "expected_parquet_schema_version"
    "invalid expected Parquet schema version"
  let uploadedAt ← utcTimestamp receiver (document.lookup "uploaded_at")
  return { objectPath, plaintextSha256, plaintextSizeBytes, ciphertextSha256,
           ciphertextSizeBytes, uploadedAt, expectedParquetRowCount,
           expectedParquetSchemaVersion }

/-! ### Files -/

namespace Receiver

variable (receiver : Receiver)

def resolve (directory : Directory) (name : FileName) : Option Node :=
  match directory.lookup name with
  | some (.symlink target) => receiver.follow directory target
  | found => found

/-- `Path.exists`. -/
def pathExists (directory : Directory) (name : FileName) : Bool :=
  (receiver.resolve directory name).isSome

def isFile (directory : Directory) (name : FileName) : Bool :=
  match receiver.resolve directory name with
  | some (.file _) => true
  | _ => false

end Receiver

def isSymlink (directory : Directory) (name : FileName) : Bool :=
  match directory.lookup name with
  | some (.symlink _) => true
  | _ => false

def readBytes (directory : Directory) (name : FileName) : Except PyError Content :=
  match directory.lookup name with
  | some (.file content) => .ok content
  | some _ => .error ⟨"IsADirectoryError", "[Errno 21] Is a directory: " ++ name.text⟩
  | none => .error ⟨"FileNotFoundError", "[Errno 2] No such file or directory: " ++ name.text⟩

def loadJson (receiver : Receiver) (content : Content) : Except PyError Fields := do
  match ← receiver.loadsJson content with
  | .object fields => return fields
  | .other => raise "metadata must be a JSON object"

def inspectParquet (receiver : Receiver) (plaintext : Content) : Except PyError (Int × String) := do
  let (rowCount, versions) ← receiver.readParquet plaintext
  match versions with
  | [.string version] => return (rowCount, version)
  | _ => raise "Parquet schema_version must have one non-null value"

/-! ### One upload -/

structure Inspected where
  metadata : ArchiveMetadata
  rowCount : Int
  schemaVersion : String

/-- The checks of `process_one` on the decrypted object. -/
def inspectPlaintext (receiver : Receiver) (metadata : ArchiveMetadata) (content : Content) :
    Except PyError Inspected := do
  match receiver.ageDecrypt content with
  | none => raise "age decryption failed"
  | some plaintext =>
    requireThat ((plaintext.length : Int) = metadata.plaintextSizeBytes) "plaintext size mismatch"
    requireThat (receiver.sha256 plaintext = metadata.plaintextSha256) "plaintext digest mismatch"
    let (rowCount, schemaVersion) ← inspectParquet receiver plaintext
    requireThat (rowCount = metadata.expectedParquetRowCount) "Parquet row count mismatch"
    requireThat (schemaVersion = metadata.expectedParquetSchemaVersion)
      "Parquet schema version mismatch"
    return { metadata, rowCount, schemaVersion }

/-- All that `process_one` checks before it looks for an earlier object of the same id. -/
def inspectUpload (receiver : Receiver) (incoming : Directory) (receiptId : String) :
    Except PyError Inspected := do
  requireThat (isIdentifier receiptId) "invalid metadata filename"
  requireThat (receiver.isFile incoming (.ciphertext receiptId)) "ciphertext pair is missing"
  requireThat (¬ isSymlink incoming (.metadata receiptId) ∧
    ¬ isSymlink incoming (.ciphertext receiptId)) "symlink uploads are forbidden"
  let document ← readBytes incoming (.metadata receiptId)
  let fields ← loadJson receiver document
  let metadata ← validateMetadata receiver fields receiptId
  let content ← readBytes incoming (.ciphertext receiptId)
  requireThat ((content.length : Int) = metadata.ciphertextSizeBytes) "ciphertext size mismatch"
  requireThat (receiver.sha256 content = metadata.ciphertextSha256) "ciphertext digest mismatch"
  inspectPlaintext receiver metadata content

/-- The two directories whose files `_quarantine` may move. -/
inductive Place where
  | incoming
  | objects
deriving DecidableEq

inductive QuarantineItem where
  | moved (name : FileName) (node : Node)
  | failure (error : PyError)

/-- The directories under `archive_root`. -/
structure ArchiveRoot where
  incoming : Directory
  objects : Directory
  receipts : AList fun _ : String => Receipt
  /-- By the name of the directory the item went to. -/
  quarantine : List (String × QuarantineItem)

inductive Move where
  /-- `os.replace` from `incoming` to `objects`. -/
  | accept (name : FileName)
  /-- `os.replace` of the finished receipt onto its name. -/
  | issue (receiptId : String) (receipt : Receipt)
  /-- `shutil.move` to a directory under `quarantine`. -/
  | quarantine (destination : String) (place : Place) (name : FileName)
  | recordFailure (destination : String) (error : PyError)

namespace ArchiveRoot

def directory (archive : ArchiveRoot) : Place → Directory
  | .incoming => archive.incoming
  | .objects => archive.objects

def remove (archive : ArchiveRoot) : Place → FileName → ArchiveRoot
  | .incoming, name => { archive with incoming := archive.incoming.erase name }
  | .objects, name => { archive with objects := archive.objects.erase name }

def apply (archive : ArchiveRoot) : Move → ArchiveRoot
  | .accept name =>
    match archive.incoming.lookup name with
    | some node => { archive with
        incoming := archive.incoming.erase name
        objects := archive.objects.insert name node }
    | none => archive
  | .issue receiptId receipt =>
    { archive with receipts := archive.receipts.insert receiptId receipt }
  | .quarantine destination place name =>
    match (archive.directory place).lookup name with
    | some node => { archive.remove place name with
        quarantine := archive.quarantine ++ [(destination, .moved name node)] }
    | none => archive
  | .recordFailure destination error =>
    { archive with quarantine := archive.quarantine ++ [(destination, .failure error)] }

def applyAll (archive : ArchiveRoot) (moves : List Move) : ArchiveRoot :=
  moves.foldl apply archive

def visited (archive : ArchiveRoot) (moves : List Move) : List ArchiveRoot :=
  moves.scanl apply archive

end ArchiveRoot

inductive ReceiptWrite where
  | written
  /-- The write failed and `receipts/{id}.json` was not replaced. -/
  | failed (error : PyError)
  /-- The receipt was replaced and the `fsync` of its directory failed. -/
  | unsynced (error : PyError)

structure HostInputs where
  decryptedAt : Moment
  receiptWrite : ReceiptWrite
  /-- `uuid.uuid4().hex`. -/
  uuid : String

def rstripSlashes (text : String) : String :=
  String.ofList (text.toList.reverse.dropWhile (· == '/')).reverse

def receiptBody (receiver : Receiver) (receiptId : String) (inspected : Inspected)
    (decryptedAt : Moment) : ReceiptBody where
  schemaVersion := "1.1.0"
  receiptId
  objectPath := inspected.metadata.objectPath
  remoteCiphertextPath := "objects/" ++ receiptId ++ ".age"
  plaintextSha256 := inspected.metadata.plaintextSha256
  plaintextSizeBytes := inspected.metadata.plaintextSizeBytes
  ciphertextSha256 := inspected.metadata.ciphertextSha256
  ciphertextSizeBytes := inspected.metadata.ciphertextSizeBytes
  remoteUri := rstripSlashes receiver.remoteUriPrefix ++ "/objects/" ++ receiptId ++ ".age"
  remoteEtag := inspected.metadata.ciphertextSha256
  uploadedAt := inspected.metadata.uploadedAt
  decryptedAt
  encryptionFormat := "age-v1-x25519"
  inspectionType := "PARQUET"
  inspectionStatus := "PASS"
  parquetRowCount := inspected.rowCount
  parquetSchemaVersion := inspected.schemaVersion
  signerKeyId := receiver.signerKeyId

def signReceipt (receiver : Receiver) (body : ReceiptBody) : Receipt :=
  { body with signatureBase64 := receiver.sign body }

/-- The append-only check of `process_one`. -/
def identityExists (receiver : Receiver) (archive : ArchiveRoot) (receiptId : String) : Bool :=
  receiver.pathExists archive.objects (.ciphertext receiptId) ||
    receiver.pathExists archive.objects (.metadata receiptId) ||
    (archive.receipts.lookup receiptId).isSome

/-- The moves of `process_one` and the exception it ends with, if it does. -/
def processOne (receiver : Receiver) (inputs : HostInputs) (archive : ArchiveRoot)
    (receiptId : String) : List Move × Option PyError :=
  match inspectUpload receiver archive.incoming receiptId with
  | .error error => ([], some error)
  | .ok inspected =>
    if identityExists receiver archive receiptId then
      ([], some ⟨"FileExistsError", "append-only remote identity already exists"⟩)
    else
      let accepted := [.accept (.ciphertext receiptId), .accept (.metadata receiptId)]
      let receipt :=
        signReceipt receiver (receiptBody receiver receiptId inspected inputs.decryptedAt)
      match inputs.receiptWrite with
      | .written => (accepted ++ [.issue receiptId receipt], none)
      | .failed error => (accepted, some error)
      | .unsynced error => (accepted ++ [.issue receiptId receipt], some error)

/-- The files `_quarantine` looks for, in its order. -/
def quarantineSources (receiptId : String) : List (Place × FileName) :=
  [(.incoming, .metadata receiptId), (.incoming, .ciphertext receiptId),
    (.objects, .metadata receiptId), (.objects, .ciphertext receiptId)]

/-- The moves of the loop of `_quarantine`.  Each source is looked up when its turn comes. -/
def quarantineMoves (receiver : Receiver) (destination : String) :
    ArchiveRoot → List (Place × FileName) → List Move
  | _, [] => []
  | archive, (place, name) :: rest =>
    if receiver.pathExists (archive.directory place) name then
      let move := Move.quarantine destination place name
      move :: quarantineMoves receiver destination (archive.apply move) rest
    else
      quarantineMoves receiver destination archive rest

/-- The moves of `_quarantine`. -/
def quarantine (receiver : Receiver) (inputs : HostInputs) (archive : ArchiveRoot)
    (receiptId : String) (error : PyError) : List Move :=
  let destination := receiptId ++ "-" ++ inputs.uuid
  quarantineMoves receiver destination archive (quarantineSources receiptId) ++
    [.recordFailure destination error]

/-- One round of the loop of `main`, with whether it counts as a failure. -/
def handleUpload (receiver : Receiver) (inputs : HostInputs) (archive : ArchiveRoot)
    (receiptId : String) : List Move × Bool :=
  match processOne receiver inputs archive receiptId with
  | (moves, none) => (moves, false)
  | (moves, some error) =>
    (moves ++ quarantine receiver inputs (archive.applyAll moves) receiptId error, true)

/-- `sorted(incoming.glob("*.metadata.json"))`, as receipt ids. -/
def pendingUploads (archive : ArchiveRoot) : List String :=
  (archive.incoming.keys.filterMap FileName.metadataId?).insertionSort
    fun left right => (FileName.metadata left).text ≤ (FileName.metadata right).text

/-- The moves of `main` over the metadata files it has listed, and the failures it counts. -/
def receiveAll (receiver : Receiver) (inputs : String → HostInputs) :
    ArchiveRoot → List String → List Move × Nat
  | _, [] => ([], 0)
  | archive, receiptId :: rest =>
    let (moves, failed) := handleUpload receiver (inputs receiptId) archive receiptId
    let (later, failures) := receiveAll receiver inputs (archive.applyAll moves) rest
    (moves ++ later, failed.toNat + failures)

/-- The moves of `main` and its exit code. -/
def main (receiver : Receiver) (inputs : String → HostInputs) (archive : ArchiveRoot) :
    List Move × Nat :=
  let (moves, failures) := receiveAll receiver inputs archive (pendingUploads archive)
  (moves, if failures = 0 then 0 else 1)

end AiQuant.Archive
