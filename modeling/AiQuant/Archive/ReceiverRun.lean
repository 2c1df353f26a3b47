import AiQuant.Archive.Receiver

/-! Receipts and the objects behind them, over whole histories of uploads and receiver
runs.  `process_one` never issues a receipt without its object; `_quarantine` moves the
object of an id away whether or not the id has a receipt. -/
namespace AiQuant.Archive
open AiQuant.Lib

/-- Every receipt is backed by its object, with the hash and the size it states. -/
def ReceiptsBacked (receiver : Receiver) (archive : ArchiveRoot) : Prop :=
  ∀ receiptId receipt, archive.receipts.lookup receiptId = some receipt →
    ∃ content, archive.objects.lookup (.ciphertext receiptId) = some (.file content) ∧
      receiver.sha256 content = receipt.ciphertextSha256 ∧
      (content.length : Int) = receipt.ciphertextSizeBytes

/-! ### Single moves -/

namespace ArchiveRoot

variable (archive : ArchiveRoot) (destination : String)

@[simp] theorem applyAll_nil : archive.applyAll [] = archive := rfl

@[simp] theorem applyAll_cons (move : Move) (moves : List Move) :
    archive.applyAll (move :: moves) = (archive.apply move).applyAll moves := rfl

theorem applyAll_append (first second : List Move) :
    archive.applyAll (first ++ second) = (archive.applyAll first).applyAll second :=
  List.foldl_append

theorem forall_visited_nil {inv : ArchiveRoot → Prop} :
    (∀ st ∈ archive.visited [], inv st) ↔ inv archive := by
  simp [visited]

theorem forall_visited_cons {inv : ArchiveRoot → Prop} {move : Move} {moves : List Move} :
    (∀ st ∈ archive.visited (move :: moves), inv st) ↔
      inv archive ∧ ∀ st ∈ (archive.apply move).visited moves, inv st := by
  simp [visited]

theorem forall_visited_append {inv : ArchiveRoot → Prop} {first second : List Move} :
    (∀ st ∈ archive.visited (first ++ second), inv st) ↔ (∀ st ∈ archive.visited first, inv st) ∧
        ∀ st ∈ (archive.applyAll first).visited second, inv st := by
  induction first generalizing archive with
  | nil =>
    rw [List.nil_append, forall_visited_nil, applyAll_nil]
    cases second with
    | nil => simp [forall_visited_nil]
    | cons move moves => simp [forall_visited_cons]
  | cons move moves ih =>
    rw [List.cons_append, forall_visited_cons, forall_visited_cons, applyAll_cons, ih, and_assoc]

theorem applyAll_of_visited {inv : ArchiveRoot → Prop} {moves : List Move}
    (hv : ∀ st ∈ archive.visited moves, inv st) : inv (archive.applyAll moves) := by
  induction moves generalizing archive with
  | nil => exact (archive.forall_visited_nil).mp hv
  | cons move moves ih => exact ih _ ((archive.forall_visited_cons).mp hv).2

@[simp] theorem apply_quarantine_receipts (place : Place) (name : FileName) :
    (archive.apply (.quarantine destination place name)).receipts = archive.receipts := by
  rw [apply]
  cases hl : (archive.directory place).lookup name with
  | none => rfl
  | some node => cases place <;> rfl

theorem lookup_apply_quarantine (place other : Place) (name file : FileName) :
    ((archive.apply (.quarantine destination place name)).directory other).lookup file =
      if (place, name) = (other, file) then none else (archive.directory other).lookup file := by
  rw [apply]
  cases hl : (archive.directory place).lookup name with
  | none =>
    by_cases hs : (place, name) = (other, file)
    · rw [if_pos hs]
      cases hs
      exact hl
    · rw [if_neg hs]
  | some node =>
    by_cases hn : name = file
    · subst hn
      cases place <;> cases other <;> simp [directory, remove]
    · have hf : file ≠ name := fun h => hn h.symm
      cases place <;> cases other <;>
        simp [directory, remove, hn, AList.lookup_erase_ne hf]

end ArchiveRoot

/-! ### `_quarantine` -/

section Quarantine

variable {receiver : Receiver} {destination receiptId : String}

theorem quarantineMoves_applyAll (archive : ArchiveRoot) (sources : List (Place × FileName)) :
    (archive.applyAll (quarantineMoves receiver destination archive sources)).receipts =
        archive.receipts ∧
      ∀ place file, (place, file) ∉ sources →
        ((archive.applyAll (quarantineMoves receiver destination archive sources)).directory
          place).lookup file = (archive.directory place).lookup file := by
  induction sources generalizing archive with
  | nil => exact ⟨rfl, fun _ _ _ => rfl⟩
  | cons source rest ih =>
    obtain ⟨place, name⟩ := source
    rw [quarantineMoves]
    split
    · obtain ⟨hr, hf⟩ := ih (archive.apply (.quarantine destination place name))
      refine ⟨hr.trans (by simp), fun other file hn => ?_⟩
      rw [List.mem_cons, not_or] at hn
      rw [ArchiveRoot.applyAll_cons, hf other file hn.2,
        ArchiveRoot.lookup_apply_quarantine, if_neg (Ne.symm hn.1)]
    · obtain ⟨hr, hf⟩ := ih archive
      exact ⟨hr, fun other file hn => hf other file (List.not_mem_of_not_mem_cons hn)⟩

variable (receiver destination) in
theorem quarantineMoves_clears (archive : ArchiveRoot) (sources : List (Place × FileName))
    {place : Place} {file : FileName} (hs : (place, file) ∈ sources)
    (hp : ∀ node, (archive.directory place).lookup file = some node →
      ∃ content, node = .file content) :
    ((archive.applyAll (quarantineMoves receiver destination archive sources)).directory
      place).lookup file = none := by
  induction sources generalizing archive with
  | nil => cases hs
  | cons source rest ih =>
    obtain ⟨first, name⟩ := source
    by_cases hr : (place, file) ∈ rest
    · rw [quarantineMoves]
      split
      · refine ih _ hr fun node hn => hp node ?_
        rw [ArchiveRoot.lookup_apply_quarantine] at hn
        split at hn
        · cases hn
        · exact hn
      · exact ih _ hr hp
    · have hsa : (place, file) = (first, name) :=
        (List.mem_cons.mp hs).resolve_right hr
      cases hsa
      rw [quarantineMoves]
      split
      · rw [ArchiveRoot.applyAll_cons, (quarantineMoves_applyAll _ rest).2 place file hr,
          ArchiveRoot.lookup_apply_quarantine, if_pos rfl]
      · rename_i hmissing
        rw [(quarantineMoves_applyAll archive rest).2 place file hr]
        cases hl : (archive.directory place).lookup file with
        | none => rfl
        | some node =>
          obtain ⟨content, rfl⟩ := hp node hl
          exact absurd (by simp [Receiver.pathExists, Receiver.resolve, hl]) hmissing

theorem quarantineSources_ciphertext {place : Place} {other : String}
    (hs : (place, FileName.ciphertext other) ∈ quarantineSources receiptId) :
    other = receiptId := by
  simp only [quarantineSources, List.mem_cons, Prod.mk.injEq, FileName.ciphertext.injEq,
    reduceCtorEq, and_false, false_or, List.not_mem_nil, or_false] at hs
  rcases hs with hs | hs
  · exact hs.2
  · exact hs.2

theorem ReceiptsBacked.of_same {pre post : ArchiveRoot}
    (hb : ReceiptsBacked receiver pre) (hre : post.receipts = pre.receipts)
    (ho : ∀ receiptId, (pre.receipts.lookup receiptId).isSome →
      post.objects.lookup (.ciphertext receiptId) = pre.objects.lookup (.ciphertext receiptId)) :
    ReceiptsBacked receiver post := by
  intro receiptId rcpt hr
  rw [hre] at hr
  rw [ho receiptId (by rw [hr]; rfl)]
  exact hb receiptId rcpt hr

variable (destination) in
theorem quarantineMoves_backed {archive : ArchiveRoot} {sources : List (Place × FileName)}
    (hs : ∀ source ∈ sources, source ∈ quarantineSources receiptId)
    (hf : archive.receipts.lookup receiptId = none) (hb : ReceiptsBacked receiver archive) :
    ∀ st ∈ archive.visited (quarantineMoves receiver destination archive sources),
      ReceiptsBacked receiver st := by
  induction sources generalizing archive with
  | nil => exact (archive.forall_visited_nil).mpr hb
  | cons source rest ih =>
    obtain ⟨place, name⟩ := source
    have hr : ∀ source ∈ rest, source ∈ quarantineSources receiptId :=
      fun source hso => hs source (List.mem_cons_of_mem _ hso)
    rw [quarantineMoves]
    split
    · rw [ArchiveRoot.forall_visited_cons]
      refine ⟨hb, ih hr (by simpa using hf) (hb.of_same (by simp) ?_)⟩
      intro other ho
      have hl := archive.lookup_apply_quarantine destination place .objects name (.ciphertext other)
      rw [if_neg] at hl
      · exact hl
      · rintro hsa
        have how := quarantineSources_ciphertext (hsa ▸ hs _ List.mem_cons_self)
        rw [how, hf] at ho
        cases ho
    · exact ih hr hf hb

theorem recordFailure_backed {archive : ArchiveRoot} {error : PyError}
    (hb : ReceiptsBacked receiver archive) :
    ∀ st ∈ archive.visited [.recordFailure destination error], ReceiptsBacked receiver st := by
  rw [ArchiveRoot.forall_visited_cons, ArchiveRoot.forall_visited_nil]
  exact ⟨hb, hb.of_same rfl fun _ _ => rfl⟩

theorem quarantine_backed_iff {archive : ArchiveRoot} (ins : HostInputs) (error : PyError)
    (hb : ReceiptsBacked receiver archive) :
    (∀ st ∈ archive.visited (quarantine receiver ins archive receiptId error),
        ReceiptsBacked receiver st) ↔ archive.receipts.lookup receiptId = none := by
  rw [quarantine, ArchiveRoot.forall_visited_append]
  constructor
  · rintro ⟨hm, -⟩
    by_contra hsome
    obtain ⟨rcpt, hr⟩ := Option.ne_none_iff_exists'.mp hsome
    have hl := archive.applyAll_of_visited hm
    obtain ⟨kept, hk, -⟩ := hb receiptId rcpt hr
    have hs : (Place.objects, FileName.ciphertext receiptId) ∈ quarantineSources receiptId := by
      simp [quarantineSources]
    have hcl := quarantineMoves_clears receiver (receiptId ++ "-" ++ ins.uuid) archive
      (quarantineSources receiptId) hs
      (fun node hn => ⟨kept, Option.some.inj (hn.symm.trans hk)⟩)
    obtain ⟨content, hc, -⟩ := hl receiptId rcpt
      (by rw [(quarantineMoves_applyAll archive _).1]; exact hr)
    exact nomatch hcl.symm.trans hc
  · intro hno
    have hm := quarantineMoves_backed (receiptId ++ "-" ++ ins.uuid) (fun _ hs => hs) hno hb
    exact ⟨hm, recordFailure_backed (archive.applyAll_of_visited hm)⟩

end Quarantine

/-! ### `process_one` -/

section ProcessOne

variable {receiver : Receiver} {archive : ArchiveRoot} {receiptId : String}

theorem requireThat_eq_ok_iff {condition : Bool} {msg : String} {done : Unit} :
    requireThat condition msg = .ok done ↔ condition = true := by
  cases condition with
  | true => simp [requireThat]
  | false => simp [requireThat, raise]

theorem readBytes_eq_ok_iff {directory : Directory} {name : FileName} {content : Content} :
    readBytes directory name = .ok content ↔ directory.lookup name = some (.file content) := by
  rw [readBytes]
  rcases directory.lookup name with - | ⟨_ | _ | _⟩ <;> simp

theorem inspectUpload_ciphertext {incoming : Directory} {inspected : Inspected}
    (hok : inspectUpload receiver incoming receiptId = .ok inspected) :
    ∃ content, incoming.lookup (.ciphertext receiptId) = some (.file content) ∧
      receiver.sha256 content = inspected.metadata.ciphertextSha256 ∧
      (content.length : Int) = inspected.metadata.ciphertextSizeBytes := by
  simp only [inspectUpload, bind_eq_ok_iff, requireThat_eq_ok_iff, readBytes_eq_ok_iff,
    decide_eq_true_eq] at hok
  obtain ⟨_, _, _, _, _, _, _, _, _, _, metadata, _, content, hc, _, hs, _, hh, hp⟩ := hok
  have hm : inspected.metadata = metadata := by
    rw [inspectPlaintext] at hp
    cases ha : receiver.ageDecrypt content with
    | none => simp [ha, raise] at hp
    | some plaintext =>
      simp only [ha, bind_eq_ok_iff] at hp
      obtain ⟨_, _, _, _, _, _, _, _, _, _, hr⟩ := hp
      cases hr
      rfl
  rw [hm]
  exact ⟨content, hc, hh, hs⟩

/-- The state `process_one` is in when both files of the id are moved. -/
def accepted (archive : ArchiveRoot) (receiptId : String) : ArchiveRoot :=
  archive.applyAll [.accept (.ciphertext receiptId), .accept (.metadata receiptId)]

theorem accept_receipts (name : FileName) :
    (archive.apply (.accept name)).receipts = archive.receipts := by
  rw [ArchiveRoot.apply]
  cases archive.incoming.lookup name <;> rfl

theorem accept_objects_of_ne {name file : FileName} (hne : file ≠ name) :
    (archive.apply (.accept name)).objects.lookup file = archive.objects.lookup file := by
  rw [ArchiveRoot.apply]
  cases archive.incoming.lookup name with
  | none => rfl
  | some node => exact AList.lookup_insert_ne hne

theorem accept_objects_self {name : FileName} {node : Node}
    (hn : archive.incoming.lookup name = some node) :
    (archive.apply (.accept name)).objects.lookup name = some node := by
  rw [ArchiveRoot.apply, hn]
  exact AList.lookup_insert _

@[simp] theorem accepted_receipts : (accepted archive receiptId).receipts = archive.receipts := by
  simp [accepted, accept_receipts]

theorem accepted_ciphertext {content : Content}
    (hc : archive.incoming.lookup (.ciphertext receiptId) = some (.file content)) :
    (accepted archive receiptId).objects.lookup (.ciphertext receiptId) = some (.file content) := by
  rw [accepted, ArchiveRoot.applyAll_cons, ArchiveRoot.applyAll_cons, ArchiveRoot.applyAll_nil,
    accept_objects_of_ne (by simp), accept_objects_self hc]

theorem accept_backed (hb : ReceiptsBacked receiver archive)
    (hfr : archive.receipts.lookup receiptId = none) :
    ∀ st ∈ archive.visited [.accept (.ciphertext receiptId), .accept (.metadata receiptId)],
      ReceiptsBacked receiver st := by
  have hf : ReceiptsBacked receiver (archive.apply (.accept (.ciphertext receiptId))) := by
    refine hb.of_same (accept_receipts _) fun other ho => accept_objects_of_ne ?_
    rintro hsa
    cases hsa
    rw [hfr] at ho
    cases ho
  have hs := hf.of_same (accept_receipts (.metadata receiptId))
    (fun other _ => accept_objects_of_ne (by simp))
  simp only [ArchiveRoot.forall_visited_cons, ArchiveRoot.forall_visited_nil]
  exact ⟨hb, hf, hs⟩

theorem issue_backed {inspected : Inspected} (decryptedAt : Moment)
    (hok : inspectUpload receiver archive.incoming receiptId = .ok inspected)
    (hb : ReceiptsBacked receiver (accepted archive receiptId)) :
    ReceiptsBacked receiver ((accepted archive receiptId).apply (.issue receiptId
      (signReceipt receiver (receiptBody receiver receiptId inspected decryptedAt)))) := by
  intro other found hf
  obtain ⟨content, hc, hsha, hl⟩ := inspectUpload_ciphertext hok
  simp only [ArchiveRoot.apply] at hf ⊢
  by_cases hs : other = receiptId
  · subst hs
    rw [AList.lookup_insert] at hf
    cases hf
    exact ⟨content, accepted_ciphertext hc, hsha, hl⟩
  · rw [AList.lookup_insert_ne hs] at hf
    exact hb other found hf

end ProcessOne

/-! ### Whole runs -/

/-- A metadata file the receiver may take up: its id has no receipt yet, and the receipt it
would get is not left behind by a failing `fsync` of the directory. -/
def Unreceipted (receiver : Receiver) (inputs : HostInputs) (archive : ArchiveRoot)
    (receiptId : String) : Prop :=
  archive.receipts.lookup receiptId = none ∧
    ∀ error, inputs.receiptWrite = .unsynced error →
      (inspectUpload receiver archive.incoming receiptId).isOk →
      identityExists receiver archive receiptId

section Run

variable {receiver : Receiver} {archive : ArchiveRoot} {receiptId : String}

theorem handleUpload_of_error {ins : HostInputs} {error : PyError}
    (hp : processOne receiver ins archive receiptId = ([], some error)) :
    (handleUpload receiver ins archive receiptId).1 =
      quarantine receiver ins archive receiptId error := by
  rw [handleUpload, hp]
  rfl

theorem receipts_none_of_not_identityExists (hn : ¬ identityExists receiver archive receiptId) :
    archive.receipts.lookup receiptId = none := by
  rw [identityExists, Bool.or_eq_true, not_or] at hn
  simpa using hn.2

theorem handleUpload_backed_iff (ins : HostInputs) (hb : ReceiptsBacked receiver archive) :
    (∀ st ∈ archive.visited (handleUpload receiver ins archive receiptId).1,
        ReceiptsBacked receiver st) ↔ Unreceipted receiver ins archive receiptId := by
  rw [Unreceipted]
  cases hi : inspectUpload receiver archive.incoming receiptId with
  | error error =>
    rw [handleUpload_of_error (by rw [processOne, hi]), quarantine_backed_iff ins error hb]
    simp [Except.isOk, Except.toBool]
  | ok inspected =>
    by_cases he : identityExists receiver archive receiptId
    · rw [handleUpload_of_error (by simp only [processOne, hi, if_pos he]; rfl),
        quarantine_backed_iff ins _ hb]
      simp [he]
    · have hn := receipts_none_of_not_identityExists he
      have hac := accept_backed hb hn
      have ha : ReceiptsBacked receiver (accepted archive receiptId) :=
        archive.applyAll_of_visited hac
      have his := issue_backed ins.decryptedAt hi ha
      cases hw : ins.receiptWrite with
      | written =>
        simp only [handleUpload, processOne, hi, if_neg he, hw]
        rw [ArchiveRoot.forall_visited_append]
        simp only [hn, reduceCtorEq, false_implies, implies_true, and_true, iff_true]
        exact ⟨hac, (ArchiveRoot.forall_visited_cons _).mpr
          ⟨ha, (ArchiveRoot.forall_visited_nil _).mpr his⟩⟩
      | failed error =>
        simp only [handleUpload, processOne, hi, if_neg he, hw]
        rw [ArchiveRoot.forall_visited_append]
        simp only [hn, reduceCtorEq, false_implies, implies_true, and_true, iff_true]
        exact ⟨hac, (quarantine_backed_iff ins error ha).mpr (by simpa using hn)⟩
      | unsynced error =>
        simp only [handleUpload, processOne, hi, if_neg he, hw]
        rw [ArchiveRoot.forall_visited_append]
        constructor
        · rintro ⟨-, hs⟩
          rw [ArchiveRoot.applyAll_append] at hs
          have hr := (quarantine_backed_iff ins error his).mp hs
          simp [ArchiveRoot.apply] at hr
        · rintro ⟨-, hsy⟩
          exact absurd (hsy error rfl rfl) he

def AllUnreceipted (receiver : Receiver) (inputs : String → HostInputs) :
    ArchiveRoot → List String → Prop
  | _, [] => True
  | archive, receiptId :: rest =>
    Unreceipted receiver (inputs receiptId) archive receiptId ∧
      AllUnreceipted receiver inputs
        (archive.applyAll (handleUpload receiver (inputs receiptId) archive receiptId).1) rest

theorem receiveAll_backed_iff (ins : String → HostInputs) (receiptIds : List String)
    (hb : ReceiptsBacked receiver archive) :
    (∀ st ∈ archive.visited (receiveAll receiver ins archive receiptIds).1,
        ReceiptsBacked receiver st) ↔ AllUnreceipted receiver ins archive receiptIds := by
  induction receiptIds generalizing archive with
  | nil => simpa [receiveAll, AllUnreceipted, ArchiveRoot.forall_visited_nil] using hb
  | cons receiptId rest ih =>
    rw [receiveAll, ArchiveRoot.forall_visited_append, AllUnreceipted, handleUpload_backed_iff _ hb]
    refine and_congr_right fun hs => ih ?_
    exact archive.applyAll_of_visited ((handleUpload_backed_iff _ hb).mpr hs)

/-- What happens to an archive. -/
inductive ArchiveEvent where
  /-- The sending host leaves `incoming` as given. -/
  | upload (incoming : Directory)
  /-- A run of `main`. -/
  | receive (inputs : String → HostInputs)

def archivesOf (receiver : Receiver) : ArchiveRoot → List ArchiveEvent → List ArchiveRoot
  | archive, [] => [archive]
  | archive, .upload incoming :: rest =>
    archive :: archivesOf receiver { archive with incoming } rest
  | archive, .receive inputs :: rest =>
    let moves := (main receiver inputs archive).1
    archive.visited moves ++ archivesOf receiver (archive.applyAll moves) rest

/-- No run of a history takes up a metadata file whose id has a receipt. -/
def NoReceiptRepeated (receiver : Receiver) : ArchiveRoot → List ArchiveEvent → Prop
  | _, [] => True
  | archive, .upload incoming :: rest => NoReceiptRepeated receiver { archive with incoming } rest
  | archive, .receive inputs :: rest =>
    AllUnreceipted receiver inputs archive (pendingUploads archive) ∧
      NoReceiptRepeated receiver (archive.applyAll (main receiver inputs archive).1) rest

theorem archivesOf_backed_iff (events : List ArchiveEvent) (hb : ReceiptsBacked receiver archive) :
    (∀ st ∈ archivesOf receiver archive events, ReceiptsBacked receiver st) ↔
      NoReceiptRepeated receiver archive events := by
  induction events generalizing archive with
  | nil => simpa [archivesOf, NoReceiptRepeated] using hb
  | cons ev rest ih =>
    cases ev with
    | upload incoming =>
      have hu : ReceiptsBacked receiver { archive with incoming } :=
        hb.of_same rfl fun _ _ => rfl
      rw [archivesOf, List.forall_mem_cons, NoReceiptRepeated, ih hu]
      exact and_iff_right hb
    | receive ins =>
      rw [archivesOf, List.forall_mem_append, NoReceiptRepeated]
      have hm := receiveAll_backed_iff ins (pendingUploads archive) hb
      constructor
      · rintro ⟨hrun, hr⟩
        exact ⟨hm.mp hrun, (ih (archive.applyAll_of_visited hrun)).mp hr⟩
      · rintro ⟨hs, hr⟩
        have hrun := hm.mpr hs
        exact ⟨hrun, (ih (archive.applyAll_of_visited hrun)).mpr hr⟩

end Run
end AiQuant.Archive
