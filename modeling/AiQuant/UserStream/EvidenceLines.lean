import AiQuant.Lib.HashChain
import AiQuant.UserStream.JournalCrash
import Mathlib.Data.List.Sort
import Mathlib.Data.String.Basic

/-! The evidence file line by line.  A verifier reads whatever JSON a line holds, so a line need
not be one that the journal wrote; what the journal wrote verifies as the record that it is the
text of. -/
namespace AiQuant.UserStream
open AiQuant.Lib

mutual

/-- The value with its keys sorted, as `json.dumps(sort_keys=True)` writes it. -/
def Json.sorted : Json → Json
  | .array items => .array (sortedItems items)
  | .object fields => .object ((sortedFields fields).insertionSort fun first second =>
      first.1 ≤ second.1)
  | value => value

def sortedItems : List Json → List Json
  | [] => []
  | item :: rest => item.sorted :: sortedItems rest

def sortedFields : Fields → Fields
  | [] => []
  | (name, item) :: rest => (name, item.sorted) :: sortedFields rest

end

/-- SHA-256 of the canonical text of a JSON value, and `str.lower`. -/
structure CanonicalHashing where
  lower : String → String
  event : Fields → String
  record : Json → String → String
  record_sha256 : ∀ content previous, isSha256 (record content previous) = true

/-- What `json.loads` makes of a line, unless it raises. -/
abbrev Line := Option Json

def EventContent.json (content : EventContent) : Json :=
  .object [("schema_version", .string content.schemaVersion),
    ("record_type", .string content.recordType),
    ("raw_event_type", .string content.rawEventType),
    ("stable_event_id", .string content.stableEventId),
    ("event_time_ms", content.eventTimeMs),
    ("received_at", .string content.receivedAt),
    ("payload", .object content.payload),
    ("environment", .string content.environment),
    ("production_endpoint_requests", .integer content.productionEndpointRequests)]

def EvidenceRecord.line (record : EvidenceRecord) : Line :=
  some (.object [("content", record.content.json),
    ("previous_sha256", .string record.previousSha256),
    ("record_sha256", .string record.recordSha256)])

def CanonicalHashing.typed (hashing : CanonicalHashing) : Hashing where
  lower := hashing.lower
  event := hashing.event
  record content previous := hashing.record content.json previous
  record_sha256 content previous := hashing.record_sha256 content.json previous

def Json.fields : Json → Fields
  | .object fields => fields
  | _ => []

def Json.isObject : Json → Bool
  | .object _ => true
  | _ => false

def Json.isString : Json → Bool
  | .string _ => true
  | _ => false

def Json.isText (text : String) : Json → Bool
  | .string value => value = text
  | _ => false

def Json.text : Json → String
  | .string value => value
  | _ => ""

/-- `value == 0` -/
def Json.isZero : Json → Bool
  | .integer value => value = 0
  | .boolean value => !value
  | .float text => text = "0.0" || text = "-0.0"
  | _ => false

/-- `set(record)` and `set(content)` of a closed record. -/
def recordKeys : Finset String := {"content", "previous_sha256", "record_sha256"}

def expectedContentKeys : Finset String :=
  {"schema_version", "record_type", "raw_event_type", "stable_event_id", "event_time_ms",
    "received_at", "payload", "environment", "production_endpoint_requests"}

def closedOver (keys : Finset String) (value : Json) : Bool :=
  value.isObject && (value.fields.map Prod.fst).toFinset = keys

section Lines

variable (hashing : CanonicalHashing)

def meaningfulContent (content : Fields) : Bool :=
  (get content "schema_version").isText "1.0.0" &&
    (get content "record_type").isText "TESTNET_USER_DATA_EVENT" &&
    (get content "raw_event_type").isString &&
    decide ((get content "raw_event_type").text ∈ allowedUserEventTypes) &&
    (get content "event_time_ms").isInt && (get content "received_at").isString &&
    (get content "payload").isObject && (get content "environment").isText "testnet" &&
    (get content "production_endpoint_requests").isZero &&
    (get content "stable_event_id").isText (hashing.event (get content "payload").fields)

/-- The loop body of `_verify_user_data_evidence`, for any line. -/
def verifyLine (summary : EvidenceSummary) (line : Line) : Except String EvidenceSummary :=
  match line with
  | none => .error "invalid user-data evidence JSON at line"
  | some record =>
    let content := get record.fields "content"
    let previous := get record.fields "previous_sha256"
    let expected := hashing.record content previous.text
    if !closedOver recordKeys record then .error "user-data evidence record is not closed"
    else if !(content.canonical && previous.canonical) then
      .error "Out of range float values are not JSON compliant"
    else if !previous.isText summary.finalRecordSha256 ||
        !(get record.fields "record_sha256").isText expected then
      .error "user-data evidence hash mismatch at line"
    else if !closedOver expectedContentKeys content then
      .error "user-data evidence content is not closed"
    else if !meaningfulContent hashing content.fields then
      .error "user-data evidence semantics invalid at line"
    else if (get content.fields "stable_event_id").text ∈ summary.seen then
      .error "duplicate stable user-data event at line"
    else .ok {
      recordCount := summary.recordCount + 1
      eventTypeCounts :=
        countType summary.eventTypeCounts (get content.fields "raw_event_type").text
      finalRecordSha256 := expected
      seen := insert (get content.fields "stable_event_id").text summary.seen }

def verifyLines (lines : List Line) : Except String EvidenceSummary :=
  lines.foldlM (verifyLine hashing) .empty

end Lines

section Records

variable {hashing : CanonicalHashing} {record : EvidenceRecord} {records : List EvidenceRecord}
  {summary post : EvidenceSummary}

theorem recordKeys_line (record : EvidenceRecord) :
    ∃ value, record.line = some value ∧ closedOver recordKeys value = true ∧
      get value.fields "content" = record.content.json ∧
      get value.fields "previous_sha256" = .string record.previousSha256 ∧
      get value.fields "record_sha256" = .string record.recordSha256 :=
  ⟨_, rfl, by simp [closedOver, Json.isObject, Json.fields, recordKeys], rfl, rfl, rfl⟩

theorem closedOver_json (content : EventContent) :
    closedOver expectedContentKeys content.json = true := by
  simp [closedOver, EventContent.json, Json.isObject, Json.fields, expectedContentKeys]

theorem canonical_json (content : EventContent) (hc : content.canonical = true) :
    content.json.canonical = true := by
  obtain ⟨ht, hp⟩ := Bool.and_eq_true_iff.mp hc
  simp [EventContent.json, Json.canonical, fieldsCanonical, ht, hp]

theorem meaningfulContent_json (content : EventContent)
    (hm : content.meaningful hashing.typed = true) :
    meaningfulContent hashing content.json.fields = true := by
  simp only [EventContent.meaningful, Bool.and_eq_true, decide_eq_true_eq] at hm
  obtain ⟨⟨⟨⟨⟨⟨hv, hty⟩, hev⟩, ht⟩, he⟩, hr⟩, hid⟩ := hm
  have hz : (Json.integer content.productionEndpointRequests).isZero = true := by
    rw [hr]
    rfl
  simp only [meaningfulContent, Bool.and_eq_true, decide_eq_true_eq]
  exact ⟨⟨⟨⟨⟨⟨⟨⟨⟨decide_eq_true hv, decide_eq_true hty⟩, rfl⟩, hev⟩, ht⟩, rfl⟩, rfl⟩,
    decide_eq_true he⟩, hz⟩, decide_eq_true hid⟩

structure Verifies (hashing : CanonicalHashing) (summary : EvidenceSummary) (value : Json)
    (after : EvidenceSummary) : Prop where
  closed : closedOver recordKeys value = true
  canonical : (get value.fields "content").canonical = true
  linked : (get value.fields "previous_sha256").isText summary.finalRecordSha256 = true
  digest : (get value.fields "record_sha256").isText
    (hashing.record (get value.fields "content") summary.finalRecordSha256) = true
  contentClosed : closedOver expectedContentKeys (get value.fields "content") = true
  meaningful : meaningfulContent hashing (get value.fields "content").fields = true
  fresh : (get (get value.fields "content").fields "stable_event_id").text ∉ summary.seen
  after_eq : after = {
    recordCount := summary.recordCount + 1
    eventTypeCounts := countType summary.eventTypeCounts
      (get (get value.fields "content").fields "raw_event_type").text
    finalRecordSha256 := hashing.record (get value.fields "content") summary.finalRecordSha256
    seen := insert (get (get value.fields "content").fields "stable_event_id").text summary.seen }

theorem isText_eq_true_iff {text : String} {value : Json} :
    value.isText text = true ↔ value = .string text := by
  cases value <;> simp [Json.isText]

theorem verifyLine_eq_ok_iff {line : Line} : verifyLine hashing summary line = .ok post ↔
      ∃ value, line = some value ∧ Verifies hashing summary value post := by
  cases line with
  | none => simp [verifyLine]
  | some value =>
    simp only [Option.some.injEq, exists_eq_left', verifyLine]
    constructor
    · intro hve
      split_ifs at hve with hcl hc hl hco hm hse
      simp only [Bool.not_eq_true, Bool.not_eq_false', Bool.or_eq_false_iff, Bool.and_eq_true] at *
      have hp := isText_eq_true_iff.mp hl.1
      rw [hp] at hve hl
      obtain rfl := Except.ok.inj hve
      exact ⟨hcl, hc.1, by rw [hp]; exact hl.1, hl.2, hco, hm, hse, rfl⟩
    · intro hv
      have hp := isText_eq_true_iff.mp hv.linked
      rw [hp]
      have hpa : (Json.string summary.finalRecordSha256).isText summary.finalRecordSha256 = true :=
        isText_eq_true_iff.mpr rfl
      have ht : (Json.string summary.finalRecordSha256).text = summary.finalRecordSha256 := rfl
      have hs : (Json.string summary.finalRecordSha256).canonical = true := rfl
      rw [ht, hpa, hs, hv.closed, hv.canonical, hv.digest,
        hv.contentClosed, hv.meaningful, if_neg hv.fresh, hv.after_eq]
      rfl

theorem verifyLine_line (hv : verifyRecord hashing.typed summary record = .ok post) :
    verifyLine hashing summary record.line = .ok post := by
  unfold verifyRecord at hv
  dsimp only at hv
  split_ifs at hv with hc hl hm hse
  rw [not_or, not_not, not_not] at hl
  simp only [Bool.not_eq_true, Bool.not_eq_false'] at hc hm
  obtain ⟨value, hli, hcl, hj, hp, hs⟩ := recordKeys_line record
  refine verifyLine_eq_ok_iff.mpr ⟨value, hli, ?_⟩
  obtain rfl := Except.ok.inj hv
  exact {
    closed := hcl
    canonical := by rw [hj]; exact canonical_json record.content hc
    linked := by rw [hp, hl.1]; exact isText_eq_true_iff.mpr rfl
    digest := by
      rw [hj, hs, hl.2, hl.1]
      exact isText_eq_true_iff.mpr rfl
    contentClosed := by rw [hj]; exact closedOver_json record.content
    meaningful := by rw [hj]; exact meaningfulContent_json record.content hm
    fresh := by rw [hj]; exact hse
    after_eq := by rw [hj, hl.1]; rfl }

theorem verifyLines_concat (lines : List Line) (line : Line) :
    verifyLines hashing (lines ++ [line]) =
      (verifyLines hashing lines).bind fun summary => verifyLine hashing summary line := by
  unfold verifyLines
  rw [List.foldlM_append]
  simp only [List.foldlM_cons, List.foldlM_nil, bind_pure]
  rfl

theorem verifyLines_records (hv : verifyUserDataEvidence hashing.typed records = .ok summary) :
    verifyLines hashing (records.map EvidenceRecord.line) = .ok summary := by
  induction records using List.reverseRecOn generalizing summary with
  | nil =>
    obtain rfl := Except.ok.inj hv
    rfl
  | append_singleton records record ih =>
    rw [verifyUserDataEvidence_concat] at hv
    cases hp : verifyUserDataEvidence hashing.typed records with
    | error failure =>
      rw [hp] at hv
      cases hv
    | ok prev =>
      rw [hp] at hv
      rw [List.map_append, List.map_singleton, verifyLines_concat, ih hp]
      exact verifyLine_line hv

def Line.link (line : Line) : ChainLink Json String :=
  let fields := (line.getD .null).fields
  ⟨get fields "content", (get fields "previous_sha256").text, (get fields "record_sha256").text⟩

theorem verifyLines_linked {lines : List Line} (hv : verifyLines hashing lines = .ok summary) :
    Linked hashing.record zeroSha256 (lines.map Line.link) ∧
      tip zeroSha256 (lines.map Line.link) = summary.finalRecordSha256 := by
  induction lines using List.reverseRecOn generalizing summary with
  | nil =>
    obtain rfl := Except.ok.inj hv
    exact ⟨trivial, rfl⟩
  | append_singleton lines line ih =>
    rw [verifyLines_concat] at hv
    cases hp : verifyLines hashing lines with
    | error failure =>
      rw [hp] at hv
      cases hv
    | ok prev =>
      rw [hp] at hv
      obtain ⟨value, rfl, hve⟩ := verifyLine_eq_ok_iff.mp hv
      obtain ⟨hl, ht⟩ := ih hp
      have hpa := isText_eq_true_iff.mp hve.linked
      have hd := isText_eq_true_iff.mp hve.digest
      have hli : Line.link (some value) = ⟨get value.fields "content", prev.finalRecordSha256,
          hashing.record (get value.fields "content") prev.finalRecordSha256⟩ := by
        simp only [Line.link, Option.getD_some, hpa, hd]
        rfl
      rw [List.map_append, List.map_singleton, tip_concat, hli, hve.after_eq]
      refine ⟨linked_append.mpr ⟨hl, ?_⟩, rfl⟩
      rw [ht]
      exact ⟨rfl, rfl, trivial⟩

end Records

end AiQuant.UserStream
