import AiQuant.Lib.ChunkedStream
import AiQuant.UserStream.WebsocketFrames
import AiQuant.UserStream.EventJournal

/-! Frames on a Unix domain socket (`services/uds.py`): four bytes with the length, then a JSON
object.  What the reader returns does not depend on how the socket cuts the bytes. -/
namespace AiQuant.Services
open AiQuant.Lib
open AiQuant.UserStream (Json Fields bigEndian bytesOfNat bigEndian_bytesOfNat length_bytesOfNat)

abbrev Peer := ChunkedStream UInt8

def rejectFrom (result : Fields) : Fields → Except String Fields
  | [] => .ok result
  | (key, value) :: pairs =>
    if key ∈ result.map Prod.fst then .error "DUPLICATE_JSON_KEY"
    else rejectFrom (result ++ [(key, value)]) pairs

def rejectDuplicateKeys (pairs : Fields) : Except String Fields := rejectFrom [] pairs

mutual

/-- What `json.loads` makes of a value with the hook on every object, from the inside out. -/
def hooked : Json → Except String Json
  | .array items => (hookedItems items).map .array
  | .object fields => (hookedFields fields).bind fun pairs =>
      (rejectDuplicateKeys pairs).map .object
  | value => .ok value

def hookedItems : List Json → Except String (List Json)
  | [] => .ok []
  | item :: rest => (hooked item).bind fun first => (hookedItems rest).map (first :: ·)

def hookedFields : Fields → Except String Fields
  | [] => .ok []
  | (key, value) :: rest => (hooked value).bind fun first =>
      (hookedFields rest).map ((key, first) :: ·)

end

mutual

def distinctKeys : Json → Bool
  | .array items => distinctItems items
  | .object fields => distinctFields fields && decide (fields.map Prod.fst).Nodup
  | _ => true

def distinctItems : List Json → Bool
  | [] => true
  | item :: rest => distinctKeys item && distinctItems rest

def distinctFields : Fields → Bool
  | [] => true
  | (_, value) :: rest => distinctKeys value && distinctFields rest

end

/-- `json.dumps` to UTF-8, and `json.loads` without its hook; `none` where they raise. -/
structure JsonCodec where
  dumps : Json → Option (List UInt8)
  loads : List UInt8 → Option Json
  loads_dumps : ∀ document payload, distinctKeys document = true →
    dumps document = some payload → loads payload = some document
  two_le : ∀ document payload, dumps (.object document) = some payload → 2 ≤ payload.length

variable (codec : JsonCodec)

def encodeFrame (document : Fields) (maxBytes : ℤ) : Except String (List UInt8) :=
  match codec.dumps (.object document) with
  | none => .error "JSON_INVALID"
  | some payload =>
    if payload = [] ∨ maxBytes < payload.length then .error "FRAME_SIZE_INVALID"
    else if 2 ^ 32 ≤ payload.length then .error "struct.error"
    else .ok (bytesOfNat 4 payload.length ++ payload)

/-- `_receive_exact`; each chunk makes `remaining` smaller. -/
def receiveExact (peer : Peer) (remaining : ℕ) : Except String (List UInt8) × Peer :=
  if _ : remaining = 0 then (.ok [], peer)
  else
    let received := peer.recv remaining
    if _ : received.1 = [] then (.error "TRUNCATED_FRAME", received.2)
    else
      match receiveExact received.2 (remaining - received.1.length) with
      | (.ok more, rest) => (.ok (received.1 ++ more), rest)
      | (.error error, rest) => (.error error, rest)
termination_by remaining
decreasing_by exact Nat.sub_lt (Nat.pos_of_ne_zero ‹_›) (List.length_pos_of_ne_nil ‹_›)

/-- What `receive_frame` makes of a payload. -/
def decodePayload (payload : List UInt8) : Except String Fields :=
  match codec.loads payload with
  | none => .error "FRAME_JSON_INVALID"
  | some value =>
    match hooked value with
    | .error error => .error error
    | .ok (.object document) => .ok document
    | .ok _ => .error "FRAME_DOCUMENT_NOT_OBJECT"

def receiveFrame (peer : Peer) (maxBytes : ℤ) : Except String Fields × Peer :=
  match receiveExact peer 4 with
  | (.error error, rest) => (.error error, rest)
  | (.ok header, rest) =>
    let length := bigEndian header
    if length < 2 ∨ maxBytes < length then (.error "FRAME_SIZE_INVALID", rest)
    else
      match receiveExact rest length with
      | (.error error, last) => (.error error, last)
      | (.ok payload, last) => (decodePayload codec payload, last)

theorem rejectFrom_eq (pairs : Fields) : ∀ result : Fields, (result.map Prod.fst).Nodup →
    rejectFrom result pairs = if ((result ++ pairs).map Prod.fst).Nodup then .ok (result ++ pairs)
      else .error "DUPLICATE_JSON_KEY" := by
  induction pairs with
  | nil =>
    intro result hr
    rw [rejectFrom, List.append_nil, if_pos hr]
  | cons pair pairs ih =>
    obtain ⟨key, value⟩ := pair
    intro result hr
    rw [rejectFrom]
    split_ifs with ho hn hn
    · rw [List.map_append, List.nodup_append] at hn
      exact absurd rfl (hn.2.2 key ho key List.mem_cons_self)
    · rfl
    all_goals
      have hne : ((result ++ [(key, value)]).map Prod.fst).Nodup := by
        rw [List.map_append, List.nodup_append_comm]
        exact List.nodup_cons.mpr ⟨ho, hr⟩
      rw [ih _ hne, List.append_assoc, List.singleton_append]
    · rw [if_pos hn]
    · rw [if_neg hn]

theorem rejectDuplicateKeys_eq (pairs : Fields) :
    rejectDuplicateKeys pairs = if (pairs.map Prod.fst).Nodup then .ok pairs
      else .error "DUPLICATE_JSON_KEY" :=
  rejectFrom_eq pairs [] List.nodup_nil

mutual

theorem hooked_eq (value : Json) :
    hooked value = if distinctKeys value then .ok value else .error "DUPLICATE_JSON_KEY" := by
  cases value with
  | array items =>
    rw [hooked, distinctKeys, hookedItems_eq items]
    split_ifs <;> rfl
  | object fields =>
    rw [hooked, distinctKeys, hookedFields_eq fields]
    cases hd : distinctFields fields with
    | false => rfl
    | true =>
      rw [if_pos rfl, Bool.true_and]
      show (rejectDuplicateKeys fields).map Json.object = _
      rw [rejectDuplicateKeys_eq]
      by_cases hn : (fields.map Prod.fst).Nodup <;> simp [hn, Except.map]
  | null => rfl
  | boolean value => rfl
  | integer value => rfl
  | float text => rfl
  | nonFinite text => rfl
  | string text => rfl

theorem hookedItems_eq (items : List Json) :
    hookedItems items = if distinctItems items then .ok items
      else .error "DUPLICATE_JSON_KEY" := by
  cases items with
  | nil => rfl
  | cons item rest =>
    rw [hookedItems, distinctItems, hooked_eq item, hookedItems_eq rest]
    cases distinctKeys item <;> cases distinctItems rest <;> rfl

theorem hookedFields_eq (fields : Fields) :
    hookedFields fields = if distinctFields fields then .ok fields
      else .error "DUPLICATE_JSON_KEY" := by
  cases fields with
  | nil => rfl
  | cons field rest =>
    obtain ⟨key, value⟩ := field
    rw [hookedFields, distinctFields, hooked_eq value, hookedFields_eq rest]
    cases distinctKeys value <;> cases distinctFields rest <;> rfl

end

section Reads

variable {peer : Peer} {size : ℕ}

theorem receiveExact_step (hs : size ≠ 0) (hc : (peer.recv size).1 ≠ []) : receiveExact peer size =
      match receiveExact (peer.recv size).2 (size - (peer.recv size).1.length) with
      | (.ok more, rest) => (.ok ((peer.recv size).1 ++ more), rest)
      | (.error error, rest) => (.error error, rest) := by
  rw [receiveExact, dif_neg hs, dif_neg hc]

theorem receiveExact_of_le (hle : size ≤ peer.content.length) :
    ∃ rest, receiveExact peer size = (.ok (peer.content.take size), rest) ∧
      rest.content = peer.content.drop size := by
  induction size using Nat.strong_induction_on generalizing peer with
  | _ size ih =>
    by_cases hs : size = 0
    · rw [receiveExact, dif_pos hs, hs]
      exact ⟨peer, rfl, rfl⟩
    have hp := Nat.pos_of_ne_zero hs
    have hc := peer.recv_content size
    have hl := peer.recv_length_le size
    by_cases hch : (peer.recv size).1 = []
    · rw [peer.content_eq_nil_of_recv size hp hch] at hle
      exact absurd hle (Nat.not_le_of_lt hp)
    have hsh := List.length_pos_of_ne_nil hch
    rw [receiveExact_step hs hch]
    obtain ⟨rest, hre, hr⟩ := @ih (size - (peer.recv size).1.length) (by omega)
      (peer.recv size).2 (by rw [← hc, List.length_append] at hle; omega)
    rw [hre]
    refine ⟨rest, ?_, ?_⟩
    · rw [← hc, List.take_append, List.take_of_length_le hl]
    · rw [hr, ← hc, List.drop_append, List.drop_of_length_le hl, List.nil_append]

theorem receiveExact_of_lt (hlt : peer.content.length < size) :
    ∃ rest, receiveExact peer size = (.error "TRUNCATED_FRAME", rest) := by
  induction size using Nat.strong_induction_on generalizing peer with
  | _ size ih =>
    have hs : size ≠ 0 := by omega
    have hco := congrArg List.length (peer.recv_content size)
    by_cases hc : (peer.recv size).1 = []
    · rw [receiveExact, dif_neg hs, dif_pos hc]
      exact ⟨_, rfl⟩
    have hsh := List.length_pos_of_ne_nil hc
    rw [List.length_append] at hco
    obtain ⟨rest, hr⟩ := @ih (size - (peer.recv size).1.length) (by omega)
      (peer.recv size).2 (by omega)
    rw [receiveExact_step hs hc, hr]
    exact ⟨rest, rfl⟩

end Reads

section Frames

variable {codec} {document : Fields} {maxBytes : ℤ} {frame payload further : List UInt8}
  {peer : Peer}

theorem encodeFrame_eq_ok (hf : encodeFrame codec document maxBytes = .ok frame) :
    ∃ payload, codec.dumps (.object document) = some payload ∧ payload.length < 2 ^ 32 ∧
      payload.length ≤ maxBytes ∧ frame = bytesOfNat 4 payload.length ++ payload := by
  rw [encodeFrame] at hf
  cases hp : codec.dumps (.object document) with
  | none => rw [hp] at hf; cases hf
  | some payload =>
    simp only [hp] at hf
    split_ifs at hf with hs hl
    exact ⟨payload, rfl, not_le.mp hl, not_lt.mp (not_or.mp hs).2, (Except.ok.inj hf).symm⟩

theorem bigEndian_header {length : ℕ} (hl : length < 2 ^ 32) :
    bigEndian (bytesOfNat 4 length) = length := by
  have hp : (256 : ℕ) ^ 4 = 2 ^ 32 := by decide
  exact bigEndian_bytesOfNat (hp ▸ hl)

theorem receiveFrame_of_payload (ht : 2 ≤ payload.length) (hmax : payload.length ≤ maxBytes)
    (hlo : payload.length < 2 ^ 32)
    (hc : peer.content = bytesOfNat 4 payload.length ++ (payload ++ further)) :
    ∃ rest, receiveFrame codec peer maxBytes = (decodePayload codec payload, rest) ∧
      rest.content = further := by
  have hh := length_bytesOfNat 4 payload.length
  obtain ⟨mid, hre, hm⟩ := @receiveExact_of_le peer 4 (by
    rw [hc, List.length_append, hh]; omega)
  rw [hc, List.take_left' hh] at hre
  rw [hc, List.drop_left' hh] at hm
  obtain ⟨rest, hr, hl⟩ := @receiveExact_of_le mid payload.length (by
    rw [hm, List.length_append]; omega)
  rw [hm, List.take_left] at hr
  rw [hm, List.drop_left] at hl
  have hle := bigEndian_header hlo
  refine ⟨rest, ?_, hl⟩
  have hok : ¬(payload.length < 2 ∨ maxBytes < payload.length) := by omega
  simp only [receiveFrame, hre, hle, if_neg hok, hr]

theorem receiveFrame_of_header {header : List UInt8} (hh : header.length = 4)
    (hra : bigEndian header < 2 ∨ maxBytes < bigEndian header)
    (hc : peer.content = header ++ further) :
    ∃ rest, receiveFrame codec peer maxBytes = (.error "FRAME_SIZE_INVALID", rest) ∧
      rest.content = further := by
  obtain ⟨rest, hre, hr⟩ := @receiveExact_of_le peer 4 (by
    rw [hc, List.length_append, hh]; omega)
  rw [hc, List.take_left' hh] at hre
  rw [hc, List.drop_left' hh] at hr
  exact ⟨rest, by simp only [receiveFrame, hre, if_pos hra], hr⟩

theorem receiveFrame_of_prefix (htwo : 2 ≤ payload.length) (hmax : payload.length ≤ maxBytes)
    (hlo : payload.length < 2 ^ 32) (hp : peer.content <+: bytesOfNat 4 payload.length ++ payload)
    (hs : peer.content ≠ bytesOfNat 4 payload.length ++ payload) :
    (receiveFrame codec peer maxBytes).1 = .error "TRUNCATED_FRAME" := by
  have hh := length_bytesOfNat 4 payload.length
  have hsh : peer.content.length < 4 + payload.length := by
    have hle := hp.length_le
    rw [List.length_append, hh] at hle
    refine lt_of_le_of_ne hle fun heq => hs (hp.eq_of_length ?_)
    rw [heq, List.length_append, hh]
  by_cases hf : peer.content.length < 4
  · obtain ⟨rest, hr⟩ := receiveExact_of_lt hf
    simp only [receiveFrame, hr]
  · obtain ⟨mid, hr, hm⟩ := receiveExact_of_le (not_lt.mp hf)
    have ht : peer.content.take 4 = bytesOfNat 4 payload.length := by
      obtain ⟨missing, hmi⟩ := hp
      have hta := congrArg (List.take 4) hmi
      rw [List.take_append_of_le_length (not_lt.mp hf)] at hta
      exact hta.trans (List.take_left' hh)
    have hl := bigEndian_header hlo
    have hok : ¬(payload.length < 2 ∨ maxBytes < payload.length) := by omega
    obtain ⟨rest, hla⟩ := @receiveExact_of_lt mid payload.length (by
      rw [hm, List.length_drop]; omega)
    rw [ht] at hr
    simp only [receiveFrame, hr, hl, if_neg hok, hla]

end Frames

/-- Frames between two ends with the same limit. -/
structure FramesExact (maxBytes : ℤ) : Prop where
  encodes : ∀ document payload, codec.dumps (.object document) = some payload →
    payload.length ≤ maxBytes → payload.length < 2 ^ 32 →
    encodeFrame codec document maxBytes = .ok (bytesOfNat 4 payload.length ++ payload)
  /-- Exactly the bytes of the frame are consumed. -/
  returns : ∀ document frame, distinctKeys (.object document) = true →
    encodeFrame codec document maxBytes = .ok frame → ∀ (peer : Peer) (further : List UInt8),
    peer.content = frame ++ further → ∃ rest,
      receiveFrame codec peer maxBytes = (.ok document, rest) ∧ rest.content = further
  truncated : ∀ document frame, encodeFrame codec document maxBytes = .ok frame →
    ∀ peer : Peer, peer.content <+: frame → peer.content ≠ frame →
      (receiveFrame codec peer maxBytes).1 = .error "TRUNCATED_FRAME"
  /-- Only the header is read. -/
  announced : ∀ (header further : List UInt8) (peer : Peer), header.length = 4 →
    bigEndian header < 2 ∨ maxBytes < bigEndian header → peer.content = header ++ further →
    ∃ rest, receiveFrame codec peer maxBytes = (.error "FRAME_SIZE_INVALID", rest) ∧
      rest.content = further
  repeated : ∀ (payload further : List UInt8) (value : Json) (peer : Peer),
    2 ≤ payload.length → payload.length ≤ maxBytes → payload.length < 2 ^ 32 →
    codec.loads payload = some value → distinctKeys value = false →
    peer.content = bytesOfNat 4 payload.length ++ (payload ++ further) →
    ∃ rest, receiveFrame codec peer maxBytes = (.error "DUPLICATE_JSON_KEY", rest) ∧
      rest.content = further

theorem frames_exact (maxBytes : ℤ) : FramesExact codec maxBytes where
  encodes document payload hpayload hmax hlong := by
    have ht := codec.two_le document payload hpayload
    have hsi : ¬(payload = [] ∨ maxBytes < payload.length) := by
      rintro (rfl | hl)
      · exact absurd ht (by decide)
      · exact absurd hmax (not_le.mpr hl)
    simp only [encodeFrame, hpayload, if_neg hsi, if_neg (not_le.mpr hlong)]
  returns document frame hd hframe peer further hcontent := by
    obtain ⟨payload, hpayload, hlong, hmax, rfl⟩ := encodeFrame_eq_ok hframe
    rw [List.append_assoc] at hcontent
    obtain ⟨rest, hre, hr⟩ := receiveFrame_of_payload
      (codec.two_le document payload hpayload) hmax hlong hcontent
    refine ⟨rest, ?_, hr⟩
    rw [hre, decodePayload, codec.loads_dumps _ payload hd hpayload]
    simp only [hooked_eq, hd, if_true]
  truncated document frame hframe peer hprefix hs := by
    obtain ⟨payload, hpayload, hlong, hmax, rfl⟩ := encodeFrame_eq_ok hframe
    exact receiveFrame_of_prefix (codec.two_le document payload hpayload) hmax hlong hprefix hs
  announced _ _ _ hheader hrange hcontent := receiveFrame_of_header hheader hrange hcontent
  repeated payload further value peer ht hmax hlong hv hrep hcontent := by
    obtain ⟨rest, hre, hr⟩ :=
      @receiveFrame_of_payload codec _ _ _ _ ht hmax hlong hcontent
    refine ⟨rest, ?_, hr⟩
    rw [hre, decodePayload, hv]
    simp only [hooked_eq, hrep, if_neg Bool.false_ne_true]

def tinyDocument : Fields := [("a", .integer 1)]

def tinyPayload : List UInt8 := [123, 34, 97, 34, 58, 49, 125]

def tinyCodec : JsonCodec where
  dumps
    | .object [("a", .integer 1)] => some tinyPayload
    | _ => none
  loads payload := if payload = tinyPayload then some (.object tinyDocument) else none
  loads_dumps document payload _ hdumps := by
    split at hdumps
    · rw [if_pos (Option.some.inj hdumps).symm]
      rfl
    · cases hdumps
  two_le document payload hdumps := by
    split at hdumps
    · rw [← Option.some.inj hdumps]
      decide
    · cases hdumps

def tinyPeer : Peer where
  chunks := [[0, 0], [0, 7, 123, 34, 97], [34, 58, 49, 125, 255]]
  filled := by decide

theorem frames_exact_tinyPeer : ∃ rest,
    receiveFrame tinyCodec tinyPeer 1048576 = (.ok tinyDocument, rest) ∧
      rest.content = [255] := by
  have he := frames_exact tinyCodec 1048576
  have hf := he.encodes tinyDocument tinyPayload rfl (by decide) (by decide)
  exact he.returns tinyDocument _ (by decide) hf tinyPeer [255] (by decide)

end AiQuant.Services
