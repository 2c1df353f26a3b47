import AiQuant.Gateway.Request
import Mathlib.Data.List.TakeWhile

/-! What the admitted bytes say.  A reader takes the method, path and host off the head of the
wire bytes; the theorem says for which declared requests every admitted message has bytes that
read as exactly what was declared. -/
namespace AiQuant.Gateway

structure WireRequest where
  method : Bytes
  path : Bytes
  host : Bytes
  parameters : List (ParameterLocation × String × Bytes)

def isSpace (byte : UInt8) : Bool := byte == 32

def isQueryMark (byte : UInt8) : Bool := byte == 63

def endsLine (byte : UInt8) : Bool := byte == 13 || byte == 10

def versionBytes : Bytes := "HTTP/1.1".toList.map fun char => char.toNat.toUInt8

def hostField : Bytes := "\r\nHost: ".toList.map fun char => char.toNat.toUInt8

def plainRest : Bytes := "\r\nConnection: close\r\n\r\n".toList.map fun char => char.toNat.toUInt8

/-- The word before the first byte that ends it, and what follows that byte. -/
def wordBefore (ends : UInt8 → Bool) (bytes : Bytes) : Bytes × Bytes :=
  (bytes.takeWhile (!ends ·), (bytes.dropWhile (!ends ·)).drop 1)

/-- How the query, the other fields of the head and the body carry parameters is left to the
reader; a request without any of them carries none. -/
structure WireReader where
  readParameters : (query rest : Bytes) → Option (List (ParameterLocation × String × Bytes))
  readParameters_plain : readParameters [] plainRest = some []

def WireReader.read (reader : WireReader) (wire : Bytes) : Option WireRequest :=
  let fields := wire.dropWhile (!endsLine ·)
  let afterHost := fields.drop hostField.length
  let method := wordBefore isSpace (wire.takeWhile (!endsLine ·))
  let target := wordBefore isSpace method.2
  if target.2 = versionBytes ∧ hostField.isPrefixOf fields = true then
    (reader.readParameters (target.1.dropWhile (!isQueryMark ·))
      (afterHost.dropWhile (!endsLine ·))).map fun parameters =>
        ⟨method.1, target.1.takeWhile (!isQueryMark ·), afterHost.takeWhile (!endsLine ·),
          parameters⟩
  else none

def declaredWire (request : ClosedGatewayRequest) : Option WireRequest := do
  let method ← asciiBytes request.method.text
  let path ← asciiBytes request.path
  let host ← asciiBytes request.host
  let parameters ← request.parameters.mapM fun parameter =>
    parameter.valueBase64.decode.map fun value => (parameter.location, parameter.name, value)
  return ⟨method, path, host, parameters⟩

/-- The bytes read as exactly what the document declares. -/
def WireReader.Encodes (reader : WireReader) (wire : Bytes) (request : ClosedGatewayRequest) :
    Prop :=
  ∃ declared, declaredWire request = some declared ∧ reader.read wire = some declared

/-- A path that stays one word of the request line, without a query. -/
def PlainPath (path : String) : Prop :=
  ∀ char ∈ path.toList, char ≠ ' ' ∧ char ≠ '?' ∧ char ≠ '\r' ∧ char ≠ '\n'

/-- By the characters of the path, not by all characters there are. -/
instance (path : String) : Decidable (PlainPath path) :=
  List.decidableBAll (fun char => char ≠ ' ' ∧ char ≠ '?' ∧ char ≠ '\r' ∧ char ≠ '\n') path.toList

variable {bytes : Bytes}

theorem asciiBytes_eq_some_iff {text : String} : asciiBytes text = some bytes ↔
      (∀ char ∈ text.toList, char.toNat < 128) ∧
        text.toList.map (fun char => char.toNat.toUInt8) = bytes := by
  unfold asciiBytes
  split_ifs with ha
  · simp only [List.all_eq_true, decide_eq_true_eq] at ha
    exact ⟨fun hb => ⟨ha, Option.some.inj hb⟩, fun hb => congrArg some hb.2⟩
  · simp only [List.all_eq_true, decide_eq_true_eq] at ha
    exact ⟨nofun, fun hb => absurd hb.1 ha⟩

theorem asciiBytes_append {first second : String} (hb : asciiBytes (first ++ second) = some bytes) :
    ∃ left right, asciiBytes first = some left ∧ asciiBytes second = some right ∧
      bytes = left ++ right := by
  rw [asciiBytes_eq_some_iff] at hb
  obtain ⟨ha, rfl⟩ := hb
  simp only [String.toList_append, List.mem_append] at ha
  refine ⟨_, _, asciiBytes_eq_some_iff.mpr ⟨fun char hc => ha char (.inl hc), rfl⟩,
    asciiBytes_eq_some_iff.mpr ⟨fun char hc => ha char (.inr hc), rfl⟩, ?_⟩
  simp

theorem toUInt8_inj {char other : Char} (hc : char.toNat < 128) (ho : other.toNat < 128)
    (hb : char.toNat.toUInt8 = other.toNat.toUInt8) : char = other := by
  have hn := congrArg UInt8.toNat hb
  simp only [Nat.toUInt8, UInt8.toNat_ofNat'] at hn
  rw [Nat.mod_eq_of_lt (by omega), Nat.mod_eq_of_lt (by omega)] at hn
  exact Char.toNat_inj.mp hn

def PlainBytes (bytes : Bytes) : Prop :=
  ∀ byte ∈ bytes, isSpace byte = false ∧ isQueryMark byte = false ∧ endsLine byte = false

theorem plainBytes_iff {path : String} (hb : asciiBytes path = some bytes) :
    PlainBytes bytes ↔ PlainPath path := by
  rw [asciiBytes_eq_some_iff] at hb
  obtain ⟨ha, rfl⟩ := hb
  simp only [PlainBytes, PlainPath, List.forall_mem_map, isSpace, isQueryMark, endsLine,
    beq_eq_false_iff_ne, Bool.or_eq_false_iff]
  refine forall₂_congr fun char hc => ?_
  have hby (other : Char) (ho : other.toNat < 128) :
      char.toNat.toUInt8 ≠ other.toNat.toUInt8 ↔ char ≠ other :=
    not_congr ⟨toUInt8_inj (ha char hc) ho, fun heq => by rw [heq]⟩
  exact and_congr (hby ' ' (by decide)) (and_congr (hby '?' (by decide))
    (and_congr (hby '\r' (by decide)) (hby '\n' (by decide))))

variable {req : ClosedGatewayRequest} {wire : Bytes}

theorem structured_wire (hk : req.requestKind = .structuredUnsigned)
    (hw : preparedWireBytes req = .ok wire) :
    req.parameters = [] ∧ ∃ method path host, asciiBytes req.method.text = some method ∧
      asciiBytes req.path = some path ∧ asciiBytes req.host = some host ∧
      wire = method ++ 32 :: path ++ 32 :: versionBytes ++ hostField ++ host ++ plainRest := by
  simp only [preparedWireBytes, hk] at hw
  split_ifs at hw with he
  · cases hw
  simp only [not_or, not_not] at he
  split at hw
  · cases hw
  rename_i bytes hbytes
  cases hw
  refine ⟨he.1, ?_⟩
  obtain ⟨_, rest, hhe, hre, rfl⟩ := asciiBytes_append hbytes
  obtain ⟨_, host, hf, hh, rfl⟩ := asciiBytes_append hhe
  obtain ⟨_, version, hl, hve, rfl⟩ := asciiBytes_append hf
  obtain ⟨_, path, hst, hp, rfl⟩ := asciiBytes_append hl
  obtain ⟨method, space, hm, hsp, rfl⟩ := asciiBytes_append hst
  have hs : asciiBytes " " = some [32] := rfl
  have hv : asciiBytes " HTTP/1.1\r\nHost: " = some (32 :: versionBytes ++ hostField) := rfl
  have hr : asciiBytes "\r\nConnection: close\r\n\r\n" = some plainRest := rfl
  cases hs.symm.trans hsp
  cases hv.symm.trans hve
  cases hr.symm.trans hre
  refine ⟨method, path, host, hm, hp, hh, ?_⟩
  simp

variable {ends : UInt8 → Bool} {word rest : Bytes} {last : UInt8}

theorem takeWhile_until (hw : ∀ byte ∈ word, ends byte = false) (hl : ends last = true) :
    (word ++ last :: rest).takeWhile (!ends ·) = word := by
  rw [List.takeWhile_append_of_pos (by simpa using hw)]
  simp [hl]

theorem dropWhile_until (hw : ∀ byte ∈ word, ends byte = false) (hl : ends last = true) :
    (word ++ last :: rest).dropWhile (!ends ·) = last :: rest := by
  rw [List.dropWhile_append_of_pos (by simpa using hw)]
  simp [hl]

theorem wordBefore_until (hw : ∀ byte ∈ word, ends byte = false) (hl : ends last = true) :
    wordBefore ends (word ++ last :: rest) = (word, rest) := by
  rw [wordBefore, takeWhile_until hw hl, dropWhile_until hw hl]
  rfl

variable {reader : WireReader}

theorem read_structured {method path host : Bytes} (hm : PlainBytes method) (hpa : PlainBytes path)
    (hhost : ∀ byte ∈ host, endsLine byte = false) :
    reader.read (method ++ 32 :: path ++ 32 :: versionBytes ++ hostField ++ host ++ plainRest) =
      some ⟨method, path, host, []⟩ := by
  have hv : ∀ byte ∈ versionBytes, endsLine byte = false := by
    intro byte hb
    have ha : (versionBytes.all fun byte => !endsLine byte) = true := rfl
    simpa using List.all_eq_true.mp ha byte hb
  have hl : ∀ byte ∈ method ++ 32 :: path ++ 32 :: versionBytes, endsLine byte = false := by
    intro byte hb
    simp only [List.mem_append, List.mem_cons] at hb
    rcases hb with (hb | rfl | hb) | rfl | hb
    · exact (hm byte hb).2.2
    · rfl
    · exact (hpa byte hb).2.2
    · rfl
    · exact hv byte hb
  have hf : hostField ++ host ++ plainRest = 13 :: (hostField.tail ++ host ++ plainRest) := rfl
  have hwi : method ++ 32 :: path ++ 32 :: versionBytes ++ hostField ++ host ++ plainRest =
      (method ++ 32 :: path ++ 32 :: versionBytes) ++
        13 :: (hostField.tail ++ host ++ plainRest) := by
    rw [← hf]
    simp
  have hp : plainRest = 13 :: plainRest.tail := rfl
  have hho : (host ++ plainRest).takeWhile (!endsLine ·) = host := by
    rw [hp]
    exact takeWhile_until hhost rfl
  have hh : (host ++ plainRest).dropWhile (!endsLine ·) = plainRest := by
    rw [hp]
    exact dropWhile_until hhost rfl
  rw [hwi, WireReader.read]
  simp only [takeWhile_until hl (show endsLine 13 = true from rfl),
    dropWhile_until hl (show endsLine 13 = true from rfl)]
  rw [List.append_assoc, List.cons_append, wordBefore_until (fun byte h => (hm byte h).1) rfl,
    wordBefore_until (fun byte h => (hpa byte h).1) rfl]
  have hs : hostField.isPrefixOf (13 :: (hostField.tail ++ host ++ plainRest)) = true := by
    rw [← hf, List.append_assoc, List.isPrefixOf_iff_prefix]
    exact List.prefix_append _ _
  have hd : (13 :: (hostField.tail ++ host ++ plainRest)).drop hostField.length =
      host ++ plainRest := by
    rw [← hf, List.append_assoc, List.drop_left]
  have hq : path.dropWhile (!isQueryMark ·) = [] := by
    rw [List.dropWhile_eq_nil_iff]
    intro byte hb
    simp [(hpa byte hb).2.1]
  have hw : path.takeWhile (!isQueryMark ·) = path := by
    rw [List.takeWhile_eq_self_iff]
    intro byte hb
    simp [(hpa byte hb).2.1]
  simp only [hs, and_self, if_true, hd, hq, hw, hho, hh,
    reader.readParameters_plain, Option.map_some]

theorem read_path_plain {declared : WireRequest}
    (hr : reader.read wire = some declared) : PlainBytes declared.path := by
  simp only [WireReader.read, Option.ite_none_right_eq_some, Option.map_eq_some_iff] at hr
  obtain ⟨_, params, _, rfl⟩ := hr
  intro byte hb
  have hq := List.mem_takeWhile_imp hb
  have ht := (List.takeWhile_sublist _).mem hb
  have hs := List.mem_takeWhile_imp ht
  have hl := (List.dropWhile_sublist _).mem
    ((List.drop_sublist 1 _).mem ((List.takeWhile_sublist _).mem ht))
  have he := List.mem_takeWhile_imp hl
  simp only [Bool.not_eq_true'] at hq hs he
  exact ⟨hs, hq, he⟩

theorem plainBytes_method {method : Method}
    (hb : asciiBytes method.text = some bytes) : PlainBytes bytes := by
  rw [plainBytes_iff hb]
  cases method <;> decide

theorem host_of_destination (hd : validateDestination req = .ok ())
    (hb : asciiBytes req.host = some bytes) : ∀ byte ∈ bytes, endsLine byte = false := by
  have he : destinations.lookup (req.endpointAuthority, req.transport) =
      some (req.scheme, req.host) := by
    simp only [validateDestination, deny_if_eq_ok_iff, not_or, not_not] at hd
    exact hd.1.2
  have hh : ∀ entry ∈ destinations, PlainPath entry.2.2 := by decide
  obtain ⟨pre, post, hen, _⟩ := List.lookup_eq_some_iff.mp he
  have hp := hh ((req.endpointAuthority, req.transport), req.scheme, req.host) (by rw [hen]; simp)
  intro byte hby
  exact ((plainBytes_iff hb).mpr hp byte hby).2.2

/-- The same document but for the bytes and the hashes that cover them. -/
def SameDeclared (request other : ClosedGatewayRequest) : Prop :=
  ∃ bytes wireHash canonicalHash, other =
    { request with
      immutableWireBytesBase64 := bytes
      wireBytesHash := wireHash
      canonicalRequestHash := canonicalHash }

theorem structured_encodes (hk : req.requestKind = .structuredUnsigned)
    (hpath : PlainPath req.path) (hd : validateDestination req = .ok ())
    (hw : preparedWireBytes req = .ok wire) : reader.Encodes wire req := by
  obtain ⟨hpa, method, path, host, hm, hp, hh, rfl⟩ :=
    structured_wire hk hw
  refine ⟨⟨method, path, host, []⟩, ?_, ?_⟩
  · simp [declaredWire, hm, hp, hh, hpa]
  · exact read_structured (plainBytes_method hm) ((plainBytes_iff hp).mpr hpath)
      (host_of_destination hd hh)

theorem plainPath_of_encodes (he : reader.Encodes wire req) : PlainPath req.path := by
  obtain ⟨declared, hd, hr⟩ := he
  simp only [declaredWire, Option.bind_eq_bind, Option.bind_eq_some_iff] at hd
  obtain ⟨method, _, path, hp, host, _, params, _, hd⟩ := hd
  cases hd
  exact (plainBytes_iff hp).mp (read_path_plain hr)

def blankBytes : Bytes := [13, 10, 13, 10]

theorem not_encodes_blank : ¬ reader.Encodes blankBytes req := by
  rintro ⟨declared, _, hr⟩
  have hv : (wordBefore isSpace (wordBefore isSpace
      (blankBytes.takeWhile (!endsLine ·))).2).2 ≠ versionBytes := by decide
  simp only [WireReader.read, Option.ite_none_right_eq_some] at hr
  exact hv hr.1.1

def withWireBytes (digests : Digests) (request : ClosedGatewayRequest) (wire : Bytes) :
    ClosedGatewayRequest :=
  { request with
    immutableWireBytesBase64 := some (.decoded wire)
    wireBytesHash := digests.sha256 wire
    canonicalRequestHash := digests.canonicalRequest ⟨request.endpointAuthority,
      request.endpointId, request.transport, request.method, request.scheme, request.host,
      request.path, request.parameterHash, digests.sha256 wire⟩ }

def bindTo (digests : Digests) (binding : PermitBinding) (request : ClosedGatewayRequest) :
    PermitBinding :=
  { binding with
    canonicalRequestHash := request.canonicalRequestHash
    wireBytesHash := request.wireBytesHash
    requestDocumentHash := digests.requestDocument request }

theorem admitted_withWireBytes {config : GatewayConfig} {msg : GatewayMessage}
    {peer : PeerCredentials} {now : ℤ} {endpoint : EndpointPolicy} {facts : OperationFacts}
    (ha : Admitted config msg peer now req endpoint facts wire)
    (hki : req.requestKind = .presignedImmutable) (bytes : Bytes) : Admitted config { msg with
        requestDocument := some (withWireBytes config.digests req bytes)
        permitBinding := msg.permitBinding.map fun binding =>
          bindTo config.digests binding (withWireBytes config.digests req bytes) }
      peer now (withWireBytes config.digests req bytes) endpoint facts bytes := by
  obtain ⟨hd, hp, hk, hf⟩ :=
    validateRequestAgainstEndpoint_eq_ok_iff.mp ha.contract
  obtain ⟨binding, expiry, hb, he, hl, hco, hm⟩ :=
    admitBinding_eq_ok_iff.mp ha.binding
  refine ⟨ha.messageType, rfl, ha.caller, ha.bundleValid,
    ha.catalogValid, ha.catalogHash, ha.endpointFound, ha.destination,
    ha.window, ?_, ?_, rfl, rfl, ?_⟩
  · refine validateRequestAgainstEndpoint_eq_ok_iff.mpr ⟨?_, hp, ?_, hf⟩
    · exact ⟨hd.transport, hd.method, hd.path, hd.schema,
        hd.nodup, hd.required, hd.allowed, hd.notForbidden⟩
    · simp [validateRequestKind, withWireBytes, hki, Base64Text.decode]
  · simp [preparedWireBytes, withWireBytes, hki, Base64Text.decode]
  · refine admitBinding_eq_ok_iff.mpr ⟨bindTo config.digests binding
      (withWireBytes config.digests req bytes), expiry, by rw [hb]; rfl, he, hl,
      hco, ?_⟩
    simp only [GatewayConfig.bindingMatches, Bool.and_eq_true, decide_eq_true_eq] at hm ⊢
    obtain ⟨⟨⟨⟨⟨⟨hc, hca⟩, _⟩, hpa⟩, _⟩, _⟩, ho⟩ := hm
    exact ⟨⟨⟨⟨⟨⟨hc, hca⟩, rfl⟩, hpa⟩, rfl⟩, rfl⟩, ho⟩

/-- Every admitted message that declares what an admitted one declares has bytes that read as
exactly that, if and only if the request is one that the gateway renders itself and the path of
its endpoint is one plain word. -/
theorem declared_is_sent_iff (reader : WireReader) (config : GatewayConfig)
    (msg : GatewayMessage) (peer : PeerCredentials) (now : ℤ) (req : ClosedGatewayRequest)
    (endpoint : EndpointPolicy) (facts : OperationFacts)
    (hadmission : config.admit false msg peer now = .ok (req, endpoint, facts)) :
    (∀ other otherRequest otherFacts sent,
        config.admit false other peer now = .ok (otherRequest, endpoint, otherFacts) →
          SameDeclared req otherRequest → preparedWireBytes otherRequest = .ok sent →
            reader.Encodes sent otherRequest) ↔
      req.requestKind = .structuredUnsigned ∧ PlainPath req.path := by
  constructor
  · intro hs
    obtain ⟨_, wire, ha⟩ := admit_eq_ok_iff.mp hadmission
    have he := hs msg req facts wire hadmission ⟨_, _, _, rfl⟩ ha.wireBytes
    refine ⟨?_, plainPath_of_encodes he⟩
    cases hk : req.requestKind with
    | structuredUnsigned => rfl
    | presignedImmutable =>
      have hb := admitted_withWireBytes ha hk blankBytes
      exact absurd (hs _ _ facts blankBytes (admit_eq_ok_iff.mpr ⟨rfl, _, hb⟩)
        ⟨_, _, _, rfl⟩ hb.wireBytes) not_encodes_blank
  · rintro ⟨hk, hp⟩ other otherRequest otherFacts sent ho ⟨_, _, _, rfl⟩ hw
    obtain ⟨_, _, ha⟩ := admit_eq_ok_iff.mp ho
    exact structured_encodes hk hp ha.destination hw

def plainReader : WireReader where
  readParameters := fun query rest => if query = [] ∧ rest = plainRest then some [] else none
  readParameters_plain := by simp

theorem timeRequest_declared_is_sent : timeRequest.requestKind = .structuredUnsigned ∧
      ∀ other otherRequest otherFacts sent, timeGateway.admit false other timePeer timeNow =
            .ok (otherRequest, timeEndpoint, otherFacts) →
          SameDeclared timeRequest otherRequest → preparedWireBytes otherRequest = .ok sent →
            plainReader.Encodes sent otherRequest := by
  refine ⟨rfl, ?_⟩
  refine (declared_is_sent_iff plainReader timeGateway (timeMessage timeRequest) timePeer timeNow
    timeRequest timeEndpoint timeFacts
    (admit_eq_ok_iff.mpr ⟨rfl, timeWire, timeRequest_admitted⟩)).mpr ⟨rfl, ?_⟩
  decide

def cancelAllBytes : Bytes :=
  (asciiBytes "DELETE /fapi/v1/allOpenOrders HTTP/1.1\r\nHost: fapi.binance.com\r\n\r\n").getD []

/-- A presigned request that declares the server time and carries these bytes. -/
def smuggledRequest : ClosedGatewayRequest :=
  { timeRequest with
    requestKind := .presignedImmutable
    immutableWireBytesBase64 := some (.decoded cancelAllBytes)
    wireBytesHash := otherWireHash
    canonicalRequestHash := "f33a7d835690e30c8dd8b9cd1013905483983b37682a151c107b0d99389fd339" }

theorem smuggledRequest_admitted : Admitted timeGateway (timeMessage smuggledRequest) timePeer
    timeNow smuggledRequest timeEndpoint timeFacts cancelAllBytes := by
  have hh : timeDigests.sha256 cancelAllBytes = otherWireHash := by decide
  obtain ⟨hd, hp, _, hf⟩ :=
    validateRequestAgainstEndpoint_eq_ok_iff.mp timeRequest_admitted.contract
  refine { timeRequest_admitted with
    document := rfl
    contract := ?_
    wireBytes := rfl
    wireHash := hh
    canonicalHash := ?_
    binding := ?_ }
  · refine validateRequestAgainstEndpoint_eq_ok_iff.mpr ⟨?_, hp, ?_, hf⟩
    · exact ⟨hd.transport, hd.method, hd.path, hd.schema,
        hd.nodup, hd.required, hd.allowed, hd.notForbidden⟩
    · simp [validateRequestKind, smuggledRequest, Base64Text.decode, timeGateway, hh]
  · have ho : otherWireHash ≠ timeWireHash := by decide
    simp [timeGateway, timeDigests, smuggledRequest, deriveCanonicalRequestHash, ho]
  · refine admitBinding_eq_ok_iff.mpr ⟨timeBinding smuggledRequest, timeNow + 2000000, rfl, rfl, ?_,
      ?_, ?_⟩
    · simp
    · simp [smuggledRequest, timeRequest]
    · simp [GatewayConfig.bindingMatches, timeBinding, smuggledRequest, timeRequest, timeGateway,
        timeDigests]

theorem read_method {declared : WireRequest} (hr : reader.read wire = some declared) :
    declared.method = (wordBefore isSpace (wire.takeWhile (!endsLine ·))).1 := by
  simp only [WireReader.read, Option.ite_none_right_eq_some, Option.map_eq_some_iff] at hr
  obtain ⟨_, params, _, rfl⟩ := hr
  rfl

/-- The gateway admits a request that was checked as a read of the server time and whose bytes
delete every open order. -/
theorem smuggledRequest_not_declared :
    timeGateway.admit false (timeMessage smuggledRequest) timePeer timeNow =
      .ok (smuggledRequest, timeEndpoint, timeFacts) ∧
    preparedWireBytes smuggledRequest = .ok cancelAllBytes ∧
    smuggledRequest.method = .get ∧
    some (wordBefore isSpace (cancelAllBytes.takeWhile (!endsLine ·))).1 = asciiBytes "DELETE" ∧
    ∀ reader : WireReader, ¬ reader.Encodes cancelAllBytes smuggledRequest := by
  have hm : some (wordBefore isSpace (cancelAllBytes.takeWhile (!endsLine ·))).1 =
      asciiBytes "DELETE" := by decide
  refine ⟨admit_eq_ok_iff.mpr ⟨rfl, _, smuggledRequest_admitted⟩,
    smuggledRequest_admitted.wireBytes, rfl, hm, ?_⟩
  rintro reader ⟨declared, hd, hr⟩
  rw [← read_method hr] at hm
  simp only [declaredWire, Option.bind_eq_bind, Option.bind_eq_some_iff] at hd
  obtain ⟨method, hg, path, _, host, _, params, _, hd⟩ := hd
  cases hd
  have hs : asciiBytes "DELETE" = asciiBytes "GET" := hm.symm.trans hg.symm
  revert hs
  decide

end AiQuant.Gateway
