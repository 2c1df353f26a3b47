import AiQuant.Lib.InterruptedReader

/-! WebSocket frames as the stream consumers read them (`binance_egress/testnet_stream.py`).
`_read_exact` collects the bytes of a header, a length or a payload; a timeout in between raises,
and what was collected is gone. -/
namespace AiQuant.UserStream
open AiQuant.Lib

def maxFrameBytes : ℕ := 1048576

/-- What `read_websocket_frame` returns. -/
structure Frame where
  opcode : ℕ
  payload : List UInt8

abbrev ByteReader (α : Type) := Reader UInt8 String α

/-- The loop of `_read_exact`: `recv` returns at most what is asked for, and the rest of a chunk
stays. -/
def readMore (size : ℕ) : List UInt8 → ByteReader (List UInt8)
  | payload, [] => if size ≤ payload.length then (.ok payload, []) else (.error .waiting, [])
  | payload, .timedOut :: rest =>
    if size ≤ payload.length then (.ok payload, .timedOut :: rest) else (.error .timedOut, rest)
  | payload, .chunk content :: rest =>
    if size ≤ payload.length then (.ok payload, .chunk content :: rest)
    else if content = [] then (.error (.failed "TESTNET_STREAM_CLOSED"), rest)
    else if content.length ≤ size - payload.length then readMore size (payload ++ content) rest
    else (.ok (payload ++ content.take (size - payload.length)),
      .chunk (content.drop (size - payload.length)) :: rest)

def readExact (size : ℕ) : ByteReader (List UInt8) := readMore size []

/-- `struct.unpack`, for the formats `!H` and `!Q`. -/
def bigEndian (bytes : List UInt8) : ℕ :=
  bytes.foldl (fun value byte => value * 256 + byte.toNat) 0

def readLength (length : ℕ) : ByteReader ℕ :=
  if length = 126 then do return bigEndian (← readExact 2)
  else if length = 127 then do return bigEndian (← readExact 8)
  else pure length

def readPayload (opcode length : ℕ) : ByteReader Frame :=
  if maxFrameBytes < length then Reader.fail "TESTNET_STREAM_FRAME_TOO_LARGE"
  else do return ⟨opcode, ← readExact length⟩

/-- `read_websocket_frame` behind the header. -/
def readBody (first second : UInt8) : ByteReader Frame :=
  if first &&& 0x80 = 0 ∨ second &&& 0x80 ≠ 0 then Reader.fail "TESTNET_STREAM_FRAME_INVALID"
  else do readPayload (first &&& 0x0F).toNat (← readLength (second &&& 0x7F).toNat)

def readWebsocketFrame : ByteReader Frame := do
  let header ← readExact 2
  readBody (header.getD 0 0) (header.getD 1 0)

/-- The frames of so many calls, going on after each `TimeoutError` as both consumers do. -/
def framesRead : ℕ → List (Arrival UInt8) → List Frame
  | 0, _ => []
  | calls + 1, arrivals =>
    match readWebsocketFrame arrivals with
    | (.ok frame, rest) => frame :: framesRead calls rest
    | (.error .timedOut, rest) => framesRead calls rest
    | (.error _, _) => []

inductive LengthForm where
  | seven | sixteen | sixtyFour
deriving DecidableEq

/-- Lengths that a form can carry. -/
def LengthForm.Carries : LengthForm → ℕ → Prop
  | .seven, length => length < 126
  | .sixteen, length => length < 65536
  | .sixtyFour, length => length < 2 ^ 64

def bytesOfNat : ℕ → ℕ → List UInt8
  | 0, _ => []
  | count + 1, number => bytesOfNat count (number / 256) ++ [UInt8.ofNat number]

def LengthForm.code : LengthForm → ℕ → ℕ
  | .seven, length => length
  | .sixteen, _ => 126
  | .sixtyFour, _ => 127

def LengthForm.extended : LengthForm → ℕ → List UInt8
  | .seven, _ => []
  | .sixteen, length => bytesOfNat 2 length
  | .sixtyFour, length => bytesOfNat 8 length

/-- An unmasked final frame of at most `MAX_FRAME_BYTES` bytes. -/
structure ServerFrame where
  first : UInt8
  form : LengthForm
  payload : List UInt8
  final : first &&& 0x80 ≠ 0
  carried : form.Carries payload.length
  bounded : payload.length ≤ maxFrameBytes

namespace ServerFrame

def bytes (sent : ServerFrame) : List UInt8 :=
  [sent.first, UInt8.ofNat (sent.form.code sent.payload.length)] ++
    (sent.form.extended sent.payload.length ++ sent.payload)

def frame (sent : ServerFrame) : Frame := ⟨(sent.first &&& 0x0F).toNat, sent.payload⟩

end ServerFrame

def wireBytes (sent : List ServerFrame) : List UInt8 := sent.flatMap ServerFrame.bytes

section Reads

variable {size : ℕ} {payload : List UInt8} {arrivals : List (Arrival UInt8)}

theorem readMore_of_le (hs : size ≤ payload.length) :
    readMore size payload arrivals = (.ok payload, arrivals) := by
  cases arrivals with
  | nil => rw [readMore, if_pos hs]
  | cons arrival rest => cases arrival <;> rw [readMore, if_pos hs]

theorem readMore_consumes {taken : List UInt8} (hsi : payload.length + taken.length = size) :
    Reader.Consumes (readMore size payload) taken (payload ++ taken) := by
  intro arrivals later hf hs
  induction arrivals generalizing payload taken with
  | nil =>
    obtain ⟨ht, hl⟩ := List.append_eq_nil_iff.mp hs.symm
    obtain rfl := List.map_eq_nil_iff.mp ht
    rw [readMore_of_le hsi.ge, List.append_nil]
    exact ⟨[], rfl, hf, hl.symm⟩
  | cons arrival rest ih =>
    by_cases hd : size ≤ payload.length
    · obtain rfl : taken = [] := List.eq_nil_of_length_eq_zero (by omega)
      rw [readMore_of_le hd, List.append_nil]
      exact ⟨_, rfl, hf, hs⟩
    cases arrival with
    | timedOut =>
      cases taken with
      | nil => exact absurd hsi.ge hd
      | cons byte taken => cases hs
    | chunk content =>
      have hc := hf content List.mem_cons_self
      rw [signals] at hs
      rw [readMore, if_neg hd, if_neg hc]
      split_ifs with hfi
      · obtain ⟨more, rfl, hr⟩ := split_shorter hs (by omega)
        rw [← List.append_assoc]
        refine ih ?_ hf.tail hr
        rw [List.length_append] at hsi ⊢
        omega
      · obtain ⟨more, rfl, hr⟩ := split_shorter hs.symm (by omega)
        have ha : size - payload.length = taken.length := by omega
        rw [ha, List.take_left, List.drop_left]
        refine ⟨.chunk more :: rest, rfl, ?_, hr.symm⟩
        intro other ho
        rcases List.mem_cons.mp ho with hsa | hl
        · cases hsa
          rintro rfl
          rw [List.append_nil] at hfi
          omega
        · exact hf.tail other hl

theorem readExact_consumes (taken : List UInt8) :
    Reader.Consumes (readExact taken.length) taken taken := by
  have hc := @readMore_consumes taken.length [] taken (by simp)
  rwa [List.nil_append] at hc

theorem readMore_takes (hsi : payload.length ≤ size) :
    Reader.Takes (readMore size payload) fun taken value =>
      value = payload ++ taken ∧ value.length = size := by
  intro arrivals hf
  induction arrivals generalizing payload with
  | nil =>
    rw [readMore]
    split_ifs with hd
    · refine ⟨hf, fun value hv => ?_, fun hst => (by cases hst)⟩
      obtain rfl := Except.ok.inj hv
      exact ⟨[], ⟨(List.append_nil _).symm, by omega⟩, rfl⟩
    · exact ⟨hf, fun _ hv => (by cases hv), fun hst => (by cases hst)⟩
  | cons arrival rest ih =>
    by_cases hd : size ≤ payload.length
    · rw [readMore_of_le hd]
      refine ⟨hf, fun value hv => ?_, fun hst => (by cases hst)⟩
      obtain rfl := Except.ok.inj hv
      exact ⟨[], ⟨(List.append_nil _).symm, by omega⟩, rfl⟩
    cases arrival with
    | timedOut =>
      rw [readMore, if_neg hd]
      exact ⟨hf.tail, fun _ hv => (by cases hv), fun _ => ⟨[], rfl⟩⟩
    | chunk content =>
      have hc := hf content List.mem_cons_self
      rw [readMore, if_neg hd, if_neg hc]
      split_ifs with hfi
      · have hm : (payload ++ content).length ≤ size := by
          rw [List.length_append]
          omega
        obtain ⟨hr, hok, ht⟩ := ih hm hf.tail
        refine ⟨hr, fun value hv => ?_, fun hst => ?_⟩
        · obtain ⟨taken, ⟨rfl, hl⟩, hs⟩ := hok value hv
          refine ⟨content ++ taken, ⟨List.append_assoc _ _ _, hl⟩, ?_⟩
          rw [signals, hs, List.map_append, List.append_assoc]
        · obtain ⟨taken, hs⟩ := ht hst
          exact ⟨content ++ taken, by rw [signals, hs, List.map_append, List.append_assoc]⟩
      · refine ⟨?_, fun value hv => ?_, fun hst => (by cases hst)⟩
        · intro other ho
          rcases List.mem_cons.mp ho with hsa | hla
          · cases hsa
            rw [ne_eq, List.drop_eq_nil_iff]
            exact hfi
          · exact hf.tail other hla
        · obtain rfl := Except.ok.inj hv
          refine ⟨content.take (size - payload.length), ⟨rfl, ?_⟩, ?_⟩
          · rw [List.length_append, List.length_take]
            omega
          · rw [signals, signals, ← List.append_assoc, ← List.map_append, List.take_append_drop]

theorem readExact_takes (size : ℕ) :
    Reader.Takes (readExact size) fun taken value => value = taken ∧ taken.length = size :=
  (readMore_takes (Nat.zero_le size)).mono fun taken value hv => by
    rw [List.nil_append] at hv
    exact ⟨hv.1, hv.1 ▸ hv.2⟩

end Reads

theorem length_bytesOfNat (count number : ℕ) : (bytesOfNat count number).length = count := by
  induction count generalizing number with
  | zero => rfl
  | succ count ih => rw [bytesOfNat, List.length_append, ih, List.length_singleton]

theorem bigEndian_concat (bytes : List UInt8) (byte : UInt8) :
    bigEndian (bytes ++ [byte]) = bigEndian bytes * 256 + byte.toNat := by
  rw [bigEndian, List.foldl_append]
  rfl

theorem bigEndian_bytesOfNat {count number : ℕ} (hn : number < 256 ^ count) :
    bigEndian (bytesOfNat count number) = number := by
  induction count generalizing number with
  | zero => rw [bytesOfNat, Nat.lt_one_iff.mp hn]; rfl
  | succ count ih =>
    have hh : number / 256 < 256 ^ count := by
      rw [Nat.div_lt_iff_lt_mul (by decide), ← pow_succ]
      exact hn
    rw [bytesOfNat, bigEndian_concat, ih hh, UInt8.toNat_ofNat', Nat.div_add_mod']

theorem bigEndian_lt (bytes : List UInt8) : bigEndian bytes < 256 ^ bytes.length := by
  induction bytes using List.reverseRecOn with
  | nil => exact Nat.one_pos
  | append_singleton bytes byte ih =>
    have hb := byte.toNat_lt
    rw [bigEndian_concat, List.length_append, List.length_singleton, pow_succ]
    omega

theorem bytesOfNat_bigEndian (bytes : List UInt8) :
    bytesOfNat bytes.length (bigEndian bytes) = bytes := by
  induction bytes using List.reverseRecOn with
  | nil => rfl
  | append_singleton bytes byte ih =>
    have hb := byte.toNat_lt
    have hh : (bigEndian bytes * 256 + byte.toNat) / 256 = bigEndian bytes := by omega
    have hl : UInt8.ofNat (bigEndian bytes * 256 + byte.toNat) = byte := by
      apply UInt8.toNat_inj.mp
      rw [UInt8.toNat_ofNat']
      omega
    rw [bigEndian_concat, List.length_append, List.length_singleton, bytesOfNat, hh, ih, hl]

theorem ofNat_unmasked : ∀ code < 128, UInt8.ofNat code &&& 0x80 = 0 ∧
    (UInt8.ofNat code &&& 0x7F).toNat = code := by
  decide

theorem unmasked_byte {byte : UInt8} (hb : byte &&& 0x80 = 0) :
    (byte &&& 0x7F).toNat < 128 ∧ UInt8.ofNat (byte &&& 0x7F).toNat = byte := by
  have ha : ∀ value : Fin 256, UInt8.ofNat value &&& 0x80 = 0 →
      (UInt8.ofNat value &&& 0x7F).toNat < 128 ∧
        UInt8.ofNat (UInt8.ofNat value &&& 0x7F).toNat = UInt8.ofNat value := by
    decide +kernel
  have hv := ha byte.toFin
  simp only [UInt8.toFin_val, UInt8.ofNat_toNat] at hv
  rw [UInt8.ofNat_toNat]
  exact hv hb

section Frames

variable {form : LengthForm} {length code opcode : ℕ} {first second : UInt8}

theorem LengthForm.Carries.code_lt (hc : form.Carries length) : form.code length < 128 := by
  cases form with
  | seven => exact Nat.lt_trans hc (by decide)
  | sixteen => exact Nat.lt_of_sub_eq_succ rfl
  | sixtyFour => exact Nat.lt_of_sub_eq_succ rfl

theorem readLength_consumes (hc : form.Carries length) :
    Reader.Consumes (readLength (form.code length)) (form.extended length) length := by
  have he : ∀ count, length < 256 ^ count →
      Reader.Consumes (do return bigEndian (← readExact count) : ByteReader ℕ)
        (bytesOfNat count length) length := by
    intro count hl
    have hr := (readExact_consumes (bytesOfNat count length)).map bigEndian
    rwa [length_bytesOfNat, bigEndian_bytesOfNat hl] at hr
  unfold readLength
  cases form with
  | seven =>
    have hsh : length < 126 := hc
    have hsi : LengthForm.seven.code length ≠ 126 := Nat.ne_of_lt hsh
    have hs : LengthForm.seven.code length ≠ 127 :=
      Nat.ne_of_lt (Nat.lt_succ_of_lt hsh)
    rw [if_neg hsi, if_neg hs]
    exact Reader.Consumes.pure length
  | sixteen => exact he 2 hc
  | sixtyFour => exact he 8 hc

theorem readLength_takes (hc : code < 128) :
    Reader.Takes (readLength code) fun taken length => ∃ form : LengthForm,
      form.Carries length ∧ form.code length = code ∧ taken = form.extended length := by
  have he : ∀ count, Reader.Takes (do return bigEndian (← readExact count) : ByteReader ℕ)
      fun taken length => length < 256 ^ count ∧ taken = bytesOfNat count length := by
    intro count
    refine ((readExact_takes count).map bigEndian).mono ?_
    rintro taken length ⟨bytes, ⟨rfl, rfl⟩, rfl⟩
    exact ⟨bigEndian_lt bytes, (bytesOfNat_bigEndian bytes).symm⟩
  unfold readLength
  split_ifs with hsi hs
  · refine (he 2).mono fun taken length hl => ?_
    exact ⟨.sixteen, hl.1, hsi.symm, hl.2⟩
  · refine (he 8).mono fun taken length hl => ?_
    exact ⟨.sixtyFour, hl.1, hs.symm, hl.2⟩
  · refine (Reader.Takes.pure code).mono ?_
    rintro taken length ⟨rfl, rfl⟩
    have hsh : length < 126 := by omega
    exact ⟨.seven, hsh, rfl, rfl⟩

theorem readWebsocketFrame_consumes (sent : ServerFrame) :
    Reader.Consumes readWebsocketFrame sent.bytes sent.frame := by
  have hc := ofNat_unmasked _ sent.carried.code_lt
  have hh := readExact_consumes [sent.first, UInt8.ofNat (sent.form.code sent.payload.length)]
  refine hh.bind ?_
  show Reader.Consumes (readBody sent.first (UInt8.ofNat (sent.form.code sent.payload.length))) _ _
  rw [readBody, if_neg (not_or.mpr ⟨sent.final, not_not.mpr hc.1⟩), hc.2]
  refine (readLength_consumes sent.carried).bind ?_
  rw [readPayload, if_neg (not_lt.mpr sent.bounded)]
  exact (readExact_consumes sent.payload).map fun payload =>
    Frame.mk (sent.first &&& 0x0F).toNat payload

theorem readWebsocketFrame_takes : Reader.Takes readWebsocketFrame fun taken frame =>
    ∃ sent : ServerFrame, taken = sent.bytes ∧ frame = sent.frame := by
  have hp : ∀ opcode length, Reader.Takes (readPayload opcode length) fun taken frame =>
      length ≤ maxFrameBytes ∧ taken.length = length ∧ frame = ⟨opcode, taken⟩ := by
    intro opcode length
    unfold readPayload
    split_ifs with hla
    · exact Reader.Takes.fail _
    · refine ((readExact_takes length).map fun bytes => Frame.mk opcode bytes).mono ?_
      rintro taken frame ⟨bytes, ⟨rfl, rfl⟩, rfl⟩
      exact ⟨not_lt.mp hla, rfl, rfl⟩
  have hbody : ∀ first second, Reader.Takes (readBody first second) fun taken frame =>
      ∃ sent : ServerFrame, [first, second] ++ taken = sent.bytes ∧ frame = sent.frame := by
    intro first second
    unfold readBody
    split_ifs with hi
    · exact Reader.Takes.fail _
    · rw [not_or, not_not] at hi
      obtain ⟨hco, hs⟩ := unmasked_byte hi.2
      refine ((readLength_takes hco).bind fun length => hp _ length).mono ?_
      rintro taken frame ⟨extended, length, payload, rfl, ⟨form, hc, hfo, rfl⟩, hbo, rfl, rfl⟩
      refine ⟨⟨first, form, payload, hi.1, hc, hbo⟩, ?_, rfl⟩
      rw [ServerFrame.bytes, hfo, hs]
  refine ((readExact_takes 2).bind fun header => hbody _ _).mono ?_
  rintro taken frame ⟨header, value, rest, rfl, ⟨rfl, hl⟩, sent, hb, hf⟩
  obtain ⟨first, second, rfl⟩ := List.length_eq_two.mp hl
  exact ⟨sent, hb, hf⟩

end Frames

end AiQuant.UserStream
