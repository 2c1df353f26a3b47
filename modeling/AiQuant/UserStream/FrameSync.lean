import AiQuant.UserStream.WebsocketFrames
import Mathlib.Tactic.IntervalCases

/-! Whether the frame stream stays in sync.  A timeout between two frames is harmless, however
the bytes are cut into chunks.  A timeout inside a frame loses the part that had arrived, and no
later frame can make up for it: what is read afterwards starts inside a frame and stays behind. -/
namespace AiQuant.UserStream
open AiQuant.Lib

def received : List (Arrival UInt8) → List UInt8
  | [] => []
  | .chunk content :: rest => content ++ received rest
  | .timedOut :: rest => received rest

/-- The frames of any number of calls are the first frames that were sent, and enough calls
return them all. -/
def InSync (sent : List ServerFrame) (arrivals : List (Arrival UInt8)) : Prop :=
  (∀ calls, framesRead calls arrivals <+: sent.map ServerFrame.frame) ∧
    ∃ calls, framesRead calls arrivals = sent.map ServerFrame.frame

/-- At every timeout the bytes so far are whole frames. -/
def TimesOutBetween (sent : List ServerFrame) (arrivals : List (Arrival UInt8)) : Prop :=
  ∀ before after, arrivals = before ++ .timedOut :: after →
    ∃ count, received before = wireBytes (sent.take count)

/-- `TimesOutBetween` of a stream of bytes and timeouts. -/
def Between (sent : List ServerFrame) (stream : List (Option UInt8)) : Prop :=
  ∀ before after, stream = before ++ none :: after →
    ∃ count, before.reduceOption = wireBytes (sent.take count)

section Signals

variable {arrivals : List (Arrival UInt8)} {bytes : List UInt8}
  {stream before after : List (Option UInt8)}

theorem reduceOption_map_some (bytes : List UInt8) : (bytes.map some).reduceOption = bytes := by
  rw [List.reduceOption, List.filterMap_map]
  exact List.filterMap_some

theorem received_eq (arrivals : List (Arrival UInt8)) :
    received arrivals = (signals arrivals).reduceOption := by
  induction arrivals with
  | nil => rfl
  | cons arrival rest ih =>
    cases arrival with
    | timedOut => rw [received, signals, List.reduceOption_cons_of_none, ih]
    | chunk content =>
      rw [received, signals, List.reduceOption_append, reduceOption_map_some, ih]

theorem split_after_bytes (hsp : bytes.map some ++ stream = before ++ none :: after) :
    ∃ between, before = bytes.map some ++ between ∧ stream = between ++ none :: after := by
  rcases List.append_eq_append_iff.mp hsp with ⟨between, hbe, hs⟩ | ⟨more, hb, hm⟩
  · exact ⟨between, hbe, hs⟩
  · cases more with
    | nil =>
      rw [List.append_nil] at hb
      exact ⟨[], by rw [List.append_nil, hb], hm.symm⟩
    | cons head more =>
      obtain ⟨rfl, -⟩ := List.cons.inj hm
      have hn : none ∈ bytes.map some := by
        rw [hb]
        exact List.mem_append_right _ List.mem_cons_self
      obtain ⟨byte, -, hby⟩ := List.mem_map.mp hn
      cases hby

theorem exists_timedOut (hs : signals arrivals = before ++ none :: after) :
    ∃ earlier later, arrivals = earlier ++ .timedOut :: later ∧ signals earlier = before := by
  induction arrivals generalizing before with
  | nil => cases before <;> cases hs
  | cons arrival rest ih =>
    cases arrival with
    | chunk content =>
      obtain ⟨between, rfl, hr⟩ := split_after_bytes hs
      obtain ⟨earlier, later, rfl, he⟩ := ih hr
      exact ⟨.chunk content :: earlier, later, rfl, by rw [signals, he]⟩
    | timedOut =>
      cases before with
      | nil => exact ⟨[], rest, rfl, rfl⟩
      | cons first before =>
        obtain ⟨rfl, hr⟩ := List.cons.inj hs
        obtain ⟨earlier, later, rfl, he⟩ := ih hr
        exact ⟨.timedOut :: earlier, later, rfl, by rw [signals, he]⟩

theorem signals_append (first second : List (Arrival UInt8)) :
    signals (first ++ second) = signals first ++ signals second := by
  induction first with
  | nil => rfl
  | cons arrival rest ih =>
    cases arrival with
    | chunk content => rw [List.cons_append, signals, signals, ih, List.append_assoc]
    | timedOut => rw [List.cons_append, signals, signals, ih, List.cons_append]

theorem timesOutBetween_iff (sent : List ServerFrame) (arrivals : List (Arrival UInt8)) :
    TimesOutBetween sent arrivals ↔ Between sent (signals arrivals) := by
  constructor
  · intro hb before after hs
    obtain ⟨earlier, later, ha, rfl⟩ := exists_timedOut hs
    rw [← received_eq]
    exact hb earlier later ha
  · intro hb earlier later hs
    rw [received_eq]
    refine hb (signals earlier) (signals later) ?_
    rw [hs, signals_append, signals]

theorem next_bytes {count : ℕ} (hc : count ≤ stream.reduceOption.length) :
    (∃ (taken : List UInt8) (later : List (Option UInt8)),
        taken.length = count ∧ stream = taken.map some ++ later) ∨
      ∃ (taken : List UInt8) (later : List (Option UInt8)),
        taken.length < count ∧ stream = taken.map some ++ none :: later := by
  induction count generalizing stream with
  | zero => exact .inl ⟨[], stream, rfl, rfl⟩
  | succ count ih =>
    cases stream with
    | nil => exact absurd hc (Nat.not_succ_le_zero count)
    | cons sig stream =>
      cases sig with
      | none => exact .inr ⟨[], stream, Nat.succ_pos count, rfl⟩
      | some byte =>
        rw [List.reduceOption_cons_of_some, List.length_cons] at hc
        rcases ih (Nat.le_of_succ_le_succ hc) with
          ⟨taken, later, hl, rfl⟩ | ⟨taken, later, hl, rfl⟩
        · exact .inl ⟨byte :: taken, later, congrArg (· + 1) hl, rfl⟩
        · exact .inr ⟨byte :: taken, later, Nat.succ_lt_succ hl, rfl⟩

end Signals

section Wire

variable {sent read : ServerFrame} {frames : List ServerFrame} {earlier rest later : List UInt8}

theorem wireBytes_cons (sent : ServerFrame) (frames : List ServerFrame) :
    wireBytes (sent :: frames) = sent.bytes ++ wireBytes frames := List.flatMap_cons

theorem ServerFrame.two_le_length (sent : ServerFrame) : 2 ≤ sent.bytes.length := by
  rw [ServerFrame.bytes, List.length_append]
  exact Nat.le_add_right 2 _

theorem ServerFrame.bytes_ne_nil (sent : ServerFrame) : sent.bytes ≠ [] := by
  intro hn
  have hl := sent.two_le_length
  rw [hn] at hl
  exact absurd hl (by decide)

theorem wireBytes_eq_nil_iff : wireBytes frames = [] ↔ frames = [] := by
  cases frames with
  | nil => exact iff_of_true rfl rfl
  | cons sent frames =>
    rw [wireBytes_cons, List.append_eq_nil_iff]
    exact iff_of_false (fun hn => sent.bytes_ne_nil hn.1) (List.cons_ne_nil _ _)

def ServerFrame.overhead (sent : ServerFrame) : ℕ :=
  2 + (sent.form.extended sent.payload.length).length

theorem ServerFrame.length_bytes (sent : ServerFrame) :
    sent.bytes.length = sent.overhead + sent.payload.length := by
  rw [ServerFrame.bytes, List.length_append, List.length_append, overhead, Nat.add_assoc]
  rfl

theorem ServerFrame.bytes_eq (sent : ServerFrame) : sent.bytes =
    sent.first :: UInt8.ofNat (sent.form.code sent.payload.length) ::
      (sent.form.extended sent.payload.length ++ sent.payload) := rfl

theorem LengthForm.eq_of_code {form other : LengthForm} {length : ℕ} (hf : form.Carries length)
    (ho : other.Carries length) (hc : form.code length = other.code length) : form = other := by
  cases form <;> cases other <;> simp only [LengthForm.Carries, LengthForm.code] at * <;> omega

theorem ServerFrame.bytes_inj (hfr : read.frame = sent.frame)
    (hb : read.bytes ++ rest = sent.bytes ++ later) : read.bytes = sent.bytes := by
  have hp : read.payload = sent.payload := congrArg Frame.payload hfr
  have hr := read.carried
  rw [hp] at hr
  rw [bytes_eq, bytes_eq, hp, List.cons_append, List.cons_append, List.cons_append,
    List.cons_append, List.cons.injEq, List.cons.injEq] at hb
  obtain ⟨hf, hs, -⟩ := hb
  have hc := congrArg (fun byte => (byte &&& 0x7F).toNat) hs
  rw [(ofNat_unmasked _ hr.code_lt).2, (ofNat_unmasked _ sent.carried.code_lt).2] at hc
  rw [bytes_eq, bytes_eq, hp, hf, LengthForm.eq_of_code hr sent.carried hc]

theorem le_of_final {number : ℕ} (hf : UInt8.ofNat number &&& 0x80 ≠ 0) : 128 ≤ number := by
  by_contra hsmall
  exact hf (ofNat_unmasked number (not_le.mp hsmall)).1

theorem ServerFrame.header_byte {index : ℕ} {byte : UInt8} (hp : 0 < index)
    (hi : index < sent.overhead) (hb : sent.bytes[index]? = some byte) (hf : byte &&& 0x80 ≠ 0) :
    126 ≤ sent.payload.length ∧ sent.overhead < index + 4 := by
  obtain ⟨first, form, data, final, carried, bounded⟩ := sent
  rw [bytes_eq] at hb
  simp only [overhead, maxFrameBytes] at hb hi bounded ⊢
  cases form with
  | seven =>
    have hle : data.length < 126 := carried
    obtain rfl : index = 1 := by
      simp only [LengthForm.extended, List.length_nil] at hi
      omega
    obtain rfl := Option.some.inj hb
    exact absurd (le_of_final hf) (by simp only [LengthForm.code]; omega)
  | sixteen =>
    simp only [LengthForm.extended, length_bytesOfNat] at hi ⊢
    simp only [LengthForm.extended, LengthForm.code, bytesOfNat, List.nil_append,
      List.cons_append] at hb
    interval_cases index <;> obtain rfl := Option.some.inj hb <;>
      have hl := le_of_final hf <;> omega
  | sixtyFour =>
    simp only [LengthForm.extended, length_bytesOfNat] at hi ⊢
    simp only [LengthForm.extended, LengthForm.code, bytesOfNat, List.nil_append,
      List.cons_append] at hb
    interval_cases index <;> obtain rfl := Option.some.inj hb <;>
      have hl := le_of_final hf <;> omega

theorem ServerFrame.ends_behind (hf : read.frame = sent.frame) (he : earlier ≠ [])
    (hb : earlier ++ (read.bytes ++ rest) = sent.bytes ++ later) :
    ∃ more, more ≠ [] ∧ more ++ rest = later := by
  have hp : read.payload = sent.payload := congrArg Frame.payload hf
  have hbe : sent.bytes.length < (earlier ++ read.bytes).length := by
    rw [List.length_append, length_bytes, length_bytes, hp]
    have hpo := List.length_pos_of_ne_nil he
    have hh : 2 ≤ read.overhead := Nat.le_add_right 2 _
    by_contra hshort
    have hi : earlier.length < sent.overhead := by omega
    have hby : sent.bytes[earlier.length]? = some read.first := by
      have hlo : earlier.length < sent.bytes.length := by
        rw [length_bytes]
        omega
      rw [← List.getElem?_append_left hlo, ← hb, List.getElem?_append_right le_rfl,
        Nat.sub_self, bytes_eq]
      rfl
    obtain ⟨hla, hlast⟩ := sent.header_byte hpo hi hby read.final
    have hext : 4 ≤ read.overhead := by
      have hc := read.carried
      rw [hp] at hc
      rw [overhead]
      cases hfo : read.form with
      | seven =>
        rw [hfo] at hc
        exact absurd hla (not_le.mpr hc)
      | sixteen => simp only [LengthForm.extended, length_bytesOfNat]; omega
      | sixtyFour => simp only [LengthForm.extended, length_bytesOfNat]; omega
    omega
  rw [← List.append_assoc] at hb
  rcases List.append_eq_append_iff.mp hb with ⟨more, hs, -⟩ | ⟨more, hr, hl⟩
  · rw [hs, List.length_append] at hbe
    omega
  · refine ⟨more, ?_, hl.symm⟩
    rintro rfl
    rw [hr, List.append_nil] at hbe
    omega

end Wire

section Between

variable {sent : ServerFrame} {frames : List ServerFrame} {arrivals : List (Arrival UInt8)}
  {stream later : List (Option UInt8)}

theorem readWebsocketFrame_waiting (hf : Filled arrivals) (hs : signals arrivals = []) :
    (readWebsocketFrame arrivals).1 = .error .waiting := by
  cases arrivals with
  | nil => rfl
  | cons arrival rest =>
    cases arrival with
    | timedOut => cases hs
    | chunk content =>
      have hc := (List.append_eq_nil_iff.mp hs).1
      exact absurd (List.map_eq_nil_iff.mp hc) (hf content List.mem_cons_self)

theorem readWebsocketFrame_timedOut (hf : Filled arrivals) (hs : signals arrivals = none :: later) :
    ∃ rest, readWebsocketFrame arrivals = (.error .timedOut, rest) ∧ Filled rest ∧
      signals rest = later := by
  cases arrivals with
  | nil => cases hs
  | cons arrival rest =>
    cases arrival with
    | timedOut =>
      exact ⟨rest, rfl, hf.tail, (List.cons.inj hs).2⟩
    | chunk content =>
      cases content with
      | nil => exact absurd rfl (hf [] List.mem_cons_self)
      | cons byte content => cases hs

theorem Between.next_frame {byte : UInt8} (hbe : Between (sent :: frames) stream)
    (hb : stream.reduceOption = wireBytes (sent :: frames)) (hst : stream = some byte :: later) :
    ∃ rest, stream = sent.bytes.map some ++ rest ∧ rest.reduceOption = wireBytes frames ∧
      Between frames rest := by
  rw [wireBytes_cons] at hb
  have hc : sent.bytes.length ≤ stream.reduceOption.length := by
    rw [hb, List.length_append]
    exact Nat.le_add_right _ _
  rcases next_bytes hc with ⟨taken, rest, hl, rfl⟩ | ⟨taken, rest, hl, hs⟩
  · rw [List.reduceOption_append, reduceOption_map_some] at hb
    obtain ⟨rfl, hr⟩ := List.append_inj hb hl
    refine ⟨rest, rfl, hr, fun before after hs => ?_⟩
    obtain ⟨count, hw⟩ := hbe (sent.bytes.map some ++ before) after (by rw [hs, List.append_assoc])
    rw [List.reduceOption_append, reduceOption_map_some] at hw
    cases count with
    | zero => exact absurd (List.append_eq_nil_iff.mp hw).1 sent.bytes_ne_nil
    | succ count =>
      rw [List.take_succ_cons, wireBytes_cons] at hw
      exact ⟨count, List.append_cancel_left hw⟩
  · obtain ⟨count, hw⟩ := hbe _ rest hs
    rw [reduceOption_map_some] at hw
    cases count with
    | zero =>
      have hn : taken = [] := hw
      rw [hn, hst] at hs
      cases hs
    | succ count =>
      rw [List.take_succ_cons, wireBytes_cons] at hw
      rw [hw, List.length_append] at hl
      omega

theorem Between.tail (hb : Between frames (none :: stream)) : Between frames stream :=
  fun before after hs =>
    hb (none :: before) after (by rw [hs, List.cons_append])

variable {calls : ℕ}

theorem framesRead_succ_ok {frame : Frame} {rest : List (Arrival UInt8)}
    (hr : readWebsocketFrame arrivals = (.ok frame, rest)) :
    framesRead (calls + 1) arrivals = frame :: framesRead calls rest := by
  rw [framesRead, hr]

theorem framesRead_succ_timedOut {rest : List (Arrival UInt8)}
    (hr : readWebsocketFrame arrivals = (.error .timedOut, rest)) :
    framesRead (calls + 1) arrivals = framesRead calls rest := by
  rw [framesRead, hr]

theorem framesRead_waiting (hr : (readWebsocketFrame arrivals).1 = .error .waiting) :
    framesRead calls arrivals = [] := by
  cases calls with
  | zero => rfl
  | succ calls =>
    rw [framesRead]
    rcases hw : readWebsocketFrame arrivals with ⟨outcome, rest⟩
    rw [hw] at hr
    rw [show outcome = .error .waiting from hr]

theorem Between.inSync (hf : Filled arrivals)
    (hb : (signals arrivals).reduceOption = wireBytes frames)
    (hbe : Between frames (signals arrivals)) : InSync frames arrivals := by
  induction hlength : (signals arrivals).length using Nat.strong_induction_on
    generalizing arrivals frames with
  | _ length ih =>
    cases hs : signals arrivals with
    | nil =>
      have hno : frames = [] := by
        rw [hs] at hb
        exact wireBytes_eq_nil_iff.mp hb.symm
      have hr : ∀ calls, framesRead calls arrivals = [] := fun calls =>
        framesRead_waiting (readWebsocketFrame_waiting hf hs)
      rw [hno]
      exact ⟨fun calls => by rw [hr]; exact List.nil_prefix, 0, hr 0⟩
    | cons sig later =>
      cases sig with
      | none =>
        obtain ⟨rest, hr, hre, rfl⟩ := readWebsocketFrame_timedOut hf hs
        rw [hs] at hb hbe hlength
        rw [List.reduceOption_cons_of_none] at hb
        obtain ⟨hfi, calls, ha⟩ := ih _ (by rw [← hlength]; exact Nat.lt_succ_self _) hre
          hb hbe.tail rfl
        refine ⟨fun calls => ?_, calls + 1, ?_⟩
        · cases calls with
          | zero => exact List.nil_prefix
          | succ calls =>
            rw [framesRead_succ_timedOut hr]
            exact hfi calls
        · rw [framesRead_succ_timedOut hr, ha]
      | some byte =>
        cases frames with
        | nil =>
          rw [hs, List.reduceOption_cons_of_some] at hb
          cases hb
        | cons sent frames =>
          obtain ⟨stream, hsp, hw, hn⟩ := hbe.next_frame hb hs
          obtain ⟨rest, hr, hre, rfl⟩ :=
            readWebsocketFrame_consumes sent arrivals stream hf hsp
          have hsh : (signals rest).length < length := by
            have hl := List.length_pos_of_ne_nil sent.bytes_ne_nil
            rw [← hlength, hsp, List.length_append, List.length_map]
            omega
          obtain ⟨hfi, calls, ha⟩ := ih _ hsh hre hw hn rfl
          refine ⟨fun calls => ?_, calls + 1, ?_⟩
          · cases calls with
            | zero => exact List.nil_prefix
            | succ calls =>
              rw [framesRead_succ_ok hr, List.map_cons]
              exact List.prefix_cons_inj _ |>.mpr (hfi calls)
          · rw [framesRead_succ_ok hr, ha, List.map_cons]

end Between

inductive Block where
  | frame (read : ServerFrame)
  | lost (bytes : List UInt8)

def Block.signals : Block → List (Option UInt8)
  | .frame read => read.bytes.map some
  | .lost bytes => bytes.map some ++ [none]

def Block.frame? : Block → Option Frame
  | .frame read => some read.frame
  | .lost _ => none

section Blocks

variable {frames : List ServerFrame} {arrivals : List (Arrival UInt8)} {blocks : List Block}
  {earlier rest : List UInt8} {stream later : List (Option UInt8)}

theorem exists_blocks (calls : ℕ) (hfi : Filled arrivals) :
    ∃ (blocks : List Block) (later : List (Option UInt8)),
      signals arrivals = blocks.flatMap Block.signals ++ later ∧
      framesRead calls arrivals = blocks.filterMap Block.frame? := by
  induction calls generalizing arrivals with
  | zero => exact ⟨[], signals arrivals, rfl, rfl⟩
  | succ calls ih =>
    obtain ⟨hre, hfr, ht⟩ := readWebsocketFrame_takes arrivals hfi
    rcases hr : readWebsocketFrame arrivals with ⟨outcome, rest⟩
    rw [hr] at hre hfr ht
    obtain ⟨blocks, later, hb, hf⟩ := ih hre
    cases outcome with
    | ok frame =>
      obtain ⟨taken, ⟨read, rfl, rfl⟩, hs⟩ := hfr frame rfl
      refine ⟨.frame read :: blocks, later, ?_, ?_⟩
      · rw [hs, hb, List.flatMap_cons, List.append_assoc]
        rfl
      · rw [framesRead_succ_ok hr, hf]
        rfl
    | error stop =>
      cases stop with
      | timedOut =>
        obtain ⟨taken, hs⟩ := ht rfl
        refine ⟨.lost taken :: blocks, later, ?_, ?_⟩
        · rw [hs, hb, List.flatMap_cons, Block.signals, List.append_assoc,
            List.append_assoc, List.singleton_append]
        · rw [framesRead_succ_timedOut hr, hf]
          rfl
      | waiting => exact ⟨[], signals arrivals, rfl, by rw [framesRead, hr]; rfl⟩
      | failed reason => exact ⟨[], signals arrivals, rfl, by rw [framesRead, hr]; rfl⟩

theorem never_resyncs (he : earlier ≠ [])
    (hb : earlier ++ ((blocks.flatMap Block.signals).reduceOption ++ rest) = wireBytes frames)
    (hf : blocks.filterMap Block.frame? = frames.map ServerFrame.frame) : False := by
  induction blocks generalizing earlier frames with
  | nil =>
    obtain rfl := List.map_eq_nil_iff.mp hf.symm
    exact he (List.append_eq_nil_iff.mp hb).1
  | cons block blocks ih =>
    rw [List.flatMap_cons, List.reduceOption_append] at hb
    cases block with
    | lost bytes =>
      have hm : earlier ++ bytes ≠ [] := fun hn => he (List.append_eq_nil_iff.mp hn).1
      refine ih hm ?_ hf
      rw [← hb, Block.signals, List.reduceOption_append, reduceOption_map_some]
      simp only [List.append_assoc]
      rfl
    | frame read =>
      cases frames with
      | nil => cases hf
      | cons sent frames =>
        obtain ⟨hfr, hf⟩ := List.cons.inj hf
        rw [Block.signals, reduceOption_map_some, wireBytes_cons, List.append_assoc] at hb
        obtain ⟨more, hm, hl⟩ := ServerFrame.ends_behind hfr he hb
        exact ih hm hl hf

theorem between_of_blocks (hs : stream = blocks.flatMap Block.signals ++ later)
    (hb : stream.reduceOption = wireBytes frames)
    (hf : blocks.filterMap Block.frame? = frames.map ServerFrame.frame) :
    Between frames stream := by
  induction blocks generalizing stream frames with
  | nil =>
    obtain rfl := List.map_eq_nil_iff.mp hf.symm
    intro before after hsp
    rw [hsp, List.reduceOption_append] at hb
    exact ⟨0, (List.append_eq_nil_iff.mp hb).1⟩
  | cons block blocks ih =>
    rw [List.flatMap_cons, List.append_assoc] at hs
    cases block with
    | lost bytes =>
      have hn : bytes = [] := by
        by_contra hlost
        rw [hs, Block.signals, List.reduceOption_append, List.reduceOption_append,
          reduceOption_map_some, List.reduceOption_append, List.append_assoc] at hb
        exact never_resyncs hlost hb hf
      obtain rfl := hn
      have hne := ih rfl (by rw [← hb, hs]; rfl) hf
      intro before after hsp
      cases before with
      | nil => exact ⟨0, rfl⟩
      | cons first before =>
        rw [hs] at hsp
        obtain ⟨hfi, hr⟩ := List.cons.inj hsp
        rw [← hfi, List.reduceOption_cons_of_none]
        exact hne before after hr
    | frame read =>
      cases frames with
      | nil => cases hf
      | cons sent frames =>
        obtain ⟨hfr, hf⟩ := List.cons.inj hf
        rw [hs, Block.signals, List.reduceOption_append, reduceOption_map_some,
          wireBytes_cons] at hb
        have hsa := ServerFrame.bytes_inj hfr hb
        rw [hsa] at hb
        have hne := ih rfl (List.append_cancel_left hb) hf
        intro before after hsp
        rw [hs, Block.signals] at hsp
        obtain ⟨between, rfl, hr⟩ := split_after_bytes hsp
        obtain ⟨count, hw⟩ := hne between after hr
        refine ⟨count + 1, ?_⟩
        rw [List.reduceOption_append, reduceOption_map_some, hw, hsa, List.take_succ_cons,
          wireBytes_cons]

/-- The stream stays in sync exactly if every timeout falls between two frames. -/
theorem inSync_iff_timesOutBetween (frames : List ServerFrame) (arrivals : List (Arrival UInt8))
    (hfilled : Filled arrivals) (hsent : received arrivals = wireBytes frames) :
    InSync frames arrivals ↔ TimesOutBetween frames arrivals := by
  rw [timesOutBetween_iff]
  rw [received_eq] at hsent
  constructor
  · rintro ⟨-, calls, ha⟩
    obtain ⟨blocks, later, hbl, hf⟩ := exists_blocks calls hfilled
    exact between_of_blocks hbl hsent (hf.symm.trans ha)
  · exact fun hb => hb.inSync hfilled hsent

end Blocks

/-! ### A text frame of one byte -/

def textFrame : ServerFrame where
  first := 0x81
  form := .seven
  payload := [0x41]
  final := by decide
  carried := (by decide : 1 < 126)
  bounded := by decide

theorem textFrame_inSync :
    InSync [textFrame] [.timedOut, .chunk [0x81], .chunk [0x01], .chunk [0x41]] := by
  refine (inSync_iff_timesOutBetween [textFrame] _ (by simp [Filled]) rfl).mpr ?_
  intro before after hs
  cases before with
  | nil => exact ⟨0, rfl⟩
  | cons first before =>
    have hr : [.chunk [0x81], .chunk [0x01], .chunk [0x41]] = before ++ .timedOut :: after :=
      (List.cons.inj hs).2
    have ht : .timedOut ∈ before ++ .timedOut :: after :=
      List.mem_append_right before List.mem_cons_self
    rw [← hr] at ht
    simp at ht

theorem header_byte_lost :
    ¬ InSync [textFrame] [.chunk [0x81], .timedOut, .chunk [0x01, 0x41]] := by
  rintro ⟨-, calls, ha⟩
  rcases calls with _ | _ | calls
  · cases ha
  · cases ha
  · cases ha

end AiQuant.UserStream
