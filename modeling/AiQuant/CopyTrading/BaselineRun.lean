import AiQuant.CopyTrading.PollParts

/-! Copying across a baseline.  A run is the baseline poll of a leader followed by
any number of polls.  What is copied of a public order is what it executes after
the baseline, as long as a one-way order is replayed before it grows: the resolver
does not see the ambiguous baseline row, so a row that grew first counts in full. -/
namespace AiQuant.CopyTrading
open AiQuant.Lib

def visibleQuantity (rows : List PublicLeaderOrder) (order : PublicOrder) : Option Decimal :=
  (rows.find? (·.publicOrder = order)).map (·.executedQuantity)

def lastExecuted (history : List (List PublicLeaderOrder)) (order : PublicOrder) : Decimal :=
  (history.findSome? (visibleQuantity · order)).getD 0

section Run

variable [HexOrder]

/-- A response to a poll: history rows of one position mode, one for each order, none
older than the stored watermark, with quantities that only grow. -/
structure ValidResponse (leadPortfolioId : String) (oneWay : Bool)
    (history : List (List PublicLeaderOrder)) (log : EventLog) (response : PollResponse) :
    Prop where
  document : ∀ row ∈ response.orders,
    ∃ document, PublicLeaderOrder.fromApi leadPortfolioId document = .ok row
  mode : ∀ row ∈ response.orders, row.positionSide = .both ↔ oneWay = true
  nodup : (response.orders.map (·.publicOrder)).Nodup
  watermark : ∀ row ∈ response.orders, ∀ watermark,
    log.sourceWatermark leadPortfolioId = some watermark → watermark ≤ row.updateTimeMs
  grows : ∀ row ∈ response.orders, lastExecuted history row.publicOrder ≤ row.executedQuantity

/-- Runs of one leader: the rows of its baseline, the responses so far (newest first),
the log and the signals handed on.  `allowed` restricts the polls after the baseline.
Other writers of the log leave the leader's rows alone. -/
inductive CopyRun (allowed : List PublicLeaderOrder → EventLog → PollResponse → Prop)
    (leadPortfolioId : String) (oneWay : Bool) :
    List PublicLeaderOrder → List (List PublicLeaderOrder) → EventLog →
      List NormalizedSignal → Prop where
  | baseline {log after : EventLog} {response : PollResponse} {signals : List NormalizedSignal} :
      (∀ row ∈ log.sourceOrders, row.order.leadPortfolioId ≠ leadPortfolioId) →
      log.latestReset leadPortfolioId = none →
      ValidResponse leadPortfolioId oneWay [] log response →
      log.pollLeader leadPortfolioId true false response = .ok (after, signals) →
      CopyRun allowed leadPortfolioId oneWay response.orders [response.orders] after signals
  | poll {base : List PublicLeaderOrder} {history : List (List PublicLeaderOrder)}
      {log after : EventLog} {signals new : List NormalizedSignal} {response : PollResponse} :
      CopyRun allowed leadPortfolioId oneWay base history log signals →
      ValidResponse leadPortfolioId oneWay history log response →
      allowed base log response →
      log.pollLeader leadPortfolioId false false response = .ok (after, new) →
      CopyRun allowed leadPortfolioId oneWay base (response.orders :: history) after
        (signals ++ new)
  | elsewhere {base : List PublicLeaderOrder} {history : List (List PublicLeaderOrder)}
      {log after : EventLog} {signals : List NormalizedSignal} :
      CopyRun allowed leadPortfolioId oneWay base history log signals →
      after.resets.filter (·.leadPortfolioId = leadPortfolioId) =
        log.resets.filter (·.leadPortfolioId = leadPortfolioId) →
      after.sourceOrders.filter (·.order.leadPortfolioId = leadPortfolioId) =
        log.sourceOrders.filter (·.order.leadPortfolioId = leadPortfolioId) →
      CopyRun allowed leadPortfolioId oneWay base history after signals

/-- A one-way row of an order that was visible at the baseline either has an explicit
view stored already, or is still the document that was stored at the baseline. -/
def ReplayedBeforeGrowth (leadPortfolioId : String) (base : List PublicLeaderOrder)
    (log : EventLog) (response : PollResponse) : Prop :=
  ∀ row ∈ response.orders, row.positionSide = .both →
    (∃ old ∈ base, old.publicOrder = row.publicOrder) →
    (∃ side : PositionSide, log.previousExecuted leadPortfolioId
      (row.publicOrder.identity leadPortfolioId side.source) ≠ none) ∨
    ∃ old ∈ base, old.rawPayloadHash = row.rawPayloadHash

end Run

variable {rows : List PublicLeaderOrder}

theorem visibleQuantity_of_mem {row : PublicLeaderOrder} (hn : (rows.map (·.publicOrder)).Nodup)
    (hm : row ∈ rows) : visibleQuantity rows row.publicOrder = some row.executedQuantity := by
  unfold visibleQuantity
  cases hf : rows.find? (·.publicOrder = row.publicOrder) with
  | none =>
    rw [List.find?_eq_none] at hf
    exact absurd (by simp) (hf row hm)
  | some found =>
    have hk : found.publicOrder = row.publicOrder := by simpa using List.find?_some hf
    rw [Option.map_some, List.inj_on_of_nodup_map hn (List.mem_of_find?_eq_some hf) hm hk]

theorem visibleQuantity_eq_none {ord : PublicOrder}
    (hh : ∀ row ∈ rows, row.publicOrder ≠ ord) : visibleQuantity rows ord = none := by
  unfold visibleQuantity
  rw [Option.map_eq_none_iff, List.find?_eq_none]
  intro row hrow
  simpa using hh row hrow

theorem lastExecuted_cons (rows : List PublicLeaderOrder)
    (hist : List (List PublicLeaderOrder)) (ord : PublicOrder) : lastExecuted (rows :: hist) ord =
      (visibleQuantity rows ord).getD (lastExecuted hist ord) := by
  unfold lastExecuted
  rw [List.findSome?_cons]
  cases visibleQuantity rows ord <;> rfl

theorem lastExecuted_cases (hn : (rows.map (·.publicOrder)).Nodup)
    (hist : List (List PublicLeaderOrder)) (ord : PublicOrder) :
    (∃ row ∈ rows, row.publicOrder = ord ∧
      lastExecuted (rows :: hist) ord = row.executedQuantity) ∨
    (∀ row ∈ rows, row.publicOrder ≠ ord) ∧
      lastExecuted (rows :: hist) ord = lastExecuted hist ord := by
  rw [lastExecuted_cons]
  by_cases hs : ∃ row ∈ rows, row.publicOrder = ord
  · obtain ⟨row, hrow, rfl⟩ := hs
    refine Or.inl ⟨row, hrow, rfl, ?_⟩
    rw [visibleQuantity_of_mem hn hrow, Option.getD_some]
  · have hh : ∀ row ∈ rows, row.publicOrder ≠ ord := by
      intro row hrow heq
      exact hs ⟨row, hrow, heq⟩
    refine Or.inr ⟨hh, ?_⟩
    rw [visibleQuantity_eq_none hh, Option.getD_none]

theorem copiedQuantity_append (leader : String) (ord : PublicOrder)
    (left right : List NormalizedSignal) : copiedQuantity leader ord (left ++ right) =
      copiedQuantity leader ord left + copiedQuantity leader ord right := by
  unfold copiedQuantity
  rw [← List.sum_map_add]
  simp only [emittedQuantity_append]

section Invariant

variable [HexOrder] {leader : String} {oneWay : Bool}
  {base : List PublicLeaderOrder} {hist : List (List PublicLeaderOrder)}
  {log post : EventLog} {signals new : List NormalizedSignal} {resp : PollResponse}

structure CopyInvariant (leadPortfolioId : String) (oneWay : Bool)
    (base : List PublicLeaderOrder) (history : List (List PublicLeaderOrder)) (log : EventLog)
    (signals : List NormalizedSignal) : Prop where
  rows : LeaderRows leadPortfolioId log
  baseDocument : ∀ row ∈ base,
    ∃ document, PublicLeaderOrder.fromApi leadPortfolioId document = .ok row
  baseNodup : (base.map (·.publicOrder)).Nodup
  ambiguous : ∀ row ∈ log.sourceOrders, row.order.leadPortfolioId = leadPortfolioId →
    row.order.positionSide = .both → row.order ∈ base
  baseStored : ∀ row ∈ base, ∃ stored ∈ log.sourceOrders,
    stored.order = row ∧ stored.isBaseline = true
  baseLe : ∀ order, (visibleQuantity base order).getD 0 ≤ lastExecuted history order
  resolved : ∀ order : PublicOrder, (order.positionSide = .both ↔ oneWay = true) →
    0 < log.attributedTotal leadPortfolioId order →
    log.attributedTotal leadPortfolioId order = lastExecuted history order ∧
      copiedQuantity leadPortfolioId order signals =
        lastExecuted history order - (visibleQuantity base order).getD 0
  unresolved : ∀ order : PublicOrder, (order.positionSide = .both ↔ oneWay = true) →
    log.attributedTotal leadPortfolioId order = 0 →
    lastExecuted history order = (visibleQuantity base order).getD 0 ∧
      copiedQuantity leadPortfolioId order signals = 0

theorem CopyInvariant.copied_eq (hi : CopyInvariant leader oneWay base hist log signals)
    {ord : PublicOrder} (hm : ord.positionSide = .both ↔ oneWay = true) :
    copiedQuantity leader ord signals =
      lastExecuted hist ord - (visibleQuantity base ord).getD 0 := by
  rcases (EventLog.attributedTotal_nonneg ord).eq_or_lt with hz | hp
  · obtain ⟨hl, hc⟩ := hi.unresolved ord hm hz.symm
    rw [hc, hl, sub_self]
  · exact (hi.resolved ord hm hp).2

theorem CopyInvariant.total_le (hi : CopyInvariant leader oneWay base hist log signals)
    (hr : ValidResponse leader oneWay hist log resp) : ∀ row ∈ resp.orders,
      log.attributedTotal leader row.publicOrder ≤ row.executedQuantity := by
  intro row hrow
  rcases (EventLog.attributedTotal_nonneg row.publicOrder).eq_or_lt with hz | hp
  · rw [← hz]
    exact row.executedQuantity_pos.le
  · rw [(hi.resolved _ (hr.mode row hrow) hp).1]
    exact hr.grows row hrow

variable {row : PublicLeaderOrder}

theorem CopyInvariant.matches_iff (hi : CopyInvariant leader oneWay base hist log signals)
    (hr : ValidResponse leader oneWay hist log resp) (hrow : row ∈ resp.orders) :
    log.matchesAmbiguousBaseline leader row.rawPayloadHash = true ↔
      row ∈ base ∧ row.positionSide = .both := by
  obtain ⟨doc, hp⟩ := hr.document row hrow
  unfold EventLog.matchesAmbiguousBaseline
  simp only [List.any_eq_true, Bool.and_eq_true, decide_eq_true_eq,
    EventLog.mem_epochOrders hi.rows.reset]
  constructor
  · rintro ⟨stored, ⟨hs, hl⟩, ⟨hbo, -⟩, hpa⟩
    have hba := hi.ambiguous stored hs hl hbo
    obtain ⟨other, ho⟩ := hi.baseDocument _ hba
    rw [← PublicLeaderOrder.fromApi_injective ho hp hpa]
    exact ⟨hba, hbo⟩
  · rintro ⟨hba, hbo⟩
    obtain ⟨stored, hs, rfl, hb⟩ := hi.baseStored row hba
    exact ⟨stored, ⟨hs, (PublicLeaderOrder.fromApi_spec hp).1⟩, ⟨hbo, hb⟩, rfl⟩

theorem ValidResponse.recent (hr : ValidResponse leader oneWay hist log resp)
    (hrow : row ∈ resp.orders) : (log.maximumUpdateTime leader).getD 0 ≤ row.updateTimeMs := by
  cases he : log.epochOrders leader with
  | nil =>
    rw [EventLog.maximumUpdateTime, he]
    exact (row.orderTimeMs_pos.trans_le row.orderTimeMs_le).le
  | cons stored rest =>
    have hs : stored ∈ log.epochOrders leader := by
      rw [he]
      exact List.mem_cons_self
    obtain ⟨watermark, hw, hle⟩ := EventLog.updateTime_le_sourceWatermark hs
    exact hle.trans (hr.watermark row hrow watermark hw)

theorem CopyInvariant.pollParts (hi : CopyInvariant leader oneWay base hist log signals)
    (hr : ValidResponse leader oneWay hist log resp)
    {parts : List PublicLeaderOrder} (ho : log.pollOrders leader false resp = .ok parts) :
    PollParts leader log resp.orders parts := by
  have ht := hi.total_le hr
  unfold EventLog.pollOrders at ho
  split at ho
  · rename_i hany
    simp only [Bool.not_false, Bool.true_and, List.any_eq_true, decide_eq_true_eq] at hany
    obtain ⟨row, hrow, hb⟩ := hany
    have hon := (hr.mode row hrow).mp hb
    exact pollParts_oneWay hi.rows hr.document
      (fun row hrow => (hr.mode row hrow).mpr hon) hr.nodup ht ho
  · rename_i hnone
    cases ho
    refine pollParts_explicit hr.document ?_ hr.nodup ht
    intro row hrow hb
    apply hnone
    simp only [Bool.not_false, Bool.true_and, List.any_eq_true, decide_eq_true_eq]
    exact ⟨row, hrow, hb⟩

theorem LeaderRows.poll (hro : LeaderRows leader log)
    {rows parts : List PublicLeaderOrder} {st : IngestState} {seen : Time}
    (hp : PollParts leader log rows parts)
    (hr : ∀ row ∈ rows, (log.maximumUpdateTime leader).getD 0 ≤ row.updateTimeMs)
    (hlo : LoopEffect leader false seen (sortedOrders parts)
      ⟨log, (log.maximumUpdateTime leader).getD 0, []⟩ st) : LeaderRows leader st.log := by
  have ho : ∀ row ∈ st.log.sourceOrders, row ∈ log.sourceOrders ∨ row.order ∈ parts := by
    intro row hrow
    rcases hlo.rows row hrow with hold | ⟨hnew, -⟩
    · exact Or.inl hold
    · exact Or.inr (mem_sortedOrders.mp hnew)
  refine ⟨?_, ?_, ?_, ?_⟩
  · rw [EventLog.latestReset, hlo.resets]
    exact hro.reset
  · intro row hrow hl
    rcases ho row hrow with hold | hnew
    · exact hro.keyed row hold hl
    · exact hp.keyed row.order hnew
  · intro row hrow hl
    rcases ho row hrow with hold | hnew
    · exact hro.plain row hold hl
    · exact hp.plain row.order hnew
  · intro old hold new hnew holdL hne hk hlt
    rcases ho new hnew with hnewO | hn
    · rcases ho old hold with holdO | hol
      · exact hro.monotone old holdO new hnewO holdL hne hk hlt
      · -- No part is older than a stored row.
        obtain ⟨row, hrow, -, hu, -⟩ := hp.source old.order hol
        have hs := EventLog.updateTime_le_maximum
          ((EventLog.mem_epochOrders hro.reset).mpr ⟨hnewO, hne⟩)
        have := hr row hrow
        omega
    · rcases ho old hold with holdO | hol
      · obtain ⟨row, hrow, hi, -⟩ := hp.source new.order hn
        obtain ⟨quantities, -, hq, hle⟩ := hp.quantity row hrow
        rw [hq new.order hn hi]
        refine le_trans ?_ (hle _ hi).1
        rw [← hk]
        exact EventLog.le_executedSoFar ((EventLog.mem_epochOrders hro.reset).mpr ⟨holdO, holdL⟩)
      · rw [List.inj_on_of_nodup_map hp.nodup hol hn hk]

section

variable (hi : CopyInvariant leader oneWay base hist log signals)
include hi

theorem CopyInvariant.total_pos_of_explicit (hb : row ∈ base)
    (he : row.positionSide ≠ .both) : 0 < log.attributedTotal leader row.publicOrder := by
  obtain ⟨stored, hs, rfl, -⟩ := hi.baseStored row hb
  obtain ⟨doc, hp⟩ := hi.baseDocument _ hb
  have hl := (PublicLeaderOrder.fromApi_spec hp).1
  have hid : stored.order.identityKey ∈ stored.order.publicOrder.copyIdentities leader := by
    rw [PublicLeaderOrder.identity_of_fromApi hp]
    unfold PublicOrder.copyIdentities
    split
    · rename_i hboth
      exact absurd hboth he
    · exact List.mem_singleton_self _
  calc 0 < stored.order.executedQuantity := stored.order.executedQuantity_pos
    _ ≤ log.executedSoFar leader stored.order.identityKey :=
      EventLog.le_executedSoFar ((EventLog.mem_epochOrders hi.rows.reset).mpr ⟨hs, hl⟩)
    _ ≤ log.attributedTotal leader stored.order.publicOrder :=
      EventLog.executedSoFar_le_attributedTotal hid

theorem CopyInvariant.copied_of_shown (hr : ValidResponse leader oneWay hist log resp)
    (hre : ReplayedBeforeGrowth leader base log resp)
    (he : PollEffect leader oneWay log resp.orders post new) (hrow : row ∈ resp.orders) :
    copiedQuantity leader row.publicOrder (signals ++ new) =
      row.executedQuantity - (visibleQuantity base row.publicOrder).getD 0 := by
  have hmo := hr.mode row hrow
  have hma := hi.matches_iff hr hrow
  rw [copiedQuantity_append]
  rcases (EventLog.attributedTotal_nonneg row.publicOrder).eq_or_lt with hz | hp
  · obtain ⟨hla, hc⟩ := hi.unresolved row.publicOrder hmo hz.symm
    rw [hc, zero_add]
    by_cases hb : row ∈ base ∧ row.positionSide = .both
    · rw [he.replayed row hrow hz.symm (hma.mpr hb),
        visibleQuantity_of_mem hi.baseNodup hb.1, Option.getD_some, sub_self]
    · have hn : log.matchesAmbiguousBaseline leader row.rawPayloadHash = false := by
        rw [← Bool.not_eq_true]
        exact fun hm => hb (hma.mp hm)
      rw [he.copied row hrow fun _ _ _ _ => hn, ← hz]
      -- An order the baseline showed would be attributed already, or be replayed here.
      have hh : ∀ old ∈ base, old.publicOrder ≠ row.publicOrder := by
        intro old ho hs
        by_cases hbo : row.positionSide = .both
        · rcases hre row hrow hbo ⟨old, ho, hs⟩ with ⟨side, hsi⟩ | ⟨twin, htw, hpa⟩
          · apply hsi
            rw [EventLog.previousExecuted_eq_none_iff_executedSoFar]
            apply le_antisymm _ (EventLog.executedSoFar_nonneg _)
            rw [hz]
            exact EventLog.executedSoFar_le_attributedTotal
              (PublicOrder.mem_copyIdentities.mpr ⟨side, rfl, Or.inl hbo⟩)
          · obtain ⟨doc, hpar⟩ := hr.document row hrow
            obtain ⟨twinDocument, ht⟩ := hi.baseDocument twin htw
            have heq := PublicLeaderOrder.fromApi_injective ht hpar hpa
            exact hb ⟨heq ▸ htw, hbo⟩
        · have hexp : old.positionSide ≠ .both := by
            intro ho
            exact hbo ((congrArg PublicOrder.positionSide hs).symm.trans ho)
          have hpos := hi.total_pos_of_explicit ho hexp
          rw [hs, ← hz] at hpos
          exact lt_irrefl _ hpos
      rw [visibleQuantity_eq_none hh, Option.getD_none]
  · obtain ⟨hto, hc⟩ := hi.resolved row.publicOrder hmo hp
    have hl : ∀ key ∈ row.publicOrder.copyIdentities leader, log.executedSoFar leader key = 0 →
        log.executedSoFar leader key <
          post.executedSoFar leader key →
        log.matchesAmbiguousBaseline leader row.rawPayloadHash = false := by
      intro key hid _ hlt
      rw [← Bool.not_eq_true]
      intro hm
      -- The baseline document cannot report more than what is attributed by now.
      have hb := hi.baseLe row.publicOrder
      rw [visibleQuantity_of_mem hi.baseNodup (hma.mp hm).1, Option.getD_some, ← hto] at hb
      have hg : log.attributedTotal leader row.publicOrder <
          post.attributedTotal leader row.publicOrder :=
        List.sum_lt_sum _ _ (he.grows row hrow) ⟨key, hid, hlt⟩
      rw [he.shown row hrow] at hg
      exact absurd hb (not_le.mpr hg)
    rw [he.copied row hrow hl, hc, hto]
    ring

theorem CopyInvariant.poll (hr : ValidResponse leader oneWay hist log resp)
    (hrep : ReplayedBeforeGrowth leader base log resp)
    (hpoll : log.pollLeader leader false false resp = .ok (post, new)) :
    CopyInvariant leader oneWay base (resp.orders :: hist) post (signals ++ new) := by
  obtain ⟨parts, st, ho, hrun, hro, hre, rfl⟩ :=
    EventLog.pollLeader_spec hi.rows.reset hpoll
  have hp := hi.pollParts hr ho
  have hrec : ∀ row ∈ resp.orders, (log.maximumUpdateTime leader).getD 0 ≤ row.updateTimeMs :=
    fun row hrow => hr.recent hrow
  have hlo := ingestOrders_loop (hp.ingestInput hi.rows hrec) hrun
  have hs := hp.pollEffect hr.mode hr.nodup hlo
  have hrows := hi.rows.poll hp hrec hlo
  have hexe : ∀ key, post.executedSoFar leader key = st.log.executedSoFar leader key :=
    EventLog.executedSoFar_congr hro hre
  have ht : ∀ ord, post.attributedTotal leader ord = st.log.attributedTotal leader ord := by
    intro ord
    simp only [EventLog.attributedTotal, funext hexe]
  have he : PollEffect leader oneWay log resp.orders post st.signals := by
    refine ⟨?_, ?_, ?_, ?_, hs.replayed⟩
    · simpa only [ht] using hs.shown
    · simpa only [hexe] using hs.grows
    · simpa only [ht] using hs.hidden
    · simpa only [hexe] using hs.copied
  refine ⟨?_, hi.baseDocument, hi.baseNodup, ?_, ?_, ?_, ?_, ?_⟩
  · refine ⟨?_, ?_, ?_, ?_⟩
    · rw [EventLog.latestReset, hre]
      exact hrows.reset
    · rw [hro]
      exact hrows.keyed
    · rw [hro]
      exact hrows.plain
    · rw [hro]
      exact hrows.monotone
  · intro row hrow hle hb
    rw [hro] at hrow
    rcases hlo.rows row hrow with hold | ⟨hnew, -⟩
    · exact hi.ambiguous row hold hle hb
    · exact absurd hb (hp.explicit row.order (mem_sortedOrders.mp hnew))
  · intro row hrow
    obtain ⟨stored, hst, hf⟩ := hi.baseStored row hrow
    rw [hro]
    exact ⟨stored, hlo.subset hst, hf⟩
  · intro ord
    rcases lastExecuted_cases hr.nodup hist ord with
      ⟨row, hrow, rfl, hl⟩ | ⟨-, hl⟩
    · rw [hl]
      exact (hi.baseLe row.publicOrder).trans (hr.grows row hrow)
    · rw [hl]
      exact hi.baseLe ord
  · intro ord hm hpo
    rcases lastExecuted_cases hr.nodup hist ord with
      ⟨row, hrow, rfl, hl⟩ | ⟨hh, hl⟩
    · rw [he.shown row hrow, hl]
      exact ⟨rfl, hi.copied_of_shown hr hrep he hrow⟩
    · obtain ⟨hsa, hn⟩ := he.hidden ord hm hh
      rw [hsa] at hpo ⊢
      rw [copiedQuantity_append, hn, add_zero, hl]
      exact hi.resolved ord hm hpo
  · intro ord hm hz
    rcases lastExecuted_cases hr.nodup hist ord with
      ⟨row, hrow, rfl, hl⟩ | ⟨hh, hl⟩
    · rw [he.shown row hrow] at hz
      exact absurd hz row.executedQuantity_pos.ne'
    · obtain ⟨hsa, hn⟩ := he.hidden ord hm hh
      rw [hsa] at hz
      rw [copiedQuantity_append, hn, add_zero, hl]
      exact hi.unresolved ord hm hz

end

/-! ### The baseline -/

section

variable (hr : ValidResponse leader oneWay hist log resp)
include hr

theorem ValidResponse.leader_eq (hrow : row ∈ resp.orders) : row.leadPortfolioId = leader := by
  obtain ⟨doc, hp⟩ := hr.document row hrow
  exact (PublicLeaderOrder.fromApi_spec hp).1

theorem ValidResponse.keyed (hrow : row ∈ resp.orders) : row.Keyed := by
  obtain ⟨doc, hp⟩ := hr.document row hrow
  exact (PublicLeaderOrder.fromApi_spec hp).2.1

theorem ValidResponse.plain (hrow : row ∈ resp.orders) :
    row.identityKey = row.publicOrder.identity leader row.positionSide := by
  obtain ⟨doc, hp⟩ := hr.document row hrow
  exact PublicLeaderOrder.identity_of_fromApi hp

theorem ValidResponse.eq_of_identityKey {left right : PublicLeaderOrder} (hl : left ∈ resp.orders)
    (hri : right ∈ resp.orders) (hk : left.identityKey = right.identityKey) : left = right := by
  apply List.inj_on_of_nodup_map hr.nodup hl hri
  rw [hr.plain hl, hr.plain hri, PublicLeaderOrder.identity_eq_iff] at hk
  simp only [PublicLeaderOrder.rawKey, RawOrderKey.mk.injEq] at hk
  simp [PublicLeaderOrder.publicOrder, hk]

end

section Baseline

variable {st : IngestState} {seen : Time}

theorem executedSoFar_of_fresh (hf : ∀ row ∈ log.sourceOrders, row.order.leadPortfolioId ≠ leader)
    (hr : log.latestReset leader = none) (key : Digest) : log.executedSoFar leader key = 0 := by
  apply EventLog.executedSoFar_of_previous_none
  rw [EventLog.previousExecuted_eq_none_iff]
  intro row hrow
  rw [EventLog.mem_epochOrders hr] at hrow
  exact absurd hrow.2 (hf row hrow.1)

theorem ValidResponse.ingestInput (hr : ValidResponse leader oneWay [] log resp)
    (hf : ∀ row ∈ log.sourceOrders, row.order.leadPortfolioId ≠ leader)
    (hre : log.latestReset leader = none) : IngestInput leader true
    ⟨log, (log.maximumUpdateTime leader).getD 0, []⟩ (sortedOrders resp.orders) := by
  refine ⟨hre, ?_, ?_, ?_, Or.inl rfl, ?_, sortedOrders_sorted _, ?_⟩
  · intro row hrow hl
    exact absurd hl (hf row hrow)
  · intro row hrow
    exact hr.leader_eq (mem_sortedOrders.mp hrow)
  · intro row hrow
    exact hr.keyed (mem_sortedOrders.mp hrow)
  · refine ((sortedOrders_perm _).map _).nodup_iff.mpr ?_
    exact (List.nodup_map_iff_inj_on (List.Nodup.of_map _ hr.nodup)).mpr
      fun left hle right hri => hr.eq_of_identityKey hle hri
  · intro row hrow
    exact hr.recent (mem_sortedOrders.mp hrow)

theorem LoopEffect.mem_baseline (hlo : LoopEffect leader true seen (sortedOrders resp.orders)
      ⟨log, (log.maximumUpdateTime leader).getD 0, []⟩ st)
    (hf : ∀ row ∈ log.sourceOrders, row.order.leadPortfolioId ≠ leader)
    {row : SourceOrderEvent} (hrow : row ∈ st.log.sourceOrders)
    (hl : row.order.leadPortfolioId = leader) :
    row.order ∈ resp.orders ∧ row.isBaseline = true := by
  rcases hlo.rows row hrow with ho | ⟨hn, hfl⟩
  · exact absurd hl (hf row ho)
  · exact ⟨mem_sortedOrders.mp hn, by simpa using hfl⟩

theorem LoopEffect.baseline_stored (hlo : LoopEffect leader true seen (sortedOrders resp.orders)
      ⟨log, (log.maximumUpdateTime leader).getD 0, []⟩ st)
    (hf : ∀ row ∈ log.sourceOrders, row.order.leadPortfolioId ≠ leader)
    (hr : ValidResponse leader oneWay [] log resp)
    {row : PublicLeaderOrder} (hrow : row ∈ resp.orders) :
    ∃ stored ∈ st.log.sourceOrders, stored.order = row ∧ stored.isBaseline = true := by
  obtain ⟨stored, hs, he⟩ := hlo.stored row (mem_sortedOrders.mpr hrow)
  have hl : stored.order.leadPortfolioId = leader := by
    have hk := stored.order.eventKey_leader.symm.trans (he ▸ row.eventKey_leader)
    rw [Option.some.inj hk, hr.leader_eq hrow]
  obtain ⟨hm, hb⟩ := hlo.mem_baseline hf hs hl
  rw [hr.keyed hm, hr.keyed hrow] at he
  injection he with _ _ hi
  exact ⟨stored, hs, hr.eq_of_identityKey hm hrow hi, hb⟩

theorem LoopEffect.baseline_silent (hl : LoopEffect leader true seen (sortedOrders resp.orders)
      ⟨log, (log.maximumUpdateTime leader).getD 0, []⟩ st) (ord : PublicOrder) :
    copiedQuantity leader ord st.signals = 0 := by
  have hem : ∀ key ∈ ord.copyIdentities leader, emittedQuantity key st.signals = 0 := by
    intro key _
    by_cases he : ∃ row ∈ resp.orders, row.identityKey = key
    · obtain ⟨row, hrow, rfl⟩ := he
      rw [(hl.own row (mem_sortedOrders.mpr hrow)).2]
      simp
    · exact (hl.other key fun row hrow heq =>
        he ⟨row, mem_sortedOrders.mp hrow, heq⟩).2
  rw [copiedQuantity, List.map_congr_left hem]
  simp

theorem LoopEffect.baseline_attributed (hl : LoopEffect leader true seen (sortedOrders resp.orders)
      ⟨log, (log.maximumUpdateTime leader).getD 0, []⟩ st)
    (hf : ∀ row ∈ log.sourceOrders, row.order.leadPortfolioId ≠ leader)
    (hre : log.latestReset leader = none)
    (hr : ValidResponse leader oneWay [] log resp) {ord : PublicOrder}
    (hm : ord.positionSide = .both ↔ oneWay = true) (hp : 0 < st.log.attributedTotal leader ord) :
    st.log.attributedTotal leader ord = (visibleQuantity resp.orders ord).getD 0 := by
  obtain ⟨key, hi, hne⟩ : ∃ key ∈ ord.copyIdentities leader,
      st.log.executedSoFar leader key ≠ 0 := by
    by_contra hn
    simp only [not_exists, not_and, not_not] at hn
    rw [EventLog.attributedTotal, List.map_congr_left hn] at hp
    simp at hp
  obtain ⟨row, hrow, rfl⟩ : ∃ row ∈ resp.orders, row.identityKey = key := by
    by_contra hn
    apply hne
    rw [(hl.other key fun row hrow heq =>
      hn ⟨row, mem_sortedOrders.mp hrow, heq⟩).1]
    exact executedSoFar_of_fresh hf hre key
  obtain ⟨side, hsi, hpo⟩ := PublicOrder.mem_copyIdentities.mp hi
  rw [hr.plain hrow] at hsi
  obtain ⟨hrowS, hs, hor, ht, hti⟩ := PublicOrder.identity_injective hsi
  have he : ord.positionSide = side.source := by
    refine hpo.resolve_left fun hb => ?_
    have hro := (hr.mode row hrow).mpr (hm.mp hb)
    rw [hrowS] at hro
    exact side.source_ne_both hro
  have ho : row.publicOrder = ord := by
    cases ord
    simp_all [PublicLeaderOrder.publicOrder]
  have hids : ord.copyIdentities leader = [row.identityKey] := by
    unfold PublicOrder.copyIdentities
    split
    · rename_i hb
      rw [he] at hb
      exact absurd hb side.source_ne_both
    · rw [hr.plain hrow, ← ho]
      rfl
  rw [← ho, visibleQuantity_of_mem hr.nodup hrow, ho, EventLog.attributedTotal, hids]
  simp only [List.map_cons, List.map_nil, List.sum_cons, List.sum_nil, add_zero, Option.getD_some]
  rw [(hl.own row (mem_sortedOrders.mpr hrow)).1, executedSoFar_of_fresh hf hre]
  exact max_eq_right row.executedQuantity_pos.le

end Baseline

theorem CopyInvariant.baseline (hf : ∀ row ∈ log.sourceOrders, row.order.leadPortfolioId ≠ leader)
    (hre : log.latestReset leader = none) (hr : ValidResponse leader oneWay [] log resp)
    (hpo : log.pollLeader leader true false resp = .ok (post, new)) :
    CopyInvariant leader oneWay resp.orders [resp.orders] post new := by
  obtain ⟨parts, st, hor, hrun, hro, hres, rfl⟩ :=
    EventLog.pollLeader_spec hre hpo
  have hpa : parts = resp.orders := by
    simp only [EventLog.pollOrders, Bool.or_false, Bool.not_true, Bool.false_and,
      Bool.false_eq_true, if_false] at hor
    exact (Except.ok.inj hor).symm
  subst hpa
  have hlo := ingestOrders_loop (hr.ingestInput hf hre) hrun
  have ho : ∀ row ∈ post.sourceOrders, row.order.leadPortfolioId = leader →
      row.order ∈ resp.orders := by
    intro row hrow hl
    rw [hro] at hrow
    exact (hlo.mem_baseline hf hrow hl).1
  have ha : ∀ ord, post.attributedTotal leader ord = st.log.attributedTotal leader ord := by
    intro ord
    exact congrArg List.sum (List.map_congr_left fun key _ =>
        EventLog.executedSoFar_congr hro hres key)
  have hla : ∀ ord, lastExecuted [resp.orders] ord = (visibleQuantity resp.orders ord).getD 0 := by
    intro ord
    rw [lastExecuted_cons]
    rfl
  have hs := hlo.baseline_silent
  refine ⟨⟨?_, ?_, ?_, ?_⟩, hr.document, hr.nodup, ?_, ?_, ?_, ?_, ?_⟩
  · rw [EventLog.latestReset, hres, hlo.resets]
    exact hre
  · intro row hrow hl
    exact hr.keyed (ho row hrow hl)
  · intro row hrow hl
    exact hr.plain (ho row hrow hl)
  · intro old hold new hnew hol hn hk hlt
    rw [hr.eq_of_identityKey (ho old hold hol) (ho new hnew hn) hk]
  · intro row hrow hl _
    exact ho row hrow hl
  · intro row hrow
    rw [hro]
    exact hlo.baseline_stored hf hr hrow
  · intro ord
    exact (hla ord).ge
  · intro ord hm hp
    rw [ha] at hp
    rw [ha, hla ord, hs ord, sub_self]
    exact ⟨hlo.baseline_attributed hf hre hr hm hp, rfl⟩
  · intro ord _ _
    exact ⟨hla ord, hs ord⟩

theorem CopyInvariant.elsewhere (hi : CopyInvariant leader oneWay base hist log signals)
    (hr : post.resets.filter (·.leadPortfolioId = leader) =
      log.resets.filter (·.leadPortfolioId = leader))
    (hro : post.sourceOrders.filter (·.order.leadPortfolioId = leader) =
      log.sourceOrders.filter (·.order.leadPortfolioId = leader)) :
    CopyInvariant leader oneWay base hist post signals := by
  have hre : post.latestReset leader = log.latestReset leader := by
    simp only [EventLog.latestReset, hr]
  have hep := EventLog.epochOrders_congr hr hro
  have hm : ∀ row : SourceOrderEvent, row.order.leadPortfolioId = leader →
      (row ∈ post.sourceOrders ↔ row ∈ log.sourceOrders) := by
    intro row hl
    have hiff : row ∈ post.sourceOrders.filter (·.order.leadPortfolioId = leader) ↔
        row ∈ log.sourceOrders.filter (·.order.leadPortfolioId = leader) := by
      rw [hro]
    simpa [List.mem_filter, hl] using hiff
  have ht : ∀ ord, post.attributedTotal leader ord = log.attributedTotal leader ord := by
    intro ord
    have he : post.executedSoFar leader = log.executedSoFar leader := by
      funext key
      simp only [EventLog.executedSoFar, EventLog.previousExecuted, hep]
    simp only [EventLog.attributedTotal, he]
  refine ⟨⟨?_, ?_, ?_, ?_⟩, hi.baseDocument, hi.baseNodup, ?_, ?_, hi.baseLe, ?_, ?_⟩
  · rw [hre]
    exact hi.rows.reset
  · intro row hrow hl
    exact hi.rows.keyed row ((hm row hl).mp hrow) hl
  · intro row hrow hl
    exact hi.rows.plain row ((hm row hl).mp hrow) hl
  · intro old hold new hnew ho hn
    exact hi.rows.monotone old ((hm old ho).mp hold) new ((hm new hn).mp hnew) ho hn
  · intro row hrow hl
    exact hi.ambiguous row ((hm row hl).mp hrow) hl
  · intro row hrow
    obtain ⟨stored, hs, hf⟩ := hi.baseStored row hrow
    obtain ⟨doc, hp⟩ := hi.baseDocument row hrow
    refine ⟨stored, (hm stored ?_).mpr hs, hf⟩
    rw [hf.1]
    exact (PublicLeaderOrder.fromApi_spec hp).1
  · simpa only [ht] using hi.resolved
  · simpa only [ht] using hi.unresolved

theorem CopyRun.invariant (hrun : CopyRun (ReplayedBeforeGrowth leader) leader oneWay base hist log
      signals) : CopyInvariant leader oneWay base hist log signals := by
  induction hrun with
  | baseline hfresh hreset hresponse hpoll =>
    exact CopyInvariant.baseline hfresh hreset hresponse hpoll
  | poll _ hresponse hreplay hpoll ih => exact ih.poll hresponse hreplay hpoll
  | elsewhere _ hresets hrows ih => exact ih.elsewhere hresets hrows

/-- Exactly-once copying: over any run in which no order grows between the baseline and
its first replay, what was copied of a public order is what it executed since the
baseline. -/
theorem copied_eq_executed_since_baseline
    (hrun : CopyRun (ReplayedBeforeGrowth leader) leader oneWay base hist log signals)
    (ord : PublicOrder) (hmode : ord.positionSide = .both ↔ oneWay = true) :
    copiedQuantity leader ord signals = lastExecuted hist ord - (visibleQuantity base ord).getD 0 :=
  hrun.invariant.copied_eq hmode

end Invariant

section Straddling

/-- Responses of a single row never compare digests, so any order of them will do. -/
local instance singleRowHexOrder : HexOrder := ⟨fun _ => 0⟩

def straddlingDocument (executedQty : Decimal) (orderUpdateTime : ℤ) : ApiOrder where
  symbol := "BTCUSDT"
  positionSide := .both
  side := .buy
  orderType := "LIMIT"
  executedQty := executedQty
  avgPrice := 100
  totalPnl := 0
  orderTime := 1000
  orderUpdateTime := orderUpdateTime
  extra := ""

def straddlingOrder : PublicOrder := ⟨"BTCUSDT", .both, .buy, "LIMIT", 1000⟩

def straddlingBaseline : PublicLeaderOrder :=
  okValue (PublicLeaderOrder.fromApi "1" (straddlingDocument 1 1000)) (by decide)

def straddlingGrown : PublicLeaderOrder :=
  okValue (PublicLeaderOrder.fromApi "1" (straddlingDocument 3 2000)) (by decide)

def singleRowResponse (row : PublicLeaderOrder) (observedAt : Time) : PollResponse :=
  ⟨[row], [], observedAt⟩

def straddlingStart : EventLog × List NormalizedSignal :=
  okValue (EventLog.pollLeader {} "1" true false (singleRowResponse straddlingBaseline 5000000))
    (by decide)

def straddlingGrownPoll : EventLog × List NormalizedSignal :=
  okValue (straddlingStart.1.pollLeader "1" false false (singleRowResponse straddlingGrown 9000000))
    (by with_unfolding_all decide)

/-- The poll right after the baseline, when the order is still unchanged. -/
def straddlingReplayPoll : EventLog × List NormalizedSignal :=
  okValue (straddlingStart.1.pollLeader "1" false false
    (singleRowResponse straddlingBaseline 7000000)) (by with_unfolding_all decide)

def straddlingLaterPoll : EventLog × List NormalizedSignal :=
  okValue (straddlingReplayPoll.1.pollLeader "1" false false
    (singleRowResponse straddlingGrown 9000000)) (by with_unfolding_all decide)

theorem validResponse_straddling {row : PublicLeaderOrder} {doc : ApiOrder}
    {hist : List (List PublicLeaderOrder)} {log : EventLog} {seen : Time}
    (hp : PublicLeaderOrder.fromApi "1" doc = .ok row) (hm : row.positionSide = .both)
    (hw : ∀ watermark ∈ log.sourceWatermark "1", watermark ≤ row.updateTimeMs)
    (hg : lastExecuted hist row.publicOrder ≤ row.executedQuantity) :
    ValidResponse "1" true hist log (singleRowResponse row seen) := by
  refine ⟨?_, ?_, List.nodup_singleton _, ?_, ?_⟩ <;>
    intro found hf <;> rw [List.mem_singleton.mp hf]
  · exact ⟨doc, hp⟩
  · exact iff_of_true hm rfl
  · exact hw
  · exact hg

theorem copyRun_straddlingStart
    (allowed : List PublicLeaderOrder → EventLog → PollResponse → Prop) :
    CopyRun allowed "1" true [straddlingBaseline] [[straddlingBaseline]] straddlingStart.1
      straddlingStart.2 := by
  have hp : PublicLeaderOrder.fromApi "1" (straddlingDocument 1 1000) =
      .ok straddlingBaseline := eq_ok_okValue _
  have hpo : EventLog.pollLeader {} "1" true false
      (singleRowResponse straddlingBaseline 5000000) = .ok straddlingStart := eq_ok_okValue _
  refine .baseline ?_ ?_ ?_ hpo
  · simp
  · decide
  · exact validResponse_straddling hp (by decide) (by decide) (by decide)

theorem straddling_growth_copied_once : copiedQuantity "1" straddlingOrder
      (straddlingStart.2 ++ straddlingReplayPoll.2 ++ straddlingLaterPoll.2) = 3 - 1 := by
  have hb : PublicLeaderOrder.fromApi "1" (straddlingDocument 1 1000) =
      .ok straddlingBaseline := eq_ok_okValue _
  have hg : PublicLeaderOrder.fromApi "1" (straddlingDocument 3 2000) = .ok straddlingGrown :=
    eq_ok_okValue _
  have hr : straddlingStart.1.pollLeader "1" false false
      (singleRowResponse straddlingBaseline 7000000) = .ok straddlingReplayPoll := eq_ok_okValue _
  have hl : straddlingReplayPoll.1.pollLeader "1" false false
      (singleRowResponse straddlingGrown 9000000) = .ok straddlingLaterPoll := eq_ok_okValue _
  have hre : ReplayedBeforeGrowth "1" [straddlingBaseline] straddlingStart.1
      (singleRowResponse straddlingBaseline 7000000) := by
    intro row hrow _ _
    exact Or.inr ⟨straddlingBaseline, List.mem_singleton_self _,
      by rw [List.mem_singleton.mp hrow]⟩
  have hla : ReplayedBeforeGrowth "1" [straddlingBaseline] straddlingReplayPoll.1
      (singleRowResponse straddlingGrown 9000000) := by
    intro row hrow _ _
    rw [List.mem_singleton.mp hrow]
    exact Or.inl ⟨.long, by with_unfolding_all decide⟩
  have hrun := CopyRun.poll (CopyRun.poll (copyRun_straddlingStart (ReplayedBeforeGrowth "1"))
      (validResponse_straddling hb (by decide) (by decide) (by decide)) hre hr)
    (validResponse_straddling hg (by with_unfolding_all decide) (by with_unfolding_all decide)
    (by decide))
    hla hl
  exact (copied_eq_executed_since_baseline hrun straddlingOrder (by decide)).trans
    (by with_unfolding_all decide)

theorem straddling_growth_copied_in_full : ¬ ∀ [HexOrder] (leader : String) (oneWay : Bool)
        (base : List PublicLeaderOrder) (hist : List (List PublicLeaderOrder))
        (log : EventLog) (signals : List NormalizedSignal),
        CopyRun (fun _ _ _ => True) leader oneWay base hist log signals →
        ∀ ord : PublicOrder, (ord.positionSide = .both ↔ oneWay = true) →
          copiedQuantity leader ord signals =
            lastExecuted hist ord - (visibleQuantity base ord).getD 0 := by
  intro hcl
  have hp : PublicLeaderOrder.fromApi "1" (straddlingDocument 3 2000) = .ok straddlingGrown :=
    eq_ok_okValue _
  have hpo : straddlingStart.1.pollLeader "1" false false
      (singleRowResponse straddlingGrown 9000000) = .ok straddlingGrownPoll := eq_ok_okValue _
  have hr : ValidResponse "1" true [[straddlingBaseline]] straddlingStart.1
      (singleRowResponse straddlingGrown 9000000) :=
    validResponse_straddling hp (by decide) (by decide) (by decide)
  have hrun := CopyRun.poll (copyRun_straddlingStart fun _ _ _ => True) hr trivial hpo
  have hc := @hcl singleRowHexOrder _ _ _ _ _ _ hrun straddlingOrder (by decide)
  exact absurd hc (by with_unfolding_all decide)

end Straddling

end AiQuant.CopyTrading
