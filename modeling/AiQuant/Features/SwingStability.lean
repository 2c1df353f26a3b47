import AiQuant.Features.PriceAction

/-! Swings do not repaint: bars that come later leave the average true ranges and all but the last
swing as they are. -/
namespace AiQuant.Features
open AiQuant.Lib

theorem extract_append_of_le {α : Type} {items later : List α} {start stop : ℕ}
    (hs : stop ≤ items.length) :
    (items ++ later).extract start stop = items.extract start stop := by
  rw [List.extract_eq_drop_take', List.extract_eq_drop_take', List.take_append_of_le_length hs]

@[simp] theorem length_trueRangesAfter (prev : ClosedBar) (bars : List ClosedBar) :
    (trueRangesAfter prev bars).length = bars.length := by
  induction bars generalizing prev with
  | nil => rfl
  | cons current bars ih => simp [trueRangesAfter, ih]

@[simp] theorem length_trueRanges (bars : List ClosedBar) :
    (trueRanges bars).length = bars.length := by
  cases bars with
  | nil => rfl
  | cons first bars => simp [trueRanges]

theorem trueRangesAfter_prefix (prev : ClosedBar) (bars later : List ClosedBar) :
    trueRangesAfter prev bars <+: trueRangesAfter prev (bars ++ later) := by
  induction bars generalizing prev with
  | nil => exact List.nil_prefix
  | cons current bars ih => exact List.cons_prefix_cons.mpr ⟨rfl, ih current⟩

theorem trueRanges_prefix (bars later : List ClosedBar) :
    trueRanges bars <+: trueRanges (bars ++ later) := by
  cases bars with
  | nil => exact List.nil_prefix
  | cons first bars =>
    exact List.cons_prefix_cons.mpr ⟨rfl, trueRangesAfter_prefix first bars later⟩

/-- The values of `simple_atr`. -/
def atrValues (bars : List ClosedBar) (period : ℕ) : List (Option ℚ) :=
  (List.range (trueRanges bars).length).map (atrAt (trueRanges bars) period)

theorem simpleAtr_eq {period : ℕ} (hp : 1 ≤ period) (bars : List ClosedBar) :
    simpleAtr bars period = .ok (atrValues bars period) := by
  rw [simpleAtr, if_neg hp.not_gt]
  rfl

@[simp] theorem length_atrValues (bars : List ClosedBar) (period : ℕ) :
    (atrValues bars period).length = bars.length := by
  simp [atrValues]

variable {more : List (Option ℚ)} {index : ℕ}

theorem atrAt_append {ranges : List (Option ℚ)} {period : ℕ} (hi : index < ranges.length) :
    atrAt (ranges ++ more) period index = atrAt ranges period index := by
  simp only [atrAt]
  rw [extract_append_of_le hi]

theorem atrValues_prefix (bars later : List ClosedBar) (period : ℕ) :
    atrValues bars period <+: atrValues (bars ++ later) period := by
  obtain ⟨more, hm⟩ := trueRanges_prefix bars later
  have he : (List.range (trueRanges bars).length).map (atrAt (trueRanges bars) period) =
      (List.range (trueRanges bars).length).map (atrAt (trueRanges bars ++ more) period) := by
    apply List.map_congr_left
    intro index hi
    exact (atrAt_append (List.mem_range.mp hi)).symm
  rw [atrValues, atrValues, ← hm, he, List.length_append, List.range_add, List.map_append]
  exact List.prefix_append _ _

variable {digest : String → String} {left right : ℕ}

variable {bars later : List ClosedBar} {atrs : List (Option ℚ)}

theorem swingAt_append (hl : atrs.length = bars.length) (hi : index + right < bars.length) :
    swingAt digest (bars ++ later) (atrs ++ more) left right index =
      swingAt digest bars atrs left right index := by
  have hc : index < bars.length := by omega
  have ha : index + right + 1 ≤ bars.length := by omega
  unfold swingAt
  rw [List.getElem?_append_left hc, List.getElem?_append_left hi,
    List.getElem?_append_left (hl ▸ hc), extract_append_of_le hc.le,
    extract_append_of_le ha]

theorem swingAt_times
    {swing : ConfirmedSwing} (hs : swingAt digest bars atrs left right index = some swing) :
    ∃ cand confirming, bars[index]? = some cand ∧
      bars[index + right]? = some confirming ∧ swing.openTime = cand.openTime ∧
      swing.confirmTime = confirming.closeTime := by
  simp only [swingAt, Option.bind_eq_bind, Option.bind_eq_some_iff] at hs
  obtain ⟨cand, hca, atr, -, hs⟩ := hs
  split_ifs at hs
  simp only [Option.bind_eq_some_iff] at hs
  obtain ⟨kind, -, confirming, hc, hs⟩ := hs
  obtain rfl := Option.some.inj hs
  exact ⟨cand, confirming, hca, hc, rfl, rfl⟩

theorem recordSwing_eq (swings : List ConfirmedSwing) (swing : ConfirmedSwing) :
    recordSwing swings swing =
      pushExtreme ConfirmedSwing.kind ConfirmedSwing.moreExtreme swings swing := by
  rcases swings.eq_nil_or_concat with rfl | ⟨settled, last, rfl⟩
  · rfl
  · simp [recordSwing, pushExtreme]

theorem moreExtreme_trans (first second third : ConfirmedSwing)
    (hfi : first.kind = second.kind) (hs : second.kind = third.kind)
    (hm : first.moreExtreme second) (hf : second.moreExtreme third) : first.moreExtreme third := by
  cases hk : third.kind with
  | high =>
    simp only [ConfirmedSwing.moreExtreme, hfi, hs, hk, decide_eq_true_eq] at *
    exact hf.trans hm
  | low =>
    simp only [ConfirmedSwing.moreExtreme, hfi, hs, hk, decide_eq_true_eq] at *
    exact hm.trans hf

def candidateSwings (digest : String → String) (bars : List ClosedBar)
    (atrs : List (Option ℚ)) (left right : ℕ) : List ConfirmedSwing :=
  (List.range' left (bars.length - right - left)).filterMap
    (swingAt digest bars atrs left right)

def listedSwings (digest : String → String) (bars : List ClosedBar)
    (atrs : List (Option ℚ)) (left right : ℕ) : List ConfirmedSwing :=
  (candidateSwings digest bars atrs left right).foldl
    (pushExtreme ConfirmedSwing.kind ConfirmedSwing.moreExtreme) []

theorem confirmedSwings_eq (hle : 1 ≤ left) (hr : 1 ≤ right) (hl : atrs.length = bars.length) :
    confirmedSwings digest bars atrs left right =
      .ok (listedSwings digest bars atrs left right) := by
  have hv : ¬(left < 1 ∨ right < 1 ∨ atrs.length ≠ bars.length) := by
    simp only [not_or, not_lt, not_not]
    exact ⟨hle, hr, hl⟩
  rw [confirmedSwings, if_neg hv, listedSwings, candidateSwings, List.foldl_filterMap]
  congr 2
  funext swings index
  cases swingAt digest bars atrs left right index with
  | none => rfl
  | some swing => exact recordSwing_eq swings swing

theorem candidateSwings_prefix (hl : atrs.length = bars.length) :
    candidateSwings digest bars atrs left right <+:
      candidateSwings digest (bars ++ later) (atrs ++ more) left right := by
  have hc : (bars ++ later).length - right - left = (bars.length - right - left) +
        ((bars ++ later).length - right - left - (bars.length - right - left)) := by
    simp only [List.length_append]
    omega
  have he : candidateSwings digest bars atrs left right =
      (List.range' left (bars.length - right - left)).filterMap
        (swingAt digest (bars ++ later) (atrs ++ more) left right) := by
    apply List.filterMap_congr
    intro index hi
    rw [List.mem_range'_1] at hi
    exact (swingAt_append hl (by omega)).symm
  rw [he, candidateSwings, hc, ← List.range'_append_1, List.filterMap_append]
  exact List.prefix_append _ _

theorem continues_listedSwings (hl : atrs.length = bars.length) :
    Continues ConfirmedSwing.kind ConfirmedSwing.moreExtreme
      (listedSwings digest bars atrs left right)
      (listedSwings digest (bars ++ later) (atrs ++ more) left right) := by
  obtain ⟨found, hf⟩ : candidateSwings digest bars atrs left right <+:
      candidateSwings digest (bars ++ later) (atrs ++ more) left right :=
    candidateSwings_prefix hl
  rw [listedSwings, listedSwings, ← hf, List.foldl_append]
  exact continues_foldl_pushExtreme moreExtreme_trans found

theorem listedSwings_sublist (bars : List ClosedBar) (atrs : List (Option ℚ)) :
    (listedSwings digest bars atrs left right).Sublist
      (candidateSwings digest bars atrs left right) := by
  change List.Sublist _ ([] ++ candidateSwings digest bars atrs left right)
  exact foldl_pushExtreme_sublist _

theorem alternates_listedSwings (bars : List ClosedBar) (atrs : List (Option ℚ)) :
    Alternates ConfirmedSwing.kind (listedSwings digest bars atrs left right) :=
  Alternates.foldl_pushExtreme List.isChain_nil _

theorem listedSwings_pairwise
    (earlier : UtcDateTime → UtcDateTime → Prop) (time : ConfirmedSwing → UtcDateTime)
    (barTime : ClosedBar → UtcDateTime) (offset : ℕ)
    (ht : ∀ index swing, swingAt digest bars atrs left right index = some swing →
      ∃ bar, bars[index + offset]? = some bar ∧ time swing = barTime bar)
    (hba : bars.Pairwise fun first second => earlier (barTime first) (barTime second)) :
    (listedSwings digest bars atrs left right).Pairwise fun first second =>
      earlier (time first) (time second) := by
  apply List.Pairwise.sublist (listedSwings_sublist bars atrs)
  rw [candidateSwings, List.pairwise_filterMap]
  apply List.Pairwise.imp _ List.pairwise_lt_range'
  intro index next hlt swing hsw following hfo
  obtain ⟨bar, hbar, hs⟩ := ht index swing hsw
  obtain ⟨nextBar, hn, hf⟩ := ht next following hfo
  obtain ⟨hb, hbar⟩ := List.getElem?_eq_some_iff.mp hbar
  obtain ⟨hne, hn⟩ := List.getElem?_eq_some_iff.mp hn
  rw [hs, hf, ← hbar, ← hn]
  exact List.pairwise_iff_getElem.mp hba _ _ hb hne (by omega)

theorem confirmTime_le_last (hb : bars.Pairwise fun first second =>
      first.closeTime.instant ≤ second.closeTime.instant)
    {swing : ConfirmedSwing} (hsw : swing ∈ listedSwings digest bars atrs left right)
    {last : ClosedBar} (hl : bars.getLast? = some last) :
    swing.confirmTime.instant ≤ last.closeTime.instant := by
  have hca := (listedSwings_sublist bars atrs).subset hsw
  obtain ⟨index, -, hf⟩ := List.mem_filterMap.mp hca
  obtain ⟨-, confirming, -, hc, -, ht⟩ := swingAt_times hf
  have hm : confirming ∈ bars := List.mem_of_getElem? hc
  obtain ⟨settled, rfl⟩ := List.getLast?_eq_some_iff.mp hl
  rw [ht]
  rcases List.mem_append.mp hm with hs | hse
  · exact (List.pairwise_append.mp hb).2.2 confirming hs last List.mem_cons_self
  · rw [List.mem_singleton.mp hse]

/-- The swings over the average true ranges alternate, and later bars leave both as they are but
for the last swing.  Bars in order of time give swings in order of time. -/
theorem swings_never_repaint (digest : String → String) (bars : List ClosedBar)
    (period left right : ℕ) (hperiod : 1 ≤ period) (hleft : 1 ≤ left) (hright : 1 ≤ right) :
    ∃ atrs swings, simpleAtr bars period = .ok atrs ∧
      confirmedSwings digest bars atrs left right = .ok swings ∧
      Alternates ConfirmedSwing.kind swings ∧
      (bars.Pairwise (fun earlier later =>
          earlier.openTime.instant < later.openTime.instant) → swings.Pairwise fun earlier later =>
          earlier.openTime.instant < later.openTime.instant) ∧
      (bars.Pairwise (fun earlier later =>
          earlier.closeTime.instant ≤ later.closeTime.instant) →
        swings.Pairwise (fun earlier later =>
          earlier.confirmTime.instant ≤ later.confirmTime.instant) ∧
        ∀ swing ∈ swings, ∀ last, bars.getLast? = some last →
          swing.confirmTime.instant ≤ last.closeTime.instant) ∧
      ∀ later, ∃ moreAtrs newSwings, simpleAtr (bars ++ later) period = .ok (atrs ++ moreAtrs) ∧
        confirmedSwings digest (bars ++ later) (atrs ++ moreAtrs) left right = .ok newSwings ∧
        Continues ConfirmedSwing.kind ConfirmedSwing.moreExtreme swings newSwings := by
  have hl := length_atrValues bars period
  refine ⟨atrValues bars period, listedSwings digest bars (atrValues bars period) left right,
    simpleAtr_eq hperiod bars, confirmedSwings_eq hleft hright hl,
    alternates_listedSwings bars _, ?_, ?_, ?_⟩
  · intro ho
    apply listedSwings_pairwise (·.instant < ·.instant) ConfirmedSwing.openTime
      ClosedBar.openTime 0 _ ho
    intro index swing hs
    obtain ⟨cand, -, hca, -, ht, -⟩ := swingAt_times hs
    exact ⟨cand, hca, ht⟩
  · intro hcl
    refine ⟨?_, fun swing hs last hla => confirmTime_le_last hcl hs hla⟩
    apply listedSwings_pairwise (·.instant ≤ ·.instant) ConfirmedSwing.confirmTime
      ClosedBar.closeTime right _ hcl
    intro index swing hs
    obtain ⟨-, confirming, -, hc, -, ht⟩ := swingAt_times hs
    exact ⟨confirming, hc, ht⟩
  · intro later
    obtain ⟨moreAtrs, hm⟩ := atrValues_prefix bars later period
    have hlo : (atrValues bars period ++ moreAtrs).length = (bars ++ later).length := by
      rw [hm, length_atrValues]
    refine ⟨moreAtrs,
      listedSwings digest (bars ++ later) (atrValues bars period ++ moreAtrs) left right, ?_,
      confirmedSwings_eq hleft hright hlo, continues_listedSwings hl⟩
    rw [simpleAtr_eq hperiod, hm]

def sampleTime (minute : Fin 60) : UtcDateTime where
  year := 2026
  month := 1
  day := 2
  hour := 3
  minute := minute
  second := 0
  microsecond := 0
  year_mem := by decide
  month_mem := by decide
  day_mem := by decide
  hour_lt := by decide
  minute_lt := minute.isLt
  second_lt := by decide
  microsecond_lt := by decide

def sampleBar (minute : Fin 59) (low high : ℚ) (hlow : 0 < low) (hhigh : low ≤ high) :
    ClosedBar where
  symbol := "BTCUSDT"
  timeframe := "1m"
  openTime := sampleTime minute.castSucc
  closeTime := sampleTime minute.succ
  opening := low
  high := high
  low := low
  closing := high
  volume := 1
  times_lt := by
    simp [UtcDateTime.instant, UtcDateTime.microseconds, UtcDateTime.ordinal, sampleTime]
  low_pos := hlow
  high_mem := ⟨hhigh, le_rfl⟩
  low_mem := ⟨le_rfl, hhigh⟩
  volume_nonneg := zero_le_one

/-- Bars at four minutes, with a high at the second and a low at the third. -/
def sampleBars (first second third fourth : Fin 59) : List ClosedBar :=
  [sampleBar first 9 10 (by decide) (by decide), sampleBar second 11 12 (by decide) (by decide),
    sampleBar third 8 11 (by decide) (by decide), sampleBar fourth 9 12 (by decide) (by decide)]

theorem sampleBars_never_repaint : ∃ atrs swings, simpleAtr (sampleBars 0 1 2 3) 1 = .ok atrs ∧
      confirmedSwings id (sampleBars 0 1 2 3) atrs 1 1 = .ok swings ∧
      Alternates ConfirmedSwing.kind swings ∧
      swings.Pairwise fun earlier later =>
        earlier.openTime.instant < later.openTime.instant := by
  obtain ⟨atrs, swings, hat, hs, ha, ho, -⟩ :=
    swings_never_repaint id (sampleBars 0 1 2 3) 1 1 1 le_rfl le_rfl le_rfl
  exact ⟨atrs, swings, hat, hs, ha, ho (by decide)⟩

/-- At the minutes 0, 20, 10 and 5 the low comes after the high in the list, before it in time. -/
theorem sampleBars_out_of_order :
    ¬ ∀ bars period left right atrs swings, simpleAtr bars period = .ok atrs →
      confirmedSwings id bars atrs left right = .ok swings → swings.Pairwise (fun earlier later =>
          earlier.openTime.instant < later.openTime.instant) ∧
        ∀ swing ∈ swings, ∀ last, bars.getLast? = some last →
          swing.confirmTime.instant ≤ last.closeTime.instant := by
  intro hc
  obtain ⟨ho, -⟩ := hc (sampleBars 0 20 10 5) 1 1 1 _ _ (simpleAtr_eq le_rfl _)
    (confirmedSwings_eq le_rfl le_rfl (length_atrValues _ _))
  revert ho
  with_unfolding_all decide

end AiQuant.Features
