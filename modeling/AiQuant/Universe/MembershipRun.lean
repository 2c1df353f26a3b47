import AiQuant.Universe.Membership
import Mathlib.Data.List.Induction

/-! Runs of `MembershipController.apply`: who is active, since when, and why a symbol leaves. -/
namespace AiQuant.Universe
open AiQuant.Lib

namespace Members

def step (settings : MembershipSettings) (members : Members) (call : MembershipCall) : Members :=
  (members.apply settings call).2

def run (settings : MembershipSettings) (calls : List MembershipCall) : Members :=
  calls.foldl (step settings) new

theorem run_concat (cfg : MembershipSettings) (calls : List MembershipCall)
    (call : MembershipCall) : run cfg (calls ++ [call]) = (run cfg calls).step cfg call :=
  List.foldl_append

def ActiveSince (settings : MembershipSettings) (calls : List MembershipCall) (symbol : String)
    (since : ℤ) : Prop :=
  ∃ earlier call later, calls = earlier ++ call :: later ∧ call.computedAt = some since ∧
    ∀ more rest, later = more ++ rest → symbol ∈ (run settings (earlier ++ call :: more)).active

/-- What holds of a replacement in the call after `earlier`. -/
structure Replacement (settings : MembershipSettings) (earlier : List MembershipCall)
    (call : MembershipCall) (now : ℤ) (incumbent challenger : String) : Prop where
  leaves : incumbent ∉ (run settings (earlier ++ [call])).active
  takes : challenger ∈ (run settings (earlier ++ [call])).active
  new : challenger ∉ (run settings earlier).active
  raw_top : challenger ∈ rawTop call.snapshot.ranking settings.size
  /-- The incumbent may have entered in the call itself. -/
  resident : ∃ since, settings.minimumResidence ≤ now - since ∧
    (ActiveSince settings earlier incumbent since ∨ since = now)
  margin : scoreToBeat call.snapshot.ranking settings.replacementMargin incumbent ≤
    scoreOf call.snapshot.ranking challenger

/-- What holds of a call at `now` after `earlier`. -/
structure Orderly (settings : MembershipSettings) (earlier : List MembershipCall)
    (call : MembershipCall) (now : ℤ) : Prop where
  returns : ((run settings earlier).apply settings call).1 =
    .ok ((run settings (earlier ++ [call])).view settings call)
  nodup : (run settings (earlier ++ [call])).active.Nodup
  length_le : (run settings (earlier ++ [call])).active.length ≤ settings.size
  eligible : ∀ symbol ∈ (run settings (earlier ++ [call])).active,
    symbol ∉ call.immediatelyIneligible
  entered : ∀ symbol ∈ (run settings (earlier ++ [call])).active, ∃ since,
    (run settings (earlier ++ [call])).enteredAt symbol = some since ∧
      ActiveSince settings (earlier ++ [call]) symbol since
  leaving : ∃ swaps : List (String × String),
    (swaps.map Prod.fst).Nodup ∧ (swaps.map Prod.snd).Nodup ∧
      (∀ swap ∈ swaps, Replacement settings earlier call now swap.1 swap.2) ∧
      ∀ symbol ∈ (run settings earlier).active,
        symbol ∉ (run settings (earlier ++ [call])).active →
        symbol ∈ call.immediatelyIneligible ∨ symbol ∈ swaps.map Prod.fst

structure Sound (settings : MembershipSettings) (members : Members) : Prop where
  nodup : members.active.Nodup
  length_le : members.active.length ≤ settings.size
  entered : ∀ symbol ∈ members.active, ∃ since, members.enteredAt symbol = some since

/-- What a call at `now` does: `entered` take free places, then `swaps` take place. -/
structure Applied (settings : MembershipSettings) (members : Members) (call : MembershipCall)
    (now : ℤ) (after : Members) (entered : List String) (swaps : List (String × String)) :
    Prop where
  apply_eq : members.apply settings call = (.ok (after.view settings call), after)
  mem_iff : ∀ symbol, symbol ∈ after.active ↔
    ((symbol ∈ members.active ∧ symbol ∉ call.immediatelyIneligible ∨ symbol ∈ entered) ∧
      symbol ∉ swaps.map Prod.fst) ∨ symbol ∈ swaps.map Prod.snd
  nodup : after.active.Nodup
  length_le : after.active.length ≤ settings.size
  enteredAt_eq : ∀ symbol, after.enteredAt symbol =
    if symbol ∈ swaps.map Prod.snd then some now
    else if symbol ∈ swaps.map Prod.fst then none
    else if symbol ∈ entered then some now
    else members.enteredAt symbol
  eligible : ∀ symbol ∈ entered, symbol ∉ call.immediatelyIneligible
  incumbents_nodup : (swaps.map Prod.fst).Nodup
  challengers_nodup : (swaps.map Prod.snd).Nodup
  challengers : ∀ symbol ∈ swaps.map Prod.snd,
    symbol ∈ rawTop call.snapshot.ranking settings.size ∧
      symbol ∉ call.immediatelyIneligible ∧ symbol ∉ members.active ∧
      symbol ∉ swaps.map Prod.fst
  beats : ∀ swap ∈ swaps,
    (∃ since, settings.minimumResidence ≤ now - since ∧
      (swap.1 ∈ members.active ∧ members.enteredAt swap.1 = some since ∨ since = now)) ∧
    scoreToBeat call.snapshot.ranking settings.replacementMargin swap.1 ≤
      scoreOf call.snapshot.ranking swap.2

section OneCall

variable {cfg : MembershipSettings} {members : Members} {call : MembershipCall} {now : ℤ}

theorem mem_refresh {ranking : List UniverseRank} {ineligible : Finset String} {sym : String} :
    sym ∈ (members.refresh cfg ranking ineligible).active ↔
      sym ∈ members.active ∧ sym ∉ ineligible := by
  show sym ∈ members.active.filter _ ↔ _
  rw [List.mem_filter, decide_eq_true_eq]

theorem Sound.refresh (hs : members.Sound cfg) (ranking : List UniverseRank)
    (ineligible : Finset String) : (members.refresh cfg ranking ineligible).Sound cfg where
  nodup := hs.nodup.filter _
  length_le := (List.length_filter_le _ _).trans hs.length_le
  entered sym hmem := hs.entered sym (mem_refresh.mp hmem).1

theorem Sound.filled {ineligible : Finset String} {symbols entered : List String}
    {post : Members} (hs : members.Sound cfg)
    (hf : Filled cfg now ineligible symbols members post entered) : post.Sound cfg where
  nodup := hf.active_eq ▸ hf.nodup
  length_le := hf.active_eq ▸ hf.length_le
  entered sym hmem := by
    rw [hf.enteredAt_eq]
    split_ifs with hn
    · exact ⟨now, rfl⟩
    · rw [hf.active_eq, List.mem_append, or_iff_left hn] at hmem
      exact hs.entered sym hmem

theorem replaceWeakest_swapped (hs : members.Sound cfg) (ranking : List UniverseRank)
    (ineligible : Finset String) (ht : (rawTop ranking cfg.size).Nodup) :
    ∃ post swaps, members.replaceWeakest cfg ranking now ineligible = (.ok (), post) ∧
      Swapped cfg ranking now ((rawTop ranking cfg.size).filter fun sym =>
        sym ∉ members.active ∧ sym ∉ ineligible)
        (members.active.insertionSort (WeakerOrSame ranking)) members post swaps := by
  rw [replaceWeakest]
  split_ifs with hf
  · have hp := List.perm_insertionSort (WeakerOrSame ranking) members.active
    refine challenge_swapped _ _ hs.nodup (ht.filter _) (hp.symm.nodup hs.nodup)
      (fun sym hm => ?_) (fun sym hm => hp.subset hm)
      fun sym hm => hs.entered sym (hp.subset hm)
    exact (of_decide_eq_true (List.mem_filter.mp hm).2).1
  · exact ⟨members, [], rfl, swapped_nil hs.nodup⟩

theorem mem_sorted {ranking : List UniverseRank} {sym : String} :
    sym ∈ (members.sorted ranking).active ↔ sym ∈ members.active :=
  List.mem_insertionSort _

theorem apply_applied (hso : members.Sound cfg) (hnow : call.computedAt = some now)
    (htop : (rawTop call.snapshot.ranking cfg.size).Nodup) :
    ∃ post entered swaps, Applied cfg members call now post entered swaps := by
  have hr := hso.refresh call.snapshot.ranking call.immediatelyIneligible
  obtain ⟨entered, hf⟩ := @fill_filled cfg now _ call.immediatelyIneligible
    (rawTop call.snapshot.ranking cfg.size) hr.nodup hr.length_le
  obtain ⟨replaced, swaps, hrep, hs⟩ := @replaceWeakest_swapped cfg _ now
    (hr.filled hf) call.snapshot.ranking call.immediatelyIneligible htop
  have ha : ∀ sym, sym ∈ ((members.refresh cfg call.snapshot.ranking
      call.immediatelyIneligible).fill cfg now call.immediatelyIneligible
        (rawTop call.snapshot.ranking cfg.size)).active ↔
      sym ∈ members.active ∧ sym ∉ call.immediatelyIneligible ∨ sym ∈ entered := by
    intro sym
    rw [hf.active_eq, List.mem_append, mem_refresh]
  have hfi := hr.filled hf
  have hi : ∀ sym ∈ swaps.map Prod.fst,
      sym ∈ members.active ∧ sym ∉ call.immediatelyIneligible ∨ sym ∈ entered :=
    fun sym hm => (ha sym).mp
      ((List.mem_insertionSort _).mp (hs.incumbents_sub.subset hm))
  refine ⟨replaced.sorted call.snapshot.ranking, entered, swaps, ?_, fun sym => ?_, ?_, ?_,
    fun sym => ?_, fun sym hm => (hf.admitted sym hm).2.1, ?_, ?_,
    fun sym hm => ?_, fun swap hm => ⟨?_, (hs.beats swap hm).margin⟩⟩
  · rw [apply, hnow]
    dsimp only
    rw [hrep]
  · rw [mem_sorted, hs.mem_iff, ha]
  · exact (List.perm_insertionSort _ _).symm.nodup hs.nodup
  · show (replaced.active.insertionSort _).length ≤ _
    rw [List.length_insertionSort, hs.length_eq]
    exact hfi.length_le
  · show replaced.enteredAt sym = _
    rw [hs.enteredAt_eq, hf.enteredAt_eq]
    rfl
  · exact hs.incumbents_sub.nodup ((List.perm_insertionSort _ _).symm.nodup hfi.nodup)
  · exact hs.challengers_sub.nodup (htop.filter _)
  · obtain ⟨ht, hfr⟩ := List.mem_filter.mp (hs.challengers_sub.subset hm)
    obtain ⟨hout, he⟩ := of_decide_eq_true hfr
    rw [ha, not_or] at hout
    refine ⟨ht, he, fun ho => hout.1 ⟨ho, he⟩, fun hfir => ?_⟩
    rcases hi sym hfir with ho | hn
    · exact hout.1 ho
    · exact hout.2 hn
  · obtain ⟨since, hsi, hre⟩ := (hs.beats swap hm).resident
    rw [hf.enteredAt_eq] at hsi
    refine ⟨since, hre, ?_⟩
    split_ifs at hsi with hn
    · exact Or.inr (Option.some.inj hsi).symm
    · rcases hi swap.1 (List.mem_map_of_mem hm) with ho | hin
      · exact Or.inl ⟨ho.1, hsi⟩
      · exact absurd hin hn

end OneCall

section Runs

variable {cfg : MembershipSettings} {calls : List MembershipCall} {call : MembershipCall}
  {now : ℤ} {sym : String}

theorem step_of_notUtc (members : Members) (hn : call.computedAt = none) :
    members.step cfg call = members := by
  rw [step, apply, hn]

theorem ActiveSince.concat {since : ℤ} (ha : ActiveSince cfg calls sym since)
    (haf : sym ∈ (run cfg (calls ++ [call])).active) :
    ActiveSince cfg (calls ++ [call]) sym since := by
  obtain ⟨earlier, first, later, rfl, ht, hl⟩ := ha
  refine ⟨earlier, first, later ++ [call], by rw [List.append_assoc, List.cons_append], ht,
    fun more rest hs => ?_⟩
  rcases List.eq_nil_or_concat rest with rfl | ⟨pre, last, rfl⟩
  · rw [List.append_nil] at hs
    rw [← hs, ← List.cons_append, ← List.append_assoc]
    exact haf
  · rw [List.concat_eq_append, ← List.append_assoc] at hs
    exact hl more pre (List.append_inj_left' hs rfl)

theorem activeSince_now (hn : call.computedAt = some now)
    (ha : sym ∈ (run cfg (calls ++ [call])).active) :
    ActiveSince cfg (calls ++ [call]) sym now := by
  refine ⟨calls, call, [], rfl, hn, fun more rest hs => ?_⟩
  obtain ⟨rfl, -⟩ := List.append_eq_nil_iff.mp hs.symm
  exact ha

structure Tracked (settings : MembershipSettings) (calls : List MembershipCall) : Prop where
  sound : (run settings calls).Sound settings
  since : ∀ symbol ∈ (run settings calls).active, ∀ since,
    (run settings calls).enteredAt symbol = some since → ActiveSince settings calls symbol since

theorem tracked_nil (cfg : MembershipSettings) : Tracked cfg [] where
  sound := ⟨List.nodup_nil, Nat.zero_le _, fun _ hm => absurd hm List.not_mem_nil⟩
  since _ hm := absurd hm List.not_mem_nil

theorem Tracked.concat (ht : Tracked cfg calls)
    (htop : (rawTop call.snapshot.ranking cfg.size).Nodup) : Tracked cfg (calls ++ [call]) := by
  cases hn : call.computedAt with
  | none =>
    have hsa : run cfg (calls ++ [call]) = run cfg calls := by
      rw [run_concat, step_of_notUtc _ hn]
    constructor
    · rw [hsa]
      exact ht.sound
    · intro sym hm since hs
      refine ActiveSince.concat (ht.since sym ?_ since ?_) hm
      · rwa [hsa] at hm
      · rwa [hsa] at hs
  | some now =>
    obtain ⟨post, entered, swaps, ha⟩ := apply_applied ht.sound hn htop
    have haf : run cfg (calls ++ [call]) = post := by
      rw [run_concat, step, ha.apply_eq]
    have ho : ∀ sym ∈ post.active, sym ∉ swaps.map Prod.snd → sym ∉ entered →
        sym ∈ (run cfg calls).active ∧ sym ∉ swaps.map Prod.fst := by
      intro sym hm hse he
      have hin := (ha.mem_iff sym).mp hm
      rw [or_iff_left hse, or_iff_left he] at hin
      exact ⟨hin.1.1, hin.2⟩
    constructor
    · rw [haf]
      refine ⟨ha.nodup, ha.length_le, fun sym hm => ?_⟩
      rw [ha.enteredAt_eq]
      split_ifs with hse hf he
      · exact ⟨now, rfl⟩
      · have hin := (ha.mem_iff sym).mp hm
        rw [or_iff_left hse] at hin
        exact absurd hf hin.2
      · exact ⟨now, rfl⟩
      · exact ht.sound.entered sym (ho sym hm hse he).1
    · intro sym hm since hs
      have hin := hm
      rw [haf] at hin hs
      rw [ha.enteredAt_eq] at hs
      split_ifs at hs with hse hf he
      · obtain rfl := Option.some.inj hs
        exact activeSince_now hn hm
      · obtain rfl := Option.some.inj hs
        exact activeSince_now hn hm
      · have hk := (ho sym hin hse he).1
        exact (ht.since sym hk since hs).concat hm

theorem tracked_run (ht : ∀ call ∈ calls, (rawTop call.snapshot.ranking cfg.size).Nodup) :
    Tracked cfg calls := by
  induction calls using List.reverseRecOn with
  | nil => exact tracked_nil cfg
  | append_singleton calls call ih =>
    have hb := ih fun other hm => ht other (List.mem_append_left [call] hm)
    exact hb.concat (ht call (List.mem_append_right calls List.mem_cons_self))

theorem Tracked.orderly (ht : Tracked cfg calls) (hnow : call.computedAt = some now)
    (htop : (rawTop call.snapshot.ranking cfg.size).Nodup) : Orderly cfg calls call now := by
  obtain ⟨post, entered, swaps, ha⟩ := apply_applied ht.sound hnow htop
  have haf : run cfg (calls ++ [call]) = post := by
    rw [run_concat, step, ha.apply_eq]
  have hn := ht.concat htop
  refine ⟨by rw [ha.apply_eq, haf], haf ▸ ha.nodup,
    haf ▸ ha.length_le, fun sym hmem => ?_, fun sym hmem => ?_,
    swaps, ha.incumbents_nodup, ha.challengers_nodup, fun swap hmem => ?_,
    fun sym hb hl => ?_⟩
  · rw [haf, ha.mem_iff] at hmem
    rcases hmem with ⟨hk | he, -⟩ | hs
    · exact hk.2
    · exact ha.eligible sym he
    · exact (ha.challengers sym hs).2.1
  · obtain ⟨since, hsi⟩ := hn.sound.entered sym hmem
    exact ⟨since, hsi, hn.since sym hmem since hsi⟩
  · have hf := List.mem_map_of_mem (f := Prod.fst) hmem
    have hs := List.mem_map_of_mem (f := Prod.snd) hmem
    obtain ⟨hto, -, hnew, -⟩ := ha.challengers swap.2 hs
    obtain ⟨⟨since, hr, hre⟩, hm⟩ := ha.beats swap hmem
    refine ⟨?_, ?_, hnew, hto, ⟨since, hr, ?_⟩, hm⟩
    · rw [haf, ha.mem_iff, not_or, not_and_or]
      exact ⟨Or.inr (not_not.mpr hf), fun hag =>
        (ha.challengers swap.1 hag).2.2.2 hf⟩
    · rw [haf, ha.mem_iff]
      exact Or.inr hs
    · exact hre.imp_left fun hin => ht.since swap.1 hin.1 since hin.2
  · rw [haf, ha.mem_iff, not_or, not_and_or, not_or, not_and_or, not_not, not_not] at hl
    obtain ⟨(⟨ho | hineligible, -⟩ | hf), -⟩ := hl
    · exact absurd hb ho
    · exact Or.inl hineligible
    · exact Or.inr hf

end Runs

end Members

theorem rankUniverse_nodup {ln : ℚ → ℚ} {ins : List UniverseInput} {snap : UniverseSnapshot}
    (hs : rankUniverse ln ins = .ok snap) : (symbolsOf snap.ranking).Nodup := by
  by_cases hne : ins = []
  · rw [rankUniverse, if_pos hne] at hs
    obtain rfl := Except.ok.inj hs
    exact List.nodup_nil
  · by_cases hu : (ins.map UniverseInput.symbol).Nodup
    · rw [rankUniverse_eq hne hu] at hs
      obtain rfl := Except.ok.inj hs
      exact (ranks_symbols ln ins).symm.nodup hu
    · rw [rankUniverse, if_neg hne, if_pos hu] at hs
      cases hs

theorem rawTop_nodup {ranking : List UniverseRank} (hu : (symbolsOf ranking).Nodup)
    (size : ℕ) : (rawTop ranking size).Nodup :=
  ((List.take_sublist size ranking).map UniverseRank.symbol).nodup hu

/-- Every call of every run keeps the membership in order; a call that raises changes nothing.  Of
the snapshots only that `rank_universe` ranks no symbol twice is used. -/
theorem membership_orderly (cfg : MembershipSettings) (calls : List MembershipCall)
    (hsnapshots : ∀ call ∈ calls, (symbolsOf call.snapshot.ranking).Nodup)
    (earlier : List MembershipCall) (call : MembershipCall) (later : List MembershipCall)
    (hcalls : calls = earlier ++ call :: later) : (call.computedAt = none →
      Members.run cfg (earlier ++ [call]) = Members.run cfg earlier) ∧
    ∀ now, call.computedAt = some now → Members.Orderly cfg earlier call now := by
  have ht : ∀ call ∈ calls, (rawTop call.snapshot.ranking cfg.size).Nodup :=
    fun call hm => rawTop_nodup (hsnapshots call hm) cfg.size
  subst hcalls
  have hb : Members.Tracked cfg earlier :=
    Members.tracked_run fun other hm => ht other (List.mem_append_left _ hm)
  refine ⟨fun hn => ?_, fun now hnow => hb.orderly hnow (ht call (by simp))⟩
  rw [Members.run_concat, Members.step_of_notUtc _ hn]

def onePlace : MembershipSettings := ⟨1, 3600000000, 5, 2⟩

/-- The ranking of a universe of one symbol, so many minutes after midnight. -/
def rankingOf (symbol : String) (minute : ℤ) : MembershipCall where
  snapshot :=
    let ranking := ranks sampleLn [sampleInput symbol 1 100 unit_spread full_completeness]
    ⟨ranking, ranking.length, ranking.length < 10⟩
  computedAt := some (minute * 60000000)
  immediatelyIneligible := ∅
  managedPositions := ∅

theorem rankingOf_ranked (sym : String) (minute : ℤ) :
    ∃ ins, rankUniverse sampleLn ins = .ok (rankingOf sym minute).snapshot :=
  ⟨_, rankUniverse_eq (List.cons_ne_nil _ _) (List.nodup_singleton sym)⟩

theorem unranked_symbol_replaced : Members.Orderly onePlace
      [rankingOf "BTCUSDT" 0, rankingOf "BTCUSDT" 15, rankingOf "ETHUSDT" 60]
      (rankingOf "ETHUSDT" 75) 4500000000 ∧
    (Members.run onePlace [rankingOf "BTCUSDT" 0, rankingOf "BTCUSDT" 15,
      rankingOf "ETHUSDT" 60]).active = ["BTCUSDT"] ∧
    (Members.run onePlace [rankingOf "BTCUSDT" 0, rankingOf "BTCUSDT" 15,
      rankingOf "ETHUSDT" 60, rankingOf "ETHUSDT" 75]).active = ["ETHUSDT"] := by
  refine ⟨?_, by decide, by decide⟩
  refine (membership_orderly onePlace _ (fun call hm => ?_) _ _ [] rfl).2 _ rfl
  simp only [List.cons_append, List.nil_append, List.mem_cons, List.not_mem_nil, or_false] at hm
  have hr : ∃ ins, rankUniverse sampleLn ins = .ok call.snapshot := by
    rcases hm with rfl | rfl | rfl | rfl <;> exact rankingOf_ranked _ _
  obtain ⟨ins, hs⟩ := hr
  exact rankUniverse_nodup hs

theorem wide_spread : (0 : ℚ) ≤ 2 := zero_le_two

/-- `BTCUSDT` with the score 40 below `ETHUSDT` with 60. -/
def pairInputs : List UniverseInput :=
  [sampleInput "BTCUSDT" 2 100 wide_spread full_completeness,
    sampleInput "ETHUSDT" 1 100 unit_spread full_completeness]

def pairRanking (minute : ℤ) : MembershipCall :=
  { rankingOf "BTCUSDT" minute with
    snapshot :=
      let ranking := ranks sampleLn pairInputs
      ⟨ranking, ranking.length, ranking.length < 10⟩ }

def narrowMargin : MembershipSettings := { onePlace with replacementMargin := 20 + 1 / 10 ^ 28 }

def narrowCalls : List MembershipCall :=
  [rankingOf "BTCUSDT" 0, rankingOf "BTCUSDT" 15, pairRanking 60, pairRanking 75]

theorem narrowCalls_ranked : ∀ call ∈ narrowCalls,
    ∃ ins, rankUniverse sampleLn ins = .ok call.snapshot := by
  intro call hm
  simp only [narrowCalls, List.mem_cons, List.not_mem_nil, or_false] at hm
  rcases hm with rfl | rfl | rfl | rfl
  · exact rankingOf_ranked _ _
  · exact rankingOf_ranked _ _
  all_goals exact ⟨pairInputs, rankUniverse_eq (List.cons_ne_nil _ _) (by decide)⟩

/-- `40 + 20.0000000000000000000000000001` has 30 digits and is rounded to 60, the score of the
challenger. -/
theorem rounded_margin_replaces :
    ¬ ∀ (cfg : MembershipSettings) (earlier : List MembershipCall) (call : MembershipCall)
      (now : ℤ) (incumbent : String),
      (∀ each ∈ earlier ++ [call], ∃ ins, rankUniverse sampleLn ins = .ok each.snapshot) →
      call.computedAt = some now → incumbent ∈ (Members.run cfg earlier).active →
      incumbent ∉ (Members.run cfg (earlier ++ [call])).active →
      incumbent ∉ call.immediatelyIneligible →
      ∃ challenger ∈ (Members.run cfg (earlier ++ [call])).active,
        scoreOf call.snapshot.ranking incumbent + cfg.replacementMargin ≤
          scoreOf call.snapshot.ranking challenger := by
  intro hc
  obtain ⟨challenger, hm, hs⟩ := hc narrowMargin
    [rankingOf "BTCUSDT" 0, rankingOf "BTCUSDT" 15, pairRanking 60] (pairRanking 75) 4500000000
    "BTCUSDT" narrowCalls_ranked rfl (by with_unfolding_all decide) (by with_unfolding_all decide)
    (by simp [pairRanking, rankingOf])
  have ha : (Members.run narrowMargin ([rankingOf "BTCUSDT" 0, rankingOf "BTCUSDT" 15,
      pairRanking 60] ++ [pairRanking 75])).active = ["ETHUSDT"] := by with_unfolding_all decide
  rw [ha, List.mem_singleton] at hm
  subst hm
  exact absurd hs (by with_unfolding_all decide)

end AiQuant.Universe
