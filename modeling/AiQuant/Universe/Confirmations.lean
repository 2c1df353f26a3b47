import AiQuant.Universe.MembershipRun
import Mathlib.Data.List.TakeDrop

/-! Confirmation by consecutive rankings.  A streak counts the rankings in a row that have the
symbol in their raw top, but a ranking without the symbol leaves it as it is. -/
namespace AiQuant.Universe
open AiQuant.Lib

namespace Members

def additions (settings : MembershipSettings) (members : Members) (call : MembershipCall) :
    List String :=
  match call.computedAt with
  | none => []
  | some now =>
    let filled := (members.refresh settings call.snapshot.ranking call.immediatelyIneligible).fill
      settings now call.immediatelyIneligible (rawTop call.snapshot.ranking settings.size)
    (filled.active.filter fun symbol => symbol ∉ members.active) ++
      ((members.apply settings call).2.active.filter fun symbol => symbol ∉ filled.active)

def rawTops (settings : MembershipSettings) (calls : List MembershipCall) : List (List String) :=
  calls.filterMap fun call =>
    call.computedAt.map fun _ => rawTop call.snapshot.ranking settings.size

/-- The symbol is in each of the last `count` raw tops. -/
def InLastTops (settings : MembershipSettings) (calls : List MembershipCall) (symbol : String)
    (count : ℕ) : Prop :=
  ∃ before recent, rawTops settings calls = before ++ recent ∧ recent.length = count ∧
    ∀ top ∈ recent, symbol ∈ top

/-- Whatever is added was in the raw top of each of the last snapshots. -/
def ConfirmedAdditions (settings : MembershipSettings) (calls : List MembershipCall) : Prop :=
  ∀ earlier call later, calls = earlier ++ call :: later →
    ∀ symbol ∈ additions settings (run settings earlier) call,
      InLastTops settings (earlier ++ [call]) symbol settings.confirmations

/-- The ranking has every symbol with a streak. -/
def Covers (members : Members) (call : MembershipCall) : Prop :=
  ∀ symbol, 0 < members.streaks symbol → symbol ∈ symbolsOf call.snapshot.ranking

/-- No snapshot that is given to `apply` lacks a symbol with a streak. -/
def CoveredRun (settings : MembershipSettings) (calls : List MembershipCall) : Prop :=
  ∀ earlier call later, calls = earlier ++ call :: later → call.computedAt ≠ none →
    (run settings earlier).Covers call

section OneCall

variable {cfg : MembershipSettings} {ranking : List UniverseRank} {now : ℤ}
  {members : Members} {call : MembershipCall} {symbol : String}

theorem fill_streaks (ineligible : Finset String) (symbols : List String) (members : Members) :
    (members.fill cfg now ineligible symbols).streaks = members.streaks := by
  induction symbols generalizing members with
  | nil => rfl
  | cons first rest ih =>
    rw [fill]
    split_ifs
    · rfl
    · rw [ih]
      rfl
    · exact ih members

theorem mem_fill {ineligible : Finset String} {symbols : List String}
    (hm : symbol ∈ (members.fill cfg now ineligible symbols).active) :
    symbol ∈ members.active ∨ cfg.confirmations ≤ members.streaks symbol := by
  induction symbols generalizing members with
  | nil => exact Or.inl hm
  | cons first rest ih =>
    rw [fill] at hm
    split_ifs at hm with hfu ha
    · exact Or.inl hm
    · rcases ih hm with he | hs
      · rcases List.mem_append.mp he with ho | hf
        · exact Or.inl ho
        · rw [List.mem_singleton.mp hf]
          exact Or.inr ha.2.2
      · exact Or.inr hs
    · exact ih hm

theorem challenge_streaks (challengers incumbents : List String) (members : Members) :
    (members.challenge cfg ranking now challengers incumbents).2.streaks = members.streaks := by
  induction challengers generalizing members incumbents with
  | nil => rfl
  | cons challenger rest ih =>
    cases incumbents with
    | nil => rfl
    | cons incumbent others =>
      rw [challenge]
      cases members.enteredAt incumbent with
      | none => rfl
      | some since =>
        dsimp only
        split_ifs
        · exact ih _ members
        · rw [ih]
          rfl
        · exact ih _ members

theorem mem_challenge {challengers incumbents : List String}
    (hm : symbol ∈ (members.challenge cfg ranking now challengers incumbents).2.active) :
    symbol ∈ members.active ∨ cfg.confirmations ≤ members.streaks symbol := by
  induction challengers generalizing members incumbents with
  | nil => exact Or.inl hm
  | cons challenger rest ih =>
    cases incumbents with
    | nil => exact Or.inl hm
    | cons incumbent others =>
      rw [challenge] at hm
      cases hs : members.enteredAt incumbent with
      | none =>
        rw [hs] at hm
        exact Or.inl hm
      | some since =>
        rw [hs] at hm
        dsimp only at hm
        split_ifs at hm with hf hb
        · exact ih hm
        · rcases ih hm with hr | hst
          · rcases List.mem_append.mp hr with ho | hn
            · exact Or.inl (List.mem_of_mem_erase ho)
            · rw [List.mem_singleton.mp hn]
              exact Or.inr hb.1
          · exact Or.inr hst
        · exact ih hm

theorem mem_replaceWeakest {ineligible : Finset String}
    (hm : symbol ∈ (members.replaceWeakest cfg ranking now ineligible).2.active) :
    symbol ∈ members.active ∨ cfg.confirmations ≤ members.streaks symbol := by
  rw [replaceWeakest] at hm
  split_ifs at hm
  · exact mem_challenge hm
  · exact Or.inl hm

theorem replaceWeakest_streaks (members : Members) (ineligible : Finset String) :
    (members.replaceWeakest cfg ranking now ineligible).2.streaks = members.streaks := by
  rw [replaceWeakest]
  split_ifs
  · exact challenge_streaks _ _ members
  · rfl

theorem apply_active (hn : call.computedAt = some now) : (members.apply cfg call).2.streaks =
        nextStreaks call.snapshot.ranking cfg.size members.streaks ∧
      ∀ symbol, symbol ∈ (members.apply cfg call).2.active ↔ symbol ∈
        (((members.refresh cfg call.snapshot.ranking call.immediatelyIneligible).fill
          cfg now call.immediatelyIneligible
            (rawTop call.snapshot.ranking cfg.size)).replaceWeakest cfg
              call.snapshot.ranking now call.immediatelyIneligible).2.active := by
  rw [apply, hn]
  dsimp only
  split
  · next code interrupted hreplaced =>
    rw [hreplaced]
    have hk := congrArg (fun outcome => outcome.2.streaks) hreplaced
    dsimp only at hk ⊢
    rw [replaceWeakest_streaks, fill_streaks] at hk
    exact ⟨hk.symm, fun _ => Iff.rfl⟩
  · next replaced hreplaced =>
    rw [hreplaced]
    have hk := congrArg (fun outcome => outcome.2.streaks) hreplaced
    dsimp only at hk ⊢
    rw [replaceWeakest_streaks, fill_streaks] at hk
    exact ⟨hk.symm, fun _ => mem_sorted⟩

theorem apply_streaks (hn : call.computedAt = some now) : (members.apply cfg call).2.streaks =
      nextStreaks call.snapshot.ranking cfg.size members.streaks :=
  (apply_active hn).1

theorem additions_streak (hnow : call.computedAt = some now)
    (hm : symbol ∈ additions cfg members call) : cfg.confirmations ≤
      nextStreaks call.snapshot.ranking cfg.size members.streaks symbol := by
  rw [additions, hnow] at hm
  dsimp only at hm
  rcases List.mem_append.mp hm with hf | hr
  · obtain ⟨hin, hn⟩ := List.mem_filter.mp hf
    refine (mem_fill hin).resolve_left fun ho => ?_
    exact of_decide_eq_true hn (mem_refresh.mp ho).1
  · obtain ⟨hin, hn⟩ := List.mem_filter.mp hr
    rw [(apply_active hnow).2] at hin
    have hs := (mem_replaceWeakest hin).resolve_left (of_decide_eq_true hn)
    rwa [fill_streaks] at hs

end OneCall

section Runs

variable {cfg : MembershipSettings} {calls : List MembershipCall} {call : MembershipCall}
  {symbol : String}

theorem rawTops_concat (cfg : MembershipSettings) (calls : List MembershipCall)
    (call : MembershipCall) : rawTops cfg (calls ++ [call]) = rawTops cfg calls ++
      (call.computedAt.map fun _ => rawTop call.snapshot.ranking cfg.size).toList := by
  rw [rawTops, List.filterMap_append]
  cases hn : call.computedAt with
  | none => simp [rawTops, hn]
  | some now => simp [rawTops, hn]

theorem CoveredRun.streak (hc : CoveredRun cfg calls) (symbol : String) :
    InLastTops cfg calls symbol ((run cfg calls).streaks symbol) := by
  induction calls using List.reverseRecOn with
  | nil => exact ⟨[], [], rfl, rfl, fun _ hm => absurd hm List.not_mem_nil⟩
  | append_singleton calls call ih =>
    have he : CoveredRun cfg calls := fun earlier other later hs hu =>
      hc earlier other (later ++ [call]) (by rw [hs, List.append_assoc]; rfl) hu
    obtain ⟨pre, recent, ht, hl, ha⟩ := ih he
    rw [run_concat]
    cases hn : call.computedAt with
    | none =>
      rw [step_of_notUtc _ hn]
      refine ⟨pre, recent, ?_, hl, ha⟩
      rw [rawTops_concat, hn, Option.map_none, Option.toList_none, List.append_nil, ht]
    | some now =>
      have hu : call.computedAt ≠ none := by
        rw [hn]
        exact Option.some_ne_none now
      rw [step, apply_streaks hn, nextStreaks]
      have hco : rawTops cfg (calls ++ [call]) =
          pre ++ recent ++ [rawTop call.snapshot.ranking cfg.size] := by
        rw [rawTops_concat, hn, Option.map_some, Option.toList_some, ht]
      split_ifs with hr htop
      · refine ⟨pre, recent ++ [rawTop call.snapshot.ranking cfg.size], ?_, ?_, ?_⟩
        · rw [hco, List.append_assoc]
        · rw [List.length_append, hl, List.length_singleton]
        · intro top hm
          rcases List.mem_append.mp hm with ho | hla
          · exact ha top ho
          · rwa [List.mem_singleton.mp hla]
      · exact ⟨_, [], (List.append_nil _).symm, rfl, fun _ hm => absurd hm List.not_mem_nil⟩
      · have hz : (run cfg calls).streaks symbol = 0 := by
          refine Nat.eq_zero_of_not_pos fun hp => hr ?_
          exact hc calls call [] rfl hu symbol hp
        rw [hz]
        exact ⟨_, [], (List.append_nil _).symm, rfl, fun _ hm => absurd hm List.not_mem_nil⟩

theorem InLastTops.mono {count fewer : ℕ} (hin : InLastTops cfg calls symbol count)
    (hle : fewer ≤ count) : InLastTops cfg calls symbol fewer := by
  obtain ⟨pre, recent, ht, hl, ha⟩ := hin
  refine ⟨pre ++ recent.take (count - fewer), recent.drop (count - fewer), ?_, ?_, ?_⟩
  · rw [List.append_assoc, List.take_append_drop, ht]
  · rw [List.length_drop, hl]
    exact Nat.sub_sub_self hle
  · exact fun top hm => ha top (List.mem_of_mem_drop hm)

/-- In a run whose snapshots lack no symbol with a streak, whatever is added is confirmed by
consecutive snapshots. -/
theorem confirmed_of_covered (cfg : MembershipSettings) (calls : List MembershipCall)
    (hcovered : CoveredRun cfg calls) : ConfirmedAdditions cfg calls := by
  rintro earlier call later rfl symbol ha
  cases hn : call.computedAt with
  | none =>
    rw [additions, hn] at ha
    exact absurd ha List.not_mem_nil
  | some now =>
    have hu : CoveredRun cfg (earlier ++ [call]) := fun pre other rest hsp hutc =>
      hcovered pre other (rest ++ later) (by
        rw [List.append_cons, hsp, List.append_assoc, List.cons_append]) hutc
    have hs := hu.streak symbol
    rw [run_concat, step, apply_streaks hn] at hs
    exact hs.mono (additions_streak hn ha)

end Runs

theorem symbolsOf_rankingOf (symbol : String) (minute : ℤ) :
    symbolsOf (rankingOf symbol minute).snapshot.ranking = [symbol] :=
  rfl

theorem confirmed_twice :
    additions onePlace (run onePlace [rankingOf "BTCUSDT" 0]) (rankingOf "BTCUSDT" 15) =
        ["BTCUSDT"] ∧
      ConfirmedAdditions onePlace [rankingOf "BTCUSDT" 0, rankingOf "BTCUSDT" 15] := by
  refine ⟨by decide, confirmed_of_covered _ _ ?_⟩
  intro earlier call later hsp _ symbol hp
  have hf : run onePlace [] = new := rfl
  have hs : (run onePlace [rankingOf "BTCUSDT" 0]).streaks symbol =
      nextStreaks (rankingOf "BTCUSDT" 0).snapshot.ranking 1 (fun _ => 0) symbol :=
    congrFun (apply_streaks rfl) symbol
  obtain ⟨rfl, hr⟩ | ⟨rest, rfl, hr⟩ := List.cons_eq_append_iff.mp hsp
  · rw [hf] at hp
    exact absurd hp (lt_irrefl 0)
  · obtain ⟨rfl, hl⟩ | ⟨others, rfl, hn⟩ := List.cons_eq_append_iff.mp hr
    · obtain ⟨rfl, -⟩ := List.cons.inj hl
      rw [hs, nextStreaks, symbolsOf_rankingOf] at hp
      rw [symbolsOf_rankingOf]
      by_contra hother
      rw [if_neg hother] at hp
      exact lt_irrefl 0 hp
    · simp at hn

theorem returning_symbol_added : ¬∀ (cfg : MembershipSettings) (calls : List MembershipCall),
      (∀ call ∈ calls, ∃ ins, rankUniverse sampleLn ins = .ok call.snapshot) →
      ConfirmedAdditions cfg calls := by
  intro hc
  have hr : ∀ call ∈ [rankingOf "BTCUSDT" 0, rankingOf "ETHUSDT" 15, rankingOf "BTCUSDT" 30],
      ∃ ins, rankUniverse sampleLn ins = .ok call.snapshot := by
    intro call hmem
    simp only [List.mem_cons, List.not_mem_nil, or_false] at hmem
    rcases hmem with rfl | rfl | rfl <;> exact rankingOf_ranked _ _
  obtain ⟨pre, recent, hto, hl, ha⟩ := hc onePlace _ hr
    [rankingOf "BTCUSDT" 0, rankingOf "ETHUSDT" 15] (rankingOf "BTCUSDT" 30) [] rfl
    "BTCUSDT" (by decide)
  have ht : [["BTCUSDT"]] ++ [["ETHUSDT"], ["BTCUSDT"]] = pre ++ recent := hto
  obtain ⟨-, rfl⟩ := List.append_inj' ht hl.symm
  have hm := ha ["ETHUSDT"] List.mem_cons_self
  exact absurd hm (by decide)

end Members

end AiQuant.Universe
