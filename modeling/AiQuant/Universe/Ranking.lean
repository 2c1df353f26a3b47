import AiQuant.Lib.Midrank
import Mathlib.Algebra.BigOperators.Ring.List
import Mathlib.Data.List.Sort
import Mathlib.Data.Prod.Lex
import Mathlib.Data.Rat.Floor
import Mathlib.Data.String.Basic
import Mathlib.Tactic.NormNum
import Mathlib.Tactic.Positivity

/-! The scores of a universe of symbols (`universe/ranking.py`).  Decimals are exact rationals; the
logarithm is a parameter, of which nothing is used.  Symbols are compared by code points, which is
how their UTF-8 bytes compare. -/
namespace AiQuant.Universe
open AiQuant.Lib

inductive Component where
  | liquidity | depth | spread | activity | completeness

/-- The order of `WEIGHTS`. -/
def components : List Component := [.liquidity, .depth, .spread, .activity, .completeness]

/-- `WEIGHTS` -/
def Component.weight : Component → ℚ
  | liquidity => 30 / 100
  | depth => 30 / 100
  | spread => 20 / 100
  | activity => 10 / 100
  | completeness => 10 / 100

/-- The inputs that `__post_init__` accepts. -/
structure UniverseInput where
  symbol : String
  quoteNotional15m : ℚ
  twapBidDepth10bps : ℚ
  twapAskDepth10bps : ℚ
  medianSpreadBps : ℚ
  tradeCount15m : ℕ
  inputCompletenessPct : ℚ
  notional_nonneg : 0 ≤ quoteNotional15m
  bidDepth_pos : 0 < twapBidDepth10bps
  askDepth_pos : 0 < twapAskDepth10bps
  spread_nonneg : 0 ≤ medianSpreadBps
  completeness_mem : 0 ≤ inputCompletenessPct ∧ inputCompletenessPct ≤ 100

structure ComponentEvidence where
  raw : ℚ
  q05 : ℚ
  q95 : ℚ
  winsorized : ℚ
  normalized : ℚ
  weighted : ℚ

structure UniverseRank where
  symbol : String
  score : ℚ
  components : Component → ComponentEvidence

structure UniverseSnapshot where
  ranking : List UniverseRank
  eligibleCount : ℕ
  reducedPoolAlert : Bool

inductive RankingError where
  | symbolsNotUnique

def RankingError.text : RankingError → String
  | symbolsNotUnique => "universe symbols must be unique"

def type7 (values : List ℚ) (probability : ℚ) : ℚ :=
  let ordered := values.insertionSort (· ≤ ·)
  if ordered.length = 1 then ordered.getD 0 0
  else
    let h := ((ordered.length : ℚ) - 1) * probability
    let lower := ⌊h⌋.toNat
    let fraction := h - lower
    let upper := min (lower + 1) (ordered.length - 1)
    (1 - fraction) * ordered.getD lower 0 + fraction * ordered.getD upper 0

/-- `min(max(value, q05), q95)` -/
def winsorize (values : List ℚ) (value : ℚ) : ℚ :=
  min (max value (type7 values (5 / 100))) (type7 values (95 / 100))

def percentile (values : List ℚ) (value : ℚ) : ℚ :=
  if values.length = 1 ∨ type7 values (5 / 100) = type7 values (95 / 100) then 1 / 2
  else midrank (values.map (winsorize values)) value / ((values.length : ℚ) - 1)

/-- The body of the second loop of `_normalize`. -/
def evidence (values : List ℚ) (raw : ℚ) : ComponentEvidence where
  raw := raw
  q05 := type7 values (5 / 100)
  q95 := type7 values (95 / 100)
  winsorized := winsorize values raw
  normalized := percentile values (winsorize values raw) * 100
  weighted := 0

/-- `_normalize`; the dictionaries are the lists of their items. -/
def normalize (rawBySymbol : List (String × ℚ)) : List (String × ComponentEvidence) :=
  rawBySymbol.map fun item => (item.1, evidence (rawBySymbol.map Prod.snd) item.2)

variable (ln : ℚ → ℚ)

def UniverseInput.raw (item : UniverseInput) : Component → ℚ
  | .liquidity => ln (1 + item.quoteNotional15m)
  | .depth => ln (1 + min item.twapBidDepth10bps item.twapAskDepth10bps)
  | .spread => -item.medianSpreadBps
  | .activity => ln (1 + item.tradeCount15m)
  | .completeness => item.inputCompletenessPct

def rawBySymbol (inputs : List UniverseInput) (component : Component) : List (String × ℚ) :=
  inputs.map fun item => (item.symbol, item.raw ln component)

/-- `normalized[name][symbol]`; a symbol that is missing would be a `KeyError`. -/
def evidenceOf (inputs : List UniverseInput) (symbol : String) (component : Component) :
    ComponentEvidence :=
  ((normalize (rawBySymbol ln inputs component)).lookup symbol).getD ⟨0, 0, 0, 0, 0, 0⟩

/-- The evidence of a rank: `weighted` is filled in. -/
def ComponentEvidence.withWeight (each : ComponentEvidence) (weight : ℚ) : ComponentEvidence :=
  { each with weighted := each.normalized * weight }

@[simp] theorem ComponentEvidence.withWeight_normalized (each : ComponentEvidence) (weight : ℚ) :
    (each.withWeight weight).normalized = each.normalized :=
  rfl

def rankOf (inputs : List UniverseInput) (item : UniverseInput) : UniverseRank where
  symbol := item.symbol
  score := components.foldl (fun score component =>
    score + (evidenceOf ln inputs item.symbol component).normalized * component.weight) 0
  components component :=
    (evidenceOf ln inputs item.symbol component).withWeight component.weight

/-- The key of `ranks.sort`. -/
def UniverseRank.key (rank : UniverseRank) : ℚ ×ₗ String :=
  toLex (-rank.score, rank.symbol)

def UniverseRank.Before (left right : UniverseRank) : Prop := left.key ≤ right.key

instance : DecidableRel UniverseRank.Before :=
  fun left right => inferInstanceAs (Decidable (left.key ≤ right.key))

instance : Std.Total UniverseRank.Before := ⟨fun left right => le_total left.key right.key⟩

instance : IsTrans UniverseRank UniverseRank.Before := ⟨fun _ _ _ => le_trans⟩

def rankUniverse (inputs : List UniverseInput) : Except RankingError UniverseSnapshot :=
  if inputs = [] then .ok ⟨[], 0, true⟩
  else if ¬(inputs.map UniverseInput.symbol).Nodup then .error .symbolsNotUnique
  else
    let ranks := (inputs.map (rankOf ln inputs)).insertionSort UniverseRank.Before
    .ok ⟨ranks, ranks.length, ranks.length < 10⟩

section Evidence

variable {values other : List ℚ} {raw larger : ℚ}

theorem insertionSort_perm (hp : values.Perm other) :
    values.insertionSort (· ≤ ·) = other.insertionSort (· ≤ ·) := by
  refine List.Perm.eq_of_pairwise (fun _ _ _ _ => le_antisymm)
    (List.pairwise_insertionSort _ values) (List.pairwise_insertionSort _ other) ?_
  exact ((List.perm_insertionSort _ values).trans hp).trans (List.perm_insertionSort _ other).symm

theorem type7_perm (hp : values.Perm other) (probability : ℚ) :
    type7 values probability = type7 other probability := by
  rw [type7, type7, insertionSort_perm hp]

theorem winsorize_perm (hp : values.Perm other) : winsorize values = winsorize other := by
  funext value
  rw [winsorize, winsorize, type7_perm hp, type7_perm hp]

theorem evidence_perm (hp : values.Perm other) (raw : ℚ) :
    evidence values raw = evidence other raw := by
  simp only [evidence, percentile, type7_perm hp, winsorize_perm hp, hp.length_eq,
    midrank_perm (hp.map (winsorize other))]

theorem winsorize_mono (hle : raw ≤ larger) : winsorize values raw ≤ winsorize values larger :=
  min_le_min (max_le_max hle le_rfl) le_rfl

theorem length_sub_one_pos (hmem : raw ∈ values) (hm : values.length ≠ 1) :
    (0 : ℚ) < values.length - 1 := by
  have hl : 1 < values.length := by
    have hp := List.length_pos_of_mem hmem
    omega
  exact sub_pos.mpr (Nat.one_lt_cast.mpr hl)

theorem percentile_mem (hm : raw ∈ values) : 0 ≤ percentile values (winsorize values raw) ∧
      percentile values (winsorize values raw) ≤ 1 := by
  rw [percentile]
  split_ifs with hf
  · exact ⟨by norm_num, by norm_num⟩
  · have hp := length_sub_one_pos hm (not_or.mp hf).1
    have hr := List.mem_map_of_mem (f := winsorize values) hm
    have hle := midrank_le hr
    rw [List.length_map] at hle
    exact ⟨div_nonneg (midrank_nonneg hr) hp.le, (div_le_one hp).mpr hle⟩

theorem percentile_mono (hl : larger ∈ values) (hle : raw ≤ larger) :
    percentile values (winsorize values raw) ≤ percentile values (winsorize values larger) := by
  rw [percentile, percentile]
  split_ifs with hf
  · exact le_rfl
  · have hp := length_sub_one_pos hl (not_or.mp hf).1
    exact div_le_div_of_nonneg_right
      (midrank_mono (winsorize_mono hle) (List.mem_map_of_mem hl)) hp.le

theorem sum_map_div_const (items : List ℚ) (rank : ℚ → ℚ) (divisor : ℚ) :
    (items.map fun item => rank item / divisor).sum = (items.map rank).sum / divisor := by
  simp only [div_eq_mul_inv, List.sum_map_mul_right]

theorem sum_percentile (values : List ℚ) :
    (values.map fun raw => percentile values (winsorize values raw)).sum = values.length / 2 := by
  by_cases hf : values.length = 1 ∨ type7 values (5 / 100) = type7 values (95 / 100)
  · have hh : (fun raw => percentile values (winsorize values raw)) = fun _ => (1 / 2 : ℚ) := by
      funext raw
      rw [percentile, if_pos hf]
    rw [hh, List.map_const', List.sum_replicate, nsmul_eq_mul, mul_one_div]
  · have hr : (fun raw => percentile values (winsorize values raw)) =
        fun raw => midrank (values.map (winsorize values)) (winsorize values raw) /
          ((values.length : ℚ) - 1) := by
      funext raw
      rw [percentile, if_neg hf]
    have hs := sum_midrank (values.map (winsorize values))
    rw [List.map_map, List.length_map] at hs
    rw [hr, sum_map_div_const values
      (fun raw => midrank (values.map (winsorize values)) (winsorize values raw))]
    show (values.map (midrank (values.map (winsorize values)) ∘ winsorize values)).sum / _ = _
    rw [hs]
    cases values with
    | nil => simp
    | cons first rest =>
      have hp := length_sub_one_pos List.mem_cons_self (not_or.mp hf).1
      rw [div_right_comm, mul_div_assoc, div_self hp.ne', mul_one]

end Evidence

theorem lookup_map_of_nodup {α β : Type} {key : α → String} (value : α → β) {items : List α}
    {item : α} (hu : (items.map key).Nodup) (hm : item ∈ items) :
    (items.map fun item => (key item, value item)).lookup (key item) = some (value item) := by
  induction items with
  | nil => cases hm
  | cons first rest ih =>
    obtain ⟨hf, hr⟩ := List.nodup_cons.mp hu
    rw [List.map_cons, List.lookup_cons]
    rcases List.mem_cons.mp hm with rfl | hl
    · rw [beq_self_eq_true]
    · have hne : (key item == key first) = false := by
        rw [beq_eq_false_iff_ne]
        exact fun heq => hf (heq ▸ List.mem_map_of_mem hl)
      rw [hne]
      exact ih hr hl

section Universe

variable {ins other : List UniverseInput} {item : UniverseInput}

def rawValues (inputs : List UniverseInput) (component : Component) : List ℚ :=
  inputs.map fun item => item.raw ln component

variable {ln}

section

variable (hu : (ins.map UniverseInput.symbol).Nodup)
include hu

theorem evidenceOf_eq (hm : item ∈ ins) (component : Component) :
    evidenceOf ln ins item.symbol component =
      evidence (rawValues ln ins component) (item.raw ln component) := by
  have hv : (rawBySymbol ln ins component).map Prod.snd = rawValues ln ins component :=
    List.map_map
  have hi : normalize (rawBySymbol ln ins component) = ins.map fun item =>
      (item.symbol, evidence (rawValues ln ins component) (item.raw ln component)) := by
    rw [normalize, hv]
    exact List.map_map
  rw [evidenceOf, hi, lookup_map_of_nodup _ hu hm, Option.getD_some]

theorem rankOf_components (hm : item ∈ ins) (component : Component) :
    (rankOf ln ins item).components component =
      (evidence (rawValues ln ins component) (item.raw ln component)).withWeight component.weight :=
  congrArg (·.withWeight component.weight) (evidenceOf_eq hu hm component)

theorem rankOf_perm (hp : ins.Perm other) (hm : item ∈ ins) :
    rankOf ln ins item = rankOf ln other item := by
  have ho : (other.map UniverseInput.symbol).Nodup := (hp.map _).nodup hu
  have he : evidenceOf ln ins item.symbol = evidenceOf ln other item.symbol := by
    funext component
    rw [evidenceOf_eq hu hm, evidenceOf_eq ho (hp.subset hm)]
    exact evidence_perm (hp.map _) _
  rw [rankOf, rankOf, he]

end

def ranks (ln : ℚ → ℚ) (inputs : List UniverseInput) : List UniverseRank :=
  (inputs.map (rankOf ln inputs)).insertionSort UniverseRank.Before

theorem rankUniverse_eq (hne : ins ≠ []) (hu : (ins.map UniverseInput.symbol).Nodup) :
    rankUniverse ln ins =
      .ok ⟨ranks ln ins, (ranks ln ins).length, (ranks ln ins).length < 10⟩ := by
  rw [rankUniverse, if_neg hne, if_neg (not_not.mpr hu)]
  rfl

theorem ranks_perm_map (ln : ℚ → ℚ) (ins : List UniverseInput) :
    (ranks ln ins).Perm (ins.map (rankOf ln ins)) :=
  List.perm_insertionSort _ _

theorem mem_ranks {rank : UniverseRank} :
    rank ∈ ranks ln ins ↔ ∃ item ∈ ins, rankOf ln ins item = rank :=
  (ranks_perm_map ln ins).mem_iff.trans List.mem_map

theorem ranks_symbols (ln : ℚ → ℚ) (ins : List UniverseInput) :
    ((ranks ln ins).map UniverseRank.symbol).Perm (ins.map UniverseInput.symbol) := by
  refine ((ranks_perm_map ln ins).map UniverseRank.symbol).trans (List.Perm.of_eq ?_)
  exact List.map_map

variable {left right : UniverseRank}

theorem key_eq_iff :
    left.key = right.key ↔ left.score = right.score ∧ left.symbol = right.symbol := by
  rw [UniverseRank.key, UniverseRank.key, toLex_inj, Prod.mk.injEq, neg_inj]

theorem key_lt_iff : left.key < right.key ↔
    right.score < left.score ∨ left.score = right.score ∧ left.symbol < right.symbol := by
  rw [UniverseRank.key, UniverseRank.key, Prod.Lex.toLex_lt_toLex, neg_lt_neg_iff, neg_inj]

section

variable (hu : (ins.map UniverseInput.symbol).Nodup)
include hu

theorem eq_of_symbol_eq (hl : left ∈ ranks ln ins)
    (hr : right ∈ ranks ln ins) (hs : left.symbol = right.symbol) : left = right := by
  obtain ⟨first, hf, rfl⟩ := mem_ranks.mp hl
  obtain ⟨second, hse, rfl⟩ := mem_ranks.mp hr
  rw [List.inj_on_of_nodup_map hu hf hse hs]

theorem ranks_perm (hp : other.Perm ins) : ranks ln other = ranks ln ins := by
  have hr : other.map (rankOf ln other) = other.map (rankOf ln ins) :=
    List.map_congr_left fun item hm => (rankOf_perm hu hp.symm (hp.subset hm)).symm
  have hs : (ranks ln other).Perm (ranks ln ins) := by
    refine (ranks_perm_map ln other).trans (List.Perm.trans ?_ (ranks_perm_map ln ins).symm)
    rw [hr]
    exact hp.map _
  refine List.Perm.eq_of_pairwise (fun left right hl hri hle hge => ?_)
    (List.pairwise_insertionSort _ _) (List.pairwise_insertionSort _ _) hs
  exact eq_of_symbol_eq hu (hs.subset hl) hri (key_eq_iff.mp (le_antisymm hle hge)).2

theorem ranks_ordered : (ranks ln ins).Pairwise fun left right =>
      right.score < left.score ∨ left.score = right.score ∧ left.symbol < right.symbol := by
  have hs : ((ranks ln ins).map UniverseRank.symbol).Nodup :=
    (ranks_symbols ln ins).symm.nodup hu
  have hso : (ranks ln ins).Pairwise UniverseRank.Before :=
    List.pairwise_insertionSort _ _
  refine (hso.and (List.pairwise_map.mp hs)).imp fun hb => ?_
  rw [← key_lt_iff]
  exact lt_of_le_of_ne hb.1 fun heq => hb.2 (key_eq_iff.mp heq).2

end

structure Balanced (evidences : List ComponentEvidence) : Prop where
  mem_range : ∀ each ∈ evidences, 0 ≤ each.normalized ∧ each.normalized ≤ 100
  mono : ∀ each ∈ evidences, ∀ other ∈ evidences, each.raw ≤ other.raw →
    each.normalized ≤ other.normalized
  eq_of_raw_eq : ∀ each ∈ evidences, ∀ other ∈ evidences, each.raw = other.raw →
    each.normalized = other.normalized
  average : (evidences.map ComponentEvidence.normalized).sum / evidences.length = 50

theorem Balanced.perm {evidences permuted : List ComponentEvidence} (hb : Balanced evidences)
    (hp : permuted.Perm evidences) : Balanced permuted where
  mem_range each hmem := hb.mem_range each (hp.subset hmem)
  mono each hmem other hother :=
    hb.mono each (hp.subset hmem) other (hp.subset hother)
  eq_of_raw_eq each hmem other hother :=
    hb.eq_of_raw_eq each (hp.subset hmem) other (hp.subset hother)
  average := by
    rw [(hp.map _).sum_eq, hp.length_eq]
    exact hb.average

theorem balanced_of_normalize {values : List ℚ} {evidences : List ComponentEvidence}
    (hne : values ≠ []) (hr : evidences.map ComponentEvidence.raw = values)
    (hn : ∀ each ∈ evidences, each.normalized = (evidence values each.raw).normalized) :
    Balanced evidences := by
  have hmem : ∀ each ∈ evidences, each.raw ∈ values := fun each he =>
    hr ▸ List.mem_map_of_mem he
  have hm : ∀ each ∈ evidences, ∀ other ∈ evidences, each.raw ≤ other.raw →
      each.normalized ≤ other.normalized := by
    intro each he other ho hle
    rw [hn each he, hn other ho]
    exact mul_le_mul_of_nonneg_right (percentile_mono (hmem other ho) hle) (by norm_num)
  refine ⟨fun each he => ?_, hm, fun each he other ho heq => ?_, ?_⟩
  · obtain ⟨hno, hle⟩ := percentile_mem (hmem each he)
    rw [hn each he]
    show 0 ≤ percentile values (winsorize values each.raw) * 100 ∧
      percentile values (winsorize values each.raw) * 100 ≤ 100
    constructor <;> linarith
  · exact le_antisymm (hm each he other ho heq.le) (hm other ho each he heq.ge)
  · have hs : (evidences.map ComponentEvidence.normalized).sum =
        (values.map fun raw => percentile values (winsorize values raw) * 100).sum := by
      rw [List.map_congr_left hn, ← hr, List.map_map]
      rfl
    have hl : evidences.length = values.length := by rw [← hr, List.length_map]
    have hp : (0 : ℚ) < values.length := Nat.cast_pos.mpr (List.length_pos_iff.mpr hne)
    rw [hs, List.sum_map_mul_right, sum_percentile, hl, div_eq_iff hp.ne']
    ring

theorem ranks_balanced (hne : ins ≠ []) (hu : (ins.map UniverseInput.symbol).Nodup)
    (component : Component) :
    Balanced ((ranks ln ins).map fun rank => rank.components component) := by
  refine Balanced.perm ?_ ((ranks_perm_map ln ins).map _)
  rw [List.map_map]
  refine balanced_of_normalize (List.map_eq_nil_iff.not.mpr hne :
    rawValues ln ins component ≠ []) ?_ ?_
  · rw [List.map_map]
    refine List.map_congr_left fun item hm => ?_
    exact congrArg ComponentEvidence.raw (rankOf_components hu hm component)
  · intro each he
    obtain ⟨item, hm, rfl⟩ := List.mem_map.mp he
    rw [Function.comp_apply, rankOf_components hu hm]
    rfl

theorem score_eq (item : UniverseInput) : (rankOf ln ins item).score =
    (components.map fun component =>
      ((rankOf ln ins item).components component).normalized * component.weight).sum := by
  simp only [rankOf, components, List.foldl_cons, List.foldl_nil, List.map_cons, List.map_nil,
    List.sum_cons, List.sum_nil, ComponentEvidence.withWeight_normalized]
  ring

theorem score_mem (hne : ins ≠ []) (hu : (ins.map UniverseInput.symbol).Nodup)
    {rank : UniverseRank} (hra : rank ∈ ranks ln ins) : 0 ≤ rank.score ∧ rank.score ≤ 100 := by
  have hr : ∀ component, 0 ≤ (rank.components component).normalized ∧
      (rank.components component).normalized ≤ 100 := fun component =>
    (ranks_balanced hne hu component).mem_range _ (List.mem_map_of_mem hra)
  obtain ⟨item, -, rfl⟩ := mem_ranks.mp hra
  have hl := hr .liquidity
  have hd := hr .depth
  have hs := hr .spread
  have ha := hr .activity
  have hc := hr .completeness
  rw [score_eq]
  simp only [components, List.map_cons, List.map_nil, List.sum_cons, List.sum_nil, Component.weight]
  constructor <;> linarith

/-- What a ranking promises of its inputs. -/
structure WellRanked (ln : ℚ → ℚ) (inputs : List UniverseInput) (snapshot : UniverseSnapshot) :
    Prop where
  symbols : (snapshot.ranking.map UniverseRank.symbol).Perm (inputs.map UniverseInput.symbol)
  raws : ∀ item ∈ inputs, ∃ rank ∈ snapshot.ranking, rank.symbol = item.symbol ∧
    ∀ component, (rank.components component).raw = item.raw ln component
  balanced : ∀ component, Balanced (snapshot.ranking.map fun rank => rank.components component)
  scores : ∀ rank ∈ snapshot.ranking, 0 ≤ rank.score ∧ rank.score ≤ 100
  ordered : snapshot.ranking.Pairwise fun left right =>
    right.score < left.score ∨ left.score = right.score ∧ left.symbol < right.symbol

/-- Every universe has one ranking, whatever the order of its inputs. -/
theorem ranking_well_behaved (ln : ℚ → ℚ) (ins : List UniverseInput) (hne : ins ≠ [])
    (hunique : (ins.map UniverseInput.symbol).Nodup) : ∃ snap, WellRanked ln ins snap ∧
      ∀ permuted : List UniverseInput, permuted.Perm ins → rankUniverse ln permuted = .ok snap := by
  refine ⟨⟨ranks ln ins, (ranks ln ins).length, (ranks ln ins).length < 10⟩, ?_, ?_⟩
  · refine ⟨ranks_symbols ln ins, fun item hm => ?_, ranks_balanced hne hunique,
      fun rank => score_mem hne hunique, ranks_ordered hunique⟩
    refine ⟨rankOf ln ins item, mem_ranks.mpr ⟨item, hm, rfl⟩, rfl, fun component => ?_⟩
    rw [rankOf_components hunique hm]
    rfl
  · intro permuted hp
    have hs : permuted ≠ [] := fun hn => hne (List.nil_perm.mp (hn ▸ hp))
    rw [rankUniverse_eq hs ((hp.map _).symm.nodup hunique), ranks_perm hunique hp]

theorem no_notional : (0 : ℚ) ≤ 0 := le_rfl

theorem unit_depth : (0 : ℚ) < 1 := one_pos

theorem unit_spread : (0 : ℚ) ≤ 1 := zero_le_one

theorem full_completeness : (0 : ℚ) ≤ 100 ∧ (100 : ℚ) ≤ 100 := by norm_num

def sampleInput (symbol : String) (spread completeness : ℚ) (hspread : 0 ≤ spread)
    (hcompleteness : 0 ≤ completeness ∧ completeness ≤ 100) : UniverseInput where
  symbol := symbol
  quoteNotional15m := 0
  twapBidDepth10bps := 1
  twapAskDepth10bps := 1
  medianSpreadBps := spread
  tradeCount15m := 1
  inputCompletenessPct := completeness
  notional_nonneg := no_notional
  bidDepth_pos := unit_depth
  askDepth_pos := unit_depth
  spread_nonneg := hspread
  completeness_mem := hcompleteness

def sampleInputs : List UniverseInput :=
  [sampleInput "BTCUSDT" 1 100 unit_spread full_completeness,
    sampleInput "ETHUSDT" 2 99 (by norm_num) (by norm_num)]

def sampleLn (value : ℚ) : ℚ :=
  if value = 1 then 0 else 6931471805599453094172321214581766 / 10 ^ 34

theorem sampleInputs_ranked : ∃ snap, WellRanked sampleLn sampleInputs snap ∧
    rankUniverse sampleLn sampleInputs.reverse = .ok snap := by
  obtain ⟨snap, hr, hp⟩ :=
    ranking_well_behaved sampleLn sampleInputs (List.cons_ne_nil _ _) (by decide)
  exact ⟨snap, hr, hp _ sampleInputs.reverse_perm⟩

end Universe

end AiQuant.Universe
