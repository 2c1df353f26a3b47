import AiQuant.Lib.DecimalContext
import AiQuant.Universe.Ranking
import Mathlib.Algebra.Order.Monoid.WithTop
import Mathlib.Data.Finset.Sort
import Mathlib.Logic.Function.Basic

/-! The symbols that are traded, with hysteresis (`universe/membership.py`).  A controller counts
for how many rankings in a row a symbol was in the raw top, and since when each active symbol has
been active. -/
namespace AiQuant.Universe
open AiQuant.Lib

/-- The arguments of the constructor; durations are microseconds. -/
structure MembershipSettings where
  size : ℕ
  minimumResidence : ℤ
  replacementMargin : ℚ
  confirmations : ℕ

/-- The state of a controller.  A symbol without a streak has the streak 0. -/
structure Members where
  active : List String
  enteredAt : String → Option ℤ
  streaks : String → ℕ

def Members.new : Members := ⟨[], fun _ => none, fun _ => 0⟩

/-- The arguments of `apply`; `computedAt` is `none` for a `datetime` without the offset of UTC. -/
structure MembershipCall where
  snapshot : UniverseSnapshot
  computedAt : Option ℤ
  immediatelyIneligible : Finset String
  managedPositions : Finset String

structure MembershipView where
  active : List String
  standby : List String
  managedPositions : List String
  reducedPoolAlert : Bool

/-- How `apply` raises. -/
inductive MembershipError where
  | notUtc
  | keyError (symbol : String)

def MembershipError.text : MembershipError → String
  | notUtc => "computed_at must be timezone-aware UTC"
  | keyError symbol => symbol

section Ranking

variable (ranking : List UniverseRank)

/-- The keys of the dictionaries `score` and `order`. -/
def symbolsOf : List String := ranking.map UniverseRank.symbol

/-- `score.get(symbol, Decimal("-Infinity"))` -/
def scoreOf (symbol : String) : WithBot ℚ :=
  match ranking.reverse.find? fun rank => rank.symbol = symbol with
  | some rank => (rank.score : WithBot ℚ)
  | none => ⊥

/-- `score.get(symbol, Decimal("-Infinity")) + self.replacement_margin`; the scores have more digits
than the context keeps of the sum. -/
def scoreToBeat (margin : ℚ) (symbol : String) : WithBot ℚ :=
  (scoreOf ranking symbol).map fun score => decimalContext.round (score + margin)

/-- `order.get(symbol, 10**9)` -/
def orderOf (symbol : String) : ℕ :=
  if symbol ∈ symbolsOf ranking then
    ranking.length - 1 - (symbolsOf ranking).reverse.idxOf symbol
  else 10 ^ 9

def rawTop (size : ℕ) : List String := symbolsOf (ranking.take size)

def nextStreaks (size : ℕ) (streaks : String → ℕ) (symbol : String) : ℕ :=
  if symbol ∈ symbolsOf ranking then
    if symbol ∈ rawTop ranking size then streaks symbol + 1 else 0
  else streaks symbol

def WeakerOrSame (left right : String) : Prop :=
  toLex (scoreOf ranking left, left) ≤ toLex (scoreOf ranking right, right)

instance : DecidableRel (WeakerOrSame ranking) := fun left right =>
  inferInstanceAs (Decidable (toLex (scoreOf ranking left, left) ≤
    toLex (scoreOf ranking right, right)))

def RankedBefore (left right : String) : Prop :=
  toLex (orderOf ranking left, left) ≤ toLex (orderOf ranking right, right)

instance : DecidableRel (RankedBefore ranking) := fun left right =>
  inferInstanceAs (Decidable (toLex (orderOf ranking left, left) ≤
    toLex (orderOf ranking right, right)))

end Ranking

theorem symbols_trans : IsTrans String (· ≤ ·) := inferInstance

theorem symbols_antisymm : Std.Antisymm (α := String) (· ≤ ·) := inferInstance

theorem symbols_total : Std.Total (α := String) (· ≤ ·) := inferInstance

namespace Members

variable (settings : MembershipSettings) (ranking : List UniverseRank) (now : ℤ)

def enter (members : Members) (symbol : String) : Members :=
  { members with
    active := members.active ++ [symbol]
    enteredAt := Function.update members.enteredAt symbol (some now) }

def replace (members : Members) (incumbent challenger : String) : Members :=
  { members with
    active := members.active.erase incumbent ++ [challenger]
    enteredAt := Function.update (Function.update members.enteredAt incumbent none) challenger
      (some now) }

def refresh (members : Members) (ineligible : Finset String) : Members :=
  { members with
    active := members.active.filter (· ∉ ineligible)
    streaks := nextStreaks ranking settings.size members.streaks }

def fill (ineligible : Finset String) (members : Members) : List String → Members
  | [] => members
  | symbol :: rest =>
    if settings.size ≤ members.active.length then members
    else if symbol ∉ ineligible ∧ symbol ∉ members.active ∧
        settings.confirmations ≤ members.streaks symbol then
      fill ineligible (members.enter now symbol) rest
    else fill ineligible members rest

def challenge (members : Members) :
    List String → List String → Except MembershipError Unit × Members
  | [], _ => (.ok (), members)
  | _ :: _, [] => (.ok (), members)
  | challenger :: rest, incumbent :: others =>
    match members.enteredAt incumbent with
    | none => (.error (.keyError incumbent), members)
    | some residentSince =>
      if now - residentSince < settings.minimumResidence then
        challenge members rest (incumbent :: others)
      else if settings.confirmations ≤ members.streaks challenger ∧
          scoreToBeat ranking settings.replacementMargin incumbent ≤ scoreOf ranking challenger then
        challenge (members.replace now incumbent challenger) rest others
      else challenge members rest (incumbent :: others)

def replaceWeakest (ineligible : Finset String) (members : Members) :
    Except MembershipError Unit × Members :=
  if settings.size ≤ members.active.length then
    members.challenge settings ranking now
      ((rawTop ranking settings.size).filter fun symbol =>
        symbol ∉ members.active ∧ symbol ∉ ineligible)
      (members.active.insertionSort (WeakerOrSame ranking))
  else (.ok (), members)

def sorted (members : Members) : Members :=
  { members with active := members.active.insertionSort (RankedBefore ranking) }

def view (members : Members) (call : MembershipCall) : MembershipView where
  active := members.active
  standby := (symbolsOf ((call.snapshot.ranking.drop settings.size).take 5)).filter
    (· ∉ call.immediatelyIneligible)
  managedPositions := @Finset.sort String (call.managedPositions \ members.active.toFinset)
    (· ≤ ·) _ symbols_trans symbols_antisymm symbols_total
  reducedPoolAlert := members.active.length < settings.size

def apply (members : Members) (call : MembershipCall) :
    Except MembershipError MembershipView × Members :=
  match call.computedAt with
  | none => (.error .notUtc, members)
  | some now =>
    let ranking := call.snapshot.ranking
    let refreshed := members.refresh settings ranking call.immediatelyIneligible
    let filled := refreshed.fill settings now call.immediatelyIneligible
      (rawTop ranking settings.size)
    match filled.replaceWeakest settings ranking now call.immediatelyIneligible with
    | (.error code, interrupted) => (.error code, interrupted)
    | (.ok (), replaced) =>
      (.ok ((replaced.sorted ranking).view settings call), replaced.sorted ranking)

variable {settings ranking now} {members : Members} {ineligible : Finset String}

/-- What filling the free places makes of the members. -/
structure Filled (settings : MembershipSettings) (now : ℤ) (ineligible : Finset String)
    (symbols : List String) (members after : Members) (entered : List String) : Prop where
  active_eq : after.active = members.active ++ entered
  streaks_eq : after.streaks = members.streaks
  enteredAt_eq : ∀ symbol, after.enteredAt symbol =
    if symbol ∈ entered then some now else members.enteredAt symbol
  nodup : (members.active ++ entered).Nodup
  length_le : (members.active ++ entered).length ≤ settings.size
  admitted : ∀ symbol ∈ entered, symbol ∈ symbols ∧ symbol ∉ ineligible ∧
    settings.confirmations ≤ members.streaks symbol

theorem filled_nil {symbols : List String} (hn : members.active.Nodup)
    (hl : members.active.length ≤ settings.size) :
    Filled settings now ineligible symbols members members [] where
  active_eq := (List.append_nil _).symm
  streaks_eq := rfl
  enteredAt_eq sym := (if_neg List.not_mem_nil).symm
  nodup := by rwa [List.append_nil]
  length_le := by rwa [List.append_nil]
  admitted _ hmem := absurd hmem List.not_mem_nil

theorem enter_enteredAt (members : Members) (now : ℤ) (sym other : String) :
    (members.enter now sym).enteredAt other =
      if other = sym then some now else members.enteredAt other :=
  Function.update_apply _ _ _ _

theorem fill_filled (symbols : List String) (hn : members.active.Nodup)
    (hle : members.active.length ≤ settings.size) :
    ∃ entered, Filled settings now ineligible symbols members
      (members.fill settings now ineligible symbols) entered := by
  induction symbols generalizing members with
  | nil => exact ⟨[], filled_nil hn hle⟩
  | cons sym rest ih =>
    rw [fill]
    split_ifs with hfu had
    · exact ⟨[], filled_nil hn hle⟩
    · obtain ⟨he, hnew, hc⟩ := had
      have hen : (members.enter now sym).active.Nodup :=
        hn.append (List.nodup_singleton sym) (List.disjoint_singleton.mpr hnew)
      have hr : (members.enter now sym).active.length ≤ settings.size := by
        show (members.active ++ [sym]).length ≤ settings.size
        rw [List.length_append]
        exact not_le.mp hfu
      obtain ⟨entered, hf⟩ := ih hen hr
      have ha : (members.enter now sym).active ++ entered =
          members.active ++ sym :: entered := List.append_cons _ _ _ |>.symm
      refine ⟨sym :: entered, hf.active_eq.trans ha, hf.streaks_eq,
        fun other => ?_, ha ▸ hf.nodup, ha ▸ hf.length_le,
        fun other hm => ?_⟩
      · rw [hf.enteredAt_eq, enter_enteredAt]
        by_cases hl : other ∈ entered
        · rw [if_pos hl, if_pos (List.mem_cons_of_mem sym hl)]
        · simp only [if_neg hl, List.mem_cons, or_iff_left hl]
      · rcases List.mem_cons.mp hm with rfl | hl
        · exact ⟨List.mem_cons_self, he, hc⟩
        · obtain ⟨hs, ho⟩ := hf.admitted other hl
          exact ⟨List.mem_cons_of_mem sym hs, ho⟩
    · obtain ⟨entered, hf⟩ := ih hn hle
      exact ⟨entered, { hf with
        admitted := fun other hm => ⟨List.mem_cons_of_mem sym (hf.admitted other hm).1,
          (hf.admitted other hm).2⟩ }⟩

structure Beats (settings : MembershipSettings) (ranking : List UniverseRank) (now : ℤ)
    (members : Members) (incumbent challenger : String) : Prop where
  resident : ∃ since, members.enteredAt incumbent = some since ∧
    settings.minimumResidence ≤ now - since
  confirmed : settings.confirmations ≤ members.streaks challenger
  margin : scoreToBeat ranking settings.replacementMargin incumbent ≤ scoreOf ranking challenger

/-- What the replacements `swaps` make of the members. -/
structure Swapped (settings : MembershipSettings) (ranking : List UniverseRank) (now : ℤ)
    (challengers incumbents : List String) (members after : Members)
    (swaps : List (String × String)) : Prop where
  mem_iff : ∀ symbol, symbol ∈ after.active ↔
    symbol ∈ members.active ∧ symbol ∉ swaps.map Prod.fst ∨ symbol ∈ swaps.map Prod.snd
  nodup : after.active.Nodup
  length_eq : after.active.length = members.active.length
  streaks_eq : after.streaks = members.streaks
  enteredAt_eq : ∀ symbol, after.enteredAt symbol =
    if symbol ∈ swaps.map Prod.snd then some now
    else if symbol ∈ swaps.map Prod.fst then none
    else members.enteredAt symbol
  incumbents_sub : List.Sublist (swaps.map Prod.fst) incumbents
  challengers_sub : List.Sublist (swaps.map Prod.snd) challengers
  beats : ∀ swap ∈ swaps, Beats settings ranking now members swap.1 swap.2

theorem swapped_nil {challengers incumbents : List String} (hn : members.active.Nodup) :
    Swapped settings ranking now challengers incumbents members members [] where
  mem_iff sym := by simp
  nodup := hn
  length_eq := rfl
  streaks_eq := rfl
  enteredAt_eq sym := by simp
  incumbents_sub := List.nil_sublist _
  challengers_sub := List.nil_sublist _
  beats _ hmem := absurd hmem List.not_mem_nil

theorem replace_enteredAt (members : Members) (now : ℤ) (incumbent challenger sym : String) :
    (members.replace now incumbent challenger).enteredAt sym =
      if sym = challenger then some now
      else if sym = incumbent then none
      else members.enteredAt sym := by
  show Function.update _ _ _ _ = _
  rw [Function.update_apply, Function.update_apply]

theorem Swapped.cons {challengers incumbents : List String} {post : Members}
    {swaps : List (String × String)} {incumbent challenger : String}
    (hs : Swapped settings ranking now challengers incumbents
      (members.replace now incumbent challenger) post swaps)
    (hn : members.active.Nodup) (hi : incumbent ∈ members.active)
    (hnew : ∀ sym ∈ challenger :: challengers, sym ∉ members.active)
    (ho : ∀ sym ∈ incumbents, sym ∈ members.active ∧ sym ≠ incumbent)
    (hl : challenger ∉ challengers) (hb : Beats settings ranking now members incumbent challenger) :
    Swapped settings ranking now (challenger :: challengers) (incumbent :: incumbents) members
      post ((incumbent, challenger) :: swaps) := by
  have hc := hnew challenger List.mem_cons_self
  have hf : ∀ sym ∈ swaps.map Prod.fst, sym ∈ members.active ∧ sym ≠ incumbent :=
    fun sym hmem => ho sym (hs.incumbents_sub.subset hmem)
  refine ⟨fun sym => ?_, hs.nodup, ?_, hs.streaks_eq, fun sym => ?_,
    hs.incumbents_sub.cons_cons _, hs.challengers_sub.cons_cons _, fun swap hmem => ?_⟩
  · have ha : sym ∈ (members.replace now incumbent challenger).active ↔
        sym ∈ members.active ∧ sym ≠ incumbent ∨ sym = challenger := by
      show sym ∈ members.active.erase incumbent ++ [challenger] ↔ _
      rw [List.mem_append, hn.mem_erase_iff, List.mem_singleton, and_comm]
    have hk : sym = challenger → sym ∉ swaps.map Prod.fst := by
      rintro rfl hmem
      exact hc (hf _ hmem).1
    rw [hs.mem_iff, ha, List.map_cons, List.map_cons, List.mem_cons, List.mem_cons]
    tauto
  · rw [hs.length_eq]
    show (members.active.erase incumbent ++ [challenger]).length = _
    rw [List.length_append, List.length_erase_of_mem hi, List.length_singleton]
    exact Nat.sub_add_cancel (List.length_pos_of_mem hi)
  · simp only [hs.enteredAt_eq, replace_enteredAt, List.map_cons, List.mem_cons]
    have hk : sym = challenger → sym ∉ swaps.map Prod.fst := by
      rintro rfl hmem
      exact hc (hf _ hmem).1
    split_ifs <;> tauto
  · rcases List.mem_cons.mp hmem with rfl | hre
    · exact hb
    · obtain ⟨⟨since, hsi, hr⟩, hco, hm⟩ := hs.beats swap hre
      have hold := hf swap.1 (List.mem_map_of_mem hre)
      have hne : swap.1 ≠ challenger := fun heq => hc (heq ▸ hold.1)
      refine ⟨⟨since, ?_, hr⟩, hco, hm⟩
      rw [← hsi, replace_enteredAt, if_neg hne, if_neg hold.2]

theorem challenge_swapped (challengers incumbents : List String) (hn : members.active.Nodup)
    (hch : challengers.Nodup) (hi : incumbents.Nodup)
    (hnew : ∀ sym ∈ challengers, sym ∉ members.active)
    (hold : ∀ sym ∈ incumbents, sym ∈ members.active)
    (he : ∀ sym ∈ incumbents, ∃ since, members.enteredAt sym = some since) :
    ∃ post swaps, members.challenge settings ranking now challengers incumbents = (.ok (), post) ∧
      Swapped settings ranking now challengers incumbents members post swaps := by
  induction challengers generalizing members incumbents with
  | nil => exact ⟨members, [], rfl, swapped_nil hn⟩
  | cons challenger rest ih =>
    obtain ⟨hl, hr⟩ := List.nodup_cons.mp hch
    have hnewR : ∀ sym ∈ rest, sym ∉ members.active := fun sym hm =>
      hnew sym (List.mem_cons_of_mem challenger hm)
    have hsk : ∀ incumbents : List String, incumbents.Nodup →
        (∀ sym ∈ incumbents, sym ∈ members.active) →
        (∀ sym ∈ incumbents, ∃ since, members.enteredAt sym = some since) →
        ∃ post swaps, members.challenge settings ranking now rest incumbents = (.ok (), post) ∧
          Swapped settings ranking now (challenger :: rest) incumbents members post swaps := by
      intro incumbents hi hold he
      obtain ⟨post, swaps, hrun, hs⟩ :=
        ih incumbents hn hr hi hnewR hold he
      exact ⟨post, swaps, hrun, { hs with
        challengers_sub := hs.challengers_sub.cons challenger }⟩
    cases incumbents with
    | nil => exact ⟨members, [], rfl, swapped_nil hn⟩
    | cons incumbent others =>
      obtain ⟨since, hsi⟩ := he incumbent List.mem_cons_self
      rw [challenge, hsi]
      dsimp only
      split_ifs with hf hb
      · exact hsk _ hi hold he
      · obtain ⟨hout, hot⟩ := List.nodup_cons.mp hi
        have hac := hold incumbent List.mem_cons_self
        have hc := hnew challenger List.mem_cons_self
        have ho : ∀ sym ∈ others, sym ∈ members.active ∧ sym ≠ incumbent :=
          fun sym hm => ⟨hold sym (List.mem_cons_of_mem incumbent hm),
            fun heq => hout (heq ▸ hm)⟩
        have ha : ∀ sym, sym ∈ (members.replace now incumbent challenger).active ↔
            sym ∈ members.active.erase incumbent ∨ sym = challenger := by
          intro sym
          show sym ∈ members.active.erase incumbent ++ [challenger] ↔ _
          rw [List.mem_append, List.mem_singleton]
        have hno : (members.replace now incumbent challenger).active.Nodup :=
          (hn.erase incumbent).append (List.nodup_singleton challenger)
            (List.disjoint_singleton.mpr fun hm => hc (List.mem_of_mem_erase hm))
        have hnewA : ∀ sym ∈ rest, sym ∉ (members.replace now incumbent challenger).active := by
          intro sym hm hin
          rcases (ha sym).mp hin with hk | rfl
          · exact hnewR sym hm (List.mem_of_mem_erase hk)
          · exact hl hm
        have hol : ∀ sym ∈ others, sym ∈ (members.replace now incumbent challenger).active := by
          intro sym hm
          obtain ⟨hin, hne⟩ := ho sym hm
          exact (ha sym).mpr (Or.inl ((List.mem_erase_of_ne hne).mpr hin))
        have hen : ∀ sym ∈ others, ∃ since,
            (members.replace now incumbent challenger).enteredAt sym = some since := by
          intro sym hm
          obtain ⟨hin, hne⟩ := ho sym hm
          have hnot : sym ≠ challenger := fun heq => hc (heq ▸ hin)
          rw [replace_enteredAt, if_neg hnot, if_neg hne]
          exact he sym (List.mem_cons_of_mem incumbent hm)
        obtain ⟨post, swaps, hrun, hs⟩ :=
          ih others hno hr hot hnewA hol hen
        exact ⟨post, (incumbent, challenger) :: swaps, hrun, hs.cons hn hac hnew
          ho hl ⟨⟨since, hsi, not_lt.mp hf⟩, hb.1, hb.2⟩⟩
      · exact hsk _ hi hold he

end Members

end AiQuant.Universe
