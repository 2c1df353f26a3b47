import AiQuant.Archive.Retention
import AiQuant.Lib.GreedyPrefix
import Mathlib.Data.String.Basic

/-! The plan of `plan_verified_deletions` as a whole.  The first loop takes what is too old; the
second one goes on in the same order while too many bytes are left, so that nothing younger is
deleted before something older and nothing is deleted without need. -/
namespace AiQuant.Archive
open AiQuant.Lib

/-- The bytes that are left after deleting `selected`. -/
def bytesLeft (candidates selected : List RetentionCandidate) : Int :=
  ((candidates.filter fun item =>
    item.path ∉ selected.map RetentionCandidate.path).map RetentionCandidate.sizeBytes).sum

/-! ### When there is a plan -/

/-- The candidates' times can be compared with the cutoff. -/
structure ComparesTimes (candidates : List RetentionCandidate) (now : Moment) (maximumAge : Int) :
    Prop where
  aware : ∀ item ∈ candidates, item.modifiedAt.utcOffset.isSome = true
  cutoff : candidates = [] ∨ datetimeRepresents (now.microseconds - maximumAge) = true

theorem comparisonError_eq_none_iff {cands : List RetentionCandidate} {now : Moment}
    {maximumAge : Int} : comparisonError cands now maximumAge = none ↔
      ComparesTimes cands now maximumAge := by
  have hn : false ∈ cands.map (fun item => item.modifiedAt.utcOffset.isSome) ↔
      ¬ ∀ item ∈ cands, item.modifiedAt.utcOffset.isSome = true := by
    simp
  unfold comparisonError
  dsimp only
  split_ifs with hm hc hf
  · simp only [false_iff]
    exact fun ht => hn.mp hm.2 ht.aware
  · simp only [false_iff]
    rintro ⟨-, he | hr⟩
    · exact hc.1 (List.map_eq_nil_iff.mpr he)
    · exact hc.2 hr
  · simp only [false_iff]
    exact fun ht => hn.mp hf ht.aware
  · simp only [true_iff]
    rw [not_and_or, not_not, not_not, List.map_eq_nil_iff] at hc
    exact ⟨not_not.mp fun hnot => hf (hn.mpr hnot), hc⟩

/-! ### The order of deletion -/

instance : Std.Total RetentionCandidate.Before where
  total left right := by
    rcases lt_trichotomy left.modifiedAt.microseconds right.modifiedAt.microseconds with
      hless | hsame | hless
    · exact .inl (.inl hless)
    · rcases le_total left.path right.path with hpath | hpath
      · exact .inl (.inr ⟨hsame, hpath⟩)
      · exact .inr (.inr ⟨hsame.symm, hpath⟩)
    · exact .inr (.inl hless)

instance : IsTrans RetentionCandidate RetentionCandidate.Before where
  trans first second third := by
    rintro (hless | ⟨hsame, hpath⟩) (hless' | ⟨hsame', hpath'⟩)
    · exact .inl (hless.trans hless')
    · exact .inl (hsame' ▸ hless)
    · exact .inl (hsame ▸ hless')
    · exact .inr ⟨hsame.trans hsame', hpath.trans hpath'⟩

/-! ### The second loop -/

def pending (remotelyVerified : Finset String) (selected items : List RetentionCandidate) :
    List RetentionCandidate :=
  items.filter fun item =>
    item.path ∈ remotelyVerified ∧ item.path ∉ selected.map RetentionCandidate.path

section Loop

variable {remotelyVerified : Finset String} {maximumBytes remainingBytes : Int}
  {cands items selected taken : List RetentionCandidate} {item : RetentionCandidate}

theorem mem_pending : item ∈ pending remotelyVerified selected items ↔
    item ∈ items ∧ item.path ∈ remotelyVerified ∧
      item.path ∉ selected.map RetentionCandidate.path := by
  rw [pending, List.mem_filter, decide_eq_true_eq]

theorem pending_append_of_not_mem (hf : item.path ∉ items.map RetentionCandidate.path) :
    pending remotelyVerified (selected ++ [item]) items =
      pending remotelyVerified selected items := by
  apply List.filter_congr
  intro other ho
  have hne : other.path ≠ item.path := fun hs =>
    hf (hs ▸ List.mem_map_of_mem ho)
  simp [hne]

theorem selectOldest_eq (hpa : (items.map RetentionCandidate.path).Nodup) :
    selectOldest remotelyVerified maximumBytes items selected remainingBytes =
      selected ++ takeWhileOver RetentionCandidate.sizeBytes maximumBytes
        (pending remotelyVerified selected items) remainingBytes := by
  induction items generalizing selected remainingBytes with
  | nil => exact (List.append_nil selected).symm
  | cons first rest ih =>
    rw [List.map_cons, List.nodup_cons] at hpa
    rw [selectOldest]
    split_ifs with he ht
    · rw [takeWhileOver_of_le he, List.append_nil]
    · have hp : pending remotelyVerified selected (first :: rest) =
          first :: pending remotelyVerified selected rest :=
        List.filter_cons_of_pos (decide_eq_true_iff.mpr ht)
      rw [ih hpa.2, pending_append_of_not_mem hpa.1, hp, takeWhileOver,
        if_neg he, List.append_assoc, List.singleton_append]
    · have hp : pending remotelyVerified selected (first :: rest) =
          pending remotelyVerified selected rest :=
        List.filter_cons_of_neg fun hpass => ht (decide_eq_true_iff.mp hpass)
      rw [ih hpa.2, hp]

theorem bytesLeft_concat (hp : (cands.map RetentionCandidate.path).Nodup)
    (hm : item ∈ cands) (hf : item.path ∉ selected.map RetentionCandidate.path) :
    bytesLeft cands (selected ++ [item]) = bytesLeft cands selected - item.sizeBytes := by
  unfold bytesLeft
  induction cands with
  | nil => exact absurd hm List.not_mem_nil
  | cons first rest ih =>
    rw [List.map_cons, List.nodup_cons] at hp
    rcases List.mem_cons.mp hm with rfl | hr
    · have ho : (rest.filter fun other =>
          other.path ∉ (selected ++ [item]).map RetentionCandidate.path) =
          rest.filter fun other => other.path ∉ selected.map RetentionCandidate.path := by
        apply List.filter_congr
        intro other hot
        have hne : other.path ≠ item.path := fun hsa =>
          hp.1 (hsa ▸ List.mem_map_of_mem hot)
        simp [hne]
      rw [List.filter_cons_of_neg (by simp), ho, List.filter_cons_of_pos (by simpa using hf),
        List.map_cons, List.sum_cons, add_sub_cancel_left]
    · have hne : first.path ≠ item.path := fun hsa =>
        hp.1 (hsa ▸ List.mem_map_of_mem hr)
      have ha := ih hp.2 hr
      by_cases hs : first.path ∈ selected.map RetentionCandidate.path
      · rw [List.filter_cons_of_neg (by simp [hs]), List.filter_cons_of_neg (by simp [hs])]
        exact ha
      · rw [List.filter_cons_of_pos (by simpa [hne] using hs),
          List.filter_cons_of_pos (by simpa using hs), List.map_cons, List.map_cons,
          List.sum_cons, List.sum_cons, ha, add_sub_assoc]

theorem bytesLeft_append (hp : (cands.map RetentionCandidate.path).Nodup)
    (hm : ∀ item ∈ taken, item ∈ cands)
    (hf : ((selected ++ taken).map RetentionCandidate.path).Nodup) :
    bytesLeft cands (selected ++ taken) =
      bytesLeft cands selected - (taken.map RetentionCandidate.sizeBytes).sum := by
  induction taken generalizing selected with
  | nil => rw [List.append_nil, List.map_nil, List.sum_nil, sub_zero]
  | cons first rest ih =>
    obtain ⟨hfi, hr⟩ := List.forall_mem_cons.mp hm
    rw [List.append_cons] at hf ⊢
    have hn : first.path ∉ selected.map RetentionCandidate.path := by
      rw [List.map_append, List.nodup_append] at hf
      have hs := hf.1
      rw [List.map_append, List.map_singleton, List.nodup_append] at hs
      exact fun hin => hs.2.2 _ hin _ (List.mem_singleton.mpr rfl) rfl
    rw [ih hr hf, bytesLeft_concat hp hfi hn, List.map_cons, List.sum_cons, sub_sub]

theorem bytesLeft_perm (hp : items.Perm cands) :
    bytesLeft items selected = bytesLeft cands selected :=
  ((hp.filter _).map _).sum_eq

end Loop

/-! ### The plan -/

/-- A plan is safe and as small as it can be: it deletes what is verified and older than the
cutoff, then as many of the oldest other verified candidates as the bytes need. -/
structure RetentionLaws (candidates : List RetentionCandidate) (remotelyVerified : Finset String)
    (cutoff maximumBytes : Int) (aged bySize : List RetentionCandidate) : Prop where
  verified : ∀ item ∈ aged ++ bySize, item ∈ candidates ∧ item.path ∈ remotelyVerified
  once : ((aged ++ bySize).map RetentionCandidate.path).Nodup
  expired : ∀ item ∈ candidates, item.path ∈ remotelyVerified →
    (item ∈ aged ↔ item.modifiedAt.microseconds < cutoff)
  enough : bytesLeft candidates (aged ++ bySize) ≤ maximumBytes ∨
    ∀ item ∈ candidates, item.path ∈ remotelyVerified → item ∈ aged ++ bySize
  oldestFirst : bySize.Pairwise RetentionCandidate.Before
  oldest : ∀ item ∈ bySize, ∀ other ∈ candidates, other.path ∈ remotelyVerified →
    other ∉ aged ++ bySize → item.Before other
  needed : ∀ fewer newest more, bySize = fewer ++ newest :: more →
    maximumBytes < bytesLeft candidates (aged ++ fewer)

section Plan

variable {cands selected : List RetentionCandidate} {remotelyVerified : Finset String}
  {now : Moment} {maximumAge maximumBytes : Int}

def expiredCandidates (ordered : List RetentionCandidate) (remotelyVerified : Finset String)
    (cutoff : Int) : List RetentionCandidate :=
  ordered.filter fun item =>
    item.modifiedAt.microseconds < cutoff ∧ item.path ∈ remotelyVerified

theorem planVerifiedDeletions_eq_ok_iff :
    planVerifiedDeletions cands remotelyVerified now maximumAge maximumBytes = .ok selected ↔
      now.utcOffset = some 0 ∧ ComparesTimes cands now maximumAge ∧
        selectOldest remotelyVerified maximumBytes (cands.insertionSort RetentionCandidate.Before)
          (expiredCandidates (cands.insertionSort RetentionCandidate.Before)
            remotelyVerified (now.microseconds - maximumAge))
          (bytesLeft (cands.insertionSort RetentionCandidate.Before)
            (expiredCandidates (cands.insertionSort RetentionCandidate.Before)
              remotelyVerified (now.microseconds - maximumAge))) = selected := by
  rw [← comparisonError_eq_none_iff, planVerifiedDeletions]
  split_ifs with hu
  · simp [raise, hu]
  · rw [not_not] at hu
    cases hc : comparisonError cands now maximumAge with
    | some error => simp
    | none =>
      simp only [hu, true_and, Except.ok.injEq]
      exact Iff.rfl

variable {ordered : List RetentionCandidate} {cutoff : Int}

theorem mem_expiredCandidates {item : RetentionCandidate} :
    item ∈ expiredCandidates ordered remotelyVerified cutoff ↔
      item ∈ ordered ∧ item.modifiedAt.microseconds < cutoff ∧ item.path ∈ remotelyVerified := by
  rw [expiredCandidates, List.mem_filter, decide_eq_true_eq]

theorem mem_pending_of_not_expired
    {item : RetentionCandidate} (hp : (ordered.map RetentionCandidate.path).Nodup)
    (hm : item ∈ ordered) (hv : item.path ∈ remotelyVerified)
    (hk : item ∉ expiredCandidates ordered remotelyVerified cutoff) :
    item ∈ pending remotelyVerified (expiredCandidates ordered remotelyVerified cutoff)
      ordered := by
  refine mem_pending.mpr ⟨hm, hv, fun hpa => ?_⟩
  obtain ⟨other, ho, hs⟩ := List.mem_map.mp hpa
  have heq := List.inj_on_of_nodup_map hp (mem_expiredCandidates.mp ho).1 hm hs
  exact hk (heq ▸ ho)

theorem selectOldest_laws (hp : (ordered.map RetentionCandidate.path).Nodup)
    (hso : ordered.Pairwise RetentionCandidate.Before) :
    ∃ bySize, selectOldest remotelyVerified maximumBytes ordered
          (expiredCandidates ordered remotelyVerified cutoff)
          (bytesLeft ordered (expiredCandidates ordered remotelyVerified cutoff)) =
        expiredCandidates ordered remotelyVerified cutoff ++ bySize ∧
      RetentionLaws ordered remotelyVerified cutoff maximumBytes
        (expiredCandidates ordered remotelyVerified cutoff) bySize := by
  generalize hexpired : expiredCandidates ordered remotelyVerified cutoff = aged
  generalize hle : pending remotelyVerified aged ordered = left
  generalize ht : takeWhileOver RetentionCandidate.sizeBytes maximumBytes left
    (bytesLeft ordered aged) = bySize
  have ha : aged.Sublist ordered := by
    rw [← hexpired]
    exact List.filter_sublist
  have hpe : left.Sublist ordered := by
    rw [← hle]
    exact List.filter_sublist
  have hb : bySize <+: left := by
    rw [← ht]
    exact takeWhileOver_prefix
  have hfrom : ∀ item ∈ left, item ∈ ordered ∧ item.path ∈ remotelyVerified ∧
      item.path ∉ aged.map RetentionCandidate.path := by
    intro item hi
    rw [← hle] at hi
    exact mem_pending.mp hi
  have hon : ((aged ++ bySize).map RetentionCandidate.path).Nodup := by
    rw [List.map_append]
    refine ((ha.map _).nodup hp).append (((hb.sublist.trans hpe).map _).nodup hp) ?_
    intro path hpa hsi
    obtain ⟨item, hi, rfl⟩ := List.mem_map.mp hsi
    exact (hfrom item (hb.subset hi)).2.2 hpa
  have hr : ∀ item ∈ ordered, item.path ∈ remotelyVerified → item ∉ aged → item ∈ left := by
    intro item hi hv hk
    rw [← hexpired] at hk
    rw [← hle, ← hexpired]
    exact mem_pending_of_not_expired hp hi hv hk
  have hfr : ∀ fewer, fewer <+: bySize → bytesLeft ordered (aged ++ fewer) =
      bytesLeft ordered aged - (fewer.map RetentionCandidate.sizeBytes).sum := by
    intro fewer hf
    refine bytesLeft_append hp (fun item hi => ?_) (hon.sublist ?_)
    · exact (hfrom item (hb.subset (hf.subset hi))).1
    · exact (hf.sublist.append_left aged).map _
  refine ⟨bySize, ?_, ?_⟩
  · rw [selectOldest_eq hp, hle, ht]
  · exact {
      verified := by
        rw [List.forall_mem_append]
        refine ⟨fun item hi => ?_, fun item hi => ?_⟩
        · rw [← hexpired, mem_expiredCandidates] at hi
          exact ⟨hi.1, hi.2.2⟩
        · exact (hfrom item (hb.subset hi)).imp id And.left
      once := hon
      expired := by
        intro item hi hv
        rw [← hexpired, mem_expiredCandidates]
        exact ⟨fun hall => hall.2.1, fun hold => ⟨hi, hold, hv⟩⟩
      enough := by
        rw [hfr bySize List.prefix_rfl, ← ht]
        refine takeWhileOver_enough.imp id fun hall item hi hv => ?_
        rw [hall, List.mem_append]
        exact or_iff_not_imp_left.mpr (hr item hi hv)
      oldestFirst := hso.sublist (hb.sublist.trans hpe)
      oldest := by
        intro item hi other hot hv hk
        rw [List.mem_append, not_or] at hk
        obtain ⟨rest, hs⟩ := hb
        have hl := hr other hot hv hk.1
        rw [← hs, List.mem_append] at hl
        have ho := hso.sublist hpe
        rw [← hs, List.pairwise_append] at ho
        exact ho.2.2 item hi other (hl.resolve_left hk.2)
      needed := by
        intro fewer newest more hs
        rw [hfr fewer ⟨newest :: more, hs.symm⟩]
        exact takeWhileOver_needed (ht.trans hs) }

theorem RetentionLaws.perm {aged bySize : List RetentionCandidate} (hp : ordered.Perm cands)
    (hl : RetentionLaws ordered remotelyVerified cutoff maximumBytes aged bySize) :
    RetentionLaws cands remotelyVerified cutoff maximumBytes aged bySize where
  verified item hi := (hl.verified item hi).imp (fun hm => hp.subset hm) id
  once := hl.once
  expired item hi := hl.expired item (hp.symm.subset hi)
  enough := by
    rw [← bytesLeft_perm hp]
    exact hl.enough.imp id fun ha item hi => ha item (hp.symm.subset hi)
  oldestFirst := hl.oldestFirst
  oldest item hi other hother := hl.oldest item hi other (hp.symm.subset hother)
  needed fewer newest more hsplit := by
    rw [← bytesLeft_perm hp]
    exact hl.needed fewer newest more hsplit

/-- There is a plan exactly if the times can be compared, and every plan is safe and as small
as it can be. -/
theorem planVerifiedDeletions_safe_and_minimal (cands : List RetentionCandidate)
    (remotelyVerified : Finset String) (now : Moment) (maximumAge maximumBytes : Int)
    (hpaths : (cands.map RetentionCandidate.path).Nodup) :
    ((∃ selected, planVerifiedDeletions cands remotelyVerified now maximumAge maximumBytes =
        .ok selected) ↔ now.utcOffset = some 0 ∧ ComparesTimes cands now maximumAge) ∧
      ∀ selected, planVerifiedDeletions cands remotelyVerified now maximumAge maximumBytes =
          .ok selected → ∃ aged bySize, selected = aged ++ bySize ∧
          RetentionLaws cands remotelyVerified (now.microseconds - maximumAge) maximumBytes
            aged bySize := by
  have hp := List.perm_insertionSort RetentionCandidate.Before cands
  have ho : ((cands.insertionSort RetentionCandidate.Before).map
      RetentionCandidate.path).Nodup := (hp.map _).nodup_iff.mpr hpaths
  have hs := List.pairwise_insertionSort RetentionCandidate.Before cands
  obtain ⟨bySize, hl, hla⟩ := @selectOldest_laws remotelyVerified maximumBytes _
    (now.microseconds - maximumAge) ho hs
  simp only [planVerifiedDeletions_eq_ok_iff, hl]
  refine ⟨⟨?_, ?_⟩, ?_⟩
  · rintro ⟨selected, hu, hc, -⟩
    exact ⟨hu, hc⟩
  · rintro ⟨hu, hc⟩
    exact ⟨_, hu, hc, rfl⟩
  · rintro selected ⟨-, -, rfl⟩
    exact ⟨_, bySize, rfl, hla.perm hp⟩

end Plan

/-- Four files of ten bytes; the second and the third are not too old. -/
def sampleFiles : List RetentionCandidate :=
  [⟨"trades/2.parquet", 10, ⟨200, some 0⟩⟩, ⟨"trades/0.parquet", 10, ⟨0, some 0⟩⟩,
    ⟨"trades/1.parquet", 10, ⟨100, some 0⟩⟩, ⟨"trades/3.parquet", 10, ⟨100, some 0⟩⟩]

/-- One file is too old; of the others the oldest verified one is deleted for its bytes. -/
theorem sampleFiles_safe_and_minimal : ∃ aged bySize,
      [⟨"trades/0.parquet", 10, ⟨0, some 0⟩⟩, ⟨"trades/3.parquet", 10, ⟨100, some 0⟩⟩] =
          aged ++ bySize ∧
        RetentionLaws sampleFiles {"trades/0.parquet", "trades/2.parquet", "trades/3.parquet"}
          (1000 - 950) 20 aged bySize :=
  (planVerifiedDeletions_safe_and_minimal sampleFiles
    {"trades/0.parquet", "trades/2.parquet", "trades/3.parquet"} ⟨1000, some 0⟩ 950 20
    (by decide)).2 _ (by decide)

section Sweep

variable {cands selected : List RetentionCandidate} {remotelyVerified : Finset String}
  {now : Moment} {maximumAge maximumBytes : Int}

/-- The files that are there when the selected ones are deleted. -/
def afterSweep (candidates selected : List RetentionCandidate) : List RetentionCandidate :=
  candidates.filter (· ∉ selected)

theorem mem_afterSweep {item : RetentionCandidate} :
    item ∈ afterSweep cands selected ↔ item ∈ cands ∧ item ∉ selected := by
  simp [afterSweep]

theorem ComparesTimes.afterSweep (hc : ComparesTimes cands now maximumAge)
    (selected : List RetentionCandidate) :
    ComparesTimes (afterSweep cands selected) now maximumAge where
  aware item hi := hc.aware item (mem_afterSweep.mp hi).1
  cutoff := hc.cutoff.imp_left fun he => by simp [Archive.afterSweep, he]

theorem laws_of_plan (hp : (cands.map RetentionCandidate.path).Nodup)
    (hplan : planVerifiedDeletions cands remotelyVerified now maximumAge maximumBytes =
      .ok selected) : ∃ aged bySize, selected = aged ++ bySize ∧
      RetentionLaws cands remotelyVerified (now.microseconds - maximumAge) maximumBytes
        aged bySize := by
  have hperm := List.perm_insertionSort RetentionCandidate.Before cands
  have ho := (hperm.map RetentionCandidate.path).nodup_iff.mpr hp
  have hs := List.pairwise_insertionSort RetentionCandidate.Before cands
  obtain ⟨bySize, hl, hlaws⟩ := @selectOldest_laws remotelyVerified maximumBytes _
    (now.microseconds - maximumAge) ho hs
  obtain ⟨-, -, rfl⟩ := planVerifiedDeletions_eq_ok_iff.mp hplan
  exact ⟨_, bySize, hl, hlaws.perm hperm⟩

theorem nodup_afterSweep (hp : (cands.map RetentionCandidate.path).Nodup) :
    ((afterSweep cands selected).map RetentionCandidate.path).Nodup :=
  hp.sublist (List.filter_sublist.map _)

/-- Distinct paths tell the candidates apart, so a file stays exactly if its path does. -/
theorem bytesLeft_afterSweep (hp : (cands.map RetentionCandidate.path).Nodup)
    (hs : ∀ item ∈ selected, item ∈ cands) :
    bytesLeft (afterSweep cands selected) [] = bytesLeft cands selected := by
  unfold bytesLeft afterSweep
  rw [List.filter_filter]
  congr 2
  apply List.filter_congr
  intro item hi
  have hpath : item.path ∈ selected.map RetentionCandidate.path ↔ item ∈ selected := by
    refine ⟨fun hm => ?_, List.mem_map_of_mem⟩
    obtain ⟨other, ho, hsame⟩ := List.mem_map.mp hm
    exact List.inj_on_of_nodup_map hp (hs other ho) hi hsame ▸ ho
  simp [hpath]

/-- A sweep settles: on the files that it leaves, a plan with these arguments, or with any that
ask for no more, deletes nothing. -/
theorem retention_sweep_settles (hpaths : (cands.map RetentionCandidate.path).Nodup)
    (hplan : planVerifiedDeletions cands remotelyVerified now maximumAge maximumBytes =
      .ok selected) :
    planVerifiedDeletions (afterSweep cands selected) remotelyVerified now maximumAge
        maximumBytes = .ok [] ∧
      ∀ (verified : Finset String) (later : Moment) (age bytes : Int) again,
        verified ⊆ remotelyVerified →
        later.microseconds - age ≤ now.microseconds - maximumAge → maximumBytes ≤ bytes →
        planVerifiedDeletions (afterSweep cands selected) verified later age bytes =
          .ok again → again = [] := by
  obtain ⟨aged, bySize, hs, hl⟩ := laws_of_plan hpaths hplan
  have hsettles : ∀ (verified : Finset String) (later : Moment) (age bytes : Int) again,
      verified ⊆ remotelyVerified →
      later.microseconds - age ≤ now.microseconds - maximumAge → maximumBytes ≤ bytes →
      planVerifiedDeletions (afterSweep cands selected) verified later age bytes =
        .ok again → again = [] := by
    intro verified later age bytes again hverified hcutoff hbytes hagain
    obtain ⟨agedAgain, bySizeAgain, rfl, ha⟩ := laws_of_plan (nodup_afterSweep hpaths) hagain
    have hleft : ∀ item ∈ agedAgain ++ bySizeAgain, item ∈ cands ∧ item ∉ selected ∧
        item.path ∈ remotelyVerified := fun item hi => by
      obtain ⟨hm, hv⟩ := ha.verified item hi
      exact ⟨(mem_afterSweep.mp hm).1, (mem_afterSweep.mp hm).2, hverified hv⟩
    have hage : agedAgain = [] := by
      refine List.eq_nil_iff_forall_not_mem.mpr fun item hi => ?_
      obtain ⟨hm, hn, hv⟩ := hleft item (List.mem_append_left _ hi)
      have hold := (ha.expired item (ha.verified item (List.mem_append_left _ hi)).1
        (ha.verified item (List.mem_append_left _ hi)).2).mp hi
      exact hn (hs ▸ List.mem_append_left _ ((hl.expired item hm hv).mpr (hold.trans_le hcutoff)))
    subst hage
    cases hb : bySizeAgain with
    | nil => rfl
    | cons newest more =>
      -- what is left was either within the limit, or nothing of it was verified
      have hneeded := ha.needed [] newest more hb
      rw [List.append_nil, bytesLeft_afterSweep hpaths fun item hi =>
        (hl.verified item (hs ▸ hi)).1, hs] at hneeded
      obtain ⟨hm, hn, hv⟩ := hleft newest (by rw [hb]; simp)
      rcases hl.enough with he | he
      · exact absurd hneeded (not_lt.mpr (he.trans hbytes))
      · exact absurd (hs ▸ he newest hm hv) hn
  refine ⟨?_, hsettles⟩
  obtain ⟨hu, hc, -⟩ := planVerifiedDeletions_eq_ok_iff.mp hplan
  obtain ⟨again, hok⟩ : ∃ again, planVerifiedDeletions (afterSweep cands selected)
      remotelyVerified now maximumAge maximumBytes = .ok again :=
    ⟨_, planVerifiedDeletions_eq_ok_iff.mpr ⟨hu, hc.afterSweep selected, rfl⟩⟩
  rw [hok, hsettles _ _ _ _ _ (Finset.Subset.refl _) le_rfl le_rfl hok]

end Sweep

/-- Of the four files two are left. -/
theorem sampleFiles_settled : planVerifiedDeletions (afterSweep sampleFiles
        [⟨"trades/0.parquet", 10, ⟨0, some 0⟩⟩, ⟨"trades/3.parquet", 10, ⟨100, some 0⟩⟩])
      {"trades/0.parquet", "trades/2.parquet", "trades/3.parquet"} ⟨1000, some 0⟩ 950 20 = .ok [] :=
  (retention_sweep_settles (by decide) (by decide)).1

end AiQuant.Archive
