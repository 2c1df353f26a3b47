import AiQuant.CopyTrading.TrackerRun
import AiQuant.CopyTrading.StoredRows

/-! The in-memory tracker against the event log.  Both see the same batches of one
leader.  The log stores every row, a late one included; the tracker forgets the quantity
of a late row.  The log reads a quantity back with eighteen decimals; the tracker keeps it
as it was written, and the id of a signal takes the text of the difference.  They emit the
same signals as long as an order that was forgotten reports nothing more, and every
difference is written alike. -/
namespace AiQuant.CopyTrading
open AiQuant.Lib

/-- An explicit row of a forgotten order is below the watermark too, and reports no more
than the order's first row.  Where an explicit row grows, its delta is written alike whether
the previous quantity is taken as its row wrote it or from the column. -/
structure RowAgrees (baseline before : List PublicLeaderOrder) (order : PublicLeaderOrder) :
    Prop where
  forgotten : order.positionSide ≠ .both → ∀ first, ForgottenFirst baseline before first →
    first.identityKey = order.identityKey →
    order.updateTimeMs < watermarkOf (baseline ++ before) ∧
      order.executedQuantity ≤ first.executedQuantity
  written : order.positionSide ≠ .both → ¬ ArrivesLate (baseline ++ before) order →
    reachedQuantity order.identityKey (baseline ++ before) < order.executedQuantity →
    LeaderOrderTracker.deltaExponent order
        (reachedWritten order.identityKey (baseline ++ before)) =
      storedDeltaExponent order (reachedQuantity order.identityKey (baseline ++ before))

structure Forgets (rows : List PublicLeaderOrder) (tracker : LeaderOrderTracker)
    (first : PublicLeaderOrder) : Prop where
  previous : tracker.previous first.identityKey = 0
  reached : reachedQuantity first.identityKey rows = first.executedQuantity
  older : ∀ row ∈ rows, row.identityKey = first.identityKey → row.updateTimeMs < watermarkOf rows

structure Remembers (baseline before : List PublicLeaderOrder) (tracker : LeaderOrderTracker) :
    Prop where
  processed : LeaderOrderTracker.Processed (baseline ++ before) tracker
  derived : ∀ row ∈ baseline ++ before, row.KeysDerived
  counted : ∀ identityKey,
    (∀ first, ForgottenFirst baseline before first → first.identityKey ≠ identityKey) →
    tracker.written identityKey = reachedWritten identityKey (baseline ++ before)
  forgotten : ∀ first, ForgottenFirst baseline before first → first.positionSide ≠ .both →
    Forgets (baseline ++ before) tracker first

section Compare

variable {base pre later : List PublicLeaderOrder} {order first : PublicLeaderOrder}
  {tracker : LeaderOrderTracker}

section

variable (hr : Remembers base pre tracker)
include hr

theorem Remembers.seen_iff :
    order.eventKey ∈ tracker.seen ↔ ∃ row ∈ base ++ pre, row.eventKey = order.eventKey := by
  rw [hr.processed.seen]
  simp only [eq_comm]

section

variable (hd : order.KeysDerived)
include hd

theorem Remembers.concat (hc : (∀ first, ForgottenFirst base (pre ++ [order]) first →
        first.identityKey ≠ order.identityKey) → (tracker.next order).written order.identityKey =
        reachedWritten order.identityKey (base ++ pre ++ [order]))
    (hfo : ∀ first, ForgottenFirst base (pre ++ [order]) first →
      first.positionSide ≠ .both → first.identityKey = order.identityKey →
      Forgets (base ++ pre ++ [order]) (tracker.next order) first) :
    Remembers base (pre ++ [order]) (tracker.next order) := by
  have hw : watermarkOf (base ++ pre) ≤ watermarkOf (base ++ pre ++ [order]) := by
    rw [watermarkOf_concat]
    exact le_max_left _ _
  refine ⟨?_, ?_, ?_, ?_⟩
  · rw [← List.append_assoc]
    exact hr.processed.next hd.keyed
  · rw [← List.append_assoc]
    exact List.forall_mem_append.mpr ⟨hr.derived, List.forall_mem_singleton.mpr hd⟩
  · intro key hn
    rw [← List.append_assoc]
    by_cases hk : order.identityKey = key
    · subst hk
      exact hc hn
    · rw [LeaderOrderTracker.written_next_of_ne hk, reachedWritten_concat, if_neg hk]
      exact hr.counted key fun first hfi =>
        hn first (forgottenFirst_concat.mpr (Or.inl hfi))
  · intro first hfi he
    rw [← List.append_assoc]
    by_cases hk : order.identityKey = first.identityKey
    · exact hfo first hfi he hk.symm
    · have ho : ForgottenFirst base pre first := by
        rcases forgottenFirst_concat.mp hfi with ho | ⟨rfl, -⟩
        · exact ho
        · exact absurd rfl hk
      have hf := hr.forgotten first ho he
      refine ⟨?_, ?_, ?_⟩
      · rw [LeaderOrderTracker.previous, LeaderOrderTracker.written_next_of_ne hk]
        exact hf.previous
      · rw [reachedQuantity_concat, if_neg hk]
        exact hf.reached
      · intro row hm hi
        rcases List.mem_append.mp hm with hm | hm
        · exact (hf.older row hm hi).trans_le hw
        · rw [List.mem_singleton.mp hm] at hi
          exact absurd hi hk

theorem Remembers.step_known (hs : order.eventKey ∈ tracker.seen) :
    Remembers base (pre ++ [order]) (tracker.next order) ∧
      tracker.emits order = databaseEmits (base ++ pre) order ∧
      RowAgrees base pre order := by
  obtain ⟨row, hrow, hi, hq, ht⟩ :=
    hr.processed.exists_of_seen hd.keyed hs
  have hn : tracker.next order = tracker := by
    rw [LeaderOrderTracker.next, if_pos hs]
  have hre := reachedQuantity_concat_of_mem hrow hi hq
  have hle := le_reachedQuantity hrow
  rw [hi, hq] at hle
  have hold : ∀ first, ForgottenFirst base (pre ++ [order]) first ↔
      ForgottenFirst base pre first := by
    intro first
    rw [forgottenFirst_concat]
    constructor
    · rintro (hold | ⟨-, hl⟩)
      · exact hold
      · exact absurd hi (hl.1 row hrow)
    · exact Or.inl
  refine ⟨hr.concat hd ?_ ?_, ?_, ?_⟩
  · intro hno
    rw [hn, reachedWritten_concat_of_mem hrow hi hq]
    exact hr.counted _ fun first hfi => hno first ((hold first).mpr hfi)
  · intro first hfi he hk
    have hf := hr.forgotten first ((hold first).mp hfi) he
    have holder := hf.older row hrow (hi.trans hk.symm)
    have hw : watermarkOf (base ++ pre ++ [order]) = watermarkOf (base ++ pre) := by
      rw [watermarkOf_concat, ← ht, max_eq_left holder.le]
    refine ⟨?_, ?_, ?_⟩
    · rw [hn]
      exact hf.previous
    · rw [hre]
      exact hf.reached
    · rw [hw]
      intro other hm ho
      rcases List.mem_append.mp hm with hm | hm
      · exact hf.older other hm ho
      · rw [List.mem_singleton.mp hm, ← ht]
        exact holder
  · rw [LeaderOrderTracker.emits, if_pos (Or.inl hs), databaseEmits,
      if_pos (Or.inl (hr.seen_iff.mp hs))]
  · refine ⟨fun he first hfi hk => ?_, fun _ _ hg => absurd hg (not_lt.mpr hle)⟩
    have hsi := (hr.derived first (List.mem_append_right _ hfi.mem)).side_eq hd hk
    have hf := hr.forgotten first hfi (hsi ▸ he)
    rw [← hk, hf.reached] at hle
    rw [← ht]
    exact ⟨hf.older row hrow (hi.trans hk.symm), hle⟩

theorem Remembers.step_counted (hf : order.eventKey ∉ tracker.seen)
    (hn : ∀ first, ForgottenFirst base pre first → first.identityKey ≠ order.identityKey) :
    Remembers base (pre ++ [order]) (tracker.next order) ∧
      (tracker.emits order = databaseEmits (base ++ pre) order ↔ RowAgrees base pre order) := by
  have hw := hr.counted order.identityKey hn
  have hp : tracker.previous order.identityKey =
      reachedQuantity order.identityKey (base ++ pre) := by
    rw [LeaderOrderTracker.previous, hw, reachedWritten_value]
  have hla := hr.processed.isLate_iff hp
  have hnew : ¬ ∃ row ∈ base ++ pre, row.eventKey = order.eventKey :=
    fun hk => hf (hr.seen_iff.mpr hk)
  refine ⟨hr.concat hd ?_ ?_, ?_⟩
  · intro hn
    have ho : ¬ tracker.isLate order = true := fun hl =>
      hn order (forgottenFirst_concat.mpr (Or.inr ⟨rfl, hla.mp hl⟩)) rfl
    rw [LeaderOrderTracker.next, if_neg hf, if_neg ho, LeaderOrderTracker.written_count, hw,
      reachedWritten_concat, if_pos rfl]
  · intro first hfi he hkey
    rcases forgottenFirst_concat.mp hfi with hold | ⟨rfl, ha⟩
    · exact absurd hkey (hn first hold)
    have hz := reachedQuantity_eq_zero_iff.mpr ha.1
    refine ⟨?_, ?_, ?_⟩
    · rw [LeaderOrderTracker.next, if_neg hf, if_pos (hla.mpr ha)]
      exact hp.trans hz
    · rw [reachedQuantity_concat, if_pos rfl, hz, max_eq_right first.executedQuantity_pos.le]
    · intro row hm hi
      rw [watermarkOf_concat]
      rcases List.mem_append.mp hm with hm | hm
      · exact absurd hi (ha.1 row hm)
      · rw [List.mem_singleton.mp hm]
        exact lt_max_of_lt_left ha.2
  · have hno : (∀ first, ForgottenFirst base pre first → first.identityKey = order.identityKey →
        order.updateTimeMs < watermarkOf (base ++ pre) ∧
          order.executedQuantity ≤ first.executedQuantity) :=
      fun first hfi hkey => absurd hkey (hn first hfi)
    rw [LeaderOrderTracker.emits, databaseEmits, hp, hw]
    simp only [hla, hf, hnew, false_or]
    by_cases ha : ArrivesLate (base ++ pre) order
    · rw [if_pos ha, if_pos ha]
      exact iff_of_true rfl ⟨fun _ => hno, fun _ hn => absurd ha hn⟩
    · rw [if_neg ha, if_neg ha, emission_eq_iff (reachedQuantity_nonneg _ _)]
      exact ⟨fun he => ⟨fun _ => hno, fun hb _ hg => he hg hb⟩,
        fun he hg hb => he.written hb ha hg⟩

theorem Remembers.step_both (hb : order.positionSide = .both)
    (hf : ForgottenFirst base pre first) (hk : first.identityKey = order.identityKey) :
    Remembers base (pre ++ [order]) (tracker.next order) ∧
      tracker.emits order = databaseEmits (base ++ pre) order ∧
      RowAgrees base pre order := by
  have hs : ∀ prev exp, 0 ≤ prev → emission order prev exp = [] :=
    fun prev exp hn => (emission_eq_nil_iff order hn).mpr (Or.inr hb)
  refine ⟨hr.concat hd ?_ ?_, ?_, fun he => absurd hb he, fun he => absurd hb he⟩
  · intro hno
    exact absurd hk (hno first (forgottenFirst_concat.mpr (Or.inl hf)))
  · intro other ho he hi
    have hsi : other.positionSide = order.positionSide := by
      rcases forgottenFirst_concat.mp ho with hold | ⟨rfl, -⟩
      · exact (hr.derived other (List.mem_append_right _ hold.mem)).side_eq hd hi
      · rfl
    exact absurd (hsi.trans hb) he
  · rw [LeaderOrderTracker.emits, databaseEmits, hs _ _ (hr.processed.sound.previous_nonneg _),
      hs _ _ (reachedQuantity_nonneg _ _), ite_self, ite_self]

theorem Remembers.step_forgotten (hfr : order.eventKey ∉ tracker.seen)
    (he : order.positionSide ≠ .both) (hf : ForgottenFirst base pre first)
    (hkey : first.identityKey = order.identityKey) :
    (RowAgrees base pre order → Remembers base (pre ++ [order]) (tracker.next order)) ∧
      (tracker.emits order = databaseEmits (base ++ pre) order ↔ RowAgrees base pre order) := by
  have hm := List.mem_append_right base hf.mem
  have hs : ∀ other, ForgottenFirst base pre other →
      other.identityKey = order.identityKey → Forgets (base ++ pre) tracker other := by
    intro other ho hi
    have hside := (hr.derived other (List.mem_append_right _ ho.mem)).side_eq hd hi
    exact hr.forgotten other ho (hside ▸ he)
  have hfo := hs first hf hkey
  have hp : tracker.previous order.identityKey = 0 := hkey ▸ hfo.previous
  have hre : reachedQuantity order.identityKey (base ++ pre) =
      first.executedQuantity := hkey ▸ hfo.reached
  have hla : tracker.isLate order = true ↔ order.updateTimeMs < watermarkOf (base ++ pre) := by
    rw [LeaderOrderTracker.isLate, Bool.and_eq_true, Option.isNone_iff_eq_none,
      hr.processed.sound.lookup_eq_none_iff, hp, decide_eq_true_eq,
      hr.processed.maximum, and_iff_right rfl]
  -- every forgotten first row of the order reports the same quantity
  have ha : RowAgrees base pre order ↔ order.updateTimeMs < watermarkOf (base ++ pre) ∧
        order.executedQuantity ≤ first.executedQuantity := by
    constructor
    · exact fun hrow => hrow.forgotten he first hf hkey
    · intro hrow
      refine ⟨fun _ other ho hi => ?_, fun _ _ hg => absurd (hre ▸ hg) (not_lt.mpr hrow.2)⟩
      have hq := (hs other ho hi).reached
      rw [hi, hre] at hq
      rwa [← hq]
  have hk : ¬ ArrivesLate (base ++ pre) order := fun hla => hla.1 first hm hkey
  refine ⟨fun hrow => hr.concat hd ?_ ?_, ?_⟩
  · intro hn
    exact absurd hkey (hn first (forgottenFirst_concat.mpr (Or.inl hf)))
  · intro other ho _ hi
    obtain ⟨holder, hle⟩ := ha.mp hrow
    have hold : ForgottenFirst base pre other :=
      (forgottenFirst_concat.mp ho).resolve_right fun hnew => hk hnew.2
    have ho := hs other hold hi
    refine ⟨?_, ?_, ?_⟩
    · rw [LeaderOrderTracker.next, if_neg hfr, if_pos (hla.mpr holder)]
      exact ho.previous
    · rw [hi, reachedQuantity_concat, if_pos rfl, hre, max_eq_left hle, ← hre, ← hi]
      exact ho.reached
    · rw [watermarkOf_concat, max_eq_left holder.le]
      intro row hrow hro
      rcases List.mem_append.mp hrow with hrow | hrow
      · exact ho.older row hrow hro
      · rw [List.mem_singleton.mp hrow]
        exact holder
  · have hnew : ¬ ∃ row ∈ base ++ pre, row.eventKey = order.eventKey :=
      fun hev => hfr (hr.seen_iff.mpr hev)
    rw [ha, databaseEmits, if_neg (not_or.mpr ⟨hnew, hk⟩), hre, LeaderOrderTracker.emits, hp]
    set written := LeaderOrderTracker.deltaExponent order (tracker.written order.identityKey)
    by_cases holder : order.updateTimeMs < watermarkOf (base ++ pre)
    · rw [if_pos (Or.inr (hla.mpr holder)), and_iff_right holder, eq_comm,
        emission_eq_nil_iff order first.executedQuantity_pos.le, or_iff_left he]
    · rw [if_neg (not_or.mpr ⟨hfr, fun hl => holder (hla.mp hl)⟩)]
      refine iff_of_false (fun hsa => ?_) fun hrow => holder hrow.1
      -- the tracker emits the whole quantity, the log at most what is beyond the first row
      have hem : emission order 0 written ≠ [] := by
        rw [ne_eq, emission_eq_nil_iff order le_rfl, not_or, not_le]
        exact ⟨order.executedQuantity_pos, he⟩
      obtain ⟨sig, hsi⟩ := List.exists_mem_of_ne_nil _ hem
      have hw := (mem_emission hsi).2.2
      rw [(mem_emission (hsa ▸ hsi)).2.2] at hw
      exact first.executedQuantity_pos.ne' (sub_right_inj.mp hw)

theorem Remembers.step :
    (RowAgrees base pre order → Remembers base (pre ++ [order]) (tracker.next order)) ∧
      (tracker.emits order = databaseEmits (base ++ pre) order ↔ RowAgrees base pre order) := by
  by_cases hs : order.eventKey ∈ tracker.seen
  · obtain ⟨hn, he, ha⟩ := hr.step_known hd hs
    exact ⟨fun _ => hn, iff_of_true he ha⟩
  by_cases hfo : ∃ first, ForgottenFirst base pre first ∧
      first.identityKey = order.identityKey
  · obtain ⟨first, hf, hk⟩ := hfo
    by_cases hb : order.positionSide = .both
    · obtain ⟨hn, he, ha⟩ := hr.step_both hd hb hf hk
      exact ⟨fun _ => hn, iff_of_true he ha⟩
    · exact hr.step_forgotten hd hs hb hf hk
  · have hno : ∀ first, ForgottenFirst base pre first → first.identityKey ≠ order.identityKey :=
      fun first hf hk => hfo ⟨first, hf, hk⟩
    obtain ⟨hn, he⟩ := hr.step_counted hd hs hno
    exact ⟨fun _ => hn, he⟩

end

end

/-- Every row agrees with the rows before it. -/
def RowsAgree (baseline before later : List PublicLeaderOrder) : Prop :=
  ∀ earlier order after, later = earlier ++ order :: after →
    RowAgrees baseline (before ++ earlier) order

theorem rowsAgree_cons {rest : List PublicLeaderOrder} : RowsAgree base pre (order :: rest) ↔
      RowAgrees base pre order ∧ RowsAgree base (pre ++ [order]) rest := by
  constructor
  · intro ha
    constructor
    · have hf := ha [] order rest rfl
      rwa [List.append_nil] at hf
    · rintro earlier later post rfl
      have hl := ha (order :: earlier) later post rfl
      rwa [List.append_cons] at hl
  · rintro ⟨hf, hr⟩ earlier later post hs
    cases earlier with
    | nil =>
      cases hs
      rwa [List.append_nil]
    | cons head tail =>
      cases hs
      rw [List.append_cons]
      exact hr tail later post rfl

theorem rowsAgree_append {rest : List PublicLeaderOrder} : RowsAgree base pre (later ++ rest) ↔
      RowsAgree base pre later ∧ RowsAgree base (pre ++ later) rest := by
  induction later generalizing pre with
  | nil =>
    rw [List.nil_append, List.append_nil]
    exact ⟨fun hr => ⟨by simp [RowsAgree], hr⟩, fun hb => hb.2⟩
  | cons order more ih =>
    rw [List.cons_append, rowsAgree_cons, rowsAgree_cons, ih, and_assoc,
      List.append_cons pre order more]

theorem Remembers.foldl_next (hr : Remembers base pre tracker)
    (hd : ∀ row ∈ later, row.KeysDerived) (ha : RowsAgree base pre later) :
    Remembers base (pre ++ later) (later.foldl LeaderOrderTracker.next tracker) := by
  induction later generalizing pre tracker with
  | nil => rwa [List.append_nil]
  | cons order rest ih =>
    obtain ⟨hf, hre⟩ := rowsAgree_cons.mp ha
    have hn := (hr.step (hd order List.mem_cons_self)).1 hf
    rw [List.append_cons]
    exact ih hn (fun row hm => hd row (List.mem_cons_of_mem _ hm)) hre

theorem event_of_mem_emissions {sig : NormalizedSignal}
    (hm : sig ∈ tracker.emissions later) : sig.sourceEventKey ∉ tracker.seen := by
  induction later generalizing tracker with
  | nil => cases hm
  | cons order rest ih =>
    rcases List.mem_append.mp hm with hm | hm
    · unfold LeaderOrderTracker.emits at hm
      split at hm
      · cases hm
      · rename_i hfresh
        rw [(mem_emission hm).2.1]
        exact fun hs => hfresh (Or.inl hs)
    · exact fun hs => ih hm (LeaderOrderTracker.mem_seen_next order |>.mpr (Or.inl hs))

theorem event_of_mem_databaseEmissions {rows : List PublicLeaderOrder} {sig : NormalizedSignal}
    (hm : sig ∈ databaseEmissions rows later) :
    ∀ row ∈ rows, row.eventKey ≠ sig.sourceEventKey := by
  induction later generalizing rows with
  | nil => cases hm
  | cons order rest ih =>
    rcases List.mem_append.mp hm with hm | hm
    · unfold databaseEmits at hm
      split at hm
      · cases hm
      · rename_i hfresh
        rw [(mem_emission hm).2.1]
        exact fun row hrow he => hfresh (Or.inl ⟨row, hrow, he⟩)
    · exact fun row hrow => ih hm row (List.mem_append_left _ hrow)

theorem append_eq_append_of_pred {α : Type} {left left' right right' : List α} (keep : α → Bool)
    (hle : ∀ x ∈ left, keep x = true) (hl : ∀ x ∈ left', keep x = true)
    (hri : ∀ x ∈ right, keep x = false) (hr : ∀ x ∈ right', keep x = false)
    (heq : left ++ right = left' ++ right') : left = left' ∧ right = right' := by
  have hf := congrArg (List.filter keep) heq
  rw [List.filter_append, List.filter_append, List.filter_eq_self.mpr hle,
    List.filter_eq_self.mpr hl, List.filter_eq_nil_iff.mpr (by simpa using hri),
    List.filter_eq_nil_iff.mpr (by simpa using hr), List.append_nil, List.append_nil] at hf
  subst hf
  exact ⟨rfl, List.append_cancel_left heq⟩

theorem Remembers.emissions_eq_iff (hr : Remembers base pre tracker)
    (hd : ∀ row ∈ later, row.KeysDerived) :
    tracker.emissions later = databaseEmissions (base ++ pre) later ↔ RowsAgree base pre later := by
  induction later generalizing pre tracker with
  | nil => simp [LeaderOrderTracker.emissions, databaseEmissions, RowsAgree]
  | cons order rest ih =>
    obtain ⟨hn, he⟩ := hr.step (hd order List.mem_cons_self)
    have hre := fun ha => ih (hn ha)
      fun row hm => hd row (List.mem_cons_of_mem _ hm)
    rw [← List.append_assoc] at hre
    rw [LeaderOrderTracker.emissions, databaseEmissions, rowsAgree_cons]
    constructor
    · intro hs
      -- the signals of this row are those of its event
      obtain ⟨hf, hl⟩ := append_eq_append_of_pred (·.sourceEventKey = order.eventKey)
        (fun sig hm => by
          unfold LeaderOrderTracker.emits at hm
          split at hm
          · cases hm
          · simpa using (mem_emission hm).2.1)
        (fun sig hm => by
          unfold databaseEmits at hm
          split at hm
          · cases hm
          · simpa using (mem_emission hm).2.1)
        (fun sig hm => by
          have hu := event_of_mem_emissions hm
          rw [LeaderOrderTracker.mem_seen_next, not_or] at hu
          simpa using hu.2)
        (fun sig hm => by
          have ho := event_of_mem_databaseEmissions hm order
            (List.mem_append_right _ (List.mem_singleton_self _))
          simpa using ho.symm)
        hs
      have ha := he.mp hf
      exact ⟨ha, (hre ha).mp hl⟩
    · rintro ⟨ha, hl⟩
      rw [he.mpr ha, (hre ha).mpr hl]

theorem Remembers.outputs_eq_iff [HexOrder] (hr : Remembers base pre tracker)
    {batches : List (List PublicLeaderOrder)}
    (hd : ∀ row ∈ batches.flatMap sortedOrders, row.KeysDerived) :
    tracker.outputs batches = databaseOutputs (base ++ pre) batches ↔
      RowsAgree base pre (batches.flatMap sortedOrders) := by
  induction batches generalizing pre tracker with
  | nil => simp [LeaderOrderTracker.outputs, databaseOutputs, RowsAgree]
  | cons batch rest ih =>
    rw [List.flatMap_cons] at hd
    obtain ⟨hb, hre⟩ := List.forall_mem_append.mp hd
    rw [LeaderOrderTracker.outputs, databaseOutputs, List.cons.injEq, List.flatMap_cons,
      rowsAgree_append, hr.emissions_eq_iff hb]
    refine and_congr_right fun ha => ?_
    rw [List.append_assoc]
    exact ih (hr.foldl_next hb ha) hre

theorem remembers_prime (hd : ∀ row ∈ base, row.KeysDerived) :
    Remembers base [] (({} : LeaderOrderTracker).prime base) := by
  have hn : ∀ first, ¬ ForgottenFirst base [] first :=
    fun first hf => List.not_mem_nil hf.mem
  obtain ⟨hpr, hp⟩ :=
    LeaderOrderTracker.processed_prime fun row hm => (hd row hm).keyed
  refine ⟨?_, ?_, ?_, ?_⟩
  · rwa [List.append_nil]
  · rwa [List.append_nil]
  · intro key _
    rw [List.append_nil]
    exact hp key
  · intro first hf
    exact absurd hf (hn first)

end Compare

section Late

open LeaderOrderTracker (longRow longDocument)

/-- The update times differ, so digests are never compared. -/
local instance lateHexOrder : HexOrder := ⟨fun _ => 0⟩

theorem longRow_derived {executedQty : Decimal} {orderTime orderUpdateTime : ℤ}
    (hok : (PublicLeaderOrder.fromApi "1"
      (longDocument executedQty orderTime orderUpdateTime)).isOk = true) :
    (longRow executedQty orderTime orderUpdateTime hok).KeysDerived :=
  PublicLeaderOrder.derived_of_fromApi (eq_ok_okValue hok)

theorem liveRows_of_explicit {leader : String} {base later : List PublicLeaderOrder}
    (hd : ∀ row ∈ later, row.KeysDerived) (hl : ∀ row ∈ later, row.leadPortfolioId = leader)
    (he : ∀ row ∈ base ++ later, row.positionSide ≠ .both) : LiveRows leader base [] later := by
  refine ⟨hd, hl, ?_⟩
  rintro earlier order post rfl ⟨-, -, row, hrow, hb, -⟩
  refine he row ?_ hb
  rcases hrow with hrow | hrow
  · exact List.mem_append_left _ hrow
  · exact List.mem_append_right _ (List.mem_append_left _ hrow.mem)

def selectedRow : PublicLeaderOrder := longRow 1 1000 1000
  LeaderOrderTracker.longDocument_accepted
def lateRow : PublicLeaderOrder := longRow 1 500 500 (by decide)
def lateAgain : PublicLeaderOrder := longRow 1 500 600 (by decide)
def lateGrown : PublicLeaderOrder := longRow 3 500 2000 (by decide)
theorem nextDocument_accepted :
    (PublicLeaderOrder.fromApi "1" (longDocument 2 3000 3000)).isOk = true := by decide

def nextRow : PublicLeaderOrder := longRow 2 3000 3000 nextDocument_accepted
def nextSignal : NormalizedSignal :=
  okValue (NormalizedSignal.fromOrder nextRow 2 0) (by decide)

theorem untouchedBy_empty (leader : String) : ({} : EventLog).UntouchedBy leader where
  resets _ hm := by cases hm
  sourceOrders _ hm := by cases hm
  emitted _ hm := by cases hm

end Late

end AiQuant.CopyTrading
