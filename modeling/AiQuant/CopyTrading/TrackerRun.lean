import AiQuant.CopyTrading.Normalization

/-! Whole histories of an in-memory tracker.  What it remembers is read off the rows it
has processed: their event keys, their newest update time and, for an identity whose
first row was not late, its largest quantity.  A snapshot keeps all of it. -/
namespace AiQuant.CopyTrading
open AiQuant.Lib

namespace LeaderOrderTracker

structure Agrees (left right : LeaderOrderTracker) : Prop where
  primed : left.primed = right.primed
  maximum : left.maximumUpdateTimeMs = right.maximumUpdateTimeMs
  lookup : ∀ identityKey,
    left.executed.lookup identityKey = right.executed.lookup identityKey
  seen : ∀ eventKey, eventKey ∈ left.seen ↔ eventKey ∈ right.seen

section Rebuild

variable {Key Value : Type} [DecidableEq Key]

variable {entries : List (Key × Value)}

theorem lookup_foldl_insert_of_notMem {key : Key}
    (hk : key ∉ entries.map (·.1)) (start : AList fun _ : Key => Value) :
    (entries.foldl (fun built entry => built.insert entry.1 entry.2) start).lookup key =
      start.lookup key := by
  induction entries generalizing start with
  | nil => rfl
  | cons entry rest ih =>
    rw [List.map_cons, List.mem_cons, not_or] at hk
    rw [List.foldl_cons, ih hk.2, AList.lookup_insert_ne hk.1]

theorem lookup_foldl_insert_of_mem {entry : Key × Value} (hm : entry ∈ entries)
    (hn : (entries.map (·.1)).Nodup) (start : AList fun _ : Key => Value) :
    (entries.foldl (fun built entry => built.insert entry.1 entry.2) start).lookup entry.1 =
      some entry.2 := by
  induction entries generalizing start with
  | nil => cases hm
  | cons first rest ih =>
    rw [List.map_cons, List.nodup_cons] at hn
    rw [List.foldl_cons]
    rcases List.mem_cons.mp hm with rfl | hm
    · rw [lookup_foldl_insert_of_notMem hn.1, AList.lookup_insert]
    · exact ih hm hn.2 _

theorem lookup_rebuild {alist : AList fun _ : Key => Value}
    (he : entries.Perm (alist.entries.map fun entry => (entry.1, entry.2))) (key : Key) :
    (entries.foldl (fun built entry => built.insert entry.1 entry.2)
      (∅ : AList fun _ : Key => Value)).lookup key = alist.lookup key := by
  have hk : (entries.map (·.1)).Nodup := by
    rw [(he.map _).nodup_iff, List.map_map]
    exact alist.nodupKeys
  cases hl : alist.lookup key with
  | none =>
    apply lookup_foldl_insert_of_notMem
    rw [(he.map _).mem_iff, List.map_map]
    exact AList.lookup_eq_none.mp hl
  | some value =>
    have hm : (key, value) ∈ entries := by
      rw [he.mem_iff, List.mem_map]
      exact ⟨⟨key, value⟩, AList.mem_lookup_iff.mp hl, rfl⟩
    exact lookup_foldl_insert_of_mem hm hk _

end Rebuild

section Restore

variable {left right : LeaderOrderTracker}

theorem agrees_ofState_snapshot [HexOrder] (tracker : LeaderOrderTracker) :
    Agrees (ofState (some tracker.snapshot)) tracker where
  primed := rfl
  maximum := rfl
  lookup := lookup_rebuild (List.perm_insertionSort _ _)
  seen eventKey := by
    show eventKey ∈ (tracker.seen.insertionSort _).dedup ↔ eventKey ∈ tracker.seen
    rw [List.mem_dedup, (List.perm_insertionSort _ _).mem_iff]

section

variable (ha : Agrees left right)
include ha

theorem Agrees.written_eq (key : Digest) : left.written key = right.written key := by
  rw [written, written, ha.lookup]

theorem Agrees.isLate_eq (ord : PublicLeaderOrder) : left.isLate ord = right.isLate ord := by
  rw [isLate, isLate, ha.lookup, ha.maximum]

theorem Agrees.sound (hs : right.Sound) : left.Sound := by
  intro key qty hl
  rw [ha.lookup] at hl
  exact hs key qty hl

theorem Agrees.see (eventKey : Digest) : Agrees (left.see eventKey) (right.see eventKey) where
  primed := ha.primed
  maximum := ha.maximum
  lookup := ha.lookup
  seen other := by
    show other ∈ left.seen.insert eventKey ↔ other ∈ right.seen.insert eventKey
    rw [List.mem_insert_iff, List.mem_insert_iff, ha.seen]

theorem Agrees.next (ord : PublicLeaderOrder) : Agrees (left.next ord) (right.next ord) := by
  unfold LeaderOrderTracker.next
  rw [ha.isLate_eq]
  by_cases hs : ord.eventKey ∈ right.seen
  · rw [if_pos ((ha.seen _).mpr hs), if_pos hs]
    exact ha
  rw [if_neg fun hl => hs ((ha.seen _).mp hl), if_neg hs]
  split
  · exact ha.see _
  · refine ⟨ha.primed, ?_, ?_, (ha.see ord.eventKey).seen⟩
    · show max left.maximumUpdateTimeMs _ = max right.maximumUpdateTimeMs _
      rw [ha.maximum]
    · intro key
      rw [lookup_count, lookup_count, ha.lookup, ha.written_eq]

theorem Agrees.emits_eq (ord : PublicLeaderOrder) : left.emits ord = right.emits ord := by
  unfold emits previous
  simp only [ha.seen, ha.isLate_eq, ha.written_eq]

theorem Agrees.emissions_eq (rows : List PublicLeaderOrder) :
    left.emissions rows = right.emissions rows := by
  induction rows generalizing left right with
  | nil => rfl
  | cons ord rest ih =>
    rw [emissions, emissions, ha.emits_eq, ih (ha.next ord)]

theorem Agrees.foldl_next (rows : List PublicLeaderOrder) :
    Agrees (rows.foldl LeaderOrderTracker.next left) (rows.foldl LeaderOrderTracker.next right) := by
  induction rows generalizing left right with
  | nil => exact ha
  | cons ord rest ih => exact ih (ha.next ord)

end

theorem lookup_primeOrder (tracker : LeaderOrderTracker) (ord : PublicLeaderOrder) (key : Digest) :
    (tracker.primeOrder ord).executed.lookup key =
      if ord.identityKey = key then
        some ((tracker.written key).max ord.written)
      else tracker.executed.lookup key := by
  unfold primeOrder
  dsimp only
  by_cases hk : ord.identityKey = key
  · subst hk
    rw [if_pos rfl, AList.lookup_insert]
  · rw [if_neg hk, AList.lookup_insert_ne (Ne.symm hk)]

theorem Agrees.primeOrder (ha : Agrees left right) (ord : PublicLeaderOrder) :
    Agrees (left.primeOrder ord) (right.primeOrder ord) := by
  refine ⟨ha.primed, ?_, ?_, (ha.see ord.eventKey).seen⟩
  · show max left.maximumUpdateTimeMs _ = max right.maximumUpdateTimeMs _
    rw [ha.maximum]
  · intro key
    rw [lookup_primeOrder, lookup_primeOrder, ha.lookup, ha.written_eq]

theorem Agrees.prime (ha : Agrees left right) (rows : List PublicLeaderOrder) :
    Agrees (left.prime rows) (right.prime rows) := by
  have hf : Agrees (rows.foldl LeaderOrderTracker.primeOrder left)
      (rows.foldl LeaderOrderTracker.primeOrder right) := by
    induction rows generalizing left right with
    | nil => exact ha
    | cons ord rest ih => exact ih (ha.primeOrder ord)
  exact ⟨rfl, hf.maximum, hf.lookup, hf.seen⟩

theorem Sound.primeOrder {tracker : LeaderOrderTracker} (hs : tracker.Sound)
    (ord : PublicLeaderOrder) : (tracker.primeOrder ord).Sound := by
  intro key qty hl
  rw [lookup_primeOrder] at hl
  split at hl
  · cases hl
    rw [WrittenQuantity.max_value]
    exact lt_max_of_lt_right ord.executedQuantity_pos
  · exact hs _ _ hl

theorem Sound.prime {tracker : LeaderOrderTracker} (hs : tracker.Sound)
    (rows : List PublicLeaderOrder) : (tracker.prime rows).Sound := by
  show (rows.foldl LeaderOrderTracker.primeOrder tracker).Sound
  induction rows generalizing tracker with
  | nil => exact hs
  | cons ord rest ih => exact ih (hs.primeOrder ord)

end Restore

theorem sound_fresh : ({} : LeaderOrderTracker).Sound :=
  fun _ _ hl => by cases hl

section Batches

variable [HexOrder] {left right tracker : LeaderOrderTracker}

def outputs : LeaderOrderTracker → List (List PublicLeaderOrder) → List (List NormalizedSignal)
  | _, [] => []
  | tracker, batch :: rest =>
    tracker.emissions (sortedOrders batch) ::
      ((sortedOrders batch).foldl LeaderOrderTracker.next tracker).outputs rest

omit [HexOrder] in
theorem primed_next (ord : PublicLeaderOrder) : (tracker.next ord).primed = tracker.primed := by
  unfold LeaderOrderTracker.next
  split
  · rfl
  split <;> rfl

omit [HexOrder] in
theorem primed_foldl_next (rows : List PublicLeaderOrder) :
    (rows.foldl LeaderOrderTracker.next tracker).primed = tracker.primed := by
  induction rows generalizing tracker with
  | nil => rfl
  | cons ord rest ih => rw [List.foldl_cons, ih, primed_next]

omit [HexOrder] in
theorem Sound.foldl_next (hs : tracker.Sound) (rows : List PublicLeaderOrder) :
    (rows.foldl LeaderOrderTracker.next tracker).Sound := by
  induction rows generalizing tracker with
  | nil => exact hs
  | cons ord rest ih => exact ih (hs.next ord)

theorem ingest_of_primed (hp : tracker.primed = true) (hs : tracker.Sound)
    (batch : List PublicLeaderOrder) :
    tracker.ingest batch = .ok ((sortedOrders batch).foldl LeaderOrderTracker.next tracker,
      tracker.emissions (sortedOrders batch)) := by
  rw [ingest, if_neg (by rw [hp]; decide), ingestOrders_eq hs, List.nil_append]

theorem ingestBatches_of_primed (hp : tracker.primed = true) (hs : tracker.Sound)
    (batches : List (List PublicLeaderOrder)) : tracker.ingestBatches batches =
      .ok ((batches.flatMap sortedOrders).foldl LeaderOrderTracker.next tracker,
        tracker.outputs batches) := by
  induction batches generalizing tracker with
  | nil => rfl
  | cons batch rest ih =>
    have hr := ih ((primed_foldl_next (sortedOrders batch)).trans hp)
      (hs.foldl_next (sortedOrders batch))
    rw [ingestBatches, ingest_of_primed hp hs]
    show ((((sortedOrders batch).foldl LeaderOrderTracker.next tracker).ingestBatches rest) >>= _) =
      _
    rw [hr, List.flatMap_cons, List.foldl_append]
    rfl

theorem ingestBatches_cons (hp : tracker.primed = false) (hs : tracker.Sound)
    (base : List PublicLeaderOrder) (batches : List (List PublicLeaderOrder)) :
    tracker.ingestBatches (base :: batches) =
      .ok ((batches.flatMap sortedOrders).foldl LeaderOrderTracker.next
          (tracker.prime (sortedOrders base)),
        [] :: (tracker.prime (sortedOrders base)).outputs batches) := by
  rw [ingestBatches, ingest, if_pos hp]
  show (((tracker.prime (sortedOrders base)).ingestBatches batches) >>= _) = _
  rw [ingestBatches_of_primed rfl (hs.prime _)]
  rfl

theorem Agrees.outputs_eq (ha : Agrees left right) (batches : List (List PublicLeaderOrder)) :
    left.outputs batches = right.outputs batches := by
  induction batches generalizing left right with
  | nil => rfl
  | cons batch rest ih =>
    rw [outputs, outputs, ha.emissions_eq, ih (ha.foldl_next _)]

theorem Agrees.ingestBatches (ha : Agrees left right) (hs : right.Sound)
    (batches : List (List PublicLeaderOrder)) :
    ∃ signals last other, left.ingestBatches batches = .ok (last, signals) ∧
      right.ingestBatches batches = .ok (other, signals) := by
  cases hp : right.primed with
  | true =>
    have hl := ingestBatches_of_primed (ha.primed.trans hp) (ha.sound hs) batches
    rw [ha.outputs_eq] at hl
    exact ⟨_, _, _, hl, ingestBatches_of_primed hp hs batches⟩
  | false =>
    cases batches with
    | nil => exact ⟨[], left, right, rfl, rfl⟩
    | cons base rest =>
      have hl := ingestBatches_cons (ha.primed.trans hp) (ha.sound hs) base rest
      rw [(ha.prime _).outputs_eq] at hl
      exact ⟨_, _, _, hl, ingestBatches_cons hp hs base rest⟩

omit [HexOrder] in
theorem emissions_append (rows more : List PublicLeaderOrder) : tracker.emissions (rows ++ more) =
      tracker.emissions rows ++ (rows.foldl LeaderOrderTracker.next tracker).emissions more := by
  induction rows generalizing tracker with
  | nil => rfl
  | cons ord rest ih =>
    rw [List.cons_append, emissions, emissions, ih, List.foldl_cons, List.append_assoc]

theorem outputs_flatten (batches : List (List PublicLeaderOrder)) :
    (tracker.outputs batches).flatten = tracker.emissions (batches.flatMap sortedOrders) := by
  induction batches generalizing tracker with
  | nil => rfl
  | cons batch rest ih =>
    rw [outputs, List.flatten_cons, ih, List.flatMap_cons, emissions_append]

variable {eventKey : Digest}

omit [HexOrder] in
theorem mem_seen_next (ord : PublicLeaderOrder) :
    eventKey ∈ (tracker.next ord).seen ↔ eventKey ∈ tracker.seen ∨ eventKey = ord.eventKey := by
  unfold LeaderOrderTracker.next
  split
  · rename_i hseen
    constructor
    · exact Or.inl
    · rintro (hm | rfl)
      · exact hm
      · exact hseen
  split
  all_goals
    show eventKey ∈ tracker.seen.insert ord.eventKey ↔ _
    rw [List.mem_insert_iff, or_comm]

omit [HexOrder] in
theorem mem_seen_foldl_next (rows : List PublicLeaderOrder) :
    eventKey ∈ (rows.foldl LeaderOrderTracker.next tracker).seen ↔
      eventKey ∈ tracker.seen ∨ ∃ row ∈ rows, eventKey = row.eventKey := by
  induction rows generalizing tracker with
  | nil => simp
  | cons ord rest ih => simp [ih, mem_seen_next, or_assoc]

omit [HexOrder] in
theorem mem_seen_prime (rows : List PublicLeaderOrder) : eventKey ∈ (tracker.prime rows).seen ↔
      eventKey ∈ tracker.seen ∨ ∃ row ∈ rows, eventKey = row.eventKey := by
  show eventKey ∈ (rows.foldl primeOrder tracker).seen ↔ _
  induction rows generalizing tracker with
  | nil => simp
  | cons ord rest ih => simp [ih, primeOrder, see, List.mem_insert_iff, or_assoc, or_left_comm]

omit [HexOrder] in
theorem foldl_next_of_seen {rows : List PublicLeaderOrder}
    (hse : ∀ row ∈ rows, row.eventKey ∈ tracker.seen) :
    rows.foldl LeaderOrderTracker.next tracker = tracker ∧ tracker.emissions rows = [] := by
  induction rows with
  | nil => exact ⟨rfl, rfl⟩
  | cons ord rest ih =>
    have hf := hse ord List.mem_cons_self
    have hn : tracker.next ord = tracker := by
      rw [LeaderOrderTracker.next, if_pos hf]
    have hq : tracker.emits ord = [] := by
      rw [emits, if_pos (Or.inl hf)]
    obtain ⟨hfo, hs⟩ := ih fun row hm => hse row (List.mem_cons_of_mem _ hm)
    rw [List.foldl_cons, emissions, hn, hq]
    exact ⟨hfo, hs⟩

theorem ingest_of_seen {batch : List PublicLeaderOrder} (hp : tracker.primed = true)
    (hso : tracker.Sound) (hse : ∀ row ∈ batch, row.eventKey ∈ tracker.seen) :
    tracker.ingest batch = .ok (tracker, []) := by
  have hs : ∀ row ∈ sortedOrders batch, row.eventKey ∈ tracker.seen :=
    fun row hm => hse row (mem_sortedOrders.mp hm)
  obtain ⟨hf, hsi⟩ := foldl_next_of_seen hs
  rw [ingest_of_primed hp hso, hf, hsi]

end Batches

section Rows

variable {rows : List PublicLeaderOrder} {tracker : LeaderOrderTracker} {ord : PublicLeaderOrder}

structure Processed (rows : List PublicLeaderOrder) (tracker : LeaderOrderTracker) : Prop where
  sound : tracker.Sound
  keyed : ∀ row ∈ rows, row.Keyed
  seen : ∀ eventKey, eventKey ∈ tracker.seen ↔ ∃ row ∈ rows, eventKey = row.eventKey
  maximum : tracker.maximumUpdateTimeMs = watermarkOf rows

theorem Processed.exists_of_seen (hp : Processed rows tracker) (hk : ord.Keyed)
    (hs : ord.eventKey ∈ tracker.seen) : ∃ row ∈ rows, row.identityKey = ord.identityKey ∧
      row.executedQuantity = ord.executedQuantity ∧ row.updateTimeMs = ord.updateTimeMs := by
  obtain ⟨row, hm, he⟩ := (hp.seen _).mp hs
  exact ⟨row, hm, eq_of_eventKey_eq (hp.keyed row hm) hk he.symm⟩

theorem Processed.next (hp : Processed rows tracker) (hk : ord.Keyed) :
    Processed (rows ++ [ord]) (tracker.next ord) := by
  refine ⟨hp.sound.next ord, ?_, ?_, ?_⟩
  · intro row hm
    rcases List.mem_append.mp hm with hm | hm
    · exact hp.keyed row hm
    · rw [List.mem_singleton.mp hm]
      exact hk
  · intro eventKey
    rw [mem_seen_next, hp.seen]
    simp [or_and_right, exists_or]
  · rw [watermarkOf_concat, ← hp.maximum]
    by_cases hs : ord.eventKey ∈ tracker.seen
    · obtain ⟨row, hm, -, -, ht⟩ := hp.exists_of_seen hk hs
      have hle := le_watermarkOf hm
      rw [ht, ← hp.maximum] at hle
      rw [LeaderOrderTracker.next, if_pos hs, max_eq_left hle]
    by_cases hl : tracker.isLate ord = true
    · have hlt : ord.updateTimeMs < tracker.maximumUpdateTimeMs := by
        simp only [isLate, Bool.and_eq_true, decide_eq_true_eq] at hl
        exact hl.2
      rw [LeaderOrderTracker.next, if_neg hs, if_pos hl, max_eq_left hlt.le]
      rfl
    · rw [LeaderOrderTracker.next, if_neg hs, if_neg hl]
      rfl

theorem written_primeOrder (tracker : LeaderOrderTracker) (ord : PublicLeaderOrder) (key : Digest) :
    (tracker.primeOrder ord).written key =
      if ord.identityKey = key then (tracker.written key).max ord.written
      else tracker.written key := by
  rw [written, lookup_primeOrder]
  split
  · rfl
  · rfl

theorem processed_prime {base : List PublicLeaderOrder} (hk : ∀ row ∈ base, row.Keyed) :
    Processed base (({} : LeaderOrderTracker).prime base) ∧
      ∀ key, (({} : LeaderOrderTracker).prime base).written key = reachedWritten key base := by
  refine ⟨⟨sound_fresh.prime base, hk, fun eventKey => ?_, ?_⟩, fun key => ?_⟩
  · rw [mem_seen_prime]
    simp
  · show (base.foldl primeOrder {}).maximumUpdateTimeMs = _
    clear hk
    induction base using List.reverseRecOn with
    | nil => rfl
    | append_singleton rows ord ih =>
      rw [List.foldl_concat, watermarkOf_concat, ← ih]
      rfl
  · show (base.foldl primeOrder {}).written key = _
    clear hk
    induction base using List.reverseRecOn with
    | nil => rfl
    | append_singleton rows ord ih =>
      rw [List.foldl_concat, written_primeOrder, reachedWritten_concat, ih]

variable {key : Digest}

theorem Processed.isLate_iff (hp : Processed rows tracker)
    (hpr : tracker.previous ord.identityKey = reachedQuantity ord.identityKey rows) :
    tracker.isLate ord = true ↔ ArrivesLate rows ord := by
  rw [isLate, Bool.and_eq_true, Option.isNone_iff_eq_none,
    hp.sound.lookup_eq_none_iff, hpr, reachedQuantity_eq_zero_iff, decide_eq_true_eq,
    hp.maximum]
  rfl

theorem written_next_of_ne (hne : ord.identityKey ≠ key) :
    (tracker.next ord).written key = tracker.written key := by
  unfold LeaderOrderTracker.next
  split
  · rfl
  split
  · rfl
  · rw [written, written, lookup_count, if_neg hne]

theorem written_count : (tracker.count ord).written ord.identityKey =
      (tracker.written ord.identityKey).max ord.written := by
  rw [written, lookup_count, if_pos rfl, Option.getD_some]

theorem Processed.counts (hp : Processed rows tracker) (hk : ord.Keyed)
    (he : ord.positionSide ≠ .both)
    (hpr : tracker.previous ord.identityKey = reachedQuantity ord.identityKey rows)
    (ho : ¬ ArrivesLate rows ord) : (tracker.next ord).previous ord.identityKey =
        reachedQuantity ord.identityKey (rows ++ [ord]) ∧
      emittedQuantity ord.identityKey (tracker.emits ord) =
        reachedQuantity ord.identityKey (rows ++ [ord]) - reachedQuantity ord.identityKey rows := by
  by_cases hs : ord.eventKey ∈ tracker.seen
  · obtain ⟨row, hm, hi, hq, -⟩ := hp.exists_of_seen hk hs
    rw [reachedQuantity_concat_of_mem hm hi hq, LeaderOrderTracker.next,
      if_pos hs, emits, if_pos (Or.inl hs), hpr]
    simp
  · have hl : ¬ tracker.isLate ord = true := by
      rw [hp.isLate_iff hpr]
      exact ho
    rw [LeaderOrderTracker.next, if_neg hs, if_neg hl, emits, if_neg (not_or.mpr ⟨hs, hl⟩),
      emittedQuantity_emission (hp.sound.previous_nonneg _) he, if_pos rfl,
      previous, written_count, WrittenQuantity.max_value, reachedQuantity_concat,
      if_pos rfl]
    change max (tracker.previous ord.identityKey) _ = _ ∧ _
    rw [hpr]
    exact ⟨rfl, rfl⟩

theorem emittedQuantity_emits_of_ne (hne : ord.identityKey ≠ key) :
    emittedQuantity key (tracker.emits ord) = 0 := by
  unfold emits
  split
  · rfl
  · have hn : (emission ord (tracker.previous ord.identityKey)
        (deltaExponent ord (tracker.written ord.identityKey))).filter
        (·.sourceIdentityKey = key) = [] := by
      rw [List.filter_eq_nil_iff]
      intro sig hm
      rw [(mem_emission hm).1]
      simpa using hne
    rw [emittedQuantity, hn]
    rfl

theorem Processed.emitted (hp : Processed rows tracker) {later : List PublicLeaderOrder}
    (hk : ∀ row ∈ later, row.Keyed)
    (he : ∀ row ∈ later, row.identityKey = key → row.positionSide ≠ .both)
    (hpr : tracker.previous key = reachedQuantity key rows)
    (ho : ∀ pre ord post, later = pre ++ ord :: post →
      ord.identityKey = key → ¬ ArrivesLate (rows ++ pre) ord) :
    emittedQuantity key (tracker.emissions later) =
      reachedQuantity key (rows ++ later) - reachedQuantity key rows := by
  induction later generalizing rows tracker with
  | nil => simp [emissions]
  | cons ord rest ih =>
    have hn := hp.next (hk ord List.mem_cons_self)
    have hs : (tracker.next ord).previous key = reachedQuantity key (rows ++ [ord]) ∧
        emittedQuantity key (tracker.emits ord) =
          reachedQuantity key (rows ++ [ord]) - reachedQuantity key rows := by
      by_cases hkey : ord.identityKey = key
      · subst hkey
        have hf := ho [] ord rest rfl rfl
        rw [List.append_nil] at hf
        exact hp.counts (hk ord List.mem_cons_self) (he ord List.mem_cons_self rfl) hpr hf
      · rw [previous, written_next_of_ne hkey, emittedQuantity_emits_of_ne hkey,
          reachedQuantity_concat, if_neg hkey]
        exact ⟨hpr, by simp⟩
    have hr := ih hn (fun row hm => hk row (List.mem_cons_of_mem _ hm))
      (fun row hm => he row (List.mem_cons_of_mem _ hm)) hs.1
      (fun pre later post heq hkey => by
        have hl := ho (ord :: pre) later post (by rw [heq]; rfl) hkey
        rwa [List.append_cons] at hl)
    rw [emissions, emittedQuantity_append, hs.2, hr, List.append_cons rows ord rest]
    ring

end Rows

/-- Restart and replay, after every history of batches.  A restored tracker answers as
the one it was restored from; a batch of the history changes nothing and emits nothing;
and the deltas emitted for an identity of explicit rows, of which the first after the
baseline was not late, are its growth since the baseline. -/
theorem restart_and_replay [HexOrder] {hist : List (List PublicLeaderOrder)}
    (hkeyed : ∀ batch ∈ hist, ∀ row ∈ batch, row.Keyed) :
    ∃ tracker signals, ({} : LeaderOrderTracker).ingestBatches hist = .ok (tracker, signals) ∧
      (∀ later, ∃ answers last other,
        (ofState (some tracker.snapshot)).ingestBatches later = .ok (last, answers) ∧
          tracker.ingestBatches later = .ok (other, answers)) ∧
      (∀ batch ∈ hist, ∀ rows : List PublicLeaderOrder, rows.Perm batch →
        tracker.ingest rows = .ok (tracker, [])) ∧
      ∀ base batches, hist = base :: batches → ∀ key,
        (∀ batch ∈ batches, ∀ row ∈ batch, row.identityKey = key → row.positionSide ≠ .both) →
        (∀ pre ord post, batches.flatMap sortedOrders = pre ++ ord :: post →
          ord.identityKey = key → ¬ ArrivesLate (base ++ pre) ord) →
        emittedQuantity key signals.flatten =
          reachedQuantity key hist.flatten - reachedQuantity key base := by
  cases hist with
  | nil =>
    refine ⟨{}, [], rfl, ?_, ?_, ?_⟩
    · exact (agrees_ofState_snapshot _).ingestBatches sound_fresh
    · intro batch hb
      cases hb
    · intro base batches hh
      cases hh
  | cons base batches =>
    have hs : ∀ row ∈ sortedOrders base, row.Keyed := fun row hm =>
      hkeyed base List.mem_cons_self row (mem_sortedOrders.mp hm)
    obtain ⟨hp, hpr⟩ := processed_prime hs
    have hlast := hp.sound.foldl_next (batches.flatMap sortedOrders)
    refine ⟨_, _, ingestBatches_cons rfl sound_fresh base batches, ?_, ?_, ?_⟩
    · exact (agrees_ofState_snapshot _).ingestBatches hlast
    · intro batch hb rows hpe
      refine ingest_of_seen (primed_foldl_next _) hlast fun row hr => ?_
      rw [mem_seen_foldl_next, mem_seen_prime]
      have hr := hpe.mem_iff.mp hr
      rcases List.mem_cons.mp hb with rfl | hb
      · exact Or.inl (Or.inr ⟨row, mem_sortedOrders.mpr hr, rfl⟩)
      · exact Or.inr ⟨row, List.mem_flatMap.mpr ⟨batch, hb, mem_sortedOrders.mpr hr⟩, rfl⟩
    · intro first rest hh key he ho
      cases hh
      have hm : ∀ {row}, row ∈ batches.flatMap sortedOrders ↔ ∃ batch ∈ batches, row ∈ batch := by
        simp [List.mem_flatMap]
      have hla : ∀ row ∈ batches.flatMap sortedOrders, row.Keyed := by
        intro row hr
        obtain ⟨batch, hb, hr⟩ := hm.mp hr
        exact hkeyed batch (List.mem_cons_of_mem _ hb) row hr
      have hl : ∀ row ∈ batches.flatMap sortedOrders,
          row.identityKey = key → row.positionSide ≠ .both := by
        intro row hr
        obtain ⟨batch, hb, hr⟩ := hm.mp hr
        exact he batch hb row hr
      have hc : ∀ pre ord, ArrivesLate (sortedOrders base ++ pre) ord ↔
          ArrivesLate (base ++ pre) ord := fun _ _ => arrivesLate_congr (by simp)
      have hre := (congrArg (·.value) (hpr key)).trans (reachedWritten_value _ _)
      have hem := hp.emitted hla hl hre
        fun pre ord post heq hk hlate =>
          ho pre ord post heq hk ((hc pre ord).mp hlate)
      have hba : reachedQuantity key (sortedOrders base) =
          reachedQuantity key base := reachedQuantity_congr (by simp) key
      have hh : reachedQuantity key (sortedOrders base ++ batches.flatMap sortedOrders) =
            reachedQuantity key (base :: batches).flatten :=
        reachedQuantity_congr (by simp) key
      rw [List.flatten_cons, List.nil_append, outputs_flatten, hem, hba, hh]

section Grows

/-- The update times differ, so digests are never compared. -/
local instance grownHexOrder : HexOrder := ⟨fun _ => 0⟩

def longDocument (executedQty : Decimal) (orderTime orderUpdateTime : ℤ) : ApiOrder where
  symbol := "BTCUSDT"
  positionSide := .long
  side := .buy
  orderType := "MARKET"
  executedQty := executedQty
  avgPrice := 100
  totalPnl := 0
  orderTime := orderTime
  orderUpdateTime := orderUpdateTime
  extra := ""

def longRow (executedQty : Decimal) (orderTime orderUpdateTime : ℤ)
    (hok : (PublicLeaderOrder.fromApi "1"
      (longDocument executedQty orderTime orderUpdateTime)).isOk = true) : PublicLeaderOrder :=
  okValue (PublicLeaderOrder.fromApi "1" (longDocument executedQty orderTime orderUpdateTime)) hok

theorem longRow_keyed {executedQty : Decimal} {orderTime orderUpdateTime : ℤ}
    (hok : (PublicLeaderOrder.fromApi "1"
      (longDocument executedQty orderTime orderUpdateTime)).isOk = true) :
    (longRow executedQty orderTime orderUpdateTime hok).Keyed :=
  (PublicLeaderOrder.fromApi_spec (eq_ok_okValue hok)).2.1

theorem longDocument_accepted :
    (PublicLeaderOrder.fromApi "1" (longDocument 1 1000 1000)).isOk = true := by
  decide

def firstPurchase : PublicLeaderOrder := longRow 1 1000 1000 longDocument_accepted
def grownPurchase : PublicLeaderOrder := longRow 3 1000 2000 (by decide)
def otherPurchase : PublicLeaderOrder := longRow 2 3000 3000 (by decide)

theorem grown_purchase_emits_growth : ∃ tracker signals, ({} : LeaderOrderTracker).ingestBatches
          [[firstPurchase], [otherPurchase, grownPurchase]] = .ok (tracker, signals) ∧
        tracker.ingest [grownPurchase, otherPurchase] = .ok (tracker, []) ∧
        emittedQuantity firstPurchase.identityKey signals.flatten = 2 := by
  have hke : ∀ batch ∈ [[firstPurchase], [otherPurchase, grownPurchase]], ∀ row ∈ batch,
      row.Keyed := by
    simp only [List.forall_mem_cons, List.not_mem_nil, false_implies, implies_true, and_true]
    exact ⟨longRow_keyed _, longRow_keyed _, longRow_keyed _⟩
  obtain ⟨tracker, signals, hrun, -, hr, hg⟩ := restart_and_replay hke
  refine ⟨tracker, signals, hrun, ?_, ?_⟩
  · exact hr [otherPurchase, grownPurchase] (by simp) _ (List.Perm.swap _ _ [])
  · have hk : ∀ pre ord post,
        [[otherPurchase, grownPurchase]].flatMap sortedOrders = pre ++ ord :: post →
        ord.identityKey = firstPurchase.identityKey →
        ¬ ArrivesLate ([firstPurchase] ++ pre) ord := by
      intro pre ord post _ hkey hl
      exact hl.1 firstPurchase (by simp) hkey.symm
    rw [hg [firstPurchase] _ rfl _ (by decide) hk]
    with_unfolding_all decide

end Grows

end LeaderOrderTracker

end AiQuant.CopyTrading
