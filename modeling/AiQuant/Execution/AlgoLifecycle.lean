import AiQuant.Execution.Orders

/-! The life of an algo order.  Its own updates come in the order of the exchange; once it has
triggered, the events of its child come in between.  `FINISHED` is mapped to `RECONCILING`,
which the transition table reaches from neither a child's state nor itself. -/
namespace AiQuant.Execution

/-- The events of one algo order as they arrive: what the runtime writes, the updates of the
algo, and those of the child before and after `FINISHED`, if that has come. -/
structure AlgoLifecycle where
  created : OrderEvent
  approved : OrderEvent
  submitting : OrderEvent
  new : OrderEvent
  triggering : Option OrderEvent
  triggered : OrderEvent
  early : List OrderEvent
  finished : Option OrderEvent
  late : List OrderEvent

namespace AlgoLifecycle

def child (lifecycle : AlgoLifecycle) : List OrderEvent :=
  lifecycle.early ++ lifecycle.late

def opening (lifecycle : AlgoLifecycle) : List OrderEvent :=
  lifecycle.created :: lifecycle.approved :: lifecycle.submitting :: lifecycle.new ::
    (lifecycle.triggering.toList ++ [lifecycle.triggered])

def stream (lifecycle : AlgoLifecycle) : List OrderEvent :=
  lifecycle.opening ++ (lifecycle.early ++ (lifecycle.finished.toList ++ lifecycle.late))

end AlgoLifecycle

/-- An update that `algo_update_event` has built. -/
def OrderEvent.IsAlgoUpdate (event : OrderEvent) (algoStatus : String) : Prop :=
  ∃ eventId occurredAt algoId actualOrderId cumulativeFilledQuantity,
    event = algoUpdateEvent eventId occurredAt algoStatus algoId actualOrderId
      cumulativeFilledQuantity

inductive ChildEvents : List OrderEvent → Prop
  | intro {acknowledged filled : OrderEvent} {partials : List OrderEvent}
      (hacknowledged : acknowledged.state = .acknowledged)
      (hpartials : ∀ event ∈ partials, event.state = .partiallyFilled)
      (hfilled : filled.state = .filled)
      (hgrowing : (acknowledged :: partials ++ [filled]).Pairwise fun earlier later =>
        earlier.cumulativeFilledQuantity ≤ later.cumulativeFilledQuantity) :
      ChildEvents (acknowledged :: partials ++ [filled])

/-- The stream of an algo order: distinct identifiers of events, one order, one algo and one
child throughout, and quantities that are those of the child.  An update of the algo reports no
fill, or the child's fill so far. -/
structure AlgoLifecycle.WellFormed (lifecycle : AlgoLifecycle) : Prop where
  created : lifecycle.created.state = .created
  approved : lifecycle.approved.state = .riskApproved
  submitting : lifecycle.submitting.state = .submitting
  new : lifecycle.new.IsAlgoUpdate "NEW"
  triggering : ∀ event ∈ lifecycle.triggering, event.IsAlgoUpdate "TRIGGERING"
  triggered : lifecycle.triggered.IsAlgoUpdate "TRIGGERED"
  finished : ∀ event ∈ lifecycle.finished, event.IsAlgoUpdate "FINISHED"
  child : ChildEvents lifecycle.child
  utc : ∀ event ∈ lifecycle.stream, event.occurredAt.utcOffset = some 0
  unfilled : ∀ event ∈ lifecycle.opening, event.cumulativeFilledQuantity = 0
  reported : ∀ event ∈ lifecycle.finished, event.cumulativeFilledQuantity = 0 ∨
    ∃ last ∈ lifecycle.early.getLast?,
      event.cumulativeFilledQuantity = last.cumulativeFilledQuantity
  nonneg : ∀ event ∈ lifecycle.child, 0 ≤ event.cumulativeFilledQuantity
  distinct : (lifecycle.stream.map (·.eventId)).Nodup
  identified : ∃ names, ∀ event ∈ lifecycle.stream, event.ids.Consistent names

/-- The projection is accepted and ends where the child has ended, or asks for a
reconciliation; its fill is the child's last one. -/
def AlgoLifecycle.Projectable (lifecycle : AlgoLifecycle) (intentId clientId : String) : Prop :=
  ∃ projection, projectOrder intentId .algo clientId lifecycle.stream = .ok projection ∧
    ∃ last ∈ lifecycle.child.getLast?,
      (projection.state = last.state ∨ projection.reconciliationRequired = true) ∧
        projection.cumulativeFilledQuantity = last.cumulativeFilledQuantity

/-- `FINISHED` has not come, or right after a `TRIGGERED` that names the child. -/
def AlgoLifecycle.FinishesFirst (lifecycle : AlgoLifecycle) : Prop :=
  lifecycle.finished ≠ none →
    lifecycle.early = [] ∧ (given lifecycle.triggered.actualOrderId).isSome = true

section Updates

variable {ev : OrderEvent}

theorem IsAlgoUpdate.state_new (hu : ev.IsAlgoUpdate "NEW") : ev.state = .triggerPending := by
  obtain ⟨_, _, _, _, _, rfl⟩ := hu
  rfl

theorem IsAlgoUpdate.state_triggering (hu : ev.IsAlgoUpdate "TRIGGERING") :
    ev.state = .triggering := by
  obtain ⟨_, _, _, _, _, rfl⟩ := hu
  rfl

theorem IsAlgoUpdate.state_finished (hu : ev.IsAlgoUpdate "FINISHED") :
    ev.state = .reconciling := by
  obtain ⟨_, _, _, _, _, rfl⟩ := hu
  rfl

theorem IsAlgoUpdate.state_triggered (hu : ev.IsAlgoUpdate "TRIGGERED") : ev.state =
      if (given ev.actualOrderId).isSome then .triggered else .reconciling := by
  obtain ⟨_, _, _, actualOrderId, _, rfl⟩ := hu
  simp only [algoUpdateEvent, given_given, algoUpdateState, if_true]
  split <;> rfl

theorem stateByStatus_ne_triggered (algoStatus : String) :
    stateByStatus algoStatus ≠ some .triggered := by
  unfold stateByStatus
  split <;> decide

theorem IsAlgoUpdate.namesChild {algoStatus : String} (hu : ev.IsAlgoUpdate algoStatus) :
    ev.NamesChild := by
  obtain ⟨_, _, _, actualOrderId, _, rfl⟩ := hu
  intro ht
  simp only [algoUpdateEvent, given_given] at ht ⊢
  unfold algoUpdateState at ht
  split_ifs at ht with hst hg hf
  · exact hg
  · cases hs : stateByStatus algoStatus with
    | none =>
      rw [hs] at ht
      cases ht
    | some st =>
      rw [hs] at ht
      obtain rfl : st = .triggered := ht
      exact absurd hs (stateByStatus_ne_triggered _)

end Updates

section Lifecycle

variable {life : AlgoLifecycle}

theorem isChain_fills {prev filled : OrderEvent} {partials : List OrderEvent}
    (hp : prev.state = .acknowledged ∨ prev.state = .partiallyFilled)
    (hpa : ∀ ev ∈ partials, ev.state = .partiallyFilled) (hf : filled.state = .filled)
    (hg : (prev :: partials ++ [filled]).Pairwise fun earlier later =>
      earlier.cumulativeFilledQuantity ≤ later.cumulativeFilledQuantity) :
    List.IsChain Follows (prev :: partials ++ [filled]) := by
  have ha : .partiallyFilled ∈ transitions prev.state ∧
      .filled ∈ transitions prev.state := by
    rcases hp with hs | hs <;> rw [hs] <;> decide
  induction partials generalizing prev with
  | nil =>
    rw [List.cons_append, List.nil_append, List.isChain_pair]
    refine ⟨hf ▸ ha.2, ?_⟩
    exact List.rel_of_pairwise_cons hg (by simp)
  | cons ev rest ih =>
    obtain ⟨he, hr⟩ := List.forall_mem_cons.mp hpa
    rw [List.cons_append, List.cons_append, List.isChain_cons_cons, ← List.cons_append]
    refine ⟨⟨he ▸ ha.1, List.rel_of_pairwise_cons hg (by simp)⟩, ?_⟩
    exact ih (Or.inr he) hr hg.of_cons (by rw [he]; decide)

theorem ChildEvents.isChain {child : List OrderEvent} (hc : ChildEvents child) :
    List.IsChain Follows child := by
  obtain ⟨ha, hp, hf, hg⟩ := hc
  exact isChain_fills (Or.inl ha) hp hf hg

theorem ChildEvents.ne_nil {child : List OrderEvent} (hc : ChildEvents child) : child ≠ [] := by
  obtain ⟨-, -, -, -⟩ := hc
  exact List.cons_ne_nil _ _

theorem ChildEvents.isChain_cons {child : List OrderEvent} (hc : ChildEvents child)
    {prev : OrderEvent} (hp : prev.state = .triggered ∨ prev.state = .reconciling)
    (hq : ∀ ev ∈ child, prev.cumulativeFilledQuantity ≤ ev.cumulativeFilledQuantity) :
    List.IsChain Follows (prev :: child) := by
  refine List.isChain_cons.mpr ⟨?_, hc.isChain⟩
  obtain ⟨ha, -, -, -⟩ := hc
  rintro ev he
  cases he
  refine ⟨?_, hq _ (by simp)⟩
  rw [ha]
  rcases hp with hs | hs <;> rw [hs] <;> decide

theorem ChildEvents.not_reconciling {child : List OrderEvent} (hc : ChildEvents child)
    {ev : OrderEvent} (he : ev ∈ child) : .reconciling ∉ transitions ev.state := by
  obtain ⟨ha, hp, hf, -⟩ := hc
  rw [List.cons_append, List.mem_cons, List.mem_append, List.mem_singleton] at he
  rcases he with rfl | hpa | rfl
  · rw [ha]
    decide
  · rw [hp ev hpa]
    decide
  · rw [hf]
    decide

namespace AlgoLifecycle

section

variable (hw : life.WellFormed)
include hw

theorem WellFormed.isChain_opening : List.IsChain Follows life.opening := by
  have hnew := IsAlgoUpdate.state_new hw.new
  have hu := hw.unfilled
  have htri : ∀ prev : OrderState, prev = .triggerPending ∨ prev = .triggering →
      life.triggered.state ∈ transitions prev := by
    intro prev hp
    rw [IsAlgoUpdate.state_triggered hw.triggered]
    rcases hp with rfl | rfl <;> split <;> decide
  unfold opening at hu ⊢
  cases htr : life.triggering with
  | none =>
    rw [htr] at hu
    simp only [Option.toList_none, List.nil_append, List.forall_mem_cons] at hu ⊢
    obtain ⟨hc, ha, hs, hn, ht, -⟩ := hu
    simp only [List.isChain_cons_cons, List.isChain_singleton, Follows, hw.created,
      hw.approved, hw.submitting, hnew, hc, ha, hs, hn,
      ht, htri _ (Or.inl rfl), le_refl, and_true]
    decide
  | some triggering =>
    have hst := IsAlgoUpdate.state_triggering (hw.triggering triggering htr)
    rw [htr] at hu
    simp only [Option.toList_some, List.cons_append, List.nil_append, List.forall_mem_cons]
      at hu ⊢
    obtain ⟨hc, ha, hs, hn, htrig, ht, -⟩ :=
      hu
    simp only [List.isChain_cons_cons, List.isChain_singleton, Follows, hw.created,
      hw.approved, hw.submitting, hnew, hst, hc, ha, hs, hn,
      htrig, ht, htri _ (Or.inr rfl), le_refl, and_true]
    decide

theorem WellFormed.namesChild : ∀ ev ∈ life.stream, ev.NamesChild := by
  have ho : ∀ {ev : OrderEvent}, ev.state ≠ .triggered → ev.NamesChild :=
    fun hs ht => absurd ht hs
  have hc : ∀ ev ∈ life.child, ev.NamesChild := by
    intro ev he
    apply ho
    intro ht
    have ha := hw.child.not_reconciling he
    rw [ht] at ha
    exact ha (by decide)
  intro ev he
  unfold stream opening at he
  simp only [List.cons_append, List.mem_cons, List.mem_append, Option.mem_toList,
    List.not_mem_nil, or_false] at he
  rcases he with rfl | rfl | rfl | rfl | (htr | rfl) | hea | hf | hl
  · exact ho (by rw [hw.created]; decide)
  · exact ho (by rw [hw.approved]; decide)
  · exact ho (by rw [hw.submitting]; decide)
  · exact IsAlgoUpdate.namesChild hw.new
  · exact IsAlgoUpdate.namesChild (hw.triggering ev htr)
  · exact IsAlgoUpdate.namesChild hw.triggered
  · exact hc ev (List.mem_append_left _ hea)
  · exact IsAlgoUpdate.namesChild (hw.finished ev hf)
  · exact hc ev (List.mem_append_right _ hl)

theorem WellFormed.valid : ∀ ev ∈ life.stream, ev.Valid := by
  intro ev he
  refine ⟨hw.utc ev he, ?_⟩
  unfold stream at he
  simp only [List.mem_append, Option.mem_toList] at he
  rcases he with ho | hea | hf | hl
  · exact (hw.unfilled ev ho).ge
  · exact hw.nonneg ev (List.mem_append_left _ hea)
  · rcases hw.reported ev hf with hz | ⟨last, hla, hs⟩
    · exact hz.ge
    · rw [hs]
      exact hw.nonneg last (List.mem_append_left _ (List.mem_of_getLast? hla))
  · exact hw.nonneg ev (List.mem_append_right _ hl)

theorem WellFormed.early_eq_nil {finished : OrderEvent} (hr : finished.state = .reconciling)
    (hc : List.IsChain Follows
      (life.triggered :: (life.early ++ finished :: life.late))) :
    life.early = [] := by
  rcases List.eq_nil_or_concat life.early with hn | ⟨init, ev, he⟩
  · exact hn
  · have hm : ev ∈ life.child := by simp [AlgoLifecycle.child, he]
    rw [he, List.concat_append, ← List.cons_append] at hc
    have hp := hc.right_of_append
    rw [List.isChain_cons_cons] at hp
    exact absurd (hr ▸ hp.1.1) (hw.child.not_reconciling hm)

theorem WellFormed.finished_unfilled {finished : OrderEvent}
    (hf : life.finished = some finished) (hn : life.early = []) :
    finished.cumulativeFilledQuantity = 0 := by
  rcases hw.reported finished hf with hz | ⟨last, hl, -⟩
  · exact hz
  · rw [hn] at hl
    cases hl

theorem WellFormed.isChain_stream_iff :
    List.IsChain Follows life.stream ↔ life.FinishesFirst := by
  have hl : life.opening.getLast? = some life.triggered := by
    simp [opening, List.getLast?_cons, List.getLast?_append]
  have hq : life.triggered.cumulativeFilledQuantity = 0 :=
    hw.unfilled _ (List.mem_of_getLast? hl)
  have hs := IsAlgoUpdate.state_triggered hw.triggered
  have hre : life.triggered.state = .triggered ∨
      life.triggered.state = .reconciling := by
    rw [hs]
    split
    · exact Or.inl rfl
    · exact Or.inr rfl
  have hsp : List.IsChain Follows life.stream ↔ List.IsChain Follows (life.triggered ::
        (life.early ++ (life.finished.toList ++ life.late))) := by
    unfold stream
    rw [List.isChain_append, List.isChain_cons, hl]
    simp [hw.isChain_opening, and_comm]
  rw [hsp]
  unfold FinishesFirst
  cases hf : life.finished with
  | none =>
    rw [Option.toList_none, List.nil_append]
    simp only [ne_eq, not_true_eq_false, false_implies, iff_true]
    exact hw.child.isChain_cons hre fun ev he =>
      hq ▸ hw.nonneg ev he
  | some finished =>
    have hr := IsAlgoUpdate.state_finished (hw.finished finished hf)
    simp only [ne_eq, reduceCtorEq, not_false_eq_true, true_implies, Option.toList_some,
      List.singleton_append]
    constructor
    · intro hc
      have hno := hw.early_eq_nil hr hc
      refine ⟨hno, ?_⟩
      rw [hno, List.nil_append, List.isChain_cons_cons] at hc
      have ha := hc.1.1
      rw [hr, hs] at ha
      by_contra hunnamed
      rw [if_neg hunnamed] at ha
      revert ha
      decide
    · rintro ⟨hno, hn⟩
      have hch : life.late = life.child := by
        rw [AlgoLifecycle.child, hno, List.nil_append]
      have hz := hw.finished_unfilled hf hno
      rw [hno, List.nil_append, List.isChain_cons_cons, hch]
      refine ⟨⟨?_, by rw [hq, hz]⟩, ?_⟩
      · rw [hs, if_pos hn, hr]
        decide
      · exact hw.child.isChain_cons (Or.inr hr) fun ev he =>
          hz ▸ hw.nonneg ev he

end

theorem FinishesFirst.getLast? (hfi : life.FinishesFirst) (hne : life.child ≠ []) :
    life.stream.getLast? = life.child.getLast? := by
  have he : ∃ start, life.stream = start ++ life.child := by
    unfold stream child
    cases hf : life.finished with
    | none => exact ⟨life.opening, rfl⟩
    | some finished =>
      obtain ⟨hn, -⟩ := hfi (by rw [hf]; exact Option.some_ne_none finished)
      rw [hn]
      exact ⟨life.opening ++ [finished], by simp⟩
  obtain ⟨start, hs⟩ := he
  rw [hs, List.getLast?_append_of_ne_nil _ hne]

/-- The stream of an algo order is projectable exactly if `FINISHED` has not come or has come
right after a `TRIGGERED` that names the child. -/
theorem projectable_iff_finishesFirst (hwell : life.WellFormed) (intentId clientId : String) :
    life.Projectable intentId clientId ↔ life.FinishesFirst := by
  obtain ⟨names, hn⟩ := hwell.identified
  have he : ∀ ev ∈ life.stream, ev.ids.Consistent names ∧ ev.NamesChild :=
    fun ev hev => ⟨hn ev hev, hwell.namesChild ev hev⟩
  have hs : ∃ rest, life.stream = life.created :: rest := ⟨_, rfl⟩
  obtain ⟨rest, hr⟩ := hs
  have hd := hwell.distinct
  have hv := hwell.valid
  have hc := hwell.isChain_stream_iff
  unfold Projectable
  rw [hr] at he hd hv hc ⊢
  constructor
  · rintro ⟨projection, ha, -⟩
    exact hc.mp ((projectOrder_eq_ok_iff intentId clientId hwell.created hd
      he).mp ⟨projection, ha, rfl, rfl, rfl⟩).2.1
  · intro hf
    have hl := hf.getLast? hwell.child.ne_nil
    rw [hr, List.getLast?_cons, ← List.getLastD_eq_getLast?] at hl
    have hch := hc.mpr hf
    obtain ⟨projection, ha, hst, hq, -⟩ :=
      (projectOrder_eq_ok_iff intentId clientId hwell.created hd he).mpr ⟨hv, hch, rfl, rfl, rfl⟩
    exact ⟨projection, ha, _, hl.symm, Or.inl hst, hq⟩

end AlgoLifecycle

end Lifecycle

section Unnamed

def sampleEvent (eventId : String) (state : OrderState) (quantity : ℚ) : OrderEvent where
  eventId := eventId
  occurredAt := ⟨0, some 0⟩
  state := state
  cumulativeFilledQuantity := quantity

def sampleUpdate (eventId algoStatus : String) (actualOrderId : Option String) : OrderEvent :=
  algoUpdateEvent eventId ⟨0, some 0⟩ algoStatus (some "algo") actualOrderId 0

def sampleLifecycle (actualOrderId : Option String) : AlgoLifecycle where
  created := sampleEvent "created" .created 0
  approved := sampleEvent "approved" .riskApproved 0
  submitting := sampleEvent "submitting" .submitting 0
  new := sampleUpdate "new" "NEW" none
  triggering := none
  triggered := sampleUpdate "triggered" "TRIGGERED" actualOrderId
  early := []
  finished := some (sampleUpdate "finished" "FINISHED" none)
  late := [sampleEvent "acknowledged" .acknowledged 0, sampleEvent "half" .partiallyFilled 1,
    sampleEvent "filled" .filled 2]

theorem childEvents_sample (actualOrderId : Option String) :
    ChildEvents (sampleLifecycle actualOrderId).child :=
  @ChildEvents.intro (sampleEvent "acknowledged" .acknowledged 0) (sampleEvent "filled" .filled 2)
    [sampleEvent "half" .partiallyFilled 1] rfl (by simp [sampleEvent]) rfl
    (by norm_num [sampleEvent])

theorem wellFormed_sample {actualOrderId : Option String} (hc : NamedBy "child" actualOrderId) :
    (sampleLifecycle actualOrderId).WellFormed where
  created := rfl
  approved := rfl
  submitting := rfl
  new := ⟨_, _, _, _, _, rfl⟩
  triggering _ he := nomatch he
  triggered := ⟨_, _, _, _, _, rfl⟩
  finished _ he := by
    cases he
    exact ⟨_, _, _, _, _, rfl⟩
  child := childEvents_sample actualOrderId
  utc := by simp [AlgoLifecycle.stream, AlgoLifecycle.opening, sampleLifecycle, sampleEvent,
    sampleUpdate, algoUpdateEvent]
  unfilled := by simp [AlgoLifecycle.opening, sampleLifecycle, sampleEvent, sampleUpdate,
    algoUpdateEvent]
  reported _ he := by
    cases he
    exact Or.inl rfl
  nonneg := by norm_num [AlgoLifecycle.child, sampleLifecycle, sampleEvent]
  distinct := by
    simp [AlgoLifecycle.stream, AlgoLifecycle.opening, sampleLifecycle, sampleEvent, sampleUpdate,
      algoUpdateEvent]
  identified := by
    refine ⟨("order", "algo", "child"), ?_⟩
    have hw : ∀ eventId st qty,
        (sampleEvent eventId st qty).ids.Consistent ("order", "algo", "child") :=
      fun _ _ _ => ⟨namedBy_none _, namedBy_none _, namedBy_none _⟩
    have hu : ∀ eventId algoStatus child, NamedBy "child" child →
        (sampleUpdate eventId algoStatus child).ids.Consistent ("order", "algo", "child") :=
      fun _ _ _ hn => ⟨namedBy_none _, namedBy_self _, namedBy_given hn⟩
    simp [AlgoLifecycle.stream, AlgoLifecycle.opening, sampleLifecycle, hw,
      hu _ _ _ (namedBy_none _), hu _ _ _ hc]

theorem named_child_projectable :
    (sampleLifecycle (some "child")).Projectable "intent" "client" := by
  have hw := wellFormed_sample (namedBy_self "child")
  exact (AlgoLifecycle.projectable_iff_finishesFirst hw "intent" "client").mpr
    fun _ => ⟨rfl, rfl⟩

/-- `TRIGGERED` without the child and `FINISHED` both ask for a reconciliation, which is refused
the second time. -/
theorem unnamed_child_refused :
    ¬ ∀ (life : AlgoLifecycle), life.WellFormed → ∀ intentId clientId : String,
      life.Projectable intentId clientId := by
  intro hc
  obtain ⟨projection, ha, -⟩ := hc (sampleLifecycle none)
    (wellFormed_sample fun _ hf => nomatch hf) "intent" "client"
  revert ha
  have hr : projectOrder "intent" .algo "client" (sampleLifecycle none).stream =
      .error "EXEC_ORDER_STATE_INVARIANT_BREACH" := by decide
  rw [hr]
  rintro ⟨⟩

end Unnamed

end AiQuant.Execution
