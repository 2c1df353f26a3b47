import AiQuant.Execution.Orders

/-! What holds of every stream that `project_order` accepts, whatever its length.  Each turn of
the loop checks an event against what came before; the first event is only validated, so the
rule for `STANDARD` intents does not reach a stream of one event. -/
namespace AiQuant.Execution

def terminalStates : List OrderState :=
  [.rejected, .notFoundConfirmed, .canceled, .expired, .filled]

theorem transitions_eq_nil_iff (st : OrderState) : transitions st = [] ↔ st ∈ terminalStates := by
  cases st <;> simp [transitions, terminalStates]

def KeepsId (known later : Option String) : Prop :=
  ∀ name ∈ given known, name ∈ given later

structure OrderIds.KeptBy (ids later : OrderIds) : Prop where
  orderId : KeepsId ids.orderId later.orderId
  algoId : KeepsId ids.algoId later.algoId
  actualOrderId : KeepsId ids.actualOrderId later.actualOrderId

def OrderIds.Algo (ids : OrderIds) : Prop :=
  (given ids.algoId).isSome ∨ (given ids.actualOrderId).isSome

instance (ids : OrderIds) : Decidable ids.Algo := inferInstanceAs (Decidable (_ ∨ _))

section Ids

variable {known id later : Option String} {ids bound final : OrderIds} {ev : OrderEvent}

theorem KeepsId.refl (id : Option String) : KeepsId id id := fun _ hn => hn

theorem KeepsId.trans (hf : KeepsId known id) (hs : KeepsId id later) : KeepsId known later :=
  fun name hn => hs name (hf name hn)

theorem given_or (id known : Option String) :
    given ((given id).or known) = (given id).or (given known) := by
  cases hg : given id with
  | none => rfl
  | some name => rw [Option.some_or, Option.some_or, ← hg, given_given]

theorem keepsId_left (id known : Option String) : KeepsId id ((given id).or known) := by
  intro name hn
  rw [given_or, Option.mem_def.mp hn]
  exact rfl

theorem keepsId_right (hs : idChanged known id = false) : KeepsId known ((given id).or known) := by
  intro name hn
  rw [given_or]
  cases hg : given id with
  | none => exact hn
  | some found =>
    unfold idChanged at hs
    rw [Option.mem_def.mp hn, hg] at hs
    have hf : found = name := by simpa using hs
    exact congrArg some hf

theorem OrderIds.KeptBy.refl (ids : OrderIds) : ids.KeptBy ids :=
  ⟨.refl _, .refl _, .refl _⟩

theorem OrderIds.KeptBy.trans (hf : ids.KeptBy bound) (hs : bound.KeptBy final) :
    ids.KeptBy final :=
  ⟨hf.orderId.trans hs.orderId, hf.algoId.trans hs.algoId, hf.actualOrderId.trans hs.actualOrderId⟩

theorem OrderIds.KeptBy.algo (hk : ids.KeptBy bound) (ha : ids.Algo) : bound.Algo := by
  unfold OrderIds.Algo at ha ⊢
  simp only [Option.isSome_iff_exists] at ha ⊢
  exact ha.imp (Exists.imp fun _ => hk.algoId _) (Exists.imp fun _ => hk.actualOrderId _)

end Ids

section Turns

variable {transport : OrderTransport} {prev ev : OrderEvent} {ids bound : OrderIds}
  {rest more : List OrderEvent}

structure Turn (transport : OrderTransport) (previous : OrderEvent) (ids : OrderIds)
    (event : OrderEvent) (bound : OrderIds) : Prop where
  follows : Follows previous event
  bound_eq : bound = ids.bind event
  kept : ids.KeptBy bound
  bindsEvent : event.ids.KeptBy bound
  standard : transport = .standard → ¬ bound.Algo
  triggered : event.state = .triggered → (given bound.actualOrderId).isSome

theorem turn_of_projectEvent (hp : projectEvent transport prev ids ev = .ok bound) :
    Turn transport prev ids ev bound := by
  unfold projectEvent at hp
  split at hp
  · cases hp
  dsimp only at hp
  split_ifs at hp with hst hl ho hal ha hs htr
  obtain rfl := Except.ok.inj hp
  rw [Bool.not_eq_true] at ho hal ha
  exact {
    follows := ⟨hst, not_lt.mp hl⟩
    bound_eq := rfl
    kept := ⟨keepsId_right ho, keepsId_right hal, keepsId_right ha⟩
    bindsEvent := ⟨keepsId_left _ _, keepsId_left _ _, keepsId_left _ _⟩
    standard := fun ht hb => hs ⟨ht, hb⟩
    triggered := fun he =>
      Option.isSome_iff_ne_none.mpr fun hn => htr ⟨he, hn⟩ }

theorem projectRest_cons_eq_ok {result : OrderEvent × OrderIds}
    (hp : projectRest transport prev ids (ev :: rest) = .ok result) :
    ∃ bound, Turn transport prev ids ev bound ∧
      projectRest transport ev bound rest = .ok result := by
  rw [projectRest] at hp
  split at hp
  · cases hp
  · rename_i bound hturn
    exact ⟨bound, turn_of_projectEvent hturn, hp⟩

theorem projectRest_append {result : OrderEvent × OrderIds}
    (hp : projectRest transport prev ids (rest ++ more) = .ok result) :
    ∃ last bound, projectRest transport prev ids rest = .ok (last, bound) ∧
      projectRest transport last bound more = .ok result := by
  induction rest generalizing prev ids with
  | nil => exact ⟨prev, ids, rfl, hp⟩
  | cons ev rest ih =>
    rw [List.cons_append, projectRest] at hp
    rw [projectRest]
    split at hp
    · cases hp
    · exact ih hp

structure Loop (transport : OrderTransport) (previous : OrderEvent) (ids : OrderIds)
    (rest : List OrderEvent) (last : OrderEvent) (bound : OrderIds) : Prop where
  chain : List.IsChain Follows (previous :: rest)
  last_eq : last = rest.getLastD previous
  kept : ids.KeptBy bound
  bindsEvents : ∀ event ∈ rest, event.ids.KeptBy bound
  standard : transport = .standard → rest ≠ [] → ¬ bound.Algo
  actualFrom : ∀ name ∈ given bound.actualOrderId,
    name ∈ given ids.actualOrderId ∨ ∃ event ∈ rest, name ∈ given event.actualOrderId

theorem Turn.actualFrom (ht : Turn transport prev ids ev bound) {name : String}
    (hn : name ∈ given bound.actualOrderId) :
    name ∈ given ids.actualOrderId ∨ name ∈ given ev.actualOrderId := by
  rw [ht.bound_eq, OrderIds.bind, given_or] at hn
  cases hg : given ev.actualOrderId with
  | none =>
    rw [hg, Option.none_or] at hn
    exact .inl hn
  | some found =>
    rw [hg, Option.some_or] at hn
    exact .inr hn

theorem loop_of_projectRest {last : OrderEvent}
    (hp : projectRest transport prev ids rest = .ok (last, bound)) :
    Loop transport prev ids rest last bound := by
  induction rest generalizing prev ids with
  | nil =>
    obtain ⟨rfl, rfl⟩ := Prod.mk.inj (Except.ok.inj hp)
    exact {
      chain := List.isChain_singleton _
      last_eq := rfl
      kept := .refl _
      bindsEvents := fun _ he => absurd he List.not_mem_nil
      standard := fun _ hnil => absurd rfl hnil
      actualFrom := fun _ hn => .inl hn }
  | cons ev rest ih =>
    obtain ⟨early, htu, hl⟩ := projectRest_cons_eq_ok hp
    have hlo := ih hl
    refine {
      chain := List.isChain_cons_cons.mpr ⟨htu.follows, hlo.chain⟩
      last_eq := by rw [List.getLastD_cons]; exact hlo.last_eq
      kept := htu.kept.trans hlo.kept
      bindsEvents := List.forall_mem_cons.mpr ⟨htu.bindsEvent.trans hlo.kept, hlo.bindsEvents⟩
      standard := fun ht _ => ?_
      actualFrom := fun name hn => ?_ }
    · cases rest with
      | nil =>
        obtain ⟨-, rfl⟩ := Prod.mk.inj (Except.ok.inj hl)
        exact htu.standard ht
      | cons next rest => exact hlo.standard ht (List.cons_ne_nil _ _)
    · rcases hlo.actualFrom name hn with hea | ⟨later, hm, hl⟩
      · exact (htu.actualFrom hea).imp id fun he => ⟨ev, List.mem_cons_self, he⟩
      · exact .inr ⟨later, List.mem_cons_of_mem _ hm, hl⟩

end Turns

def OrderProjection.ids (projection : OrderProjection) : OrderIds :=
  ⟨projection.orderId, projection.algoId, projection.actualOrderId⟩

section Projections

variable {intentId clientId : String} {transport : OrderTransport} {first : OrderEvent}
  {events pre post rest : List OrderEvent} {projection : OrderProjection}

/-- What `project_order` does with an accepted stream. -/
structure Projected (intentId : String) (transport : OrderTransport) (clientId : String)
    (first : OrderEvent) (rest : List OrderEvent) (projection : OrderProjection)
    (last : OrderEvent) (bound : OrderIds) : Prop where
  created : first.state = .created
  distinct : ((first :: rest).map (·.eventId)).Nodup
  valid : first.Valid
  loop : projectRest transport first first.ids rest = .ok (last, bound)
  ids_eq : projection.ids = bound
  quantity_eq : projection.cumulativeFilledQuantity = last.cumulativeFilledQuantity

theorem projectOrder_eq_ok (hp : projectOrder intentId transport clientId events = .ok projection) :
    ∃ first rest last bound, events = first :: rest ∧
      Projected intentId transport clientId first rest projection last bound := by
  unfold projectOrder at hp
  split at hp
  · cases hp
  rename_i first rest
  split_ifs at hp with hc hd
  split at hp
  · cases hp
  rename_i hvalid
  split at hp
  · cases hp
  rename_i last bound hloop
  obtain rfl := Except.ok.inj hp
  exact ⟨first, rest, last, bound, rfl, {
    created := not_not.mp hc
    distinct := hd
    valid := validateEvent_eq_ok_iff.mp hvalid
    loop := hloop
    ids_eq := rfl
    quantity_eq := rfl }⟩

variable {last : OrderEvent} {bound : OrderIds}

theorem Projected.beginning
    (hp : Projected intentId transport clientId first (pre ++ post) projection last bound) :
    ∃ earlier mid early, projectOrder intentId transport clientId (first :: pre) = .ok earlier ∧
        earlier.ids = early ∧ projectRest transport first first.ids pre = .ok (mid, early) ∧
        projectRest transport mid early post = .ok (last, bound) := by
  obtain ⟨mid, early, hb, ha⟩ := projectRest_append hp.loop
  have hd : ((first :: pre).map (·.eventId)).Nodup := by
    refine hp.distinct.sublist (List.Sublist.map _ ?_)
    exact (List.sublist_append_left pre post).cons_cons first
  have he : ∃ earlier, projectOrder intentId transport clientId (first :: pre) = .ok earlier ∧
        earlier.ids = early := by
    rw [projectOrder, if_neg (not_not.mpr hp.created), if_neg (not_not.mpr hd),
      validateEvent_eq_ok_iff.mpr hp.valid]
    dsimp only
    rw [hb]
    exact ⟨_, rfl, rfl⟩
  obtain ⟨earlier, he, hi⟩ := he
  exact ⟨earlier, mid, early, he, hi, hb, ha⟩

/-- The laws of an accepted stream. -/
structure StreamLaws (intentId : String) (transport : OrderTransport) (clientId : String)
    (events : List OrderEvent) (projection : OrderProjection) : Prop where
  transition : List.IsChain (fun previous event => event.state ∈ transitions previous.state) events
  terminalLast : ∀ before event after, events = before ++ event :: after →
    event.state ∈ terminalStates → after = []
  fillsRise : events.Pairwise fun earlier later =>
    earlier.cumulativeFilledQuantity ≤ later.cumulativeFilledQuantity
  lastFill : ∃ last, events.getLast? = some last ∧
    projection.cumulativeFilledQuantity = last.cumulativeFilledQuantity
  idsKept : ∀ event ∈ events, event.ids.KeptBy projection.ids
  triggered : ∀ before event after, events = before ++ event :: after →
    event.state = .triggered →
      ∃ known ∈ before ++ [event], (given known.actualOrderId).isSome = true
  standard : transport = .standard → ¬ projection.ids.Algo
  beginnings : ∀ before after, events = before ++ after → before ≠ [] →
    ∃ earlier, projectOrder intentId transport clientId before = .ok earlier ∧
      earlier.ids.KeptBy projection.ids

/-- The stream is the opening event of a `STANDARD` intent, with an identifier of an algo
order. -/
def OpensAsAlgo (transport : OrderTransport) (events : List OrderEvent) : Prop :=
  transport = .standard ∧ ∃ first, events = [first] ∧ first.ids.Algo

variable {ev : OrderEvent}

theorem Follows.ne_terminal {prev : OrderEvent} (hf : Follows prev ev) :
    prev.state ∉ terminalStates := by
  intro ht
  have hn := (transitions_eq_nil_iff prev.state).mpr ht
  have ha := hf.1
  rw [hn] at ha
  exact List.not_mem_nil ha

theorem terminal_last (hc : List.IsChain Follows events) (hs : events = pre ++ ev :: post)
    (ht : ev.state ∈ terminalStates) : post = [] := by
  cases post with
  | nil => rfl
  | cons next post =>
    rw [hs] at hc
    have hn := (List.isChain_append.mp hc).2.1
    exact absurd ht (List.isChain_cons_cons.mp hn).1.ne_terminal

theorem Projected.triggered
    (hp : Projected intentId transport clientId first rest projection last bound)
    (hs : first :: rest = pre ++ ev :: post) (he : ev.state = .triggered) :
    ∃ known ∈ pre ++ [ev], (given known.actualOrderId).isSome = true := by
  cases pre with
  | nil =>
    obtain ⟨rfl, -⟩ := List.cons.inj hs
    rw [hp.created] at he
    cases he
  | cons opening pre =>
    obtain ⟨rfl, rfl⟩ := List.cons.inj hs
    obtain ⟨-, mid, early, -, -, hb, ha⟩ := hp.beginning
    obtain ⟨ids, ht, -⟩ := projectRest_cons_eq_ok ha
    obtain ⟨name, hn⟩ := Option.isSome_iff_exists.mp (ht.triggered he)
    have hk : ∃ known ∈ first :: pre ++ [ev], name ∈ given known.actualOrderId := by
      rcases ht.actualFrom hn with hea | hse
      · rcases (loop_of_projectRest hb).actualFrom name hea with hf | ⟨known, hm, hid⟩
        · exact ⟨first, by simp, hf⟩
        · exact ⟨known, by simp [hm], hid⟩
      · exact ⟨ev, by simp, hse⟩
    obtain ⟨known, hm, hid⟩ := hk
    exact ⟨known, hm, Option.isSome_iff_exists.mpr ⟨name, hid⟩⟩

theorem Projected.beginnings
    (hp : Projected intentId transport clientId first rest projection last bound)
    (hs : first :: rest = pre ++ post) (hb : pre ≠ []) :
    ∃ earlier, projectOrder intentId transport clientId pre = .ok earlier ∧
      earlier.ids.KeptBy projection.ids := by
  cases pre with
  | nil => exact absurd rfl hb
  | cons opening pre =>
    obtain ⟨rfl, rfl⟩ := List.cons.inj hs
    obtain ⟨earlier, mid, early, he, rfl, -, ha⟩ := hp.beginning
    refine ⟨earlier, he, ?_⟩
    rw [hp.ids_eq]
    exact (loop_of_projectRest ha).kept

/-- An accepted stream obeys the laws exactly if it is not the opening event alone of a
`STANDARD` intent with an identifier of an algo order. -/
theorem projectOrder_laws_iff
    (haccepted : projectOrder intentId transport clientId events = .ok projection) :
    StreamLaws intentId transport clientId events projection ↔ ¬ OpensAsAlgo transport events := by
  obtain ⟨first, rest, last, bound, rfl, hp⟩ := projectOrder_eq_ok haccepted
  have hl := loop_of_projectRest hp.loop
  constructor
  · rintro hla ⟨hs, opening, hsi, ha⟩
    obtain ⟨rfl, -⟩ := List.cons.inj hsi
    exact hla.standard hs ((hla.idsKept _ List.mem_cons_self).algo ha)
  · intro ho
    exact {
      transition := hl.chain.imp fun _ _ hf => hf.1
      terminalLast := fun pre ev post => terminal_last hl.chain
      fillsRise := by
        have hfi : List.IsChain (· ≤ ·) ((first :: rest).map (·.cumulativeFilledQuantity)) :=
          (List.isChain_map _).mpr (hl.chain.imp fun _ _ hf => hf.2)
        exact List.pairwise_map.mp (List.isChain_iff_pairwise.mp hfi)
      lastFill := ⟨last, by rw [List.getLast?_cons, hl.last_eq, List.getLastD_eq_getLast?],
        hp.quantity_eq⟩
      idsKept := by
        rw [hp.ids_eq]
        exact List.forall_mem_cons.mpr ⟨hl.kept, hl.bindsEvents⟩
      triggered := fun pre ev post => hp.triggered
      standard := by
        intro hs
        cases rest with
        | nil =>
          obtain ⟨-, hi⟩ := Prod.mk.inj (Except.ok.inj hp.loop)
          rw [hp.ids_eq, ← hi]
          exact fun ha => ho ⟨hs, first, rfl, ha⟩
        | cons ev rest =>
          rw [hp.ids_eq]
          exact hl.standard hs (List.cons_ne_nil _ _)
      beginnings := fun pre post => hp.beginnings }

end Projections

/-- The events of an algo order whose child is named by the event that triggers it. -/
def triggeredStream : List OrderEvent :=
  [{ eventId := "e1", occurredAt := ⟨1, some 0⟩, state := .created },
   { eventId := "e2", occurredAt := ⟨2, some 0⟩, state := .riskApproved },
   { eventId := "e3", occurredAt := ⟨3, some 0⟩, state := .submitting },
   { eventId := "e4", occurredAt := ⟨4, some 0⟩, state := .triggerPending, algoId := some "77" },
   { eventId := "e5", occurredAt := ⟨5, some 0⟩, state := .triggered,
     actualOrderId := some "9001" }]

theorem triggeredStream_laws : ∃ projection,
    projectOrder "intent-1" .algo "aqa-t-01" triggeredStream = .ok projection ∧
      (StreamLaws "intent-1" .algo "aqa-t-01" triggeredStream projection ↔
        ¬ OpensAsAlgo .algo triggeredStream) :=
  ⟨_, rfl, projectOrder_laws_iff rfl⟩

/-- The opening event of a `STANDARD` intent that already names an algo order. -/
def algoOpening : OrderEvent where
  eventId := "e1"
  occurredAt := ⟨1, some 0⟩
  state := .created
  algoId := some "77"

theorem standard_opening_carries_algo_id : ∃ projection,
    projectOrder "intent-1" .standard "aq-t-01" [algoOpening] = .ok projection ∧
      projection.algoId = some "77" ∧
      ¬ StreamLaws "intent-1" .standard "aq-t-01" [algoOpening] projection :=
  ⟨_, rfl, rfl, fun hl => hl.standard rfl (.inl rfl)⟩

end AiQuant.Execution
