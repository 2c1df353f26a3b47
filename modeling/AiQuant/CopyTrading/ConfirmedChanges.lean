import AiQuant.CopyTrading.LeaderChanges
import AiQuant.CopyTrading.SlotRun

/-! A leader change is shown to the operator in one transaction and executed in another.  What
was shown is stored only in part: between the two the slots, the lifecycles and the fills may
change in any way.  The confirmation is compared with what its execution finds. -/
namespace AiQuant.CopyTrading
open AiQuant.Lib

section Proposals

variable [HexOrder] {tables created : LeaderTables} {directory : LeaderDirectory}
  {req : LeaderChangeRequest} {nonce : String} {now : Time}
  {proposal : LeaderChangeProposal}

structure LeaderTables.Stores (tables : LeaderTables) (challenge : LeaderChallenge) : Prop where
  mem : challenge ∈ tables.challenges
  unique : ∀ other ∈ tables.challenges, other.nonceHash = challenge.nonceHash → other = challenge

theorem createLeaderChange_spec
    (hc : tables.createLeaderChange directory req nonce now = .ok (proposal, created)) :
    0 < req.userId ∧ proposal.nonce = nonce ∧
      tables.leaderChangeDisplay directory req = .ok proposal.confirmation ∧
      (∀ other ∈ tables.challenges, other.nonceHash ≠ .nonce nonce) ∧
      created = { tables with challenges := tables.challenges ++ [req.challenge nonce now] } := by
  unfold LeaderTables.createLeaderChange at hc
  cases hd : tables.leaderChangeDisplay directory req with
  | error reason =>
    rw [hd] at hc
    split_ifs at hc
  | ok confirmation =>
    rw [hd] at hc
    split_ifs at hc with hu hp hk
    cases hc
    refine ⟨not_le.mp hu, rfl, rfl, fun other ho hs => hk ?_, rfl⟩
    rw [List.any_eq_true]
    exact ⟨other, ho, by simp [hs]⟩

theorem LeaderTables.Stores.of_create
    (hc : tables.createLeaderChange directory req nonce now = .ok (proposal, created)) :
    created.Stores (req.challenge nonce now) := by
  obtain ⟨-, -, -, hf, rfl⟩ := createLeaderChange_spec hc
  constructor
  · exact List.mem_append_right _ (List.mem_singleton_self _)
  · intro other ho hs
    rcases List.mem_append.mp ho with hold | hn
    · exact absurd hs (hf other hold)
    · exact List.mem_singleton.mp hn

theorem leaderChangeDisplay_remove {display : LeaderChangeDisplay}
    (hd : tables.leaderChangeDisplay directory req = .ok display)
    (hr : req.leadPortfolioId = none) :
    ∃ current, tables.slots.currentSlot req.slot = some current ∧
      display = .remove req.slot current (directory.nickname current) := by
  unfold LeaderTables.leaderChangeDisplay at hd
  rw [hr] at hd
  dsimp only at hd
  cases hc : tables.slots.currentSlot req.slot with
  | none =>
    rw [hc] at hd
    cases hd
  | some current =>
    rw [hc] at hd
    cases hd
    exact ⟨current, rfl, rfl⟩

theorem leaderChangeDisplay_set {display : LeaderChangeDisplay} {leader : String}
    (hd : tables.leaderChangeDisplay directory req = .ok display)
    (hs : req.leadPortfolioId = some leader) :
    ∃ evidence, display = .set req.slot leader evidence req.manualOverride := by
  unfold LeaderTables.leaderChangeDisplay at hd
  rw [hs] at hd
  dsimp only at hd
  rw [ite_error_eq_ok_iff, ite_error_eq_ok_iff] at hd
  obtain ⟨-, -, hd⟩ := hd
  cases he : directory.evidence leader with
  | none =>
    rw [he] at hd
    cases hd
  | some evidence =>
    rw [he] at hd
    dsimp only at hd
    rw [ite_error_eq_ok_iff, ite_error_eq_ok_iff, ite_error_eq_ok_iff] at hd
    obtain ⟨-, -, -, hd⟩ := hd
    cases hd
    exact ⟨evidence, rfl⟩

end Proposals

section Confirmations

variable [HexOrder] {tables post : LeaderTables} {st : SlotLog} {chal : LeaderChallenge}
  {userId : ℤ} {nonce : String} {now : Time} {report : LeaderChangeReport}

/-- A nonce that the call reads at all. -/
def ReadableNonce (nonce : String) : Prop :=
  8 ≤ nonce.length ∧ nonce.length ≤ 32 ∧ nonce.toList.all (·.toNat < 128)

/-- The user may still consume the challenge. -/
structure LeaderTables.Consumable (tables : LeaderTables) (challenge : LeaderChallenge)
    (userId : ℤ) (now : Time) : Prop where
  user : challenge.userId = userId
  unexpired : now < challenge.expiresAt
  unconsumed : ∀ consumption ∈ tables.consumptions,
    consumption.challengeId ≠ challenge.challengeId

omit [HexOrder] in
theorem pendingChallenge_spec (hs : tables.Stores chal) {found : LeaderChallenge}
    (hf : tables.pendingChallenge userId chal.nonceHash now = some found) :
    found = chal ∧ tables.Consumable chal userId now := by
  have hk := List.find?_some hf
  simp only [Bool.and_eq_true, decide_eq_true_eq, Bool.not_eq_true', List.any_eq_false] at hk
  obtain ⟨⟨⟨hn, hu⟩, he⟩, hc⟩ := hk
  obtain rfl := hs.unique found (List.mem_of_find?_eq_some hf) hn
  exact ⟨rfl, hu, he, hc⟩

omit [HexOrder] in
theorem pendingChallenge_eq_some (hs : tables.Stores chal)
    (hc : tables.Consumable chal userId now) :
    tables.pendingChallenge userId chal.nonceHash now = some chal := by
  have hso : (tables.pendingChallenge userId chal.nonceHash now).isSome := by
    unfold LeaderTables.pendingChallenge
    rw [List.find?_isSome]
    refine ⟨chal, hs.mem, ?_⟩
    simp only [Bool.and_eq_true, decide_eq_true_eq, Bool.not_eq_true', List.any_eq_false]
    exact ⟨⟨⟨trivial, hc.user⟩, hc.unexpired⟩, hc.unconsumed⟩
  obtain ⟨found, hf⟩ := Option.isSome_iff_exists.mp hso
  rw [hf, (pendingChallenge_spec hs hf).1]

theorem executeLeaderChangeConfirmed_eq_some_iff (hs : tables.Stores chal)
    (hn : chal.nonceHash = .nonce nonce) :
    tables.executeLeaderChangeConfirmed userId nonce now = (some report, post) ↔
      0 < userId ∧ ReadableNonce nonce ∧ tables.Consumable chal userId now ∧
        tables.slots.refusesChange chal = false ∧
        report = ⟨chal.slot, chal.leadPortfolioId, tables.slots.displacedLeader chal⟩ ∧
        post = { tables with
          slots := tables.slots.applyLeaderChange chal now
          consumptions := tables.consumptions ++
            [⟨.challengeConsumption chal.challengeId now, chal.challengeId, userId,
              now⟩] } := by
  unfold LeaderTables.executeLeaderChangeConfirmed
  rw [← hn]
  have hre : (userId ≤ 0 || nonce.length < 8 || 32 < nonce.length ||
      !nonce.toList.all (·.toNat < 128)) = false ↔ 0 < userId ∧ ReadableNonce nonce := by
    unfold ReadableNonce
    simp only [Bool.or_eq_false_iff, decide_eq_false_iff_not, not_le, not_lt, Bool.not_eq_false',
      and_assoc]
  constructor
  · intro he
    split at he
    · cases he
    · rename_i hguard
      obtain ⟨hu, hread⟩ := hre.mp (Bool.eq_false_iff.mpr hguard)
      cases hp : tables.pendingChallenge userId chal.nonceHash now with
      | none =>
        rw [hp] at he
        cases he
      | some found =>
        obtain ⟨rfl, hc⟩ := pendingChallenge_spec hs hp
        rw [hp] at he
        dsimp only at he
        split at he
        · cases he
        · rename_i hr
          cases he
          exact ⟨hu, hread, hc, Bool.eq_false_iff.mpr hr, rfl, rfl⟩
  · rintro ⟨hu, hread, hc, hr, rfl, rfl⟩
    rw [if_neg (Bool.eq_false_iff.mp (hre.mpr ⟨hu, hread⟩)), pendingChallenge_eq_some hs hc]
    dsimp only
    rw [if_neg (Bool.eq_false_iff.mp hr)]

theorem executeLeaderChangeConfirmed_slots
    (he : tables.executeLeaderChangeConfirmed userId nonce now = (some report, post)) :
    ∃ chal, tables.slots.refusesChange chal = false ∧
      report = ⟨chal.slot, chal.leadPortfolioId, tables.slots.displacedLeader chal⟩ ∧
      post.slots = tables.slots.applyLeaderChange chal now := by
  unfold LeaderTables.executeLeaderChangeConfirmed at he
  split at he
  · cases he
  · cases hp : tables.pendingChallenge userId (.nonce nonce) now with
    | none =>
      rw [hp] at he
      cases he
    | some found =>
      rw [hp] at he
      dsimp only at he
      split at he
      · cases he
      · rename_i hrefuses
        cases he
        exact ⟨found, Bool.eq_false_iff.mpr hrefuses, rfl, rfl⟩

theorem applyLeaderChange_slots (st : SlotLog) (chal : LeaderChallenge) (now : Time) :
    (st.applyLeaderChange chal now).log = (st.appendSlotChange chal now).log ∧
      (st.applyLeaderChange chal now).slotClearings =
        (st.appendSlotChange chal now).slotClearings := by
  unfold SlotLog.applyLeaderChange
  cases chal.leadPortfolioId with
  | none => cases st.displacedLeader chal <;> exact ⟨rfl, rfl⟩
  | some leader => cases st.displacedLeader chal <;> exact ⟨rfl, rfl⟩

structure SlotLog.ChangedTo (before after : SlotLog) (slot : LeaderSlot)
    (leader : Option String) : Prop where
  assigned : ∃ rows, after.log.slotAssignments = before.log.slotAssignments ++ rows ∧
    rows.map (fun row => (row.slot, row.leadPortfolioId)) = (leader.map (slot, ·)).toList
  cleared : ∃ rows, after.slotClearings = before.slotClearings ++ rows ∧
    rows.map (·.slot) = if leader = none then [slot] else []

theorem applyLeaderChange_changedTo (st : SlotLog) (chal : LeaderChallenge) (now : Time) :
    st.ChangedTo (st.applyLeaderChange chal now) chal.slot chal.leadPortfolioId := by
  obtain ⟨hl, hc⟩ := applyLeaderChange_slots st chal now
  constructor
  · rw [hl]
    unfold SlotLog.appendSlotChange
    cases chal.leadPortfolioId with
    | none => exact ⟨[], (List.append_nil _).symm, rfl⟩
    | some leader => exact ⟨[_], rfl, rfl⟩
  · rw [hc]
    unfold SlotLog.appendSlotChange
    cases chal.leadPortfolioId with
    | none => exact ⟨[_], rfl, rfl⟩
    | some leader => exact ⟨[], (List.append_nil _).symm, rfl⟩

theorem refusesChange_eq_false_iff : st.refusesChange chal = false ↔
      match chal.leadPortfolioId with
      | some leader => ∀ slot, st.currentSlot slot ≠ some leader
      | none => st.currentSlot chal.slot ≠ none := by
  unfold SlotLog.refusesChange
  cases chal.leadPortfolioId with
  | none => simp
  | some leader =>
    simp only [Bool.or_eq_false_iff, decide_eq_false_iff_not, List.any_eq_false,
      Bool.and_eq_true, decide_eq_true_eq, not_and]
    constructor
    · rintro ⟨hh, he⟩ slot
      by_cases hs : slot = chal.slot
      · exact hs ▸ hh
      · exact he slot (mem_leaderSlots slot) hs
    · intro hn
      exact ⟨hn _, fun slot _ _ => hn slot⟩

end Confirmations

section Steps

variable [HexOrder] {tables post : LeaderTables} {chal : LeaderChallenge}

/-- A transaction of somebody else.  The lock of the slots keeps the transactions that write
slot events apart; fills, decisions, lifecycles and locks are written by others at any time. -/
inductive LeaderTablesStep (before : LeaderTables) : LeaderTables → Prop
  | select {selection : SlotSelection} {result : Digest × SlotLog}
      (hselect : before.slots.applySlotSelection selection = .ok result) :
      LeaderTablesStep before { before with slots := result.2 }
  | reconcile (occurredAt : Time) : LeaderTablesStep before
      { before with slots := (before.slots.reconcilePendingSlotReplacements occurredAt).2 }
  | propose {directory : LeaderDirectory} {request : LeaderChangeRequest} {nonce : String}
      {now : Time} {proposal : LeaderChangeProposal} {after : LeaderTables}
      (hcreate : before.createLeaderChange directory request nonce now = .ok (proposal, after)) :
      LeaderTablesStep before after
  | confirm (userId : ℤ) (nonce : String) (now : Time) :
      LeaderTablesStep before (before.executeLeaderChangeConfirmed userId nonce now).2
  | outside {slots : SlotLog} (hrows : slots.slotRows = before.slots.slotRows) :
      LeaderTablesStep before { before with slots := slots }

abbrev LeaderTablesSteps : LeaderTables → LeaderTables → Prop :=
  Relation.ReflTransGen LeaderTablesStep

theorem executeLeaderChangeConfirmed_challenges (tables : LeaderTables) (userId : ℤ)
    (nonce : String) (now : Time) :
    (tables.executeLeaderChangeConfirmed userId nonce now).2.challenges = tables.challenges := by
  unfold LeaderTables.executeLeaderChangeConfirmed
  split
  · rfl
  · cases tables.pendingChallenge userId (.nonce nonce) now with
    | none => rfl
    | some found =>
      dsimp only
      split <;> rfl

theorem LeaderTables.Stores.step (hs : tables.Stores chal)
    (hst : LeaderTablesStep tables post) : post.Stores chal := by
  cases hst with
  | select _ => exact ⟨hs.mem, hs.unique⟩
  | reconcile _ => exact ⟨hs.mem, hs.unique⟩
  | propose hcreate =>
    obtain ⟨-, -, -, hf, rfl⟩ := createLeaderChange_spec hcreate
    refine ⟨List.mem_append_left _ hs.mem, fun other ho hsa => ?_⟩
    rcases List.mem_append.mp ho with hold | hn
    · exact hs.unique other hold hsa
    · rw [List.mem_singleton.mp hn] at hsa
      exact absurd hsa.symm (hf chal hs.mem)
  | confirm userId nonce now =>
    have hsa := executeLeaderChangeConfirmed_challenges tables userId nonce now
    exact ⟨hsa ▸ hs.mem, hsa ▸ hs.unique⟩
  | outside _ => exact ⟨hs.mem, hs.unique⟩

theorem LeaderTables.Stores.steps (hs : tables.Stores chal)
    (hst : LeaderTablesSteps tables post) : post.Stores chal := by
  induction hst with
  | refl => exact hs
  | tail _ hstep ih => exact ih.step hstep

end Steps

section Honoured

variable [HexOrder]

/-- What the text of a confirmation promises of the call that executes it: only the leader
named loses the slot, or gets it, and then it has no other slot and, when it drains, no
position. -/
def LeaderChangeDisplay.HonouredBy (display : LeaderChangeDisplay) (before after : SlotLog) :
    Prop :=
  match display with
  | .remove slot leader _ =>
    before.ChangedTo after slot none ∧ before.currentSlot slot = some leader
  | .set slot leader _ _ =>
    before.ChangedTo after slot (some leader) ∧
      (∀ other, other ≠ slot → before.currentSlot other ≠ some leader) ∧
      (before.latestLeaderLifecycle leader = some .draining →
        before.log.leaderHasPosition leader = false)

/-- When a confirmation of the request, shown on the slots `shown`, finds them as it needs them:
the occupant of a slot to be cleared is the one shown, and a leader who drains has no position.
A call that its own checks refuse needs nothing. -/
def LeaderChangeRequest.StillMeant (request : LeaderChangeRequest) (shown found : SlotLog) :
    Prop :=
  match request.leadPortfolioId with
  | none => found.currentSlot request.slot = none ∨
      found.currentSlot request.slot = shown.currentSlot request.slot
  | some leader => (∃ slot, found.currentSlot slot = some leader) ∨
      found.latestLeaderLifecycle leader ≠ some .draining ∨
      found.log.leaderHasPosition leader = false

theorem honoured_iff_stillMeant {shown : LeaderTables} (found : SlotLog)
    {directory : LeaderDirectory} {req : LeaderChangeRequest} {display : LeaderChangeDisplay}
    (hdi : shown.leaderChangeDisplay directory req = .ok display) (nonce : String)
    (createdAt now : Time) :
    (found.refusesChange (req.challenge nonce createdAt) = false → display.HonouredBy found
      (found.applyLeaderChange (req.challenge nonce createdAt) now)) ↔
      req.StillMeant shown.slots found := by
  have hc := applyLeaderChange_changedTo found (req.challenge nonce createdAt) now
  rw [refusesChange_eq_false_iff]
  unfold LeaderChangeRequest.StillMeant
  cases hle : req.leadPortfolioId with
  | none =>
    obtain ⟨current, hcu, rfl⟩ := leaderChangeDisplay_remove hdi hle
    have hem : (req.challenge nonce createdAt).leadPortfolioId = none := hle
    rw [hem] at hc ⊢
    dsimp only [LeaderChangeDisplay.HonouredBy, LeaderChangeRequest.challenge]
    rw [hcu]
    constructor
    · intro hh
      by_cases hv : found.currentSlot req.slot = none
      · exact Or.inl hv
      · exact Or.inr (hh hv).2
    · intro hm ho
      exact ⟨hc, hm.resolve_left ho⟩
  | some leader =>
    obtain ⟨evidence, rfl⟩ := leaderChangeDisplay_set hdi hle
    have hl : (req.challenge nonce createdAt).leadPortfolioId = some leader := hle
    rw [hl] at hc ⊢
    dsimp only [LeaderChangeDisplay.HonouredBy]
    constructor
    · intro hh
      by_cases he : ∃ slot, found.currentSlot slot = some leader
      · exact Or.inl he
      · right
        by_cases hd : found.latestLeaderLifecycle leader = some .draining
        · exact Or.inr ((hh (not_exists.mp he)).2.2 hd)
        · exact Or.inl hd
    · intro hm hn
      refine ⟨hc, fun other _ => hn other, fun hd => ?_⟩
      rcases hm with ⟨slot, hs⟩ | hot | hf
      · exact absurd hs (hn slot)
      · exact absurd hd hot
      · exact hf

/-- A confirmation does what its text says, whatever happens in between, exactly if it cannot
act on its challenge or finds the slots as they were meant. -/
theorem confirmed_change_honoured_iff {start created pre : LeaderTables}
    {directory : LeaderDirectory} {req : LeaderChangeRequest} {nonce : String}
    {createdAt : Time} {proposal : LeaderChangeProposal}
    (hcreate : start.createLeaderChange directory req nonce createdAt = .ok (proposal, created))
    (hsteps : LeaderTablesSteps created pre) (userId : ℤ) (now : Time) : (∀ report post,
        pre.executeLeaderChangeConfirmed userId proposal.nonce now = (some report, post) →
        proposal.confirmation.HonouredBy pre.slots post.slots) ↔ (0 < userId → ReadableNonce nonce →
        pre.Consumable (req.challenge nonce createdAt) userId now →
        req.StillMeant start.slots pre.slots) := by
  have hs := (LeaderTables.Stores.of_create hcreate).steps hsteps
  obtain ⟨-, rfl, hd, -, -⟩ := createLeaderChange_spec hcreate
  have hm := honoured_iff_stillMeant pre.slots hd proposal.nonce createdAt now
  constructor
  · intro hh hu hn hc
    refine hm.mp fun hr => ?_
    exact hh _ _ ((executeLeaderChangeConfirmed_eq_some_iff hs rfl).mpr ⟨hu, hn, hc, hr, rfl, rfl⟩)
  · intro hco report post he
    obtain ⟨hu, hn, hc, hr, -, rfl⟩ :=
      (executeLeaderChangeConfirmed_eq_some_iff hs rfl).mp he
    exact hm.mpr (hco hu hn hc) hr

end Honoured

section ChangedHands

local instance changedHandsHexOrder : HexOrder := ⟨fun _ => 0⟩

def quietTables : LeaderTables where
  slots := {
    log := { slotAssignments := [⟨.external "assigned", .longTerm, "occupant", 0⟩] } }

def emptyDirectory : LeaderDirectory := ⟨fun _ => none, fun _ => none⟩

def removal : LeaderChangeRequest where
  userId := 7
  slot := .longTerm
  leadPortfolioId := none

def removalNonce : String := "0123456789abcdef"

def removalProposal : LeaderChangeProposal := ⟨removalNonce, .remove .longTerm "occupant" none⟩

def removalProposed : LeaderTables :=
  { quietTables with challenges := [removal.challenge removalNonce 5] }

theorem createLeaderChange_removal :
    quietTables.createLeaderChange emptyDirectory removal removalNonce 5 =
      .ok (removalProposal, removalProposed) := by
  rfl

def successorSelection : SlotSelection where
  candidateIds := ["successor"]
  selectedLeaderIds := ["successor"]
  strategy := .longTerm
  scheduledFor := 0
  candidateDigest := .external "candidates"
  policyDigest := .external "policy"
  occurredAt := 10

/-- A selection of the other strategy. -/
def swingSelection : SlotSelection :=
  { successorSelection with
    candidateIds := ["first", "second"]
    selectedLeaderIds := ["first", "second"]
    strategy := .shortTerm }

def selectedTables (selection : SlotSelection) : LeaderTables :=
  { removalProposed with slots := quietTables.slots.commitSelection selection }

theorem selectedTables_step (sel : SlotSelection) (hw : sel.WellFormed)
    (hr : quietTables.slots.selectionRefusal sel = none) :
    LeaderTablesStep removalProposed (selectedTables sel) := by
  have hs : removalProposed.slots.applySlotSelection sel =
      .ok (sel.selectionRunId, quietTables.slots.commitSelection sel) := by
    have hn : sel.selectionRunId ∉ removalProposed.slots.selectionRuns := List.not_mem_nil
    have ha : removalProposed.slots.selectionRefusal sel = none := hr
    unfold SlotLog.applySlotSelection
    rw [if_neg (not_not.mpr hw), if_neg hn, ha]
    rfl
  exact .select hs

/-- The leaders of the other strategy are selected between the proposal and its confirmation. -/
theorem removal_honoured :
    ((selectedTables swingSelection).executeLeaderChangeConfirmed 7 removalNonce 20).1 =
        some ⟨.longTerm, none, some ("occupant", .retired)⟩ ∧
      removalProposal.confirmation.HonouredBy (selectedTables swingSelection).slots
        ((selectedTables swingSelection).executeLeaderChangeConfirmed
          7 removalNonce 20).2.slots := by
  have hs := selectedTables_step swingSelection (by decide) (by decide)
  have hr : ((selectedTables swingSelection).executeLeaderChangeConfirmed 7 removalNonce 20).1 =
      some ⟨.longTerm, none, some ("occupant", .retired)⟩ := by decide
  have hk : (selectedTables swingSelection).slots.currentSlot .longTerm =
      quietTables.slots.currentSlot .longTerm := by decide
  refine ⟨hr, ?_⟩
  exact (confirmed_change_honoured_iff createLeaderChange_removal
    (Relation.ReflTransGen.single hs) 7 20).mpr (fun _ _ _ => Or.inr hk) _ _ (Prod.ext hr rfl)

theorem successor_cleared :
    ¬ ∀ [HexOrder] (start created pre : LeaderTables) (directory : LeaderDirectory)
        (req : LeaderChangeRequest) (nonce : String) (createdAt : Time)
        (proposal : LeaderChangeProposal),
      start.createLeaderChange directory req nonce createdAt = .ok (proposal, created) →
      LeaderTablesSteps created pre → ∀ (userId : ℤ) (now : Time) report post,
        pre.executeLeaderChangeConfirmed userId proposal.nonce now = (some report, post) →
        proposal.confirmation.HonouredBy pre.slots post.slots := by
  intro hc
  have hs := selectedTables_step successorSelection (by decide) (by decide)
  have hr : ((selectedTables successorSelection).executeLeaderChangeConfirmed
      7 removalNonce 20).1 = some ⟨.longTerm, none, some ("successor", .retired)⟩ := by decide
  have hh := hc _ _ _ _ _ _ _ _ createLeaderChange_removal
    (Relation.ReflTransGen.single hs) 7 20 _ _ (Prod.ext hr rfl)
  have ho : (selectedTables successorSelection).slots.currentSlot .longTerm =
    some "occupant" := hh.2
  revert ho
  decide

end ChangedHands

end AiQuant.CopyTrading
