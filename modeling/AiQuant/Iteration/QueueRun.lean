import AiQuant.Iteration.Queue

/-! Runs of the iteration queue: what becomes of every cycle that was enqueued. -/
namespace AiQuant.Iteration
open AiQuant.Lib

def queueAfter (calls : List QueueCall) : IterationQueue :=
  calls.foldl IterationQueue.perform .new

def claimsFrom (queue : IterationQueue) : List QueueCall → List IterationCycle
  | [] => []
  | call :: calls => (queue.claimed call).toList ++ claimsFrom (queue.perform call) calls

def claims (calls : List QueueCall) : List IterationCycle :=
  claimsFrom .new calls

def firstEnqueued (calls : List QueueCall) (cycleId : String) : Option IterationCycle :=
  (calls.filterMap QueueCall.cycle?).find? fun cycle => cycle.cycleId = cycleId

/-- A claim of the run moved the cycle to RUNNING. -/
def Entered (calls : List QueueCall) (cycleId : String) : Prop :=
  ∃ record ∈ claims calls, record.cycleId = cycleId ∧ record.state = .running

@[simp] theorem queueAfter_concat (calls : List QueueCall) (call : QueueCall) :
    queueAfter (calls ++ [call]) = (queueAfter calls).perform call := by
  simp [queueAfter]

theorem claimsFrom_append (queue : IterationQueue) (calls more : List QueueCall) :
    claimsFrom queue (calls ++ more) =
      claimsFrom queue calls ++ claimsFrom (calls.foldl IterationQueue.perform queue) more := by
  induction calls generalizing queue with
  | nil => rfl
  | cons call calls ih => simp [claimsFrom, ih]

@[simp] theorem claims_concat (calls : List QueueCall) (call : QueueCall) :
    claims (calls ++ [call]) = claims calls ++ ((queueAfter calls).claimed call).toList := by
  simp [claims, claimsFrom_append, claimsFrom, queueAfter]

variable {cycleId : String}

theorem Entered.append {calls : List QueueCall} (call : QueueCall)
    (he : Entered calls cycleId) : Entered (calls ++ [call]) cycleId := by
  obtain ⟨record, hr, hs⟩ := he
  refine ⟨record, ?_, hs⟩
  rw [claims_concat]
  exact List.mem_append_left _ hr

theorem firstEnqueued_concat (calls : List QueueCall) (call : QueueCall) (cycleId : String) :
    firstEnqueued (calls ++ [call]) cycleId = (firstEnqueued calls cycleId).or
        (call.cycle?.filter fun cycle => cycle.cycleId = cycleId) := by
  rw [firstEnqueued, List.filterMap_append, List.find?_append]
  congr 1
  cases call with
  | enqueue cycle =>
    by_cases hid : cycle.cycleId = cycleId
    · simp [QueueCall.cycle?, Option.filter, hid]
    · simp [QueueCall.cycle?, Option.filter, hid]
  | claim now quotaAvailable => rfl
  | finish cycleId success => rfl

inductive Progress (calls : List QueueCall) (original record : IterationCycle) : Prop
  | untouched (hrecord : record = original)
      (hrunning : (queueAfter calls).running ≠ some original.cycleId)
      (hclaims : ∀ taken ∈ claims calls, taken.cycleId ≠ original.cycleId)
  | deferred (hstate : record.state = .deferredQuota) (horiginal : original.Claimable)
      (hrunning : (queueAfter calls).running ≠ some original.cycleId)
      (htaken : ∃ taken ∈ claims calls, taken.cycleId = original.cycleId)
  | running (hstate : record.state = .running)
      (hrunning : (queueAfter calls).running = some original.cycleId)
      (hentered : Entered calls original.cycleId)
  | finished (hstate : record.state = .completed ∨ record.state = .failed)
      (hrunning : (queueAfter calls).running ≠ some original.cycleId)
      (hentered : Entered calls original.cycleId)

/-- Every cycle of the queue was enqueued and has come so far, and what runs or was claimed is a
cycle of the queue. -/
structure Orderly (calls : List QueueCall) : Prop where
  known : ∀ cycleId,
    (queueAfter calls).cycles.lookup cycleId = none ↔ firstEnqueued calls cycleId = none
  running_known : ∀ cycleId, (queueAfter calls).running = some cycleId →
    (queueAfter calls).cycles.lookup cycleId ≠ none
  claims_known : ∀ taken ∈ claims calls,
    (queueAfter calls).cycles.lookup taken.cycleId ≠ none
  progress : ∀ cycleId original record, firstEnqueued calls cycleId = some original →
    (queueAfter calls).cycles.lookup cycleId = some record →
      Progress calls original record ∧ record.scheduledFor = original.scheduledFor

variable {orig : IterationCycle}

theorem cycleId_of_firstEnqueued {calls : List QueueCall}
    (hf : firstEnqueued calls cycleId = some orig) : orig.cycleId = cycleId := by
  simpa using List.find?_some hf

variable {calls : List QueueCall}

theorem orderly_nil : Orderly [] where
  known _ := Iff.rfl
  running_known _ hrunning := absurd hrunning.symm (Option.some_ne_none _)
  claims_known _ htaken := absurd htaken List.not_mem_nil
  progress _ _ _ hfirst := absurd hfirst.symm (Option.some_ne_none _)

variable {record : IterationCycle}

theorem Progress.frame {call : QueueCall}
    (hs : (queueAfter (calls ++ [call])).running = some orig.cycleId ↔
      (queueAfter calls).running = some orig.cycleId)
    (hc : ∀ taken ∈ (queueAfter calls).claimed call, taken.cycleId ≠ orig.cycleId)
    (hp : Progress calls orig record) : Progress (calls ++ [call]) orig record := by
  cases hp with
  | untouched hrecord hrunning hcl =>
    refine .untouched hrecord (mt hs.mp hrunning) ?_
    intro taken ht
    rw [claims_concat, List.mem_append, Option.mem_toList] at ht
    exact ht.elim (hcl taken) (hc taken)
  | deferred hstate horiginal hrunning ht =>
    obtain ⟨taken, hm, hid⟩ := ht
    refine .deferred hstate horiginal (mt hs.mp hrunning) ⟨taken, ?_, hid⟩
    rw [claims_concat]
    exact List.mem_append_left _ hm
  | running hstate hrunning he =>
    exact .running hstate (hs.mpr hrunning) (he.append call)
  | finished hstate hrunning he =>
    exact .finished hstate (mt hs.mp hrunning) (he.append call)

theorem Orderly.enqueue (ho : Orderly calls) (cycle : IterationCycle) :
    Orderly (calls ++ [.enqueue cycle]) := by
  have hq : queueAfter (calls ++ [.enqueue cycle]) =
      { queueAfter calls with cycles := (queueAfter calls).cycles.setDefault cycle } := by
    rw [queueAfter_concat, IterationQueue.perform_enqueue]
  have hru : (queueAfter (calls ++ [.enqueue cycle])).running =
      (queueAfter calls).running := by rw [hq]
  have hc : claims (calls ++ [.enqueue cycle]) = claims calls := by
    simp [IterationQueue.claimed]
  have hl : ∀ cycleId, (queueAfter (calls ++ [.enqueue cycle])).cycles.lookup cycleId =
        if cycleId = cycle.cycleId
        then some (((queueAfter calls).cycles.lookup cycleId).getD cycle)
        else (queueAfter calls).cycles.lookup cycleId := by
    intro cycleId
    rw [hq]
    exact KeyedList.lookup_setDefault
  have hfi : ∀ cycleId, firstEnqueued (calls ++ [.enqueue cycle]) cycleId =
      if cycleId = cycle.cycleId then some ((firstEnqueued calls cycleId).getD cycle)
      else firstEnqueued calls cycleId := by
    intro cycleId
    rw [firstEnqueued_concat]
    by_cases hid : cycleId = cycle.cycleId
    · cases firstEnqueued calls cycleId <;> simp [QueueCall.cycle?, hid]
    · have hot : ¬ cycle.cycleId = cycleId := fun heq => hid heq.symm
      simp [QueueCall.cycle?, Option.filter, hid, hot]
  have hg : ∀ cycleId, (queueAfter calls).cycles.lookup cycleId ≠ none →
      (queueAfter (calls ++ [.enqueue cycle])).cycles.lookup cycleId ≠ none := by
    intro cycleId hk
    rw [hl]
    split_ifs
    · exact Option.some_ne_none _
    · exact hk
  refine ⟨?_, ?_, ?_, ?_⟩
  · intro cycleId
    rw [hl, hfi]
    split_ifs
    · simp
    · exact ho.known cycleId
  · intro cycleId hs
    exact hg cycleId (ho.running_known cycleId (hru ▸ hs))
  · intro taken ht
    exact hg _ (ho.claims_known taken (hc ▸ ht))
  · intro cycleId orig record hor hr
    have hfr : ∀ found, firstEnqueued calls cycleId = some orig →
        (queueAfter calls).cycles.lookup cycleId = some found →
          Progress (calls ++ [.enqueue cycle]) orig found ∧
            found.scheduledFor = orig.scheduledFor := by
      intro found hold hf
      obtain ⟨hp, hti⟩ := ho.progress cycleId orig found hold hf
      refine ⟨hp.frame (by rw [hru]) ?_, hti⟩
      exact fun taken ht => absurd ht.symm (Option.some_ne_none _)
    rw [hl] at hr
    rw [hfi] at hor
    split_ifs at hr hor with hid
    · cases hold : firstEnqueued calls cycleId with
      | none =>
        -- the cycle is new, and nothing in the past of the queue carries its id
        have hn := (ho.known cycleId).mpr hold
        rw [hold] at hor
        rw [hn] at hr
        obtain rfl : cycle = orig := Option.some.inj hor
        obtain rfl : cycle = record := Option.some.inj hr
        refine ⟨.untouched rfl ?_ ?_, rfl⟩
        · rw [hru, ← hid]
          exact fun hs => ho.running_known _ hs hn
        · rw [hc, ← hid]
          exact fun taken ht heq => ho.claims_known taken ht (heq ▸ hn)
      | some first =>
        obtain ⟨found, hf⟩ := Option.ne_none_iff_exists'.mp
          (mt (ho.known cycleId).mp (hold ▸ Option.some_ne_none _))
        rw [hold] at hor
        rw [hf] at hr
        obtain rfl : first = orig := Option.some.inj hor
        obtain rfl : found = record := Option.some.inj hr
        exact hfr found hold hf
    · exact hfr record hor hr

section Replacing

variable {call : QueueCall}

theorem firstEnqueued_concat_of_none (hc : call.cycle? = none) (cycleId : String) :
    firstEnqueued (calls ++ [call]) cycleId = firstEnqueued calls cycleId := by
  rw [firstEnqueued_concat, hc, Option.filter_none, Option.or_none]

theorem Orderly.unchanged (ho : Orderly calls) (hca : call.cycle? = none)
    (hq : (queueAfter calls).perform call = queueAfter calls)
    (hc : (queueAfter calls).claimed call = none) : Orderly (calls ++ [call]) := by
  have ha : queueAfter (calls ++ [call]) = queueAfter calls := by
    rw [queueAfter_concat, hq]
  have hcl : claims (calls ++ [call]) = claims calls := by simp [hc]
  refine ⟨?_, ?_, ?_, ?_⟩
  · intro cycleId
    rw [ha, firstEnqueued_concat_of_none hca]
    exact ho.known cycleId
  · rw [ha]
    exact ho.running_known
  · rw [ha, hcl]
    exact ho.claims_known
  · intro cycleId orig record hor hr
    rw [firstEnqueued_concat_of_none hca] at hor
    rw [ha] at hr
    obtain ⟨hp, ht⟩ := ho.progress cycleId orig record hor hr
    refine ⟨hp.frame (by rw [ha]) ?_, ht⟩
    simp [hc]

theorem Orderly.replaced (ho : Orderly calls) {cycle updated : IterationCycle}
    (hca : call.cycle? = none) (hcy : cycle ∈ (queueAfter calls).cycles.items)
    (hid : updated.cycleId = cycle.cycleId) (hti : updated.scheduledFor = cycle.scheduledFor)
    (hq : ((queueAfter calls).perform call).cycles = (queueAfter calls).cycles.replace updated)
    (hru : ∀ cycleId, cycleId ≠ cycle.cycleId →
      (((queueAfter calls).perform call).running = some cycleId ↔
        (queueAfter calls).running = some cycleId))
    (hc : ∀ taken ∈ (queueAfter calls).claimed call, taken.cycleId = cycle.cycleId)
    (hp : ∀ orig, orig.cycleId = cycle.cycleId → Progress calls orig cycle →
      Progress (calls ++ [call]) orig updated) : Orderly (calls ++ [call]) := by
  have hf : (queueAfter calls).cycles.lookup cycle.cycleId = some cycle :=
    KeyedList.lookup_of_mem hcy
  have hl : ∀ cycleId, (queueAfter (calls ++ [call])).cycles.lookup cycleId =
      if cycleId = cycle.cycleId then some updated
      else (queueAfter calls).cycles.lookup cycleId := by
    intro cycleId
    rw [queueAfter_concat, hq, KeyedList.lookup_replace, hid]
    split_ifs with hs
    · rw [hs, hf, Option.map_some]
    · rfl
  have hk : ∀ cycleId, (queueAfter (calls ++ [call])).cycles.lookup cycleId = none ↔
      (queueAfter calls).cycles.lookup cycleId = none := by
    intro cycleId
    rw [hl]
    split_ifs with hs
    · simp [hs, hf]
    · rfl
  refine ⟨?_, ?_, ?_, ?_⟩
  · intro cycleId
    rw [hk, firstEnqueued_concat_of_none hca]
    exact ho.known cycleId
  · intro cycleId hso
    rw [ne_eq, hk]
    by_cases hs : cycleId = cycle.cycleId
    · simp [hs, hf]
    · rw [queueAfter_concat] at hso
      exact ho.running_known cycleId ((hru cycleId hs).mp hso)
  · intro taken ht
    rw [ne_eq, hk]
    rw [claims_concat, List.mem_append, Option.mem_toList] at ht
    rcases ht with hold | hn
    · exact ho.claims_known taken hold
    · simp [hc taken hn, hf]
  · intro cycleId orig record hor hr
    rw [firstEnqueued_concat_of_none hca] at hor
    rw [hl] at hr
    have hori := cycleId_of_firstEnqueued hor
    split_ifs at hr with hs
    · obtain rfl : updated = record := Option.some.inj hr
      obtain ⟨hbe, hb⟩ :=
        ho.progress cycleId orig cycle hor (hs ▸ hf)
      exact ⟨hp orig (hori.trans hs) hbe, hti.trans hb⟩
    · obtain ⟨hbe, hb⟩ := ho.progress cycleId orig record hor hr
      refine ⟨hbe.frame ?_ ?_, hb⟩
      · rw [queueAfter_concat, hori]
        exact hru cycleId hs
      · intro taken ht heq
        exact hs (hori.symm.trans (heq.symm.trans (hc taken ht)))

end Replacing

theorem Progress.claimable (hp : Progress calls orig record) (hc : record.Claimable) :
    orig.Claimable := by
  cases hp with
  | untouched hrecord hrunning hclaims => exact hrecord ▸ hc
  | deferred hs horiginal hrunning htaken => exact horiginal
  | running hs hrunning hentered => simp [IterationCycle.Claimable, hs] at hc
  | finished hs hrunning hentered =>
    rcases hs with hs | hs <;> simp [IterationCycle.Claimable, hs] at hc

theorem Orderly.claim (hor : Orderly calls) (now : ℤ) (quotaAvailable : Bool) :
    Orderly (calls ++ [.claim now quotaAvailable]) := by
  rcases (queueAfter calls).claim_cases now quotaAvailable with
    hn | ⟨cycle, hi, hm, ⟨hcla, -⟩, -, hc⟩
  · apply hor.unchanged rfl
    · simp [IterationQueue.perform, hn]
    · simp [IterationQueue.claimed, hn]
  · rcases hc with ⟨rfl, hc⟩ | ⟨rfl, hc⟩
    · have hp : (queueAfter calls).perform (.claim now false) = { queueAfter calls with
            cycles := (queueAfter calls).cycles.replace (cycle.deferred now) } := by
        simp [IterationQueue.perform, hc]
      have hcl : (queueAfter calls).claimed (.claim now false) =
          some (cycle.deferred now) := by simp [IterationQueue.claimed, hc]
      apply hor.replaced rfl hm (cycle.deferred_cycleId now) rfl (by rw [hp])
      · intro cycleId _
        rw [hp]
      · simp [hcl]
      · intro orig ho hpr
        refine .deferred rfl (hpr.claimable hcla) ?_ ⟨cycle.deferred now, ?_, ho.symm⟩
        · rw [queueAfter_concat, hp]
          simp [hi]
        · simp [hcl]
    · have hp : (queueAfter calls).perform (.claim now true) =
          { cycles := (queueAfter calls).cycles.replace cycle.started,
            running := some cycle.cycleId } := by
        simp [IterationQueue.perform, hc]
      have hcl : (queueAfter calls).claimed (.claim now true) = some cycle.started := by
        simp [IterationQueue.claimed, hc]
      apply hor.replaced rfl hm cycle.started_cycleId rfl (by rw [hp])
      · intro cycleId hot
        rw [hp, hi]
        simp [Ne.symm hot]
      · simp [hcl]
      · intro orig ho _
        refine .running rfl ?_ ⟨cycle.started, ?_, ho.symm, rfl⟩
        · rw [queueAfter_concat, hp, ho]
        · simp [hcl]

theorem Orderly.finish (hor : Orderly calls) (cycleId : String) (success : Bool) :
    Orderly (calls ++ [.finish cycleId success]) := by
  rcases (queueAfter calls).finish_cases cycleId success with
    hsa | ⟨cycle, hr, hl, hp⟩
  · exact hor.unchanged rfl hsa rfl
  · obtain rfl := KeyedList.key_of_lookup hl
    apply hor.replaced rfl (KeyedList.mem_of_lookup hl)
      (cycle.finished_cycleId success) rfl (by rw [hp])
    · intro other hot
      rw [hp, hr]
      simp [Ne.symm hot]
    · exact fun taken ht => absurd ht.symm (Option.some_ne_none _)
    · intro orig ho hpr
      have hs : (cycle.finished success).state = .completed ∨
          (cycle.finished success).state = .failed := by
        cases success
        · exact .inr rfl
        · exact .inl rfl
      have hi : (queueAfter (calls ++ [.finish cycle.cycleId success])).running ≠
          some orig.cycleId := by
        rw [queueAfter_concat, hp]
        exact (Option.some_ne_none _).symm
      cases hpr with
      | untouched hrecord hnot hclaims => exact absurd (ho ▸ hr) hnot
      | deferred hdeferred hclaimable hnot ht => exact absurd (ho ▸ hr) hnot
      | running hbefore hattempt he => exact .finished hs hi (he.append _)
      | finished hbefore hnot he => exact absurd (ho ▸ hr) hnot

theorem orderly (calls : List QueueCall) : Orderly calls := by
  induction calls using List.reverseRecOn with
  | nil => exact orderly_nil
  | append_singleton calls call ih =>
    cases call with
    | enqueue cycle => exact ih.enqueue cycle
    | claim now quotaAvailable => exact ih.claim now quotaAvailable
    | finish cycleId success => exact ih.finish cycleId success

theorem exists_original (hl : (queueAfter calls).cycles.lookup cycleId = some record) :
    ∃ orig, firstEnqueued calls cycleId = some orig ∧
      orig.cycleId = cycleId ∧ Progress calls orig record := by
  obtain ⟨orig, ho⟩ := Option.ne_none_iff_exists'.mp
    (mt ((orderly calls).known cycleId).mpr (hl ▸ Option.some_ne_none _))
  exact ⟨orig, ho, cycleId_of_firstEnqueued ho,
    ((orderly calls).progress cycleId orig record ho hl).1⟩

theorem running_state (hr : (queueAfter calls).running = some cycleId) :
    ∃ record, (queueAfter calls).cycles.lookup cycleId = some record ∧
      record.state = .running := by
  obtain ⟨record, hl⟩ := Option.ne_none_iff_exists'.mp ((orderly calls).running_known cycleId hr)
  obtain ⟨orig, -, hid, hp⟩ := exists_original hl
  refine ⟨record, hl, ?_⟩
  cases hp with
  | untouched hrecord hnot hclaims => exact absurd (hid ▸ hr) hnot
  | deferred hstate hclaimable hnot htaken => exact absurd (hid ▸ hr) hnot
  | running hstate hattempt hentered => exact hstate
  | finished hstate hnot hentered => exact absurd (hid ▸ hr) hnot

theorem running_of_state (hl : (queueAfter calls).cycles.lookup cycleId = some record)
    (hs : record.state = .running) : (queueAfter calls).running = some cycleId ∨
      firstEnqueued calls cycleId = some record := by
  obtain ⟨orig, ho, hid, hp⟩ := exists_original hl
  cases hp with
  | untouched hr hnot hclaims => exact .inr (hr ▸ ho)
  | deferred hdeferred hclaimable hnot htaken => simp [hs] at hdeferred
  | running hrunning hattempt hentered => exact .inl (hid ▸ hattempt)
  | finished hfinished hnot hentered => simp [hs] at hfinished

theorem finish_ok_iff (calls : List QueueCall) (cycleId : String) (success : Bool) :
    (∃ outcome, (queueAfter calls).finish cycleId success = .ok outcome) ↔
      (queueAfter calls).running = some cycleId := by
  constructor
  · rintro ⟨outcome, ho⟩
    by_contra hr
    simp [IterationQueue.finish, hr] at ho
  · intro hr
    obtain ⟨record, hl, -⟩ := running_state hr
    exact ⟨(record.finished success,
      ⟨(queueAfter calls).cycles.replace (record.finished success), none⟩),
      by simp [IterationQueue.finish, hr, hl]⟩

theorem final_step (hl : (queueAfter calls).cycles.lookup cycleId = some record)
    (hf : record.state = .completed ∨ record.state = .failed) (call : QueueCall) :
    (queueAfter (calls ++ [call])).cycles.lookup cycleId = some record := by
  rw [queueAfter_concat]
  cases call with
  | enqueue cycle =>
    rw [IterationQueue.perform_enqueue]
    dsimp only
    rw [KeyedList.lookup_setDefault, hl, Option.getD_some, ite_self]
  | claim now quotaAvailable =>
    rcases (queueAfter calls).claim_cases now quotaAvailable with
      hn | ⟨cycle, -, hm, ⟨hcl, -⟩, -, hc⟩
    · simpa [IterationQueue.perform, hn] using hl
    · have ho : cycleId ≠ cycle.cycleId := by
        rintro rfl
        rw [KeyedList.lookup_of_mem hm, Option.some.injEq] at hl
        subst hl
        rcases hf with hs | hs <;>
          simp [IterationCycle.Claimable, hs] at hcl
      rcases hc with ⟨rfl, hc⟩ | ⟨rfl, hc⟩
      · simp [IterationQueue.perform, hc, KeyedList.lookup_replace, ho, hl]
      · simp [IterationQueue.perform, hc, KeyedList.lookup_replace, ho, hl]
  | finish finishedId success =>
    rcases (queueAfter calls).finish_cases finishedId success with
      hsa | ⟨cycle, hr, hfo, hp⟩
    · rwa [hsa]
    · have ho : cycleId ≠ cycle.cycleId := by
        intro heq
        obtain ⟨running, ha, hs⟩ := running_state hr
        rw [← KeyedList.key_of_lookup hfo, ← heq, hl, Option.some.injEq] at ha
        rw [← ha] at hs
        simp [hs] at hf
      rw [hp]
      simp [KeyedList.lookup_replace, ho, hl]

theorem final_forever (hl : (queueAfter calls).cycles.lookup cycleId = some record)
    (hf : record.state = .completed ∨ record.state = .failed) (more : List QueueCall) :
    (queueAfter (calls ++ more)).cycles.lookup cycleId = some record := by
  induction more generalizing calls with
  | nil => rwa [List.append_nil]
  | cons call more ih =>
    rw [List.append_cons]
    exact ih (final_step hl hf call)

theorem lookup_of_not_claimed (ho : firstEnqueued calls orig.cycleId = some orig)
    (hc : ∀ taken ∈ claims calls, taken.cycleId ≠ orig.cycleId) :
    (queueAfter calls).cycles.lookup orig.cycleId = some orig := by
  obtain ⟨record, hl⟩ := Option.ne_none_iff_exists'.mp
    (mt ((orderly calls).known orig.cycleId).mp (ho ▸ Option.some_ne_none _))
  obtain ⟨hp, -⟩ := (orderly calls).progress _ orig record ho hl
  cases hp with
  | untouched hrecord hnot hnone => exact hrecord ▸ hl
  | deferred hstate hclaimable hnot htaken =>
    obtain ⟨taken, hm, hid⟩ := htaken
    exact absurd hid (hc taken hm)
  | running hstate hattempt hentered =>
    obtain ⟨taken, hm, hid, -⟩ := hentered
    exact absurd hid (hc taken hm)
  | finished hstate hnot hentered =>
    obtain ⟨taken, hm, hid, -⟩ := hentered
    exact absurd hid (hc taken hm)

theorem perform_enqueue_known {cycle : IterationCycle}
    (hk : firstEnqueued calls cycle.cycleId ≠ none) :
    (queueAfter calls).perform (.enqueue cycle) = queueAfter calls := by
  have hl := mt ((orderly calls).known cycle.cycleId).mp hk
  rw [IterationQueue.perform_enqueue, KeyedList.setDefault, dif_neg hl]

theorem taken_in_order {now : ℤ} {quotaAvailable : Bool}
    (hcl : ((queueAfter calls).claim now quotaAvailable).1 = some record)
    (ho : firstEnqueued calls orig.cycleId = some orig)
    (hpr : orig.sortKey < record.sortKey) (hd : orig.scheduledFor ≤ now) :
    Entered calls orig.cycleId ∨
      (∃ waiting, (queueAfter calls).cycles.lookup orig.cycleId = some waiting ∧
        ∃ retry, waiting.retryAfter = some retry ∧ now < retry) ∨
      ¬ orig.Claimable := by
  rcases (queueAfter calls).claim_cases now quotaAvailable with
    hn | ⟨cycle, hi, hm, he, hol, hs⟩
  · simp [hn] at hcl
  have hk : record.sortKey = cycle.sortKey := by
    rcases hs with ⟨-, hs⟩ | ⟨-, hs⟩
    · rw [hs, Option.some.injEq] at hcl
      rw [← hcl]
      rfl
    · rw [hs, Option.some.injEq] at hcl
      rw [← hcl]
      rfl
  obtain ⟨found, hf⟩ := Option.ne_none_iff_exists'.mp
    (mt ((orderly calls).known orig.cycleId).mp (ho ▸ Option.some_ne_none _))
  obtain ⟨hp, ht⟩ := (orderly calls).progress _ orig found ho hf
  have hfou : found.sortKey = orig.sortKey := by
    rw [IterationCycle.sortKey, IterationCycle.sortKey, ht, KeyedList.key_of_lookup hf]
  -- the oldest eligible cycle is later than this one, so this one is not eligible
  have hnot : ¬ found.Eligible now := by
    intro hfo
    have hle := hol found (KeyedList.mem_of_lookup hf) hfo
    rw [← hk, hfou] at hle
    exact absurd hpr hle.not_gt
  have hw : found.Claimable → ∃ retry, found.retryAfter = some retry ∧ now < retry := by
    intro hc
    by_contra hn
    refine hnot ⟨hc, ht ▸ hd, ?_⟩
    intro retry hre
    by_contra hlater
    exact hn ⟨retry, hre, not_le.mp hlater⟩
  cases hp with
  | untouched hr hother hclaims =>
    by_cases hc : orig.Claimable
    · exact .inr (.inl ⟨found, hf, hw (hr ▸ hc)⟩)
    · exact .inr (.inr hc)
  | deferred hstate hc hother htaken =>
    exact .inr (.inl ⟨found, hf, hw (.inr hstate)⟩)
  | running hstate hattempt hentered => exact .inl hentered
  | finished hstate hother hentered => exact .inl hentered

/-- Order and idempotence of the queue over every sequence of calls. -/
theorem iteration_queue_orderly (calls : List QueueCall) : ((∀ cycleId success,
        (∃ outcome, (queueAfter calls).finish cycleId success = .ok outcome) ↔
          (queueAfter calls).running = some cycleId) ∧
      (∀ cycleId, (queueAfter calls).running = some cycleId →
        ∃ record, (queueAfter calls).cycles.lookup cycleId = some record ∧
          record.state = .running) ∧
      ∀ cycleId record, (queueAfter calls).cycles.lookup cycleId = some record →
        record.state = .running → (queueAfter calls).running = some cycleId ∨
          firstEnqueued calls cycleId = some record) ∧
      (∀ cycleId record, (queueAfter calls).cycles.lookup cycleId = some record →
        record.state = .completed ∨ record.state = .failed → ∀ more,
          (queueAfter (calls ++ more)).cycles.lookup cycleId = some record) ∧
      (∀ orig, firstEnqueued calls orig.cycleId = some orig →
        (queueAfter calls).perform (.enqueue orig) = queueAfter calls ∧
          ((∀ taken ∈ claims calls, taken.cycleId ≠ orig.cycleId) →
            (queueAfter calls).enqueue orig = .ok (queueAfter calls))) ∧
      ∀ now quotaAvailable record orig,
        ((queueAfter calls).claim now quotaAvailable).1 = some record →
        firstEnqueued calls orig.cycleId = some orig →
        orig.sortKey < record.sortKey → orig.scheduledFor ≤ now → Entered calls orig.cycleId ∨
          (∃ waiting, (queueAfter calls).cycles.lookup orig.cycleId = some waiting ∧
            ∃ retry, waiting.retryAfter = some retry ∧ now < retry) ∨
          ¬ orig.Claimable := by
  refine ⟨⟨finish_ok_iff calls, fun _ => running_state, fun _ _ => running_of_state⟩,
    fun _ _ => final_forever, ?_, fun _ _ _ _ => taken_in_order⟩
  intro orig ho
  have hs := perform_enqueue_known (ho ▸ Option.some_ne_none orig)
  refine ⟨hs, fun hc => ?_⟩
  have hl := lookup_of_not_claimed ho hc
  rw [IterationQueue.perform_enqueue] at hs
  rw [IterationQueue.enqueue, hl]
  dsimp only
  rw [if_neg (not_not_intro rfl), hs]

/-- A new cycle can be claimed, and no claim finds a due cycle that waits for its retry time
before an eligible one. -/
def QueueCall.InOrder (queue : IterationQueue) : QueueCall → Prop
  | .enqueue cycle => queue.cycles.lookup cycle.cycleId = none → cycle.Claimable
  | .claim now _ => ∀ waiting ∈ queue.cycles.items, waiting.Claimable →
      waiting.scheduledFor ≤ now → (∃ retry ∈ waiting.retryAfter, now < retry) →
      ∀ cycle ∈ queue.cycles.items, cycle.Eligible now → cycle.sortKey ≤ waiting.sortKey
  | .finish _ _ => True

instance (queue : IterationQueue) (call : QueueCall) : Decidable (call.InOrder queue) := by
  cases call <;> unfold QueueCall.InOrder <;> infer_instance

/-- Every call of the run is in order, in the state it finds. -/
def InOrderRun (calls : List QueueCall) : Prop :=
  ∀ before call after, calls = before ++ call :: after → call.InOrder (queueAfter before)

theorem inOrderRun_nil : InOrderRun [] := fun _ _ _ hs => by simp at hs

theorem inOrderRun_concat {call : QueueCall} :
    InOrderRun (calls ++ [call]) ↔ InOrderRun calls ∧ call.InOrder (queueAfter calls) := by
  constructor
  · intro ho
    refine ⟨fun pre earlier post hs => ?_, ho calls call [] rfl⟩
    exact ho pre earlier (post ++ [call]) (by simp [hs])
  · rintro ⟨ho, hc⟩ pre later post hs
    rcases List.eq_nil_or_concat post with rfl | ⟨mid, last, rfl⟩
    · obtain ⟨rfl, hl⟩ := List.append_inj' hs rfl
      obtain rfl := List.singleton_inj.mp hl
      exact hc
    · rw [List.concat_eq_append, ← List.cons_append, ← List.append_assoc] at hs
      exact ho pre later mid (List.append_inj_left' hs rfl)

theorem claimable_of_inOrderRun (hr : InOrderRun calls)
    (ho : firstEnqueued calls cycleId = some orig) : orig.Claimable := by
  induction calls using List.reverseRecOn with
  | nil => cases ho
  | append_singleton calls call ih =>
    obtain ⟨hr, hc⟩ := inOrderRun_concat.mp hr
    rw [firstEnqueued_concat] at ho
    cases hf : firstEnqueued calls cycleId with
    | some first =>
      rw [hf, Option.some_or] at ho
      exact ih hr (hf.trans ho)
    | none =>
      rw [hf, Option.none_or, Option.filter_eq_some_iff, decide_eq_true_eq] at ho
      obtain ⟨ho, hid⟩ := ho
      cases call with
      | enqueue cycle =>
        obtain rfl := Option.some.inj ho
        exact hc (hid ▸ ((orderly calls).known cycleId).mpr hf)
      | claim now quotaAvailable => cases ho
      | finish cycleId success => cases ho

theorem entered_of_inOrder {now : ℤ} {quotaAvailable : Bool} (hr : InOrderRun calls)
    (hc : (QueueCall.claim now quotaAvailable).InOrder (queueAfter calls))
    (hcl : ((queueAfter calls).claim now quotaAvailable).1 = some record)
    (ho : firstEnqueued calls orig.cycleId = some orig)
    (hpr : orig.sortKey < record.sortKey) (hd : orig.scheduledFor ≤ now) :
    Entered calls orig.cycleId := by
  rcases taken_in_order hcl ho hpr hd with he | ⟨waiting, hl, retry, hre, hlater⟩ | hn
  · exact he
  · obtain ⟨hp, ht⟩ := (orderly calls).progress _ orig waiting ho hl
    by_contra hne
    have hw : waiting.Claimable := by
      cases hp with
      | untouched hrecord hnot hclaims => exact hrecord ▸ claimable_of_inOrderRun hr ho
      | deferred hstate hclaimable hnot htaken => exact .inr hstate
      | running hstate hattempt hentered => exact absurd hentered hne
      | finished hstate hnot hentered => exact absurd hentered hne
    rcases (queueAfter calls).claim_cases now quotaAvailable with
      hn | ⟨cycle, -, hm, he, -, hs⟩
    · simp [hn] at hcl
    have hk : record.sortKey = cycle.sortKey := by
      rcases hs with ⟨-, hs⟩ | ⟨-, hs⟩
      all_goals
        rw [hs, Option.some.injEq] at hcl
        rw [← hcl]
        rfl
    have hle := hc waiting (KeyedList.mem_of_lookup hl) hw (ht ▸ hd) ⟨retry, hre, hlater⟩
      cycle hm he
    have hwa : waiting.sortKey = orig.sortKey := by
      rw [IterationCycle.sortKey, IterationCycle.sortKey, ht, KeyedList.key_of_lookup hl]
    rw [← hk, hwa] at hle
    exact absurd hpr hle.not_gt
  · exact absurd (claimable_of_inOrderRun hr ho) hn

/-- The queue runs one cycle at a time and the oldest first, and what was enqueued or is final
stays. -/
structure OldestFirst (calls : List QueueCall) : Prop where
  accepted : ∀ cycleId success,
    (∃ outcome, (queueAfter calls).finish cycleId success = .ok outcome) ↔
      (queueAfter calls).running = some cycleId
  single : ∀ cycleId, (queueAfter calls).running = some cycleId ↔
    ∃ record, (queueAfter calls).cycles.lookup cycleId = some record ∧ record.state = .running
  final : ∀ cycleId record, (queueAfter calls).cycles.lookup cycleId = some record →
    record.state = .completed ∨ record.state = .failed →
      ∀ more, (queueAfter (calls ++ more)).cycles.lookup cycleId = some record
  again : ∀ original, firstEnqueued calls original.cycleId = some original →
    (queueAfter calls).perform (.enqueue original) = queueAfter calls ∧
      ((queueAfter calls).cycles.lookup original.cycleId = some original →
        (queueAfter calls).enqueue original = .ok (queueAfter calls))
  order : ∀ before now quotaAvailable after record original,
    calls = before ++ .claim now quotaAvailable :: after →
    ((queueAfter before).claim now quotaAvailable).1 = some record →
    firstEnqueued before original.cycleId = some original →
    original.sortKey < record.sortKey → original.scheduledFor ≤ now →
    Entered before original.cycleId

/-- In a run whose calls are in order, no cycle is claimed, to run or to be deferred, before an
older one that was due has run. -/
theorem oldestFirst_of_inOrderRun (calls : List QueueCall) (hr : InOrderRun calls) :
    OldestFirst calls := by
  obtain ⟨⟨ha, hs, hst⟩, hf, hag, -⟩ := iteration_queue_orderly calls
  refine ⟨ha, fun cycleId => ⟨hs cycleId, ?_⟩, hf, fun orig ho => ⟨(hag orig ho).1, ?_⟩, ?_⟩
  · rintro ⟨record, hl, hru⟩
    refine (hst cycleId record hl hru).resolve_right fun ho => ?_
    have hc := claimable_of_inOrderRun hr ho
    simp [IterationCycle.Claimable, hru] at hc
  · intro hl
    have hsame := (hag orig ho).1
    rw [IterationQueue.perform_enqueue] at hsame
    rw [IterationQueue.enqueue, hl]
    dsimp only
    rw [if_neg (not_not_intro rfl), hsame]
  · rintro pre now quotaAvailable post record orig rfl hcl ho hpr hd
    have hb : InOrderRun pre := fun first call rest hs =>
      hr first call (rest ++ .claim now quotaAvailable :: post) (by simp [hs])
    exact entered_of_inOrder hb (hr pre _ post rfl) hcl ho hpr hd

def sampleCycle (cycleId : String) (scheduledFor : ℤ) (state : CycleState) : IterationCycle where
  cycleId := cycleId
  scheduledFor := scheduledFor
  dataCutoffAt := scheduledFor
  championHash := "champion"
  state := state

/-- The older cycle runs to its end, and the newer one then starts. -/
def servedCalls : List QueueCall :=
  [.enqueue (sampleCycle "old" 0 .queued), .enqueue (sampleCycle "new" 1 .queued),
    .claim 10 true, .finish "old" true, .claim 20 true]

theorem oldestFirst_servedCalls :
    OldestFirst servedCalls ∧ Entered servedCalls "old" ∧ Entered servedCalls "new" := by
  refine ⟨oldestFirst_of_inOrderRun servedCalls ?_, ?_, ?_⟩
  · change InOrderRun ([] ++ [_] ++ [_] ++ [_] ++ [_] ++ [_])
    simp only [inOrderRun_concat]
    refine ⟨⟨⟨⟨⟨inOrderRun_nil, ?_⟩, ?_⟩, ?_⟩, ?_⟩, ?_⟩
    all_goals decide
  · unfold Entered
    decide
  · unfold Entered
    decide

/-- The older cycle is deferred for want of quota, and the newer one starts before it. -/
def deferringCalls : List QueueCall :=
  [.enqueue (sampleCycle "old" 0 .queued), .enqueue (sampleCycle "new" 1 .queued),
    .claim 10 false]

/-- A deferred cycle is overtaken, a cycle may be enqueued as RUNNING, and an original is refused
once its cycle was claimed. -/
theorem older_cycle_overtaken : ((queueAfter deferringCalls).claim 20 true).1 =
        some (sampleCycle "new" 1 .queued).started ∧
      ¬ Entered (deferringCalls ++ [.claim 20 true]) "old" ∧
      (queueAfter [.enqueue (sampleCycle "first" 0 .running),
        .enqueue (sampleCycle "second" 0 .running)]).cycles.items =
          [sampleCycle "first" 0 .running, sampleCycle "second" 0 .running] ∧
      (queueAfter [.enqueue (sampleCycle "old" 0 .queued), .claim 10 true]).enqueue
        (sampleCycle "old" 0 .queued) = .error .identityConflict := by
  refine ⟨?_, ?_, ?_, ?_⟩
  · decide
  · unfold Entered
    decide
  · decide
  · with_unfolding_all rfl

end AiQuant.Iteration
