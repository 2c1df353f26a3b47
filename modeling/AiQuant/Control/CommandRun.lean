import AiQuant.Control.Commands
import Mathlib.Data.List.Induction

/-! Runs of the command store.  Identities are hashes of texts that are joined with `|`, so two
requests whose joined texts are equal share one identity; in a run without such requests every
challenge and every command is the request's own. -/
namespace AiQuant.Control
open AiQuant.Lib

/-- One record, as it stands at two times. -/
def SameCommand (first second : CommandRecord) : Prop := first.core = second.core

/-- One challenge at two times; a consumed one stays consumed. -/
def SameChallenge (first second : FlattenChallenge) : Prop :=
  first.core = second.core ∧ (first.consumed = true → second.consumed = true)

instance : Std.Refl SameCommand := ⟨fun _ => rfl⟩

instance : IsTrans CommandRecord SameCommand := ⟨fun _ _ _ hfirst hsecond => hfirst.trans hsecond⟩

instance : Std.Refl SameChallenge := ⟨fun _ => ⟨rfl, id⟩⟩

instance : IsTrans FlattenChallenge SameChallenge :=
  ⟨fun _ _ _ hfirst hsecond => ⟨hfirst.1.trans hsecond.1, hsecond.2 ∘ hfirst.2⟩⟩

section Statements

variable {Payload : Type} (hashing : CommandHashing Payload) (calls : List (StoreCall Payload))

/-- A call of the run has this answer. -/
def Answers (call : StoreCall Payload) (answer : Except StoreError Returned) : Prop :=
  ∃ before after, calls = before ++ call :: after ∧
    ((storeAfter hashing before).perform hashing call).1 = answer

/-- The joined texts tell the requests of the run apart. -/
structure IdentitiesApart : Prop where
  challenges : ∀ first firstNow second secondNow, .prepareFlatten first firstNow ∈ calls →
    .prepareFlatten second secondNow ∈ calls → first.text = second.text → first = second
  commands : ∀ first firstHash second secondHash, .accept first ∈ calls →
    .accept second ∈ calls → hashing.payloadHash first.payload = some firstHash →
    hashing.payloadHash second.payload = some secondHash →
    first.text firstHash = second.text secondHash → first.idempotencyKey = second.idempotencyKey

structure CommandStoreSound : Prop where
  same_challenge : ∀ first firstNow second secondNow challenge other,
    Answers hashing calls (.prepareFlatten first firstNow) (.ok (.challenge challenge)) →
    Answers hashing calls (.prepareFlatten second secondNow) (.ok (.challenge other)) →
    (challenge.core = other.core ↔ first = second)
  consumed_once : ∀ before middle after first second challenge other,
    calls = before ++ .consumeFlatten first :: middle ++ .consumeFlatten second :: after →
    ((storeAfter hashing before).perform hashing (.consumeFlatten first)).1 =
      .ok (.challenge challenge) →
    ((storeAfter hashing (before ++ .consumeFlatten first :: middle)).perform hashing
      (.consumeFlatten second)).1 = .ok (.challenge other) →
    first.challengeId ≠ second.challengeId
  consumed_by_owner : ∀ confirmation challenge,
    Answers hashing calls (.consumeFlatten confirmation) (.ok (.challenge challenge)) →
    ∃ identity now, .prepareFlatten identity now ∈ calls ∧
      challenge = { hashing.challenge identity now with consumed := true } ∧
      confirmation.challengeId = hashing.head identity.text ∧
      confirmation.actorId = identity.actorId ∧
      confirmation.positionsDigest = identity.positionsDigest ∧
      confirmation.confirmationPhrase = challenge.confirmationPhrase ∧
      confirmation.now ≤ challenge.expiresAt
  one_command : ∀ request answer, Answers hashing calls (.accept request) answer →
    hashing.payloadHash request.payload = none ∧ answer = .error .payload ∨
    answer = .error (.commandConflict "IDEMPOTENCY_CONFLICT") ∨
    ∃ record, answer = .ok (.command record) ∧ ∀ other otherRecord,
      Answers hashing calls (.accept other) (.ok (.command otherRecord)) →
      other.idempotencyKey = request.idempotencyKey → otherRecord.core = record.core
  raising : ∀ before call after error, calls = before ++ call :: after →
    ((storeAfter hashing before).perform hashing call).1 = .error error →
    ((storeAfter hashing before).perform hashing call).2 = storeAfter hashing before

end Statements

section Steps

variable {Payload : Type} {hashing : CommandHashing Payload}
  {calls done more : List (StoreCall Payload)}
  {store : InMemoryCommandStore} {call : StoreCall Payload}

theorem perform_cases (hashing : CommandHashing Payload) (store : InMemoryCommandStore)
    (call : StoreCall Payload) : (store.perform hashing call).2 = store ∨
    (∃ req requestHash, call = .accept req ∧
      hashing.payloadHash req.payload = some requestHash ∧
      store.existingId req.idempotencyKey = none ∧ store.perform hashing call =
        (.ok (.command (hashing.record req requestHash)),
          store.enter (hashing.record req requestHash))) ∨
    (∃ commandId now record, call = .complete commandId now ∧
      store.commands commandId = some record ∧ store.perform hashing call =
        (.ok (.command { record with state := .completed, updatedAt := now }),
          store.setCommand commandId { record with state := .completed, updatedAt := now })) ∨
    (∃ identity now, call = .prepareFlatten identity now ∧
      store.challenges (hashing.head identity.text) = none ∧ store.perform hashing call =
        (.ok (.challenge (hashing.challenge identity now)),
          store.setChallenge (hashing.head identity.text) (hashing.challenge identity now))) ∨
    ∃ confirmation chal, call = .consumeFlatten confirmation ∧
      store.challenges confirmation.challengeId = some chal ∧ store.perform hashing call =
        (.ok (.challenge { chal with consumed := true }),
          store.setChallenge confirmation.challengeId { chal with consumed := true }) := by
  cases call with
  | accept req =>
    rw [InMemoryCommandStore.perform, InMemoryCommandStore.accept]
    split
    · exact .inl rfl
    · rename_i requestHash hh
      split
      · split
        · exact .inl rfl
        · split_ifs <;> exact .inl rfl
      · rename_i hn
        exact .inr (.inl ⟨req, requestHash, rfl, hh, hn, rfl⟩)
  | findIdempotent commandType idempotencyKey data => exact .inl rfl
  | complete commandId now =>
    rw [InMemoryCommandStore.perform, InMemoryCommandStore.complete]
    split
    · exact .inl rfl
    · rename_i record hr
      exact .inr (.inr (.inl ⟨commandId, now, record, rfl, hr, rfl⟩))
  | prepareFlatten identity now =>
    rw [InMemoryCommandStore.perform, InMemoryCommandStore.prepareFlatten]
    split
    · exact .inl rfl
    · rename_i hn
      split_ifs
      · exact .inl rfl
      · exact .inr (.inr (.inr (.inl ⟨identity, now, rfl, hn, rfl⟩)))
  | consumeFlatten confirmation =>
    rw [InMemoryCommandStore.perform, InMemoryCommandStore.consumeFlatten]
    split
    · exact .inl rfl
    · rename_i chal hc
      split_ifs
      · exact .inl rfl
      · exact .inl rfl
      · exact .inl rfl
      · exact .inr (.inr (.inr (.inr ⟨confirmation, chal, rfl, hc, rfl⟩)))

theorem perform_error {error : StoreError} (hr : (store.perform hashing call).1 = .error error) :
    (store.perform hashing call).2 = store := by
  rcases perform_cases hashing store call with hs | ⟨_, _, -, -, -, hok⟩ |
    ⟨_, _, _, -, -, hok⟩ | ⟨_, _, -, -, hok⟩ | ⟨_, _, -, -, hok⟩
  · exact hs
  all_goals
    rw [hok] at hr
    cases hr

structure Consistent (hashing : CommandHashing Payload) (calls : List (StoreCall Payload))
    (store : InMemoryCommandStore) : Prop where
  command : ∀ commandId record, store.commands commandId = some record →
    record.commandId = commandId ∧ ∃ request requestHash, .accept request ∈ calls ∧
      hashing.payloadHash request.payload = some requestHash ∧
      commandId = hashing.head (request.text requestHash) ∧
      store.byIdempotency request.idempotencyKey ≠ none
  known : ∀ idempotencyKey commandId, store.byIdempotency idempotencyKey = some commandId →
    store.commands commandId ≠ none
  challenge : ∀ challengeId challenge, store.challenges challengeId = some challenge →
    challenge.challengeId = challengeId ∧ ∃ identity now,
      .prepareFlatten identity now ∈ calls ∧ challenge.core = hashing.challenge identity now

theorem Consistent.unbound {idempotencyKey : String} (hs : Consistent hashing calls store)
    (hn : store.existingId idempotencyKey = none) : store.byIdempotency idempotencyKey = none := by
  cases hb : store.byIdempotency idempotencyKey with
  | none => rfl
  | some commandId =>
    obtain ⟨record, hr⟩ :=
      Option.ne_none_iff_exists'.mp (hs.known idempotencyKey commandId hb)
    obtain ⟨-, req, requestHash, -, -, hid, -⟩ := hs.command commandId record hr
    have he : commandId ≠ "" := hid ▸ hashing.head_ne_empty _
    rw [InMemoryCommandStore.existingId, hb, Option.filter_some_pos (by simpa using he)]
      at hn
    cases hn

theorem Consistent.perform (hs : Consistent hashing calls store) (hca : call ∈ calls) :
    Consistent hashing calls (store.perform hashing call).2 := by
  rcases perform_cases hashing store call with hsa |
    ⟨req, requestHash, rfl, hh, hn, hok⟩ | ⟨commandId, now, record, rfl, hr, hok⟩ |
    ⟨identity, now, rfl, hn, hok⟩ | ⟨confirmation, chal, rfl, hc, hok⟩
  · rwa [hsa]
  all_goals rw [hok]
  · refine ⟨fun commandId record hr => ?_, fun key commandId hk => ?_, hs.challenge⟩
    · simp only [InMemoryCommandStore.enter, InMemoryCommandStore.setCommand,
        Function.update_apply] at hr ⊢
      split_ifs at hr with hid
      · obtain rfl := Option.some.inj hr
        exact ⟨hid.symm, req, requestHash, hca, hh, hid, by
          simp [CommandHashing.record]⟩
      · obtain ⟨hown, earlier, hash, he, hp, ht, hb⟩ :=
          hs.command commandId record hr
        refine ⟨hown, earlier, hash, he, hp, ht, ?_⟩
        split_ifs
        · exact Option.some_ne_none _
        · exact hb
    · simp only [InMemoryCommandStore.enter, InMemoryCommandStore.setCommand,
        Function.update_apply] at hk ⊢
      split_ifs with hid
      · exact Option.some_ne_none _
      · split_ifs at hk with hown
        · exact absurd (Option.some.inj hk).symm hid
        · exact hs.known key commandId hk
  · refine ⟨fun other otherRecord ho => ?_, fun key other hk => ?_, hs.challenge⟩
    · simp only [InMemoryCommandStore.setCommand, Function.update_apply] at ho
      split_ifs at ho with hid
      · obtain rfl := Option.some.inj ho
        rw [hid]
        exact hs.command commandId record hr
      · exact hs.command other otherRecord ho
    · simp only [InMemoryCommandStore.setCommand, Function.update_apply]
      split_ifs
      · exact Option.some_ne_none _
      · exact hs.known key other hk
  · refine ⟨hs.command, hs.known, fun challengeId chal hc => ?_⟩
    simp only [InMemoryCommandStore.setChallenge, Function.update_apply] at hc
    split_ifs at hc with hid
    · obtain rfl := Option.some.inj hc
      exact ⟨hid.symm, identity, now, hca, rfl⟩
    · exact hs.challenge challengeId chal hc
  · refine ⟨hs.command, hs.known, fun challengeId other ho => ?_⟩
    simp only [InMemoryCommandStore.setChallenge, Function.update_apply] at ho
    split_ifs at ho with hid
    · obtain rfl := Option.some.inj ho
      rw [hid]
      exact hs.challenge confirmation.challengeId chal hc
    · exact hs.challenge challengeId other ho

/-- What a store keeps of an earlier one. -/
structure Continues (before after : InMemoryCommandStore) : Prop where
  keys : Persists Eq before.byIdempotency after.byIdempotency
  commands : Persists SameCommand before.commands after.commands
  challenges : Persists SameChallenge before.challenges after.challenges

theorem Continues.refl (store : InMemoryCommandStore) : Continues store store :=
  ⟨Persists.refl _, Persists.refl _, Persists.refl _⟩

theorem Continues.trans {pre mid post : InMemoryCommandStore}
    (hf : Continues pre mid) (hs : Continues mid post) : Continues pre post :=
  ⟨hf.keys.trans hs.keys, hf.commands.trans hs.commands, hf.challenges.trans hs.challenges⟩

theorem Consistent.continues (hs : Consistent hashing calls store)
    (ha : IdentitiesApart hashing calls) (hca : call ∈ calls) :
    Continues store (store.perform hashing call).2 := by
  rcases perform_cases hashing store call with hsa |
    ⟨req, requestHash, rfl, hh, hn, hok⟩ | ⟨commandId, now, record, rfl, hr, hok⟩ |
    ⟨identity, now, rfl, hn, hok⟩ | ⟨confirmation, chal, rfl, hc, hok⟩
  · rw [hsa]
    exact .refl store
  all_goals rw [hok]
  · have hf := hs.unbound hn
    refine ⟨Persists.update fun old ho => ?_, Persists.update fun old ho => ?_, .refl _⟩
    · rw [CommandHashing.record, hf] at ho
      cases ho
    · -- an old record under the new id was accepted under the same key, which is not free then
      obtain ⟨-, earlier, hash, he, hp, ht, hb⟩ := hs.command _ old ho
      have hk := ha.commands req requestHash earlier hash hca he hh hp (hashing.head_injective ht)
      rw [← hk] at hb
      exact absurd hf hb
  · refine ⟨.refl _, Persists.update fun old ho => ?_, .refl _⟩
    rw [hr] at ho
    rw [← Option.some.inj ho]
    rfl
  · refine ⟨.refl _, .refl _, Persists.update fun old ho => ?_⟩
    rw [hn] at ho
    cases ho
  · refine ⟨.refl _, .refl _, Persists.update fun old ho => ?_⟩
    rw [hc] at ho
    rw [← Option.some.inj ho]
    exact ⟨rfl, fun _ => rfl⟩

theorem storeAfter_concat (hashing : CommandHashing Payload) (calls : List (StoreCall Payload))
    (call : StoreCall Payload) :
    storeAfter hashing (calls ++ [call]) = ((storeAfter hashing calls).perform hashing call).2 := by
  rw [storeAfter, List.foldl_append]
  rfl

theorem consistent_after (hd : ∀ call ∈ done, call ∈ calls) :
    Consistent hashing calls (storeAfter hashing done) := by
  induction done using List.reverseRecOn with
  | nil =>
    exact ⟨fun _ _ hr => (by cases hr), fun _ _ hk => (by cases hk),
      fun _ _ hc => (by cases hc)⟩
  | append_singleton done call ih =>
    rw [storeAfter_concat]
    exact (ih fun earlier he => hd earlier (List.mem_append_left _ he)).perform
      (hd call (List.mem_append_right _ (List.mem_singleton_self call)))

theorem continues_after (ha : IdentitiesApart hashing calls)
    (hd : ∀ call ∈ done ++ more, call ∈ calls) :
    Continues (storeAfter hashing done) (storeAfter hashing (done ++ more)) := by
  induction more using List.reverseRecOn with
  | nil =>
    rw [List.append_nil]
    exact .refl _
  | append_singleton more call ih =>
    rw [← List.append_assoc] at hd ⊢
    have hea : ∀ earlier ∈ done ++ more, earlier ∈ calls :=
      fun earlier he => hd earlier (List.mem_append_left _ he)
    rw [storeAfter_concat]
    exact (ih hea).trans ((consistent_after hea).continues ha
      (hd call (List.mem_append_right _ (List.mem_singleton_self call))))

theorem continues_to_end {pre post : List (StoreCall Payload)}
    (ha : IdentitiesApart hashing calls) (hc : calls = pre ++ call :: post) :
    Continues ((storeAfter hashing pre).perform hashing call).2 (storeAfter hashing calls) := by
  have hs : calls = (pre ++ [call]) ++ post := by rw [hc]; simp
  rw [← storeAfter_concat]
  have hr := @continues_after _ hashing calls (pre ++ [call]) post ha
    (by rw [← hs]; exact fun _ hm => hm)
  rwa [← hs] at hr

theorem consistent_before (hashing : CommandHashing Payload)
    {pre post : List (StoreCall Payload)} (hc : calls = pre ++ call :: post) :
    Consistent hashing calls (storeAfter hashing pre) :=
  consistent_after fun _ he => hc ▸ List.mem_append_left _ he

variable {chal : FlattenChallenge}

theorem prepareFlatten_ok {identity : FlattenIdentity} {now : ℤ}
    (hok : (store.perform hashing (.prepareFlatten identity now)).1 = .ok (.challenge chal)) :
    (store.perform hashing (.prepareFlatten identity now)).2.challenges
      (hashing.head identity.text) = some chal := by
  simp only [InMemoryCommandStore.perform, InMemoryCommandStore.prepareFlatten] at hok ⊢
  cases hf : store.challenges (hashing.head identity.text) with
  | some found =>
    simp only [hf] at hok ⊢
    rw [← Returned.challenge.inj (Except.ok.inj hok)]
    exact hf
  | none =>
    simp only [hf] at hok ⊢
    split_ifs at hok ⊢
    · cases hok
    · rw [← Returned.challenge.inj (Except.ok.inj hok)]
      exact Function.update_self _ _ _

theorem consumeFlatten_ok {confirmation : FlattenConfirmation}
    (hok : (store.perform hashing (.consumeFlatten confirmation)).1 = .ok (.challenge chal)) :
    ∃ held, store.challenges confirmation.challengeId = some held ∧ held.consumed = false ∧
      confirmation.now ≤ held.expiresAt ∧ held.actorId = confirmation.actorId ∧
      held.positionsDigest = confirmation.positionsDigest ∧
      held.confirmationPhrase = confirmation.confirmationPhrase ∧
      chal = { held with consumed := true } ∧
      (store.perform hashing (.consumeFlatten confirmation)).2.challenges
        confirmation.challengeId = some chal := by
  simp only [InMemoryCommandStore.perform, InMemoryCommandStore.consumeFlatten] at hok ⊢
  cases hh : store.challenges confirmation.challengeId with
  | none =>
    simp only [hh] at hok
    cases hok
  | some held =>
    simp only [hh] at hok ⊢
    split_ifs at hok ⊢ with hu hl ho
    · cases hok
    · cases hok
    · cases hok
    · obtain rfl := Returned.challenge.inj (Except.ok.inj hok)
      simp only [not_or, not_not] at ho
      exact ⟨held, rfl, Bool.eq_false_iff.mpr hu, not_lt.mp hl, ho.1, ho.2.1,
        ho.2.2, rfl, Function.update_self _ _ _⟩

theorem Consistent.accept (hs : Consistent hashing calls store) (req : CommandRequest Payload) :
    hashing.payloadHash req.payload = none ∧
      (store.perform hashing (.accept req)).1 = .error .payload ∨
    (store.perform hashing (.accept req)).1 = .error (.commandConflict "IDEMPOTENCY_CONFLICT") ∨
    ∃ record, (store.perform hashing (.accept req)).1 = .ok (.command record) ∧
      (store.perform hashing (.accept req)).2.byIdempotency req.idempotencyKey =
        some record.commandId ∧
      (store.perform hashing (.accept req)).2.commands record.commandId = some record := by
  simp only [InMemoryCommandStore.perform, InMemoryCommandStore.accept]
  cases hh : hashing.payloadHash req.payload with
  | none => exact .inl ⟨rfl, rfl⟩
  | some requestHash =>
    refine .inr ?_
    cases hb : store.existingId req.idempotencyKey with
    | none =>
      refine .inr ⟨_, rfl, ?_, ?_⟩
      · exact Function.update_self _ _ _
      · exact Function.update_self _ _ _
    | some commandId =>
      have hk := (Option.filter_eq_some_iff.mp hb).1
      obtain ⟨record, hr⟩ := Option.ne_none_iff_exists'.mp (hs.known _ commandId hk)
      simp only [hr]
      split_ifs
      · exact .inl rfl
      · obtain ⟨rfl, -⟩ := hs.command commandId record hr
        exact .inr ⟨record, rfl, hk, hr⟩

theorem prepared_at_end (hap : IdentitiesApart hashing calls) {identity : FlattenIdentity} {now : ℤ}
    (ha : Answers hashing calls (.prepareFlatten identity now) (.ok (.challenge chal))) :
    chal.challengeId = hashing.head identity.text ∧ ∃ last,
      (storeAfter hashing calls).challenges (hashing.head identity.text) = some last ∧
        chal.core = last.core := by
  obtain ⟨pre, post, hc, hok⟩ := ha
  have he := prepareFlatten_ok hok
  have hca : StoreCall.prepareFlatten identity now ∈ calls := by
    rw [hc]
    exact List.mem_append_right _ List.mem_cons_self
  have hs := (consistent_before hashing hc).perform hca
  obtain ⟨last, hl, hsa, -⟩ := (continues_to_end hap hc).challenges _ _ he
  exact ⟨(hs.challenge _ _ he).1, last, hl, hsa⟩

theorem accepted_at_end (hap : IdentitiesApart hashing calls) {req : CommandRequest Payload}
    {record : CommandRecord} (ha : Answers hashing calls (.accept req) (.ok (.command record))) :
    (storeAfter hashing calls).byIdempotency req.idempotencyKey = some record.commandId ∧
      ∃ last, (storeAfter hashing calls).commands record.commandId = some last ∧
        record.core = last.core := by
  obtain ⟨pre, post, hc, hok⟩ := ha
  rcases (consistent_before hashing hc).accept req with
    ⟨-, hr⟩ | hr | ⟨found, hf, hk, he⟩
  · rw [hok] at hr
    cases hr
  · rw [hok] at hr
    cases hr
  · rw [hok] at hf
    obtain rfl := Returned.command.inj (Except.ok.inj hf)
    have hre := continues_to_end hap hc
    obtain ⟨_, hl, rfl⟩ := hre.keys _ _ hk
    exact ⟨hl, hre.commands _ _ he⟩

end Steps

theorem command_store_sound {Payload : Type} (hashing : CommandHashing Payload)
    (calls : List (StoreCall Payload)) (hapart : IdentitiesApart hashing calls) :
    CommandStoreSound hashing calls where
  same_challenge first firstNow second secondNow chal other hfirst hsecond := by
    obtain ⟨hid, last, hl, hs⟩ := prepared_at_end hapart hfirst
    obtain ⟨hotherId, otherLast, ho, hot⟩ := prepared_at_end hapart hsecond
    constructor
    · intro hco
      have hh : hashing.head first.text = hashing.head second.text :=
        hid.symm.trans ((congrArg FlattenChallenge.challengeId hco).trans hotherId)
      obtain ⟨pre, post, hc, -⟩ := hfirst
      obtain ⟨otherBefore, otherAfter, hothe, -⟩ := hsecond
      exact hapart.challenges first firstNow second secondNow (by rw [hc]; simp)
        (by rw [hothe]; simp) (hashing.head_injective hh)
    · rintro rfl
      rw [hl] at ho
      rw [hs, hot, Option.some.inj ho]
  consumed_once pre mid post first second chal other hc hfirst hsecond := by
    intro hsa
    obtain ⟨held, -, -, -, -, -, -, rfl, he⟩ := consumeFlatten_ok hfirst
    obtain ⟨later, hla, hu, -⟩ := consumeFlatten_ok hsecond
    have hsp : pre ++ .consumeFlatten first :: mid =
        (pre ++ [.consumeFlatten first]) ++ mid := by simp
    have hr := @continues_after _ hashing calls (pre ++ [.consumeFlatten first]) mid
      hapart fun call hm => by
        rw [hc]
        exact List.mem_append_left _ (hsp ▸ hm)
    rw [storeAfter_concat, ← hsp] at hr
    obtain ⟨kept, hk, -, hus⟩ := hr.challenges _ _ he
    rw [← hsa, hk] at hla
    rw [← Option.some.inj hla, hus rfl] at hu
    cases hu
  consumed_by_owner confirmation chal hanswer := by
    obtain ⟨pre, post, hc, hok⟩ := hanswer
    obtain ⟨held, hhe, -, hn, ha, hd, hph, rfl, -⟩ := consumeFlatten_ok hok
    obtain ⟨hid, identity, now, hm, hco⟩ :=
      (consistent_before hashing hc).challenge _ _ hhe
    have hs : { held with consumed := true } =
        { hashing.challenge identity now with consumed := true } := by rw [← hco]; rfl
    refine ⟨identity, now, hm, hs, ?_, ?_, ?_, hph.symm, hn⟩
    · exact hid.symm.trans (congrArg FlattenChallenge.challengeId hco)
    · exact ha.symm.trans (congrArg FlattenChallenge.actorId hco)
    · exact hd.symm.trans (congrArg FlattenChallenge.positionsDigest hco)
  one_command req answer hanswer := by
    obtain ⟨pre, post, hc, rfl⟩ := hanswer
    rcases (consistent_before hashing hc).accept req with
      hp | hconflict | ⟨record, hok, -⟩
    · exact .inl hp
    · exact .inr (.inl hconflict)
    · refine .inr (.inr ⟨record, hok, fun other otherRecord hother hkey => ?_⟩)
      obtain ⟨hb, last, hl, hs⟩ :=
        accepted_at_end hapart ⟨pre, post, hc, hok⟩
      obtain ⟨hoth, otherLast, ho, hot⟩ := accepted_at_end hapart hother
      rw [hkey, hb] at hoth
      rw [← Option.some.inj hoth, hl] at ho
      rw [hot, hs, Option.some.inj ho]
  raising _ _ _ _ _ hraise := perform_error hraise

def flatDigest : String := "44136fa355b3678a1146ad16f7e8649e94fb4fc21fe77e8310c060f61caaff8a"

def heldDigest : String := "663f652da1bf16396d562e9f29c6dc51c5b8669ccb24331e76afdd148eba49a6"

def operatorIdentity : FlattenIdentity := ⟨"operator-1", heldDigest, "flatten-prepare-01"⟩

def operatorHashing : CommandHashing String where
  head text :=
    if text = operatorIdentity.text then "01e48d54e1e1d96f75744d94ae6fc347" else "sha256:" ++ text
  tail _ := "2665384a1a1f27bf742882768a838273"
  code _ := "2665384A"
  payloadHash := some
  head_injective first second hsame := by
    have hother : ∀ text : String, "01e48d54e1e1d96f75744d94ae6fc347" ≠ "sha256:" ++ text := by
      intro text hequal
      have hfirst := congrArg (fun known => known.toList.head?) hequal
      simp at hfirst
    beta_reduce at hsame
    split_ifs at hsame with hfirst hsecond hsecond
    · exact hfirst.trans hsecond.symm
    · exact absurd hsame (hother second)
    · exact absurd hsame.symm (hother first)
    · exact (String.append_right_inj _).mp hsame
  head_ne_empty text := by
    split_ifs
    · decide
    · intro hempty
      have hfirst := congrArg (fun known => known.toList.head?) hempty
      simp at hfirst

def nextIdentity : FlattenIdentity :=
  { operatorIdentity with idempotencyKey := "flatten-prepare-02" }

def pauseRequest : CommandRequest String where
  commandType := "PAUSE_NEW_ENTRIES"
  idempotencyKey := "pause-entries-001"
  actorId := "operator-1"
  payload := flatDigest
  now := 2000000

def cancelRequest : CommandRequest String :=
  { pauseRequest with commandType := "CANCEL_OPEN_ORDERS", idempotencyKey := "cancel-orders-01" }

def operatorCalls : List (StoreCall String) :=
  [.prepareFlatten operatorIdentity 0, .prepareFlatten nextIdentity 500000,
    .consumeFlatten {
      challengeId := "01e48d54e1e1d96f75744d94ae6fc347"
      actorId := "operator-1"
      positionsDigest := heldDigest
      confirmationPhrase := "FLATTEN-2665384A"
      now := 1000000 },
    .accept pauseRequest, .accept cancelRequest]

theorem command_store_sound_operatorCalls : CommandStoreSound operatorHashing operatorCalls := by
  have hidentity : operatorIdentity.text ≠ nextIdentity.text := by decide
  have hcommand : pauseRequest.text flatDigest ≠ cancelRequest.text flatDigest := by decide
  refine command_store_sound operatorHashing operatorCalls ⟨?_, ?_⟩
  · intro first _ second _ hf hs ht
    simp only [operatorCalls, List.mem_cons, StoreCall.prepareFlatten.injEq, reduceCtorEq,
      List.not_mem_nil, or_false] at hf hs
    rcases hf with ⟨rfl, -⟩ | ⟨rfl, -⟩ <;> rcases hs with ⟨rfl, -⟩ | ⟨rfl, -⟩
    · rfl
    · exact absurd ht hidentity
    · exact absurd ht.symm hidentity
    · rfl
  · intro first firstHash second secondHash hf hs hfirst hsecond ht
    simp only [operatorCalls, List.mem_cons, StoreCall.accept.injEq, reduceCtorEq,
      List.not_mem_nil, false_or, or_false] at hf hs
    obtain rfl : first.payload = firstHash := Option.some.inj hfirst
    obtain rfl : second.payload = secondHash := Option.some.inj hsecond
    rcases hf with rfl | rfl <;> rcases hs with rfl | rfl
    · rfl
    · exact absurd ht hcommand
    · exact absurd ht.symm hcommand
    · rfl

def keyIdentity : FlattenIdentity :=
  ⟨"operator", flatDigest, heldDigest ++ "|idempotency-key-01"⟩

def actorIdentity : FlattenIdentity :=
  ⟨"operator|" ++ flatDigest, heldDigest, "idempotency-key-01"⟩

def mergedCalls : List (StoreCall Unit) :=
  [.prepareFlatten keyIdentity 0, .prepareFlatten actorIdentity 0]

theorem flatten_identities_merged :
    ¬∃ hashing : CommandHashing Unit, CommandStoreSound hashing mergedCalls := by
  rintro ⟨hashing, hso⟩
  have ht : actorIdentity.text = keyIdentity.text := by
    simp [FlattenIdentity.text, joined, actorIdentity, keyIdentity, flatDigest, heldDigest]
  have hf : Answers hashing mergedCalls (.prepareFlatten keyIdentity 0)
      (.ok (.challenge (hashing.challenge keyIdentity 0))) := ⟨[], _, rfl, rfl⟩
  have hse : Answers hashing mergedCalls (.prepareFlatten actorIdentity 0)
      (.ok (.challenge (hashing.challenge keyIdentity 0))) := by
    have hs : (storeAfter hashing [.prepareFlatten keyIdentity 0]).challenges
        (hashing.head keyIdentity.text) = some (hashing.challenge keyIdentity 0) :=
      prepareFlatten_ok rfl
    refine ⟨[_], [], rfl, ?_⟩
    rw [InMemoryCommandStore.perform, InMemoryCommandStore.prepareFlatten, ht, hs]
    rfl
  have hsa := (hso.same_challenge _ _ _ _ _ _ hf hse).mp rfl
  exact absurd hsa (by decide)

end AiQuant.Control
