import AiQuant.UserStream.EvidenceLines

/-! What the evidence file holds after any calls of `record_event`, and what a changed file can
look like that still verifies.  The chain is not keyed: a record with a newly computed hash can be
put at the end, so what verification excludes is any other use of the hashes that are there. -/
namespace AiQuant.UserStream
open AiQuant.Lib

inductive KeyAt (name : String) : Json → Prop
  | key {fields : Fields} {item : Json} (hmem : (name, item) ∈ fields) : KeyAt name (.object fields)
  | field {fields : Fields} {other : String} {item : Json} (hmem : (other, item) ∈ fields)
      (hitem : KeyAt name item) : KeyAt name (.object fields)
  | item {items : List Json} {item : Json} (hmem : item ∈ items) (hitem : KeyAt name item) :
      KeyAt name (.array items)

section Secrets

variable {lower : String → String} {name : String} {fields : Fields} {item : Json}

theorem mem_sanitizeFields (hm : (name, item) ∈ sanitizeFields lower fields) :
    normalizedName lower name ∉ droppedNames ∧ ∃ value, item = sanitizeValue lower value := by
  induction fields with
  | nil => exact absurd hm List.not_mem_nil
  | cons field rest ih =>
    obtain ⟨other, value⟩ := field
    rw [sanitizeFields] at hm
    split_ifs at hm with hd
    · exact ih hm
    · rcases List.mem_cons.mp hm with hs | hr
      · obtain ⟨rfl, rfl⟩ := Prod.mk.inj hs
        exact ⟨hd, value, rfl⟩
      · exact ih hr

theorem mem_sanitizeItems {items : List Json} (hm : item ∈ sanitizeItems lower items) :
    ∃ value, item = sanitizeValue lower value := by
  induction items with
  | nil => exact absurd hm List.not_mem_nil
  | cons first rest ih =>
    rcases List.mem_cons.mp hm with rfl | hr
    · exact ⟨first, rfl⟩
    · exact ih hr

theorem KeyAt.not_dropped {value : Json} (hk : KeyAt name value) :
    ∀ orig, value = sanitizeValue lower orig → normalizedName lower name ∉ droppedNames := by
  induction hk with
  | key hmem =>
    intro orig hv
    cases orig <;> cases hv
    exact (mem_sanitizeFields hmem).1
  | field hmem _ ih =>
    intro orig hv
    cases orig <;> cases hv
    obtain ⟨-, value, hi⟩ := mem_sanitizeFields hmem
    exact ih value hi
  | item hmem _ ih =>
    intro orig hv
    cases orig <;> cases hv
    obtain ⟨value, hi⟩ := mem_sanitizeItems hmem
    exact ih value hi

theorem exists_sanitizeEvent (doc : Fields) :
    ∃ fields, sanitizeEvent lower doc = sanitizeFields lower fields := by
  unfold sanitizeEvent
  split <;> exact ⟨_, rfl⟩

theorem KeyAt.not_secret {doc : Fields} (hk : KeyAt name (.object (sanitizeEvent lower doc))) :
    normalizedName lower name ∉ droppedNames := by
  obtain ⟨fields, hf⟩ := @exists_sanitizeEvent lower doc
  exact hk.not_dropped (.object fields) (by rw [hf]; rfl)

end Secrets

structure RecordCall where
  document : Fields
  receivedAt : Option String
  clock : Clock

def arrivedEvent (hashing : Hashing) (document : Fields) : Option Fields :=
  match get document "e" with
  | .string eventType =>
    if eventType ∈ allowedUserEventTypes ∧ (get document "E").isInt ∧
        fieldsCanonical (sanitizeEvent hashing.lower document) then
      some (sanitizeEvent hashing.lower document)
    else none
  | _ => none

def arrivedEvents (hashing : Hashing) (calls : List RecordCall) : List Fields :=
  calls.filterMap fun call => arrivedEvent hashing call.document

def recordCalls (hashing : Hashing) (journal : Journal) (disk : Disk) :
    List RecordCall → Journal × Disk
  | [] => (journal, disk)
  | call :: rest =>
    let outcome := journal.recordEvent hashing call.document call.receivedAt call.clock
    recordCalls hashing outcome.journal (disk.performAll outcome.operations) rest

def firstArrivals (digest : Fields → String) : Finset String → List Fields → List Fields
  | _, [] => []
  | seen, event :: rest =>
    if digest event ∈ seen then firstArrivals digest seen rest
    else event :: firstArrivals digest (insert (digest event) seen) rest

def Journal.Knows (journal : Journal) (hashing : Hashing) (disk : Disk) : Prop :=
  ∃ summary, verifyUserDataEvidence hashing disk.records = .ok summary ∧
    summary.seen = journal.seen ∧ summary.finalRecordSha256 = journal.lastRecordSha256

section Runs

variable {hashing : Hashing} {journal : Journal} {disk opened : Disk} {clock : Clock}

theorem knows_of_openJournal (ho : openJournal hashing disk clock = .ok (journal, opened)) :
    journal.Knows hashing opened := by
  simp only [openJournal, bind_eq_ok_iff] at ho
  obtain ⟨loaded, -, found, hl, hre⟩ := ho
  obtain ⟨rfl, rfl⟩ := Prod.mk.inj (Except.ok.inj hre)
  have hr : (disk.performAll (found.writeState true clock).operations).records =
      disk.records := rfl
  rw [Journal.Knows, hr]
  unfold loadExisting at hl
  dsimp only at hl
  cases he : disk.evidence with
  | none =>
    rw [he] at hl
    obtain rfl := Except.ok.inj hl
    exact ⟨.empty, by rw [Disk.records, he]; rfl, rfl, rfl⟩
  | some records =>
    simp only [he, bind_eq_ok_iff] at hl
    obtain ⟨summary, hv, hf⟩ := hl
    split at hf
    · cases hf
    · obtain rfl := Except.ok.inj hf
      exact ⟨summary, by rw [Disk.records, he]; exact hv, rfl, rfl⟩

structure Arrives (hashing : Hashing) (journal : Journal) (disk : Disk) (document : Fields)
    (outcome : Outcome) (new : List EvidenceRecord) : Prop where
  records_eq : (disk.performAll outcome.operations).records = disk.records ++ new
  payloads : new.map (·.content.payload) =
    firstArrivals hashing.event journal.seen (arrivedEvent hashing document).toList
  seen_eq : outcome.journal.seen =
    journal.seen ∪ ((arrivedEvent hashing document).toList.map hashing.event).toFinset
  knows : outcome.journal.Knows hashing (disk.performAll outcome.operations)

theorem arrives_nothing {doc : Fields} {outcome : Outcome} (hkn : journal.Knows hashing disk)
    (hr : (disk.performAll outcome.operations).records = disk.records)
    (hs : outcome.journal.seen = journal.seen)
    (hl : outcome.journal.lastRecordSha256 = journal.lastRecordSha256)
    (hk : ∀ event ∈ arrivedEvent hashing doc, hashing.event event ∈ journal.seen) :
    Arrives hashing journal disk doc outcome [] := by
  obtain ⟨summary, hv, hi, hf⟩ := hkn
  refine ⟨by rw [hr, List.append_nil], ?_, ?_, summary, ?_, ?_, ?_⟩
  · cases ha : arrivedEvent hashing doc with
    | none => rfl
    | some event =>
      rw [Option.toList_some, firstArrivals, if_pos (hk event ha)]
      rfl
  · rw [hs]
    cases ha : arrivedEvent hashing doc with
    | none => exact (Finset.union_empty _).symm
    | some event => simp [Finset.insert_eq_of_mem (hk event ha)]
  · rw [hr, hv]
  · rw [hi, hs]
  · rw [hf, hl]

theorem recordEvent_arrives (hk : journal.Knows hashing disk) (doc : Fields)
    (receivedAt : Option String) (clock : Clock) : ∃ new, Arrives hashing journal disk doc
      (journal.recordEvent hashing doc receivedAt clock) new := by
  have hn : ∀ outcome : Outcome, (disk.performAll outcome.operations).records = disk.records →
      outcome.journal.seen = journal.seen →
      outcome.journal.lastRecordSha256 = journal.lastRecordSha256 →
      arrivedEvent hashing doc = none →
      ∃ new, Arrives hashing journal disk doc outcome new := by
    intro outcome hr hs hl hno
    exact ⟨[], arrives_nothing hk hr hs hl (by simp [hno])⟩
  unfold Journal.recordEvent
  cases ht : get doc "e" with
  | string eventType =>
    dsimp only
    split_ifs with ha
    · unfold Journal.recordAllowed
      dsimp only
      split_ifs with hc hs
      · refine hn _ rfl rfl rfl ?_
        rw [Bool.not_eq_true'] at hc
        simp [arrivedEvent, ht, hc]
      · refine ⟨[], arrives_nothing hk rfl rfl rfl ?_⟩
        intro event he
        simp only [arrivedEvent, ht, Option.mem_def, Option.ite_none_right_eq_some,
          Option.some.injEq] at he
        rw [← he.2]
        exact hs
      · rw [Bool.not_eq_true', Bool.not_eq_false] at hc
        have har : arrivedEvent hashing doc = some (sanitizeEvent hashing.lower doc) := by
          simp [arrivedEvent, ht, ha.1, ha.2, hc]
        obtain ⟨summary, hve, hi, hf⟩ := hk
        have hnew : hashing.event (sanitizeEvent hashing.lower doc) ∉ summary.seen := by
          rw [hi]
          exact hs
        refine ⟨_, rfl, ?_, ?_, ?_⟩
        · rw [har, Option.toList_some, firstArrivals, if_neg hs]
          rfl
        · rw [har, Option.toList_some, List.map_singleton, List.toFinset_cons,
            List.toFinset_nil, Finset.union_comm]
          rfl
        · have hg : ∀ received, ∃ post, verifyUserDataEvidence hashing (disk.records ++
                [⟨Journal.contentOf hashing eventType doc received, journal.lastRecordSha256,
                  hashing.record (Journal.contentOf hashing eventType doc received)
                    journal.lastRecordSha256⟩]) = .ok post ∧
              post.seen =
                insert (hashing.event (sanitizeEvent hashing.lower doc)) journal.seen ∧
              post.finalRecordSha256 =
                hashing.record (Journal.contentOf hashing eventType doc received)
                  journal.lastRecordSha256 := by
            intro received
            have hv := @Journal.verifyRecord_contentOf hashing eventType doc summary
              ha.1 ha.2 hc hnew received
            rw [hf] at hv
            have hco := @verifyUserDataEvidence_concat hashing disk.records
              ⟨Journal.contentOf hashing eventType doc received, journal.lastRecordSha256,
                hashing.record (Journal.contentOf hashing eventType doc received)
                  journal.lastRecordSha256⟩
            rw [hve] at hco
            exact ⟨_, hco.trans hv, congrArg (insert _) hi, rfl⟩
          exact hg _
    · refine hn _ rfl rfl rfl ?_
      simp only [arrivedEvent, ht]
      exact if_neg fun hb => ha ⟨hb.1, hb.2.1⟩
  | array items => exact hn _ rfl rfl rfl (by simp [arrivedEvent, ht])
  | object fields => exact hn _ rfl rfl rfl (by simp [arrivedEvent, ht])
  | null => exact hn _ rfl rfl rfl (by simp [arrivedEvent, ht])
  | boolean value => exact hn _ rfl rfl rfl (by simp [arrivedEvent, ht])
  | integer value => exact hn _ rfl rfl rfl (by simp [arrivedEvent, ht])
  | float text => exact hn _ rfl rfl rfl (by simp [arrivedEvent, ht])
  | nonFinite text => exact hn _ rfl rfl rfl (by simp [arrivedEvent, ht])

/-! ### All calls -/

section FirstArrivals

variable {digest : Fields → String} {seen : Finset String} {event : Fields}
  {events : List Fields}

theorem firstArrivals_append (first second : List Fields) :
    firstArrivals digest seen (first ++ second) = firstArrivals digest seen first ++
      firstArrivals digest (seen ∪ (first.map digest).toFinset) second := by
  induction first generalizing seen with
  | nil => simp [firstArrivals]
  | cons event first ih =>
    rw [List.cons_append, firstArrivals, firstArrivals, List.map_cons, List.toFinset_cons,
      Finset.union_insert]
    split_ifs with hs
    · rw [ih, Finset.insert_eq_of_mem (Finset.mem_union_left _ hs)]
    · rw [ih, List.cons_append, Finset.insert_union]

theorem firstArrivals_subset : firstArrivals digest seen events ⊆ events := by
  induction events generalizing seen with
  | nil => exact List.Subset.refl _
  | cons event events ih =>
    rw [firstArrivals]
    split_ifs
    · exact List.Subset.trans ih (List.subset_cons_self _ _)
    · exact List.cons_subset_cons _ ih

theorem firstArrivals_covers (he : event ∈ events) :
    digest event ∈ seen ∨ ∃ first ∈ firstArrivals digest seen events,
      digest first = digest event := by
  induction events generalizing seen with
  | nil => exact absurd he List.not_mem_nil
  | cons head events ih =>
    rw [firstArrivals]
    split_ifs with hs
    · rcases List.mem_cons.mp he with rfl | hr
      · exact .inl hs
      · exact ih hr
    · rcases List.mem_cons.mp he with rfl | hr
      · exact .inr ⟨event, List.mem_cons_self, rfl⟩
      · rcases ih hr with hk | ⟨first, hf, hsa⟩
        · rcases Finset.mem_insert.mp hk with hh | hk
          · exact .inr ⟨head, List.mem_cons_self, hh.symm⟩
          · exact .inl hk
        · exact .inr ⟨first, List.mem_cons_of_mem _ hf, hsa⟩

end FirstArrivals

theorem recordCalls_arrive (hk : journal.Knows hashing disk) (calls : List RecordCall) :
    ∃ new, (recordCalls hashing journal disk calls).2.records = disk.records ++ new ∧
      new.map (·.content.payload) =
        firstArrivals hashing.event journal.seen (arrivedEvents hashing calls) ∧
      (recordCalls hashing journal disk calls).1.Knows hashing
        (recordCalls hashing journal disk calls).2 := by
  induction calls generalizing journal disk with
  | nil => exact ⟨[], (List.append_nil _).symm, rfl, hk⟩
  | cons call calls ih =>
    obtain ⟨first, ha⟩ := recordEvent_arrives hk call.document call.receivedAt call.clock
    obtain ⟨rest, hr, hp, hl⟩ := ih ha.knows
    refine ⟨first ++ rest, ?_, ?_, hl⟩
    · rw [recordCalls, hr, ha.records_eq, List.append_assoc]
    · have he : arrivedEvents hashing (call :: calls) =
          (arrivedEvent hashing call.document).toList ++ arrivedEvents hashing calls := by
        rw [arrivedEvents, arrivedEvents, List.filterMap_cons]
        cases arrivedEvent hashing call.document <;> rfl
      rw [he, firstArrivals_append, ← ha.seen_eq, List.map_append, hp, ha.payloads]

theorem meaningful_of_verified {records : List EvidenceRecord} {summary : EvidenceSummary}
    (hv : verifyUserDataEvidence hashing records = .ok summary) :
    ∀ record ∈ records, record.content.stableEventId = hashing.event record.content.payload := by
  induction records using List.reverseRecOn generalizing summary with
  | nil => exact fun record hr => absurd hr List.not_mem_nil
  | append_singleton records record ih =>
    rw [verifyUserDataEvidence_concat] at hv
    cases hp : verifyUserDataEvidence hashing records with
    | error failure =>
      rw [hp] at hv
      cases hv
    | ok prev =>
      rw [hp] at hv
      change verifyRecord hashing prev record = .ok summary at hv
      unfold verifyRecord at hv
      dsimp only at hv
      split_ifs at hv with hc hl hm hs
      rw [List.forall_mem_append, List.forall_mem_singleton]
      refine ⟨ih hp, ?_⟩
      simp only [EventContent.meaningful, Bool.not_eq_true, Bool.not_eq_false', Bool.and_eq_true,
        decide_eq_true_eq] at hm
      exact hm.2

theorem exists_of_mem_arrivedEvents {calls : List RecordCall} {event : Fields}
    (he : event ∈ arrivedEvents hashing calls) :
    ∃ doc, event = sanitizeEvent hashing.lower doc := by
  obtain ⟨call, -, ha⟩ := List.mem_filterMap.mp he
  unfold arrivedEvent at ha
  split at ha
  · split_ifs at ha
    exact ⟨call.document, (Option.some.inj ha).symm⟩
  · cases ha

end Runs

/-- Among these events the digest tells exactly the canonical texts apart. -/
def CanonicalHashing.SeparatesEvents (hashing : CanonicalHashing) (events : List Fields) : Prop :=
  ∀ first ∈ events, ∀ second ∈ events, hashing.event first = hashing.event second ↔
    (Json.object first).sorted = (Json.object second).sorted

def EvidenceRecord.event (record : EvidenceRecord) : Json :=
  (Json.object record.content.payload).sorted

/-- The evidence after some calls, in terms of the evidence before them. -/
structure EvidenceLaws (hashing : CanonicalHashing) (before : List EvidenceRecord)
    (calls : List RecordCall) (after : List EvidenceRecord) : Prop where
  verifies : ∃ summary, verifyLines hashing (after.map EvidenceRecord.line) = .ok summary
  appended : ∃ new, after = before ++ new ∧
    new.map (·.content.payload) =
      firstArrivals hashing.event (before.map (·.content.stableEventId)).toFinset
        (arrivedEvents hashing.typed calls) ∧
    ∀ record ∈ new, ∀ name, KeyAt name (.object record.content.payload) →
      normalizedName hashing.lower name ∉ droppedNames
  once : (after.map EvidenceRecord.event).Nodup
  complete : ∀ event ∈ arrivedEvents hashing.typed calls, ∃ record ∈ after,
    record.event = (Json.object event).sorted

def Line.shape (line : Line) : Json × String × String := line.link.shape Json.sorted

/-- A changed file keeps a beginning of the original and adds lines whose hashes the original does
not hold; if it ends in the same hash, it is the original. -/
structure KeepsBeginning (original changed : List Line) : Prop where
  beginning : ∃ kept added, changed = kept ++ added ∧
    kept.map Line.shape <+: original.map Line.shape ∧
    ∀ line ∈ added, line.link.digest ∉ original.map (·.link.digest)
  whole : tip zeroSha256 (changed.map Line.link) = tip zeroSha256 (original.map Line.link) →
    changed.map Line.shape = original.map Line.shape

section Laws

variable {hashing : CanonicalHashing} {journal : Journal} {disk opened : Disk} {clock : Clock}

theorem recordCalls_laws (hk : journal.Knows hashing.typed disk) (calls : List RecordCall)
    (he : hashing.SeparatesEvents
      (disk.records.map (·.content.payload) ++ arrivedEvents hashing.typed calls)) :
    EvidenceLaws hashing disk.records calls
      (recordCalls hashing.typed journal disk calls).2.records := by
  obtain ⟨new, hre, hp, summary, hv, -, -⟩ := recordCalls_arrive hk calls
  obtain ⟨earlier, hea, hi, -⟩ := hk
  have hse : journal.seen = (disk.records.map (·.content.stableEventId)).toFinset := by
    rw [← hi, (verifyUserDataEvidence_describes hea).seen_eq]
  have hd := meaningful_of_verified hv
  have hn := (verifyUserDataEvidence_describes hv).nodup
  have ha : ∀ record ∈ new, record.content.payload ∈ arrivedEvents hashing.typed calls := by
    intro record hr
    have hf := List.mem_map_of_mem (f := fun record => record.content.payload) hr
    rw [hp] at hf
    exact firstArrivals_subset hf
  rw [hre] at hv hd hn ⊢
  have hpa : ∀ record ∈ disk.records ++ new, record.content.payload ∈
      disk.records.map (·.content.payload) ++ arrivedEvents hashing.typed calls := by
    intro record hr
    rcases List.mem_append.mp hr with ho | hnew
    · exact List.mem_append_left _ (List.mem_map_of_mem ho)
    · exact List.mem_append_right _ (ha record hnew)
  refine ⟨⟨summary, verifyLines_records hv⟩, ⟨new, rfl, ?_, ?_⟩, ?_, ?_⟩
  · rw [← hse]
    exact hp
  · intro record hr name hkey
    obtain ⟨doc, hdo⟩ := exists_of_mem_arrivedEvents (ha record hr)
    rw [hdo] at hkey
    exact hkey.not_secret
  · -- two records of one event would have one id
    rw [List.Nodup, List.pairwise_map] at hn ⊢
    refine hn.imp_of_mem fun {first second} hf hs hi hsa => hi ?_
    rw [hd first hf, hd second hs]
    exact (he _ (hpa first hf) _ (hpa second hs)).mpr hsa
  · intro event hev
    have hh : ∃ record ∈ disk.records ++ new,
        hashing.event record.content.payload = hashing.event event := by
      have hc := @firstArrivals_covers hashing.typed.event journal.seen event _ hev
      rcases hc with hkn | ⟨first, hf, hsa⟩
      · rw [hse, List.mem_toFinset] at hkn
        obtain ⟨record, hr, hid⟩ := List.mem_map.mp hkn
        have ho := List.mem_append_left new hr
        exact ⟨record, ho, (hd record ho).symm.trans hid⟩
      · rw [← hp] at hf
        obtain ⟨record, hr, rfl⟩ := List.mem_map.mp hf
        exact ⟨record, List.mem_append_right _ hr, hsa⟩
    obtain ⟨record, hr, hsa⟩ := hh
    exact ⟨record, hr, (he _ (hpa record hr) _ (List.mem_append_right _ hev)).mp hsa⟩

theorem keepsBeginning_of_verified {orig changed : List Line} {first second : EvidenceSummary}
    (ho : verifyLines hashing orig = .ok first) (hc : verifyLines hashing changed = .ok second)
    (hs : Separates hashing.record Json.sorted zeroSha256 ((changed ++ orig).map Line.link)) :
    KeepsBeginning orig changed := by
  obtain ⟨hli, -⟩ := verifyLines_linked ho
  obtain ⟨hl, -⟩ := verifyLines_linked hc
  rw [List.map_append] at hs
  have hsh : ∀ lines : List Line, lines.map Line.shape =
      (lines.map Line.link).map (ChainLink.shape Json.sorted) := fun lines => by
    rw [List.map_map]
    rfl
  constructor
  · obtain ⟨keptLinks, addedLinks, hsp, hk, ha⟩ :=
      hli.kept_and_added hl hs
    obtain ⟨kept, added, rfl, rfl, rfl⟩ := List.map_eq_append_iff.mp hsp
    refine ⟨kept, added, rfl, by rw [hsh, hsh]; exact hk, fun line hline => ?_⟩
    have hf := ha _ (List.mem_map_of_mem hline)
    rwa [List.map_map] at hf
  · intro ht
    rw [hsh, hsh]
    exact hl.shapes_eq hli ht hs

/-- After any calls the evidence verifies and holds every event that arrived once, in the order of
arrival and without secrets; and a file that verifies beside it keeps a beginning of it. -/
theorem evidence_chain_sound (hopen : openJournal hashing.typed disk clock = .ok (journal, opened))
    (calls : List RecordCall) (hevents : hashing.SeparatesEvents
      (opened.records.map (·.content.payload) ++ arrivedEvents hashing.typed calls)) :
    EvidenceLaws hashing opened.records calls
        (recordCalls hashing.typed journal opened calls).2.records ∧
      ∀ changed summary, verifyLines hashing changed = .ok summary →
        Separates hashing.record Json.sorted zeroSha256 ((changed ++
          (recordCalls hashing.typed journal opened calls).2.records.map
            EvidenceRecord.line).map Line.link) → KeepsBeginning
          ((recordCalls hashing.typed journal opened calls).2.records.map EvidenceRecord.line)
          changed := by
  have hl := recordCalls_laws (knows_of_openJournal hopen) calls hevents
  refine ⟨hl, fun changed summary hc hs => ?_⟩
  obtain ⟨found, hf⟩ := hl.verifies
  exact keepsBeginning_of_verified hf hc hs

end Laws

section Replaced

/-- The digests of the event and of its record at two times of receipt. -/
def chainHashing : CanonicalHashing where
  lower name := name
  event _ := "a893e052e6c73e737458bfa0d2c410eafbc58b6ddc468972ce193981e34119ea"
  record content _ :=
    if (get content.fields "received_at").isText "2026-07-15T00:00:00Z" then
      "af5eca1d40977799150bdb64987198516d9bb7777869dae9ee08695676ec80e4"
    else "38ede488f0c4c520fa96bf016726700b8a744a63c8c998acd55a2bb9a798fef5"
  record_sha256 content previous := by
    split
    · decide
    · decide

def freshHost : Journal × Disk :=
  ((openJournal chainHashing.typed ⟨none, none⟩ sampleClock).toOption).getD
    (⟨∅, "", initialState ""⟩, ⟨none, none⟩)

theorem freshHost_opened :
    openJournal chainHashing.typed ⟨none, none⟩ sampleClock = .ok freshHost := rfl

def receivedCall (receivedAt : String) : RecordCall :=
  ⟨sampleEvent, some receivedAt, sampleClock⟩

def receivedLines (receivedAt : String) : List Line :=
  (recordCalls chainHashing.typed freshHost.1 freshHost.2
    [receivedCall receivedAt]).2.records.map EvidenceRecord.line

def receivedLink (receivedAt : String) : ChainLink Json String :=
  Line.link ((receivedLines receivedAt).headD none)

theorem separates_received (receivedAt : String) :
    chainHashing.SeparatesEvents (freshHost.2.records.map (·.content.payload) ++
      arrivedEvents chainHashing.typed [receivedCall receivedAt]) := by
  have ho : freshHost.2.records.map (·.content.payload) ++
      arrivedEvents chainHashing.typed [receivedCall receivedAt] = [sampleEvent] := rfl
  rw [ho]
  intro first hf second hs
  rw [List.mem_singleton.mp hf, List.mem_singleton.mp hs]
  exact iff_of_true rfl rfl

theorem sampleEvent_chained :
    EvidenceLaws chainHashing freshHost.2.records [receivedCall "2026-07-14T00:00:00Z"]
      (recordCalls chainHashing.typed freshHost.1 freshHost.2
        [receivedCall "2026-07-14T00:00:00Z"]).2.records :=
  (evidence_chain_sound freshHost_opened [receivedCall "2026-07-14T00:00:00Z"]
    (separates_received _)).1

/-- The one record is replaced by another one with its own hash, and the file verifies. -/
theorem replaced_record_verifies :
    ¬ ∀ (hashing : CanonicalHashing) (journal : Journal) (disk opened : Disk) (clock : Clock)
      (calls : List RecordCall) (changed : List Line) (summary : EvidenceSummary),
      openJournal hashing.typed disk clock = .ok (journal, opened) →
      hashing.SeparatesEvents (opened.records.map (·.content.payload) ++
        arrivedEvents hashing.typed calls) →
      Separates hashing.record Json.sorted zeroSha256 ((changed ++
        (recordCalls hashing.typed journal opened calls).2.records.map
          EvidenceRecord.line).map Line.link) → verifyLines hashing changed = .ok summary →
      changed.map Line.shape <+: ((recordCalls hashing.typed journal opened calls).2.records.map
          EvidenceRecord.line).map Line.shape := by
  intro hc
  obtain ⟨summary, hv⟩ := (recordCalls_laws (knows_of_openJournal freshHost_opened)
    [receivedCall "2026-07-15T00:00:00Z"] (separates_received _)).verifies
  have hb := hc chainHashing freshHost.1 ⟨none, none⟩ freshHost.2 sampleClock
    [receivedCall "2026-07-14T00:00:00Z"] (receivedLines "2026-07-15T00:00:00Z") summary
    freshHost_opened (separates_received _) ?_ hv
  · have hsa := congrArg (List.map fun shape => shape.2.2) (hb.eq_of_length rfl)
    have hd : (receivedLines "2026-07-15T00:00:00Z").map (fun line => line.link.digest) ≠
        (receivedLines "2026-07-14T00:00:00Z").map fun line => line.link.digest := by
      decide
    rw [List.map_map, List.map_map] at hsa
    exact hd hsa
  · have ht : ∀ link ∈ (receivedLines "2026-07-15T00:00:00Z" ++
        receivedLines "2026-07-14T00:00:00Z").map Line.link,
        link = receivedLink "2026-07-15T00:00:00Z" ∨ link = receivedLink "2026-07-14T00:00:00Z" := by
      intro link hl
      have hp : link ∈ [receivedLink "2026-07-15T00:00:00Z",
        receivedLink "2026-07-14T00:00:00Z"] := hl
      rcases List.mem_cons.mp hp with hf | hs
      · exact .inl hf
      · exact .inr (List.mem_singleton.mp hs)
    have hd : chainHashing.record (receivedLink "2026-07-15T00:00:00Z").content
        (receivedLink "2026-07-15T00:00:00Z").previous ≠
          chainHashing.record (receivedLink "2026-07-14T00:00:00Z").content
            (receivedLink "2026-07-14T00:00:00Z").previous := by
      decide
    constructor
    · intro first hf second hs hdi
      rcases ht first hf with rfl | rfl <;> rcases ht second hs with rfl | rfl
      · exact ⟨rfl, rfl⟩
      · exact absurd hdi hd
      · exact absurd hdi.symm hd
      · exact ⟨rfl, rfl⟩
    · intro link hl
      rcases ht link hl with rfl | rfl
      · decide
      · decide

end Replaced

end AiQuant.UserStream
