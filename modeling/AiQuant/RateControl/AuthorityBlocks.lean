import AiQuant.RateControl.Budget
import Mathlib

/-! The blocks that 418 and 429 answers put on an endpoint authority.  Over any sequence of
header observations, with every other procedure of the database in between, a block is only
ever extended, and a reservation on a blocked authority is denied. -/
namespace AiQuant.RateControl
open AiQuant.Lib

def Database.blockOf (database : Database) (authority : String) : Option AuthorityBlock :=
  database.blocks.find? (·.endpointAuthority = authority)

def AuthorityBlock.deadline (block : AuthorityBlock) : WithTop Time :=
  match block.blockedUntil with
  | none => ⊤
  | some instant => instant

def Database.blockDeadline (database : Database) (authority : String) :
    WithBot (WithTop Time) :=
  match database.blockOf authority with
  | none => ⊥
  | some block => block.deadline

def WindowsGrow (before after : Database) : Prop :=
  ∀ window ∈ before.windows, ∃ grown ∈ after.windows,
    grown.windowId = window.windowId ∧ window.observedMax ≤ grown.observedMax

theorem WindowsGrow.refl (db : Database) : WindowsGrow db db :=
  fun win hw => ⟨win, hw, rfl, le_rfl⟩

theorem WindowsGrow.trans {pre between post : Database} (hf : WindowsGrow pre between)
    (hs : WindowsGrow between post) : WindowsGrow pre post := by
  intro win hw
  obtain ⟨mid, hm, hid, hle⟩ := hf win hw
  obtain ⟨grown, hgro, hgr, hg⟩ := hs mid hm
  exact ⟨grown, hgro, hgr.trans hid, hle.trans hg⟩

section Observation

variable {castBigint castInteger : String → Option ℤ} {db post : Database}
  {observation : HeaderObservation} {now : Time}

structure ReadsHeaders (before after : Database) : Prop where
  blocks : after.blocks = before.blocks
  observes : Observes before after
  grow : WindowsGrow before after

theorem ReadsHeaders.refl (db : Database) : ReadsHeaders db db :=
  ⟨rfl, .refl db, .refl db⟩

theorem ReadsHeaders.trans {pre between post : Database}
    (hf : ReadsHeaders pre between) (hs : ReadsHeaders between post) : ReadsHeaders pre post :=
  ⟨hs.blocks.trans hf.blocks, hf.observes.trans hs.observes, hf.grow.trans hs.grow⟩

theorem observeHeader_readsHeaders {permitId : Option String} {rateLimitType : String}
    {header : String × Option String}
    (hs : Database.observeHeader castBigint permitId rateLimitType db header =
      .ok post) : ReadsHeaders db post := by
  have ho := observeHeader_observes hs
  unfold Database.observeHeader at hs
  split at hs
  · cases hs
    exact .refl db
  · rw [bind_eq_ok_iff] at hs
    obtain ⟨observed, -, hs⟩ := hs
    cases hs
    refine ⟨rfl, ho, fun win hw => ⟨_, List.mem_map_of_mem hw, ?_⟩⟩
    split_ifs
    · refine ⟨rfl, ?_⟩
      cases observed with
      | none => exact le_rfl
      | some value => exact le_max_left _ _
    · exact ⟨rfl, le_rfl⟩

theorem observeHeaders_readsHeaders {permitId : Option String} {rateLimitType : String}
    {headers : List (String × Option String)}
    (hl : headers.foldlM (Database.observeHeader castBigint permitId rateLimitType) db =
      .ok post) : ReadsHeaders db post := by
  refine foldlM_invariant (ReadsHeaders db) ?_ (.refl db) hl
  intro header _ reached next hr hs
  exact hr.trans (observeHeader_readsHeaders hs)

inductive Reconciles (castInteger : String → Option ℤ) (observation : HeaderObservation)
    (now : Time) (counted : Database) : Database → Prop
  | passed (hother : observation.observationType ≠ "HeaderObservation" ∨
        ∃ code, castNullable castInteger observation.httpStatus = .ok (some code) ∧
          code ≠ 418 ∧ code ≠ 429) :
      Reconciles castInteger observation now counted counted
  | banned (htype : observation.observationType = "HeaderObservation")
      (hstatus : castNullable castInteger observation.httpStatus = .ok (some 418)) :
      Reconciles castInteger observation now counted
        (counted.upsertBlock ⟨observation.endpointAuthority, none, 0⟩ fun block =>
          { block with blockedUntil := none, consecutiveBackoffCount := 0 })
  | backedOff {retryAfter : Option ℤ}
      (htype : observation.observationType = "HeaderObservation")
      (hstatus : castNullable castInteger observation.httpStatus = .ok (some 429) ∨
        castNullable castInteger observation.httpStatus = .ok none)
      (hretry : castNullable castInteger observation.retryAfterSeconds = .ok retryAfter) :
      Reconciles castInteger observation now counted
        (counted.backOff observation.endpointAuthority retryAfter now)

theorem reconcileHeaderObservation_cases
    (hst : db.reconcileHeaderObservation castBigint castInteger observation now = .ok post) :
    ∃ counted, ReadsHeaders db counted ∧
      Reconciles castInteger observation now counted post := by
  unfold Database.reconcileHeaderObservation at hst
  split at hst
  · rename_i htype
    cases hst
    exact ⟨db, .refl db, .passed (Or.inl htype)⟩
  rename_i htype
  rw [bind_eq_ok_iff] at hst
  obtain ⟨weighed, hw, hst⟩ := hst
  rw [bind_eq_ok_iff] at hst
  obtain ⟨counted, hc, hst⟩ := hst
  have hre := (observeHeaders_readsHeaders hw).trans (observeHeaders_readsHeaders hc)
  rw [bind_eq_ok_iff] at hst
  obtain ⟨statusCode, hs, hst⟩ := hst
  refine ⟨counted, hre, ?_⟩
  split at hst
  · rename_i ho
    cases hst
    cases statusCode with
    | none => cases ho
    | some code => exact .passed (Or.inr ⟨code, hs, by simpa using ho⟩)
  rename_i hblocking
  split at hst
  · rename_i hb
    cases hst
    exact .banned (not_not.1 htype) (hb ▸ hs)
  · rename_i hnotBanned
    rw [bind_eq_ok_iff] at hst
    obtain ⟨retryAfter, hr, hst⟩ := hst
    cases hst
    refine .backedOff (not_not.1 htype) ?_ hr
    cases statusCode with
    | none => exact Or.inr hs
    | some code =>
      -- neither passed nor banned: the code is 429
      have hco : code = 429 := by
        by_contra hne
        refine hblocking ?_
        have hn : code ≠ 418 := fun heq => hnotBanned (by rw [heq])
        simp [hne, hn]
      exact Or.inl (hco ▸ hs)

theorem blockOf_upsertBlock (db : Database) (inserted : AuthorityBlock)
    (upd : AuthorityBlock → AuthorityBlock) (auth : String)
    (hk : ∀ block, (upd block).endpointAuthority = block.endpointAuthority) :
    (db.upsertBlock inserted upd).blockOf auth =
      if auth = inserted.endpointAuthority then
        some ((db.blockOf auth).elim inserted upd)
      else db.blockOf auth := by
  unfold Database.upsertBlock Database.blockOf
  split
  · rename_i hany
    have hs : ((fun block : AuthorityBlock => decide (block.endpointAuthority = auth)) ∘
        fun block => if block.endpointAuthority = inserted.endpointAuthority then upd block
          else block) = fun block => decide (block.endpointAuthority = auth) := by
      funext block
      dsimp only [Function.comp]
      split <;> simp [hk]
    rw [List.find?_map, hs]
    cases hf : db.blocks.find? (fun block => decide (block.endpointAuthority = auth))
      with
    | none =>
      have hne : auth ≠ inserted.endpointAuthority := by
        rintro rfl
        rw [List.find?_eq_none] at hf
        obtain ⟨block, hb, hm⟩ := List.any_eq_true.1 hany
        exact hf block hb hm
      rw [if_neg hne]
      rfl
    | some block =>
      have hb : block.endpointAuthority = auth := by simpa using List.find?_some hf
      subst hb
      split <;> simp_all
  · rename_i hnone
    rw [List.find?_append]
    by_cases ha : auth = inserted.endpointAuthority
    · subst ha
      have hf : db.blocks.find? (fun block =>
          decide (block.endpointAuthority = inserted.endpointAuthority)) = none := by
        rw [List.find?_eq_none]
        intro block hb hm
        exact hnone (List.any_eq_true.2 ⟨block, hb, hm⟩)
      simp [hf]
    · have ho : inserted.endpointAuthority ≠ auth := Ne.symm ha
      simp [ha, ho]

def Database.backoffCount (database : Database) (authority : String) : ℤ :=
  ((database.blockOf authority).map (·.consecutiveBackoffCount)).getD 0

def retryInterval (retryAfter : Option ℤ) (count : ℤ) : ℤ :=
  retryAfter.getD (min 900 (60 * 2 ^ (min count 4).toNat))

/-- The block lasts at least until `instant`. -/
def Database.BlockedUntil (database : Database) (authority : String) (instant : Time) : Prop :=
  ((instant : WithTop Time) : WithBot (WithTop Time)) ≤ database.blockDeadline authority

theorem upsertBlock_raises (db : Database) (auth : String) (instant : Time) (count : ℤ) :
    let post := db.upsertBlock ⟨auth, some instant, count⟩ fun block =>
      { block with
        blockedUntil := block.blockedUntil.map (max · instant)
        consecutiveBackoffCount := count }
    db.blockDeadline auth ≤ post.blockDeadline auth ∧
      post.BlockedUntil auth instant ∧ post.backoffCount auth = count := by
  intro post
  have hbl : post.blockOf auth = _ :=
    blockOf_upsertBlock db _ _ auth fun _ => rfl
  rw [if_pos rfl] at hbl
  unfold Database.BlockedUntil Database.blockDeadline Database.backoffCount
  rw [hbl]
  cases db.blockOf auth with
  | none => exact ⟨bot_le, le_rfl, rfl⟩
  | some block =>
    refine ⟨?_, ?_, rfl⟩
    · cases hb : block.blockedUntil with
      | none => simp [AuthorityBlock.deadline, hb]
      | some until_ => simp [AuthorityBlock.deadline, hb]
    · cases hb : block.blockedUntil with
      | none => simp [AuthorityBlock.deadline, hb]
      | some until_ => simp [AuthorityBlock.deadline, hb]

structure BacksOff (before after : Database) (authority : String) (retryAfter : Option ℤ)
    (now : Time) : Prop where
  others : ∀ other, other ≠ authority → after.blockOf other = before.blockOf other
  count : after.backoffCount authority =
    if retryAfter.isNone then before.backoffCount authority + 1 else 0
  extended : before.blockDeadline authority ≤ after.blockDeadline authority
  interval : after.BlockedUntil authority
    (now + 1000000 * retryInterval retryAfter (before.backoffCount authority))
  windows : ∀ window ∈ before.windows, window.endpointAuthority = authority →
    now < window.windowEnd → after.BlockedUntil authority window.windowEnd

theorem Database.BlockedUntil.mono {auth : String} {earlier later : Time}
    (hb : db.BlockedUntil auth later) (hle : earlier ≤ later) : db.BlockedUntil auth earlier := by
  refine le_trans ?_ hb
  exact_mod_cast hle

theorem backOff_backsOff (db : Database) (auth : String) (retryAfter : Option ℤ) (now : Time) :
    BacksOff db (db.backOff auth retryAfter now) auth retryAfter now := by
  obtain ⟨he, hb, hco⟩ := upsertBlock_raises db auth
    (max (now + 1000000 * retryInterval retryAfter (db.backoffCount auth))
      (((db.windows.filter fun win =>
        win.endpointAuthority = auth && now < win.windowEnd).map
          (·.windowEnd)).max?.elim now (· + 250000)))
    (if retryAfter.isNone then db.backoffCount auth + 1 else 0)
  refine ⟨fun other ho => ?_, hco, he, hb.mono (le_max_left _ _),
    fun win hw ha hc => hb.mono (le_trans ?_ (le_max_right _ _))⟩
  · unfold Database.backOff
    rw [blockOf_upsertBlock, if_neg ho]
    exact fun _ => rfl
  · have hmem : win.windowEnd ∈ (db.windows.filter fun win =>
        win.endpointAuthority = auth && now < win.windowEnd).map (·.windowEnd) :=
      List.mem_map_of_mem (by simp [hw, ha, hc])
    cases hm : ((db.windows.filter fun win =>
        win.endpointAuthority = auth && now < win.windowEnd).map
          (·.windowEnd)).max? with
    | none => simp [List.max?_eq_none_iff.1 hm] at hmem
    | some latest =>
      have hle : win.windowEnd ≤ latest := (List.max?_eq_some_iff.1 hm).2 _ hmem
      exact hle.trans (le_add_of_nonneg_right (by decide))

theorem upsertBlock_bans (db : Database) (auth : String) :
    (db.upsertBlock ⟨auth, none, 0⟩ fun block =>
        { block with blockedUntil := none, consecutiveBackoffCount := 0 }).blockDeadline
      auth = ((⊤ : WithTop Time) : WithBot (WithTop Time)) ∧
    (db.upsertBlock ⟨auth, none, 0⟩ fun block =>
        { block with blockedUntil := none, consecutiveBackoffCount := 0 }).backoffCount
      auth = 0 ∧
    ∀ other, other ≠ auth → (db.upsertBlock ⟨auth, none, 0⟩ fun block =>
        { block with blockedUntil := none, consecutiveBackoffCount := 0 }).blockOf other =
        db.blockOf other := by
  have hk : ∀ block : AuthorityBlock, ({ block with
      blockedUntil := none, consecutiveBackoffCount := 0 } : AuthorityBlock).endpointAuthority =
      block.endpointAuthority := fun _ => rfl
  refine ⟨?_, ?_, fun other ho => ?_⟩
  · unfold Database.blockDeadline
    rw [blockOf_upsertBlock _ _ _ _ hk, if_pos rfl]
    cases db.blockOf auth <;> rfl
  · unfold Database.backoffCount
    rw [blockOf_upsertBlock _ _ _ _ hk, if_pos rfl]
    cases db.blockOf auth <;> rfl
  · rw [blockOf_upsertBlock _ _ _ _ hk, if_neg ho]

theorem Reconciles.blockDeadline_le {counted : Database}
    (hr : Reconciles castInteger observation now counted post) (auth : String) :
    counted.blockDeadline auth ≤ post.blockDeadline auth := by
  cases hr with
  | passed => exact le_rfl
  | banned =>
    obtain ⟨hd, -, ho⟩ := upsertBlock_bans counted observation.endpointAuthority
    by_cases ha : auth = observation.endpointAuthority
    · rw [ha, hd]
      exact le_top
    · unfold Database.blockDeadline
      rw [ho auth ha]
  | @backedOff retryAfter =>
    have hb := backOff_backsOff counted observation.endpointAuthority retryAfter now
    by_cases ha : auth = observation.endpointAuthority
    · exact ha ▸ hb.extended
    · unfold Database.blockDeadline
      rw [hb.others auth ha]

theorem Reconciles.windows_eq {counted : Database}
    (hr : Reconciles castInteger observation now counted post) :
    post.windows = counted.windows := by
  have hu : ∀ inserted upd, (counted.upsertBlock inserted upd).windows =
      counted.windows := by
    intro inserted upd
    unfold Database.upsertBlock
    split <;> rfl
  cases hr with
  | passed => rfl
  | banned => exact hu _ _
  | backedOff => exact hu _ _

end Observation

/-- What the other procedures do to the tables of this module: blocks stay, and windows are
charged or added. -/
structure LeavesBlocks (before after : Database) : Prop where
  blocks : after.blocks = before.blocks
  grow : WindowsGrow before after

/-- A run of header observations, with the other procedures in between; `rows` are the
observations in the order of their insertion. -/
inductive HeaderRun (castBigint castInteger : String → Option ℤ) (start : Database) :
    List HeaderObservation → Database → Prop
  | start : HeaderRun castBigint castInteger start [] start
  | observe {rows : List HeaderObservation} {database after : Database}
      {observation : HeaderObservation} {now : Time}
      (hrun : HeaderRun castBigint castInteger start rows database)
      (hstep : database.reconcileHeaderObservation castBigint castInteger observation now =
        .ok after) :
      HeaderRun castBigint castInteger start (rows ++ [observation]) after
  | elsewhere {rows : List HeaderObservation} {database after : Database}
      (hrun : HeaderRun castBigint castInteger start rows database)
      (hother : LeavesBlocks database after) :
      HeaderRun castBigint castInteger start rows after

def countHeaderless (castInteger : String → Option ℤ) (authority : String) (count : ℤ)
    (row : HeaderObservation) : ℤ :=
  if row.observationType = "HeaderObservation" ∧ row.endpointAuthority = authority then
    if castNullable castInteger row.httpStatus = .ok (some 418) then 0
    else if castNullable castInteger row.httpStatus = .ok (some 429) ∨
        castNullable castInteger row.httpStatus = .ok none then
      if castNullable castInteger row.retryAfterSeconds = .ok none then count + 1 else 0
    else count
  else count

def consecutiveHeaderless (castInteger : String → Option ℤ) (authority : String)
    (rows : List HeaderObservation) : ℤ :=
  rows.foldl (countHeaderless castInteger authority) 0

section Run

variable {castBigint castInteger : String → Option ℤ} {start db post final : Database}
  {rows later : List HeaderObservation} {observation : HeaderObservation} {now : Time}

theorem LeavesBlocks.blockDeadline_eq (ho : LeavesBlocks db post)
    (auth : String) : post.blockDeadline auth = db.blockDeadline auth := by
  unfold Database.blockDeadline Database.blockOf
  rw [ho.blocks]

theorem HeaderRun.blockDeadline_le (hrun : HeaderRun castBigint castInteger start rows db)
    (auth : String) : start.blockDeadline auth ≤ db.blockDeadline auth := by
  induction hrun with
  | start => exact le_rfl
  | observe _ hstep ih =>
    obtain ⟨counted, hre, hr⟩ := reconcileHeaderObservation_cases hstep
    have hc := LeavesBlocks.blockDeadline_eq ⟨hre.blocks, hre.grow⟩ auth
    exact ih.trans (hc ▸ hr.blockDeadline_le auth)
  | elsewhere _ hother ih =>
    rw [hother.blockDeadline_eq auth]
    exact ih

theorem HeaderRun.windows_grow (hrun : HeaderRun castBigint castInteger start rows db) :
    WindowsGrow start db := by
  induction hrun with
  | start => exact .refl _
  | observe _ hstep ih =>
    obtain ⟨counted, hre, hr⟩ := reconcileHeaderObservation_cases hstep
    refine ih.trans ?_
    intro win hw
    rw [hr.windows_eq]
    exact hre.grow win hw
  | elsewhere _ hother ih => exact ih.trans hother.grow

theorem Reconciles.backoffCount_eq {counted : Database}
    (hr : Reconciles castInteger observation now counted post) (auth : String) :
    post.backoffCount auth =
      countHeaderless castInteger auth (counted.backoffCount auth) observation := by
  cases hr with
  | passed hot =>
    rcases hot with ht | ⟨code, hs, hban, hba⟩
    · simp [countHeaderless, ht]
    · simp [countHeaderless, hs, hban, hba]
  | banned ht hs =>
    obtain ⟨-, hco, ho⟩ := upsertBlock_bans counted observation.endpointAuthority
    by_cases ha : observation.endpointAuthority = auth
    · subst ha
      rw [hco]
      simp [countHeaderless, ht, hs]
    · unfold Database.backoffCount
      rw [ho auth (Ne.symm ha)]
      simp [countHeaderless, ha]
  | @backedOff retryAfter ht hs hre =>
    have hb := backOff_backsOff counted observation.endpointAuthority retryAfter now
    by_cases ha : observation.endpointAuthority = auth
    · subst ha
      have hn : castNullable castInteger observation.httpStatus ≠ .ok (some 418) := by
        rcases hs with hs | hs <;> simp [hs]
      have hc : countHeaderless castInteger observation.endpointAuthority
          (counted.backoffCount observation.endpointAuthority) observation =
          if (.ok retryAfter : Except String (Option ℤ)) = .ok none then
            counted.backoffCount observation.endpointAuthority + 1 else 0 := by
        rw [countHeaderless, if_pos ⟨ht, rfl⟩, if_neg hn, if_pos hs, hre]
      rw [hb.count, hc]
      cases retryAfter <;> simp
    · unfold Database.backoffCount
      rw [hb.others auth (Ne.symm ha)]
      simp [countHeaderless, ha]

theorem HeaderRun.backoffCount_eq (hrun : HeaderRun castBigint castInteger start rows db)
    (he : start.blocks = []) (auth : String) :
    db.backoffCount auth = consecutiveHeaderless castInteger auth rows := by
  induction hrun with
  | start => simp [Database.backoffCount, Database.blockOf, he, consecutiveHeaderless]
  | @observe rows _ _ _ _ _ hstep ih =>
    obtain ⟨counted, hre, hr⟩ := reconcileHeaderObservation_cases hstep
    have hc : counted.backoffCount auth = consecutiveHeaderless castInteger auth rows := by
      unfold Database.backoffCount Database.blockOf
      rw [hre.blocks]
      exact ih
    rw [hr.backoffCount_eq auth, hc, consecutiveHeaderless,
      consecutiveHeaderless, List.foldl_append]
    rfl
  | elsewhere _ hother ih =>
    unfold Database.backoffCount Database.blockOf at ih ⊢
    rw [hother.blocks]
    exact ih

theorem reservePermitV2_denied {req : ReserveRequest} {leaseCheckedAt instant : Time}
    {reply : ReserveReply} (hb : db.BlockedUntil req.binding.endpointAuthority instant)
    (hbe : now < instant) (hc : db.reservePermitV2 req leaseCheckedAt now = .ok (reply, post)) :
    reply.granted = false := by
  have hany : db.blocks.any (fun block =>
      block.endpointAuthority = req.binding.endpointAuthority &&
        block.blockedUntil.all (now < ·)) = true := by
    unfold Database.BlockedUntil Database.blockDeadline Database.blockOf at hb
    cases hf : db.blocks.find? (fun block =>
        decide (block.endpointAuthority = req.binding.endpointAuthority)) with
    | none =>
      rw [hf] at hb
      exact absurd hb (by simp)
    | some block =>
      rw [hf] at hb
      refine List.any_eq_true.2 ⟨block, List.mem_of_find?_eq_some hf, ?_⟩
      have ha := List.find?_some hf
      cases hu : block.blockedUntil with
      | none => simpa using ha
      | some blockedUntil =>
        have hle : instant ≤ blockedUntil := by
          simpa [AuthorityBlock.deadline, hu] using hb
        simp only [Bool.and_eq_true, Option.all_some, decide_eq_true_eq]
        exact ⟨by simpa using ha, lt_of_lt_of_le hbe hle⟩
  unfold Database.reservePermitV2 Database.reserveUnderActiveLease at hc
  dsimp only at hc
  split at hc
  · split at hc
    · cases hc
      rfl
    · split at hc
      · cases hc
        rfl
      · cases hc
        rfl
  · cases hc
    rfl

/-- What an observation on `database` means for a later state of the run. -/
structure Tightens (castInteger : String → Option ℤ) (rows : List HeaderObservation)
    (database : Database) (observation : HeaderObservation) (now : Time) (final : Database) :
    Prop where
  extended : ∀ authority, database.blockDeadline authority ≤ final.blockDeadline authority
  grow : WindowsGrow database final
  banned : observation.observationType = "HeaderObservation" →
    castNullable castInteger observation.httpStatus = .ok (some 418) →
    final.blockDeadline observation.endpointAuthority = ((⊤ : WithTop Time) :
      WithBot (WithTop Time))
  denied : observation.observationType = "HeaderObservation" →
    castNullable castInteger observation.httpStatus = .ok (some 429) →
    ∀ retryAfter, castNullable castInteger observation.retryAfterSeconds = .ok retryAfter →
    ∀ request leaseCheckedAt calledAt reply after,
      request.binding.endpointAuthority = observation.endpointAuthority →
      final.reservePermitV2 request leaseCheckedAt calledAt = .ok (reply, after) →
      (calledAt < now + 1000000 * retryInterval retryAfter
          (consecutiveHeaderless castInteger observation.endpointAuthority rows) ∨
        ∃ window ∈ database.windows, window.endpointAuthority = observation.endpointAuthority ∧
          now < window.windowEnd ∧ calledAt < window.windowEnd) →
      reply.granted = false

/-- Header observations only ever tighten the blocks and the windows. -/
theorem header_observations_tighten (hempty : start.blocks = [])
    (hrun : HeaderRun castBigint castInteger start rows db)
    (hstep : db.reconcileHeaderObservation castBigint castInteger observation now = .ok post)
    (hlater : HeaderRun castBigint castInteger post later final) :
    Tightens castInteger rows db observation now final := by
  obtain ⟨counted, hread, hr⟩ := reconcileHeaderObservation_cases hstep
  have hc := LeavesBlocks.blockDeadline_eq ⟨hread.blocks, hread.grow⟩
  refine ⟨fun auth => ?_, ?_, fun ht hs => ?_, ?_⟩
  · exact (hc auth ▸ hr.blockDeadline_le auth).trans (hlater.blockDeadline_le auth)
  · refine WindowsGrow.trans ?_ hlater.windows_grow
    intro win hwi
    rw [hr.windows_eq]
    exact hread.grow win hwi
  · have hba : post.blockDeadline observation.endpointAuthority =
        ((⊤ : WithTop Time) : WithBot (WithTop Time)) := by
      cases hr with
      | passed hot =>
        rcases hot with ho | ⟨code, hcode, hne, -⟩
        · exact absurd ht ho
        · rw [hs] at hcode
          exact absurd (Option.some.inj (Except.ok.inj hcode)).symm hne
      | banned => exact (upsertBlock_bans counted observation.endpointAuthority).1
      | backedOff _ hb => rcases hb with hb | hb <;> simp [hs] at hb
    have hle := hlater.blockDeadline_le observation.endpointAuthority
    rw [hba] at hle
    exact top_le_iff.1 hle
  · intro ht hs retryAfter hre req leaseCheckedAt calledAt reply reserved ha hcall hbe
    have hbac : BacksOff counted post observation.endpointAuthority retryAfter now := by
      cases hr with
      | passed hot =>
        rcases hot with ho | ⟨code, hcode, -, hne⟩
        · exact absurd ht ho
        · rw [hs] at hcode
          exact absurd (Option.some.inj (Except.ok.inj hcode)).symm hne
      | banned _ hba => simp [hs] at hba
      | backedOff _ _ hca =>
        rw [hre] at hca
        cases hca
        exact backOff_backsOff counted observation.endpointAuthority retryAfter now
    -- The count before this backoff is that of the rows, and the windows are those of `db`.
    have hco : counted.backoffCount observation.endpointAuthority =
        consecutiveHeaderless castInteger observation.endpointAuthority rows := by
      rw [← hrun.backoffCount_eq hempty observation.endpointAuthority]
      unfold Database.backoffCount Database.blockOf
      rw [hread.blocks]
    have hst : ∀ instant, post.BlockedUntil observation.endpointAuthority instant →
        final.BlockedUntil req.binding.endpointAuthority instant := by
      intro instant hbl
      rw [ha]
      exact hbl.trans (hlater.blockDeadline_le observation.endpointAuthority)
    rcases hbe with hi | ⟨win, hwi, hw, hcu, he⟩
    · exact reservePermitV2_denied (hst _ (hco ▸ hbac.interval)) hi hcall
    · obtain ⟨seen, hseen, hsa⟩ : ∃ seen ∈ counted.windows, seen.unseen = win.unseen := by
        have hm : win.unseen ∈ counted.windows.map (·.unseen) := by
          rw [hread.observes.windows]
          exact List.mem_map_of_mem hwi
        obtain ⟨seen, hseen, hu⟩ := List.mem_map.1 hm
        exact ⟨seen, hseen, hu⟩
      have hse : seen.endpointAuthority = observation.endpointAuthority :=
        (congrArg RateWindow.endpointAuthority hsa).trans hw
      have hsee : seen.windowEnd = win.windowEnd := by
        show seen.unseen.windowEnd = win.unseen.windowEnd
        rw [hsa]
      have hbl := hbac.windows seen hseen hse (hsee ▸ hcu)
      exact reservePermitV2_denied (hst _ hbl) (hsee ▸ he) hcall

end Run

section Throttled

def throttledObservation : HeaderObservation :=
  { teapotObservation with httpStatus := some "429" }

def throttledOnce : Database :=
  okValue (reservedPermit.2.reconcileHeaderObservation castDigits castDigits
    throttledObservation 600000) (by decide)

def throttledTwice : Database :=
  okValue (throttledOnce.reconcileHeaderObservation castDigits castDigits
    throttledObservation 700000) (by decide)

theorem throttledTwice_tightens :
    throttledTwice.blocks = [⟨"testnet.binancefuture.com", some 120700000, 2⟩] ∧
      Tightens castDigits [throttledObservation] throttledOnce throttledObservation 700000
        throttledTwice := by
  refine ⟨by decide, ?_⟩
  have hf : reservedPermit.2.reconcileHeaderObservation castDigits castDigits
      throttledObservation 600000 = .ok throttledOnce := eq_ok_okValue _
  have hs : throttledOnce.reconcileHeaderObservation castDigits castDigits
      throttledObservation 700000 = .ok throttledTwice := eq_ok_okValue _
  exact header_observations_tighten (by decide) (HeaderRun.start.observe hf) hs .start

end Throttled

end AiQuant.RateControl
