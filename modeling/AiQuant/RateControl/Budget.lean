import Mathlib.Data.List.Pairwise
import AiQuant.RateControl.Headers

/-! The rate budget is never oversold: the check loop and the charge loop of a
reservation agree on every window of its cost vector, and headers only move what was
seen of a window. -/
namespace AiQuant.RateControl
open AiQuant.Lib

/-- What a window counts, and when. -/
structure WindowSlot where
  windowId : ℕ
  endpointAuthority : String
  scopeKeyHash : String
  rateLimitType : String
  intervalName : String
  windowStart : Time
  windowEnd : Time
deriving DecidableEq

def RateWindow.slot (window : RateWindow) : WindowSlot where
  windowId := window.windowId
  endpointAuthority := window.endpointAuthority
  scopeKeyHash := window.scopeKeyHash
  rateLimitType := window.rateLimitType
  intervalName := window.intervalName
  windowStart := window.windowStart
  windowEnd := window.windowEnd

structure WindowSlot.Apart (left right : WindowSlot) : Prop where
  ids : left.windowId ≠ right.windowId
  times : left.endpointAuthority = right.endpointAuthority →
    left.scopeKeyHash = right.scopeKeyHash → left.rateLimitType = right.rateLimitType →
    left.intervalName = right.intervalName →
    left.windowEnd ≤ right.windowStart ∨ right.windowEnd ≤ left.windowStart

theorem WindowSlot.Apart.symm {left right : WindowSlot} (hap : left.Apart right) :
    right.Apart left :=
  ⟨hap.ids.symm, fun ha hs ht hi =>
    (hap.times ha.symm hs.symm ht.symm hi.symm).symm⟩

def Database.WindowsApart (database : Database) : Prop :=
  (database.windows.map (·.slot)).Pairwise WindowSlot.Apart

def RateWindow.serves (window : RateWindow) (authority : String) (item : CostItem) (now : Time) :
    Bool :=
  window.endpointAuthority = authority && window.scopeKeyHash = item.scopeKeyHash &&
    window.rateLimitType = item.rateLimitType && window.intervalName = item.intervalName &&
    window.windowStart ≤ now && now < window.windowEnd

def RateWindow.charge (window : RateWindow) (cost : ℤ) : RateWindow :=
  { window with effectiveUsed := window.used + cost }

def RateWindow.charged (window : RateWindow) (authority : String) (costs : List CostItem)
    (now : Time) : RateWindow :=
  match costs.find? fun item => window.serves authority item now with
  | some item => window.charge item.cost
  | none => window

def Database.allocated (database : Database) (windowId : ℕ) : ℤ :=
  ((database.allocations.filter (·.windowId = windowId)).map (·.cost)).sum

section Windows

variable {db : Database} {auth : String} {item : CostItem} {now : Time}
  {win other : RateWindow}

theorem Database.WindowsApart.apart (ha : db.WindowsApart) (hw : win ∈ db.windows)
    (ho : other ∈ db.windows) (hne : win ≠ other) : win.slot.Apart other.slot := by
  have hs : Std.Symm fun left right : RateWindow => left.slot.Apart right.slot :=
    ⟨fun _ _ hb => hb.symm⟩
  exact (List.pairwise_map.mp ha).forall hw ho hne

theorem Database.WindowsApart.eq_of_id (ha : db.WindowsApart) (hw : win ∈ db.windows)
    (ho : other ∈ db.windows) (hid : win.windowId = other.windowId) : win = other := by
  by_contra hne
  exact (ha.apart hw ho hne).ids hid

theorem Database.WindowsApart.eq_of_serves (hap : db.WindowsApart)
    (hw : win ∈ db.windows) (ho : other ∈ db.windows) (hs : win.serves auth item now = true)
    (hse : other.serves auth item now = true) : win = other := by
  by_contra hne
  simp only [RateWindow.serves, Bool.and_eq_true, decide_eq_true_eq] at hs hse
  obtain ⟨⟨⟨⟨⟨hau, hsco⟩, htype⟩, hin⟩, hsta⟩, hend⟩ := hs
  obtain ⟨⟨⟨⟨⟨ha, hsc⟩, hty⟩, hi⟩, hst⟩, he⟩ := hse
  have ht := (hap.apart hw ho hne).times
    (hau.trans ha.symm) (hsco.trans hsc.symm) (htype.trans hty.symm)
    (hin.trans hi.symm)
  rcases ht with hb | hb
  · exact absurd (hend.trans_le hb) (not_lt.mpr hst)
  · exact absurd (he.trans_le hb) (not_lt.mpr hsta)

theorem mem_of_windowFor (hf : db.windowFor auth item now = some win) :
    win ∈ db.windows ∧ win.serves auth item now = true := by
  exact ⟨List.mem_of_find?_eq_some hf,
    List.find?_some (p := fun found : RateWindow => found.serves auth item now) hf⟩

theorem Database.WindowsApart.windowFor_eq_some (ha : db.WindowsApart)
    (hw : win ∈ db.windows) (hs : win.serves auth item now = true) :
    db.windowFor auth item now = some win := by
  cases hf : db.windowFor auth item now with
  | none => exact absurd hs (List.find?_eq_none.mp hf win hw)
  | some found =>
    obtain ⟨hm, hse⟩ := mem_of_windowFor hf
    rw [ha.eq_of_serves hm hw hse hs]

theorem RateWindow.charged_eq_self {costs : List CostItem}
    (hn : ∀ item ∈ costs, win.serves auth item now = false) : win.charged auth costs now = win := by
  have hf : costs.find? (fun item => win.serves auth item now) = none := by
    rw [List.find?_eq_none]
    intro item hm
    rw [hn item hm]
    decide
  unfold RateWindow.charged
  rw [hf]

theorem RateWindow.charged_cons_of_serves {rest : List CostItem}
    (hs : win.serves auth item now = true) :
    win.charged auth (item :: rest) now = win.charge item.cost := by
  simp [RateWindow.charged, hs]

theorem RateWindow.charged_cons_of_not_serves {rest : List CostItem}
    (hs : win.serves auth item now = false) :
    win.charged auth (item :: rest) now = win.charged auth rest now := by
  simp [RateWindow.charged, hs]

end Windows

/-- All that the charge loop does: every item has one window, no window has two, each
is charged its item's cost, and nothing else is touched. -/
structure Charges (database : Database) (authority permitId : String) (costs : List CostItem)
    (now : Time) (after : Database) : Prop where
  served : ∀ item ∈ costs, ∃ window ∈ database.windows,
    window.serves authority item now = true ∧
      ∀ other ∈ database.windows, other.serves authority item now = true → other = window
  once : costs.Pairwise fun item later => ∀ window ∈ database.windows,
    window.serves authority item now = true → window.serves authority later now = false
  windows : after.windows = database.windows.map (·.charged authority costs now)
  allocations : after.allocations = database.allocations ++ costs.filterMap fun item =>
    (database.windowFor authority item now).map fun window =>
      ⟨permitId, window.windowId, item.cost, window.used, window.used + item.cost⟩
  fresh : ∀ item ∈ costs, ∀ window, database.windowFor authority item now = some window →
    ∀ allocation ∈ database.allocations,
      ¬ (allocation.permitId = permitId ∧ allocation.windowId = window.windowId)

section Charging

variable {db post : Database} {auth permitId : String} {now : Time}

theorem charge_eq_ok_iff {item : CostItem} : Database.charge auth permitId now db item = .ok post ↔
      ∃ win, db.windowFor auth item now = some win ∧
        (∀ alloc ∈ db.allocations, ¬ (alloc.permitId = permitId ∧ alloc.windowId = win.windowId)) ∧
        post = { db with
          windows := db.windows.map fun other =>
            if other.windowId = win.windowId then
              { other with effectiveUsed := win.used + item.cost } else other
          allocations := db.allocations ++
            [⟨permitId, win.windowId, item.cost, win.used, win.used + item.cost⟩] } := by
  unfold Database.charge
  cases hw : db.windowFor auth item now with
  | none => simp
  | some win =>
    dsimp only
    by_cases hd : db.allocations.any (fun alloc =>
        alloc.permitId = permitId && alloc.windowId = win.windowId) = true
    · rw [if_pos hd]
      obtain ⟨alloc, hm, hs⟩ := List.any_eq_true.mp hd
      rw [Bool.and_eq_true, decide_eq_true_eq, decide_eq_true_eq] at hs
      constructor
      · intro he
        cases he
      · rintro ⟨found, hf, hfr, -⟩
        cases hf
        exact absurd hs (hfr alloc hm)
    · rw [if_neg hd]
      constructor
      · intro hok
        cases hok
        refine ⟨win, rfl, ?_, rfl⟩
        intro alloc hm hs
        refine hd (List.any_eq_true.mpr ⟨alloc, hm, ?_⟩)
        rw [Bool.and_eq_true, decide_eq_true_eq, decide_eq_true_eq]
        exact hs
      · rintro ⟨found, hf, -, rfl⟩
        cases hf
        rfl

structure ChargesOne (database : Database) (permitId : String) (item : CostItem)
    (window : RateWindow) (after : Database) : Prop where
  windows : after.windows = database.windows.map fun other =>
    if other = window then window.charge item.cost else other
  allocations : after.allocations = database.allocations ++
    [⟨permitId, window.windowId, item.cost, window.used, window.used + item.cost⟩]

theorem Database.WindowsApart.chargesOne {item : CostItem} (ha : db.WindowsApart)
    (hc : Database.charge auth permitId now db item = .ok post) :
    ∃ win ∈ db.windows, win.serves auth item now = true ∧
      (∀ alloc ∈ db.allocations, ¬ (alloc.permitId = permitId ∧ alloc.windowId = win.windowId)) ∧
      ChargesOne db permitId item win post := by
  obtain ⟨win, hw, hf, rfl⟩ := charge_eq_ok_iff.mp hc
  obtain ⟨hm, hs⟩ := mem_of_windowFor hw
  refine ⟨win, hm, hs, hf, ?_, rfl⟩
  apply List.map_congr_left
  intro other ho
  by_cases hid : other.windowId = win.windowId
  · obtain rfl := ha.eq_of_id ho hm hid
    rw [if_pos rfl, if_pos rfl]
    rfl
  · rw [if_neg hid, if_neg fun hsa => hid (congrArg RateWindow.windowId hsa)]

section One

variable {item : CostItem} {win : RateWindow}

section

variable (hone : ChargesOne db permitId item win post)
include hone

theorem ChargesOne.apart (ha : db.WindowsApart) : post.WindowsApart := by
  have hs : post.windows.map (·.slot) = db.windows.map (·.slot) := by
    rw [hone.windows, List.map_map]
    apply List.map_congr_left
    intro other _
    dsimp only [Function.comp]
    split
    · rename_i hsame
      rw [hsame]
      rfl
    · rfl
  unfold Database.WindowsApart
  rw [hs]
  exact ha

theorem ChargesOne.charged_mem (hm : win ∈ db.windows) : win.charge item.cost ∈ post.windows := by
  rw [hone.windows]
  exact List.mem_map.mpr ⟨win, hm, if_pos rfl⟩

theorem ChargesOne.other_mem {other : RateWindow} (ho : other ∈ db.windows) (hne : other ≠ win) :
    other ∈ post.windows := by
  rw [hone.windows]
  exact List.mem_map.mpr ⟨other, ho, if_neg hne⟩

theorem ChargesOne.later_elsewhere (ha : db.WindowsApart) (hm : win ∈ db.windows) {later : CostItem}
    (hfr : ∀ found, post.windowFor auth later now = some found → ∀ alloc ∈ post.allocations,
        ¬ (alloc.permitId = permitId ∧ alloc.windowId = found.windowId)) :
    win.serves auth later now = false := by
  by_contra hserved
  rw [Bool.not_eq_false] at hserved
  have hf : post.windowFor auth later now = some (win.charge item.cost) :=
    (hone.apart ha).windowFor_eq_some (hone.charged_mem hm) hserved
  refine hfr _ hf ⟨permitId, win.windowId, item.cost, win.used, win.used + item.cost⟩ ?_ ⟨rfl, rfl⟩
  rw [hone.allocations]
  exact List.mem_append_right _ (List.mem_singleton_self _)

theorem ChargesOne.windowFor_later (ha : db.WindowsApart) {later : CostItem} {found : RateWindow}
    (hl : win.serves auth later now = false) (hf : found ∈ post.windows)
    (hs : found.serves auth later now = true) : found ∈ db.windows ∧
      post.windowFor auth later now = db.windowFor auth later now := by
  have hin : found ∈ db.windows := by
    rw [hone.windows] at hf
    obtain ⟨other, ho, rfl⟩ := List.mem_map.mp hf
    split at hs
    · have hc : win.serves auth later now = true := hs
      rw [hl] at hc
      cases hc
    · rename_i hne
      rw [if_neg hne]
      exact ho
  refine ⟨hin, ?_⟩
  rw [(hone.apart ha).windowFor_eq_some hf hs, ha.windowFor_eq_some hin hs]

end

variable {rest : List CostItem}

section

variable (hone : ChargesOne db permitId item win post)
include hone

theorem ChargesOne.windows_cons (ha : db.WindowsApart) (hm : win ∈ db.windows)
    (hs : win.serves auth item now = true)
    (hl : ∀ later ∈ rest, win.serves auth later now = false) :
    post.windows.map (·.charged auth rest now) =
      db.windows.map (·.charged auth (item :: rest) now) := by
  rw [hone.windows, List.map_map]
  apply List.map_congr_left
  intro other ho
  dsimp only [Function.comp]
  by_cases hc : other = win
  · rw [if_pos hc, hc, RateWindow.charged_cons_of_serves hs]
    exact RateWindow.charged_eq_self hl
  · have hn : other.serves auth item now = false := by
      rw [← Bool.not_eq_true]
      intro hse
      exact hc (ha.eq_of_serves ho hm hse hs)
    rw [if_neg hc, RateWindow.charged_cons_of_not_serves hn]

theorem ChargesOne.once_cons (ha : db.WindowsApart) (hm : win ∈ db.windows)
    (hse : win.serves auth item now = true) (hl : ∀ later ∈ rest, win.serves auth later now = false)
    (hon : rest.Pairwise fun item later => ∀ win ∈ post.windows,
      win.serves auth item now = true → win.serves auth later now = false) :
    (item :: rest).Pairwise fun item later => ∀ win ∈ db.windows,
      win.serves auth item now = true → win.serves auth later now = false := by
  refine List.pairwise_cons.mpr ⟨?_, ?_⟩
  · intro later hin other ho hs
    rw [ha.eq_of_serves ho hm hs hse]
    exact hl later hin
  · refine hon.imp_of_mem ?_
    intro first later _ hin hb other ho hs
    by_cases hne : other = win
    · rw [hne]
      exact hl later hin
    · exact hb other (hone.other_mem ho hne) hs

theorem ChargesOne.cons (ha : db.WindowsApart) (hm : win ∈ db.windows)
    (hse : win.serves auth item now = true) (hfr : ∀ alloc ∈ db.allocations,
      ¬ (alloc.permitId = permitId ∧ alloc.windowId = win.windowId))
    {final : Database} (hc : Charges post auth permitId rest now final) :
    Charges db auth permitId (item :: rest) now final := by
  have hl : ∀ later ∈ rest, win.serves auth later now = false := by
    intro later hin
    exact hone.later_elsewhere ha hm (hc.fresh later hin)
  have hsa : ∀ later ∈ rest, ∃ found ∈ db.windows, found.serves auth later now = true ∧
        post.windowFor auth later now = db.windowFor auth later now := by
    intro later hin
    obtain ⟨found, hf, hs, -⟩ := hc.served later hin
    obtain ⟨hd, he⟩ := hone.windowFor_later ha (hl later hin) hf hs
    exact ⟨found, hd, hs, he⟩
  refine ⟨?_, hone.once_cons ha hm hse hl hc.once,
    hc.windows.trans (hone.windows_cons ha hm hse hl), ?_, ?_⟩
  · intro charged hin
    have hw : ∃ found ∈ db.windows, found.serves auth charged now = true := by
      rcases List.mem_cons.mp hin with rfl | hin
      · exact ⟨win, hm, hse⟩
      · obtain ⟨found, hd, hs, -⟩ := hsa charged hin
        exact ⟨found, hd, hs⟩
    obtain ⟨found, hd, hs⟩ := hw
    exact ⟨found, hd, hs, fun other ho hb =>
      ha.eq_of_serves ho hd hb hs⟩
  · have hr : (rest.filterMap fun later => (post.windowFor auth later now).map
        fun found : RateWindow => (⟨permitId, found.windowId, later.cost, found.used,
          found.used + later.cost⟩ : Allocation)) =
        rest.filterMap fun later => (db.windowFor auth later now).map
          fun found => ⟨permitId, found.windowId, later.cost, found.used,
            found.used + later.cost⟩ := by
      apply List.filterMap_congr
      intro later hin
      obtain ⟨-, -, -, he⟩ := hsa later hin
      rw [he]
    rw [hc.allocations, hone.allocations, hr, List.append_assoc, List.filterMap_cons,
      ha.windowFor_eq_some hm hse]
    rfl
  · intro charged hin found hf alloc hal
    rcases List.mem_cons.mp hin with rfl | hin
    · rw [ha.windowFor_eq_some hm hse] at hf
      cases hf
      exact hfr alloc hal
    · obtain ⟨-, -, -, he⟩ := hsa charged hin
      rw [← he] at hf
      refine hc.fresh charged hin found hf alloc ?_
      rw [hone.allocations]
      exact List.mem_append_left _ hal

end

end One

theorem charges_of_foldlM {costs : List CostItem} (ha : db.WindowsApart)
    (hl : costs.foldlM (Database.charge auth permitId now) db = .ok post) :
    Charges db auth permitId costs now post := by
  induction costs generalizing db with
  | nil =>
    rw [foldlM_nil_eq_ok_iff] at hl
    subst hl
    refine ⟨by simp, List.Pairwise.nil, ?_, by simp, by simp⟩
    exact ((List.map_congr_left fun _ _ => rfl).trans (List.map_id _)).symm
  | cons item rest ih =>
    rw [foldlM_cons_eq_ok_iff] at hl
    obtain ⟨mid, hf, hr⟩ := hl
    obtain ⟨win, hm, hs, hfr, hone⟩ := ha.chargesOne hf
    exact hone.cons ha hm hs hfr (ih (hone.apart ha) hr)

end Charging

/-- Any order of reservations and header observations, at any instants, from a database
whose windows (and what is already allocated of them) are within their limits.  Leases,
consumptions and policies move neither windows nor allocations. -/
inductive BudgetRun (castBigint castInteger : String → Option ℤ) : Database → Prop
  | start {database : Database} (hapart : database.WindowsApart)
      (hwithin : ∀ window ∈ database.windows, window.effectiveUsed ≤ window.hardLimit)
      (hallocated : ∀ window ∈ database.windows,
        database.allocated window.windowId ≤ window.effectiveUsed)
      (hkeys : (database.permits.map (·.requestKey)).Nodup) :
      BudgetRun castBigint castInteger database
  | reserve {database after : Database} {request : ReserveRequest} {reply : ReserveReply}
      {leaseCheckedAt now : Time} (hrun : BudgetRun castBigint castInteger database)
      (hcall : database.reservePermitV2 request leaseCheckedAt now = .ok (reply, after)) :
      BudgetRun castBigint castInteger after
  | observe {database after : Database} {observation : HeaderObservation} {now : Time}
      (hrun : BudgetRun castBigint castInteger database)
      (hcall : database.reconcileHeaderObservation castBigint castInteger observation now =
        .ok after) :
      BudgetRun castBigint castInteger after
  | elsewhere {database after : Database} (hrun : BudgetRun castBigint castInteger database)
      (hwindows : after.windows = database.windows)
      (hallocations : after.allocations = database.allocations)
      (hkeys : after.permits.map (·.requestKey) = database.permits.map (·.requestKey)) :
      BudgetRun castBigint castInteger after

structure Budgeted (database : Database) : Prop where
  apart : database.WindowsApart
  within : ∀ window ∈ database.windows, window.effectiveUsed ≤ window.hardLimit
  allocated_le : ∀ window ∈ database.windows,
    database.allocated window.windowId ≤ window.effectiveUsed
  keys : (database.permits.map (·.requestKey)).Nodup

section Steps

variable {db post : Database} {auth permitId : String} {now : Time}

theorem used_le_of_costRefusal {item : CostItem} {win : RateWindow}
    (ha : db.costRefusal auth item now = none) (hw : db.windowFor auth item now = some win) :
    win.used + item.cost ≤ min win.hardLimit item.ceilingUnits := by
  unfold Database.costRefusal at ha
  rw [hw] at ha
  split at ha
  · cases ha
  dsimp only at ha
  split at ha
  · cases ha
  split at ha
  · cases ha
  · rename_i hceiling
    exact not_lt.mp hceiling

theorem ChargesOne.allocated_le {item : CostItem} {win : RateWindow}
    (hone : ChargesOne db permitId item win post) (hap : db.WindowsApart) (hm : win ∈ db.windows)
    (hle : ∀ other ∈ db.windows, db.allocated other.windowId ≤ other.effectiveUsed) :
    ∀ other ∈ post.windows, post.allocated other.windowId ≤ other.effectiveUsed := by
  have ha : ∀ windowId, post.allocated windowId =
      db.allocated windowId + if win.windowId = windowId then item.cost else 0 := by
    intro windowId
    unfold Database.allocated
    rw [hone.allocations, List.filter_append, List.map_append, List.sum_append]
    by_cases hid : win.windowId = windowId
    · simp [hid]
    · simp [hid]
  intro charged hc
  rw [hone.windows] at hc
  obtain ⟨other, ho, rfl⟩ := List.mem_map.mp hc
  rw [ha]
  split
  · rename_i hsame
    have hu : win.effectiveUsed ≤ win.used := le_max_left _ _
    have hb := (hle win hm).trans hu
    have hid : win.windowId = (win.charge item.cost).windowId := rfl
    rw [if_pos hid]
    exact Int.add_le_add_right hb item.cost
  · rename_i hne
    have hid : win.windowId ≠ other.windowId :=
      fun hid => hne (hap.eq_of_id ho hm hid.symm)
    rw [if_neg hid, Int.add_zero]
    exact hle other ho

variable {costs : List CostItem}

theorem charges_allocated_le (ha : db.WindowsApart)
    (hl : costs.foldlM (Database.charge auth permitId now) db = .ok post)
    (hle : ∀ win ∈ db.windows, db.allocated win.windowId ≤ win.effectiveUsed) : post.WindowsApart ∧
      ∀ win ∈ post.windows, post.allocated win.windowId ≤ win.effectiveUsed := by
  refine foldlM_invariant (fun reached => reached.WindowsApart ∧
    ∀ win ∈ reached.windows, reached.allocated win.windowId ≤ win.effectiveUsed)
    ?_ ⟨ha, hle⟩ hl
  rintro item _ reached next ⟨hr, hb⟩ hc
  obtain ⟨win, hm, -, -, hone⟩ := hr.chargesOne hc
  exact ⟨hone.apart hr, hone.allocated_le hr hm hb⟩

theorem Reserves.charges {req : ReserveRequest}
    (hr : Reserves db req now costs post) (ha : db.WindowsApart) :
    Charges db req.binding.endpointAuthority req.permitId costs now post := by
  -- the permit and its nonce are no part of what is charged
  have hi : Database.WindowsApart { db with
      nonces := db.nonces ++ [req.nonceRow]
      permits := db.permits ++ [req.permit now] } := ha
  have hc := charges_of_foldlM hi hr.charged
  exact ⟨hc.served, hc.once, hc.windows, hc.allocations, hc.fresh⟩

theorem Budgeted.reserve (hb : Budgeted db) {req : ReserveRequest}
    (hr : Reserves db req now costs post) : Budgeted post := by
  have hi : Database.WindowsApart { db with
      nonces := db.nonces ++ [req.nonceRow]
      permits := db.permits ++ [req.permit now] } := hb.apart
  obtain ⟨hap, ha⟩ := charges_allocated_le hi hr.charged hb.allocated_le
  refine ⟨hap, ?_, ha, ?_⟩
  · have hc := hr.charges hb.apart
    rw [hc.windows]
    intro charged hch
    obtain ⟨win, hm, rfl⟩ := List.mem_map.mp hch
    unfold RateWindow.charged
    split
    · rename_i item hfound
      have hs := List.find?_some (p := fun item : CostItem =>
        win.serves req.binding.endpointAuthority item now) hfound
      have hce := used_le_of_costRefusal (hr.accepted item (List.mem_of_find?_eq_some hfound))
        (hb.apart.windowFor_eq_some hm hs)
      exact hce.trans (min_le_left _ _)
    · exact hb.within win hm
  · rw [hr.tables.2, List.map_append, List.nodup_append]
    refine ⟨hb.keys, by simp, ?_⟩
    rintro left hl right hri rfl
    obtain ⟨permit, hm, rfl⟩ := List.mem_map.mp hl
    rw [List.map_singleton, List.mem_singleton] at hri
    have hn := List.find?_eq_none.mp hr.newKey permit hm
    rw [decide_eq_true_eq] at hn
    exact hn hri

theorem Budgeted.observe (hb : Budgeted db) (ho : Observes db post) : Budgeted post := by
  -- a window of the new state is one of the old state, but for what was seen of it
  have hold : ∀ win ∈ post.windows, ∃ old ∈ db.windows,
      old.windowId = win.windowId ∧ old.effectiveUsed = win.effectiveUsed ∧
        old.hardLimit = win.hardLimit := by
    intro win hm
    have hse := List.mem_map_of_mem (f := RateWindow.unseen) hm
    rw [ho.windows] at hse
    obtain ⟨old, hd, hsa⟩ := List.mem_map.mp hse
    rw [RateWindow.unseen, RateWindow.unseen, RateWindow.mk.injEq] at hsa
    exact ⟨old, hd, hsa.1, hsa.2.2.2.2.2.2.2.1, hsa.2.2.2.2.2.2.2.2.2.1⟩
  refine ⟨?_, ?_, ?_, ?_⟩
  · have hs : post.windows.map (·.slot) = db.windows.map (·.slot) := by
      have hu := congrArg (List.map RateWindow.slot) ho.windows
      rw [List.map_map, List.map_map] at hu
      exact hu
    unfold Database.WindowsApart
    rw [hs]
    exact hb.apart
  · intro win hm
    obtain ⟨old, hd, -, hus, hl⟩ := hold win hm
    rw [← hus, ← hl]
    exact hb.within old hd
  · intro win hm
    obtain ⟨old, hd, hid, hus, -⟩ := hold win hm
    have ha : post.allocated win.windowId = db.allocated win.windowId := by
      unfold Database.allocated
      rw [ho.allocations]
    rw [ha, ← hus, ← hid]
    exact hb.allocated_le old hd
  · rw [ho.permits]
    exact hb.keys

theorem BudgetRun.budgeted {castBigint castInteger : String → Option ℤ}
    (hrun : BudgetRun castBigint castInteger db) : Budgeted db := by
  induction hrun with
  | start hap hw hal hk => exact ⟨hap, hw, hal, hk⟩
  | reserve _ hc ih =>
    rcases reservePermitV2_cases hc with ⟨-, rfl⟩ | ⟨existing, -, -, rfl, -⟩ |
      ⟨costs, hr, -⟩
    · exact ih
    · exact ih
    · exact ih.reserve hr
  | observe _ hc ih => exact ih.observe (reconcileHeaderObservation_observes hc)
  | elsewhere _ hwindows ha hk ih =>
    refine ⟨?_, ?_, ?_, ?_⟩
    · unfold Database.WindowsApart
      rw [hwindows]
      exact ih.apart
    · rw [hwindows]
      exact ih.within
    · unfold Database.allocated
      rw [hwindows, ha]
      exact ih.allocated_le
    · rw [hk]
      exact ih.keys

end Steps

structure ReserveRequest.Admitted (request : ReserveRequest) (database : Database)
    (leaseCheckedAt now : Time) : Prop where
  lease : database.fencing.admits (some request.fencingEpoch) leaseCheckedAt = true
  live : now < request.expiresAt
  bounded : request.expiresAt ≤ now + 5000000
  unblocked : ∀ block ∈ database.blocks,
    block.endpointAuthority = request.binding.endpointAuthority →
      ∃ blockedUntil, block.blockedUntil = some blockedUntil ∧ blockedUntil ≤ now

def Permit.grantedReply (permit : Permit) : ReserveReply :=
  ⟨true, "RATE_GRANTED", some permit.permitId, some permit.derivedOperationClass,
    permit.fencingEpoch, some permit.expiresAt⟩

section Repeats

variable {db : Database} {req : ReserveRequest} {existing : Permit}
  {leaseCheckedAt now : Time}

theorem blocked_eq_false_iff : db.blocks.any (fun block =>
      block.endpointAuthority = req.binding.endpointAuthority &&
        block.blockedUntil.all (now < ·)) = false ↔
      ∀ block ∈ db.blocks, block.endpointAuthority = req.binding.endpointAuthority →
          ∃ blockedUntil, block.blockedUntil = some blockedUntil ∧ blockedUntil ≤ now := by
  rw [List.any_eq_false]
  refine forall₂_congr fun block _ => ?_
  cases block.blockedUntil with
  | none => simp
  | some blockedUntil => simp

theorem Budgeted.repeated (hb : Budgeted db) (he : existing ∈ db.permits)
    (hr : req.Replays existing now) (ha : req.Admitted db leaseCheckedAt now) :
    db.reservePermitV2 req leaseCheckedAt now = .ok (existing.grantedReply, db) := by
  have hep : db.fencing.epoch = req.fencingEpoch := by
    have hl := ha.lease
    rw [FencingState.admits, sqlNe, Option.any_some, Bool.and_eq_true, Bool.not_eq_true',
      decide_eq_false_iff_not, not_not] at hl
    exact hl.1.symm
  have hf : db.permits.find? (·.requestKey = req.requestKey) = some existing := by
    cases hfi : db.permits.find? (·.requestKey = req.requestKey) with
    | none => exact absurd (decide_eq_true hr.key) (List.find?_eq_none.mp hfi _ he)
    | some found =>
      have hk : found.requestKey = req.requestKey := by simpa using List.find?_some hfi
      rw [List.inj_on_of_nodup_map hb.keys (List.mem_of_find?_eq_some hfi) he
        (hk.trans hr.key.symm)]
  have hexp : ¬ (req.expiresAt ≤ now ∨ now + 5000000 < req.expiresAt) := by
    rw [not_or, not_le, not_lt]
    exact ⟨ha.live, ha.bounded⟩
  have hu := blocked_eq_false_iff.mpr ha.unblocked
  unfold Database.reservePermitV2 Database.reserveUnderActiveLease
  dsimp only
  rw [if_pos ha.lease, if_neg (not_not.mpr hep), if_neg hexp, hu, if_neg Bool.false_ne_true, hf]
  dsimp only [ReserveRequest.replay]
  rw [if_pos ⟨hr.state, hr.expires, hr.binding, hr.operationClass, hr.nonce, hr.epoch⟩]
  rfl

theorem reservePermitV2_of_not_admitted (hr : ¬ req.Admitted db leaseCheckedAt now) :
    ∃ reasonCode, db.reservePermitV2 req leaseCheckedAt now =
      .ok (reserveDenied reasonCode db.fencing.epoch, db) := by
  unfold Database.reservePermitV2 Database.reserveUnderActiveLease
  dsimp only
  split
  swap
  · exact ⟨_, rfl⟩
  rename_i hl
  split
  · exact ⟨_, rfl⟩
  split
  · exact ⟨_, rfl⟩
  rename_i he
  split
  · exact ⟨_, rfl⟩
  rename_i hblocked
  rw [not_or, not_le, not_lt] at he
  rw [Bool.not_eq_true] at hblocked
  exact absurd ⟨hl, he.1, he.2, blocked_eq_false_iff.mp hblocked⟩ hr

end Repeats

/-- The rate budget is never oversold. -/
structure NeverOversold (database : Database) : Prop where
  within : ∀ window ∈ database.windows, window.effectiveUsed ≤ window.hardLimit
  allocated_le : ∀ window ∈ database.windows,
    database.allocated window.windowId ≤ window.effectiveUsed
  granted : ∀ request leaseCheckedAt now reply after,
    database.reservePermitV2 request leaseCheckedAt now = .ok (reply, after) →
    reply.granted = true →
    (∃ existing ∈ database.permits, request.Replays existing now ∧
      reply = existing.grantedReply ∧ after = database) ∨
    ∃ costs, database.selectedCosts request now = .ok costs ∧
      Charges database request.binding.endpointAuthority request.permitId costs now after ∧
      ∀ item ∈ costs, ∀ window ∈ database.windows,
        window.serves request.binding.endpointAuthority item now = true →
        window.used + item.cost ≤ min window.hardLimit item.ceilingUnits
  denied : ∀ request leaseCheckedAt now reply after,
    database.reservePermitV2 request leaseCheckedAt now = .ok (reply, after) →
    reply.granted = false → after = database

/-- A request that is sent again is answered with its permit, unless a gate before the
look-up of its key denies it; either way nothing is charged. -/
structure RepeatsFree (database : Database) : Prop where
  repeated : ∀ request leaseCheckedAt now, ∀ existing ∈ database.permits,
    request.Replays existing now → request.Admitted database leaseCheckedAt now →
    database.reservePermitV2 request leaseCheckedAt now = .ok (existing.grantedReply, database)
  refused : ∀ request leaseCheckedAt now, ¬ request.Admitted database leaseCheckedAt now →
    ∃ reasonCode, database.reservePermitV2 request leaseCheckedAt now =
      .ok (reserveDenied reasonCode database.fencing.epoch, database)

theorem budget_never_oversold {castBigint castInteger : String → Option ℤ} {db : Database}
    (hrun : BudgetRun castBigint castInteger db) : NeverOversold db ∧ RepeatsFree db := by
  have hb := hrun.budgeted
  refine ⟨⟨hb.within, hb.allocated_le, ?_, ?_⟩, ?_, ?_⟩
  · intro req leaseCheckedAt now reply post hc hg
    rcases reservePermitV2_cases hc with ⟨hd, -⟩ |
      ⟨existing, he, hre, rfl, rfl⟩ | ⟨costs, hr, -⟩
    · rw [hg] at hd
      cases hd
    · exact Or.inl ⟨existing, he, hre, rfl, rfl⟩
    · refine Or.inr ⟨costs, hr.selected, hr.charges hb.apart, ?_⟩
      intro item hi win hw hs
      exact used_le_of_costRefusal (hr.accepted item hi) (hb.apart.windowFor_eq_some hw hs)
  · intro req leaseCheckedAt now reply post hc hd
    rcases reservePermitV2_cases hc with ⟨-, rfl⟩ | ⟨existing, -, -, rfl, rfl⟩ |
      ⟨costs, -, rfl⟩
    · rfl
    · rfl
    · cases hd
  · intro req leaseCheckedAt now existing he hre ha
    exact hb.repeated he hre ha
  · intro req leaseCheckedAt now href
    exact reservePermitV2_of_not_admitted href

section Blocked

def castDigits (text : String) : Option ℤ :=
  if text.toList ≠ [] ∧ text.toList.all Char.isDigit = true then
    some (text.toList.foldl (fun value digit => 10 * value + (digit.toNat - 48)) 0)
  else none

def teapotObservation : HeaderObservation where
  observationType := "HeaderObservation"
  endpointAuthority := "testnet.binancefuture.com"
  permitId := some "permit-1"
  usedWeightObservations := [("X-MBX-USED-WEIGHT-1m", some "7")]
  orderCountObservations := []
  httpStatus := some "418"
  retryAfterSeconds := none

def blockedDatabase : Database :=
  okValue (reservedPermit.2.reconcileHeaderObservation castDigits castDigits
    teapotObservation 600000) (by decide)

theorem budgetRun_reservedPermit {castBigint castInteger : String → Option ℤ} :
    BudgetRun castBigint castInteger reservedPermit.2 := by
  have hs : BudgetRun castBigint castInteger firstLease.2 := by
    refine .start ?_ ?_ ?_ List.nodup_nil
    · exact List.pairwise_singleton _ _
    · intro win hm
      rw [List.mem_singleton.mp hm]
      decide
    · intro win hm
      rw [List.mem_singleton.mp hm]
      decide
  have hc : firstLease.2.reservePermitV2 takeoverReserve 500000 500000 =
      .ok reservedPermit := eq_ok_okValue _
  exact hs.reserve hc

theorem reserved_once_not_oversold : reservedPermit.2.allocated 1 = 1 ∧
      firstLease.2.reservePermitV2 takeoverReserve 500000 500000 = .ok reservedPermit ∧
      NeverOversold reservedPermit.2 ∧ RepeatsFree reservedPermit.2 := by
  refine ⟨by decide, eq_ok_okValue _, ?_⟩
  have hr : BudgetRun castDigits castDigits reservedPermit.2 := budgetRun_reservedPermit
  exact budget_never_oversold hr

theorem blocked_request_not_answered :
    ¬ ∀ (castBigint castInteger : String → Option ℤ) (db : Database),
        BudgetRun castBigint castInteger db →
        ∀ (req : ReserveRequest) (leaseCheckedAt now : Time) (existing : Permit),
          existing ∈ db.permits → req.Replays existing now →
          db.reservePermitV2 req leaseCheckedAt now = .ok (existing.grantedReply, db) := by
  intro hc
  have hca : reservedPermit.2.reconcileHeaderObservation castDigits castDigits
      teapotObservation 600000 = .ok blockedDatabase := eq_ok_okValue _
  have hrun : BudgetRun castDigits castDigits blockedDatabase :=
    budgetRun_reservedPermit.observe hca
  have hr : takeoverReserve.Replays (takeoverReserve.permit 500000) 700000 :=
    ⟨rfl, rfl, by decide, rfl, rfl, rfl, rfl⟩
  have ha := hc _ _ _ hrun takeoverReserve 700000 700000 (takeoverReserve.permit 500000)
    (by decide) hr
  exact absurd ha (by decide)

end Blocked

end AiQuant.RateControl
