import AiQuant.OrderBook.Health

/-! The ids of the updates that a HEALTHY book applies (`_apply_contiguous`).  Only `pu` is
compared with the current id: an update that names it is applied, wherever its own ids lie. -/
namespace AiQuant.OrderBook

namespace LocalOrderBook

variable {book post : LocalOrderBook} {update : DepthUpdate}

def afterUpdates (book : LocalOrderBook) (updates : List DepthUpdate) : LocalOrderBook :=
  updates.foldl (fun book update => (book.ingest update).2) book

def appliedIds : LocalOrderBook → List DepthUpdate → List ℕ
  | _, [] => []
  | book, update :: rest =>
    (if (book.ingest update).1 = .ok true then (book.ingest update).2.lastUpdateId.toList else []) ++
      appliedIds (book.ingest update).2 rest

/-- Every update that is applied takes the book to a larger id. -/
def IdsIncrease (book : LocalOrderBook) (updates : List DepthUpdate) : Prop :=
  List.IsChain (· < ·) (book.lastUpdateId.toList ++ book.appliedIds updates)

/-- An unseen update of the book's stream that names its current id and leaves two uncrossed
sides. -/
structure Continues (update : DepthUpdate) (book : LocalOrderBook) : Prop where
  healthy : book.state = .healthy
  symbol_eq : update.symbol = book.symbol
  connectionId_eq : some update.connectionId = book.connectionId
  unseen : eventKey update ∉ book.seenOrder
  follows : book.lastUpdateId = some update.previousFinalUpdateId
  valid : sidesValid (applyLevels book.bids update.bids) (applyLevels book.asks update.asks) = true

/-- Wherever an update continues the book, it ends above the id that it names. -/
def ContinuesUpwards (book : LocalOrderBook) (updates : List DepthUpdate) : Prop :=
  ∀ earlier update later, updates = earlier ++ update :: later →
    (book.afterUpdates earlier).Continues update → update.previousFinalUpdateId < update.finalUpdateId

theorem applyContiguous_of_follows (hf : book.lastUpdateId = some update.previousFinalUpdateId)
    (hv : sidesValid (applyLevels book.bids update.bids)
      (applyLevels book.asks update.asks) = true) :
    book.applyContiguous update = (true, book.applied update) := by
  rw [applyContiguous, hf]
  dsimp only
  rw [if_neg (not_not.mpr rfl), hv]
  rfl

theorem ingest_of_continues (hc : book.Continues update) :
    book.ingest update = (.ok true, (book.remember (eventKey update)).applied update) := by
  have ho : ¬(update.symbol ≠ book.symbol ∨ some update.connectionId ≠ book.connectionId) :=
    not_or.mpr ⟨not_not.mpr hc.symbol_eq, not_not.mpr hc.connectionId_eq⟩
  have hh : (book.remember (eventKey update)).state = .healthy := hc.healthy
  have hs : ¬(book.remember (eventKey update)).state ∈
      [OrderBookState.buffering, .snapshotLoading, .syncing] := by
    rw [hh]
    decide
  rw [ingest, if_neg ho, if_neg hc.unseen, ingestFresh, if_neg hs, if_neg (not_not.mpr hh)]
  have ha : (book.remember (eventKey update)).applyContiguous update =
      (true, (book.remember (eventKey update)).applied update) :=
    applyContiguous_of_follows hc.follows hc.valid
  rw [ha]

theorem ingest_applies_iff : (book.ingest update).1 = .ok true ↔ book.Continues update := by
  refine ⟨fun ha => ?_, fun hco => by rw [ingest_of_continues hco]⟩
  have hca := ingest_cases book update
  have ho : ¬(update.symbol ≠ book.symbol ∨ some update.connectionId ≠ book.connectionId) := by
    intro hf
    rw [ingest, if_pos hf] at ha
    cases ha
  have hu : eventKey update ∉ book.seenOrder := by
    intro hse
    rw [ingest, if_neg ho, if_pos hse] at ha
    cases ha
  generalize book.ingest update = outcome at hca ha
  cases hca with
  | cleared hresult hinvalidated => exact absurd ha hresult
  | kept hsame => cases ha
  | advanced had =>
    obtain ⟨hs, hc⟩ := not_or.mp ho
    exact ⟨had.healthy, not_not.mp hs, not_not.mp hc, hu, had.follows, had.valid⟩

theorem lastUpdateId_of_continues (hc : book.Continues update) :
    (book.ingest update).2.lastUpdateId = some update.finalUpdateId := by
  have hca := ingest_cases book update
  rw [ingest_of_continues hc] at hca ⊢
  cases hca with
  | cleared hresult hinvalidated => exact absurd rfl hresult
  | advanced hadvances => exact hadvances.lastUpdateId_eq

theorem lastUpdateId_of_not_continues (hn : ¬book.Continues update) :
    (book.ingest update).2.lastUpdateId = book.lastUpdateId ∨
      (book.ingest update).2.lastUpdateId = none := by
  rcases ingest_rejected (mt ingest_applies_iff.mp hn) with hs | ⟨-, hc⟩
  · exact Or.inl hs.lastUpdateId_eq
  · exact Or.inr hc.lastUpdateId_eq

theorem appliedIds_cons (book : LocalOrderBook) (update : DepthUpdate)
    (rest : List DepthUpdate) : book.appliedIds (update :: rest) =
      (if (book.ingest update).1 = .ok true then (book.ingest update).2.lastUpdateId.toList
        else []) ++ (book.ingest update).2.appliedIds rest :=
  rfl

theorem appliedIds_of_none {updates : List DepthUpdate} (hn : book.lastUpdateId = none) :
    book.appliedIds updates = [] := by
  induction updates generalizing book with
  | nil => rfl
  | cons update rest ih =>
    have hnot : ¬book.Continues update := by
      intro hc
      rw [hc.follows] at hn
      cases hn
    have hne : (book.ingest update).2.lastUpdateId = none := by
      rcases lastUpdateId_of_not_continues hnot with hs | hcl
      · rw [hs, hn]
      · exact hcl
    rw [appliedIds_cons, if_neg (mt ingest_applies_iff.mp hnot), ih hne]
    rfl

theorem continuesUpwards_cons {rest : List DepthUpdate} : book.ContinuesUpwards (update :: rest) ↔
      (book.Continues update → update.previousFinalUpdateId < update.finalUpdateId) ∧
        (book.ingest update).2.ContinuesUpwards rest := by
  constructor
  · intro ha
    exact ⟨ha [] update rest rfl, fun earlier next later hr =>
      ha (update :: earlier) next later (by rw [hr, List.cons_append])⟩
  · rintro ⟨hf, hr⟩ earlier next later hs
    cases earlier with
    | nil =>
      obtain ⟨rfl, -⟩ := List.cons.inj hs
      exact hf
    | cons head earlier =>
      obtain ⟨rfl, ht⟩ := List.cons.inj hs
      exact hr earlier next later ht

theorem idsIncrease_cons {rest : List DepthUpdate} : book.IdsIncrease (update :: rest) ↔
      (book.Continues update → update.previousFinalUpdateId < update.finalUpdateId) ∧
        (book.ingest update).2.IdsIncrease rest := by
  rw [IdsIncrease, IdsIncrease, appliedIds_cons]
  by_cases hc : book.Continues update
  · rw [if_pos (ingest_applies_iff.mpr hc), lastUpdateId_of_continues hc, hc.follows]
    show List.IsChain (· < ·) (update.previousFinalUpdateId :: update.finalUpdateId :: _) ↔ _
    rw [List.isChain_cons_cons]
    exact and_congr_left fun _ => (imp_iff_right hc).symm
  · rw [if_neg (mt ingest_applies_iff.mp hc), List.nil_append]
    refine Iff.trans ?_ (and_iff_right fun hd => absurd hd hc).symm
    rcases lastUpdateId_of_not_continues hc with hs | hcl
    · rw [hs]
    · rw [appliedIds_of_none hcl, hcl]
      refine iff_of_true ?_ List.IsChain.nil
      cases book.lastUpdateId with
      | none => exact List.IsChain.nil
      | some id => exact List.IsChain.singleton id

/-- The id of a book increases with every update that it applies just when every update that
continues it ends above the id that it names. -/
theorem ids_increase_iff (book : LocalOrderBook) (updates : List DepthUpdate) :
    book.IdsIncrease updates ↔ book.ContinuesUpwards updates := by
  induction updates generalizing book with
  | nil =>
    refine iff_of_true ?_ fun earlier update later hs => ?_
    · rw [IdsIncrease, appliedIds, List.append_nil]
      cases book.lastUpdateId with
      | none => exact List.IsChain.nil
      | some id => exact List.IsChain.singleton id
    · cases earlier <;> cases hs
  | cons update rest ih => rw [idsIncrease_cons, continuesUpwards_cons, ih]

end LocalOrderBook

/-- An update of the stream of `sampleCalls` from id 2 back to id 1. -/
def backwardsUpdate : DepthUpdate :=
  { sampleUpdate 2 with firstUpdateId := 1, finalUpdateId := 1, first_le_final := le_rfl }

theorem backwards_update_applied :
    ¬∀ (sym : String) (bufferLimit : ℕ+) (stale : ℤ) (calls : List BookCall)
      (updates : List DepthUpdate),
      ((LocalOrderBook.new sym bufferLimit stale).run calls).state = .healthy →
      ((LocalOrderBook.new sym bufferLimit stale).run calls).IdsIncrease updates := by
  intro hc
  have hi := hc "BTCUSDT" 8 3000000 (sampleCalls.take 3) [backwardsUpdate] (by decide)
  have hids : ((LocalOrderBook.new "BTCUSDT" 8 3000000).run (sampleCalls.take 3)).lastUpdateId =
      some 2 := by decide
  have ha : ((LocalOrderBook.new "BTCUSDT" 8 3000000).run (sampleCalls.take 3)).appliedIds
      [backwardsUpdate] = [1] := by decide
  rw [LocalOrderBook.IdsIncrease, hids, ha] at hi
  have hl : 2 < 1 := (List.isChain_cons_cons.mp hi).1
  omega

end AiQuant.OrderBook
