import AiQuant.Telegram.Intents

/-! Every keyboard and every confirmation message of the bot (`notifications/telegram_bot.py`),
with what its buttons are for. -/
namespace AiQuant.Telegram
open AiQuant.Lib
open AiQuant.CopyTrading (LeaderSlot ControlAction leaderSlots isCustomSlot)

/-- The messages with buttons, with what they are built from. -/
inductive Menu where
  | contextual (view : String)
  | pnlOverview (choices : List LeaderPnlChoice)
  | positionLeaders (choices : List PositionLeaderChoice)
  | positionClose (choices : List PositionCloseChoice) (leadPortfolioId : String) (page : ℕ)
      (hasNext : Bool)
  | leaderPnl (leadPortfolioId : String)
  | leaderManagement
  | leaderSlotActions (slot : LeaderSlot)
  | leaderCandidates (slot : LeaderSlot) (choices : List LeaderCandidateChoice)
  | multiplierManagement (choices : List LeaderMultiplierChoice)
  | multiplierValue (choice : LeaderMultiplierChoice)
  | leaderLock (choices : List LeaderLockChoice)
  | entryMarginLimit (current : String)
  | leaderConfirmation (nonce : String)
  | multiplierConfirmation (nonce : String)
  | entryMarginConfirmation (nonce : String)
  | leaderLockConfirmation (nonce : String)
  | positionCloseConfirmation (nonce leadPortfolioId : String)
  | leaderPositionsCloseConfirmation (nonce leadPortfolioId : String)
  | actionConfirmation (action : ControlAction) (nonce : String)

namespace Menu

def rows : Menu → Except Raised InlineKeyboard
  | contextual view => .ok (contextualInlineKeyboard view)
  | pnlOverview choices => .ok (pnlOverviewKeyboard choices)
  | positionLeaders choices => .ok (positionLeaderKeyboard choices)
  | positionClose choices leadPortfolioId page hasNext =>
    positionCloseKeyboard choices leadPortfolioId page hasNext
  | leaderPnl leadPortfolioId => leaderPnlKeyboard leadPortfolioId
  | leaderManagement => .ok leaderManagementKeyboard
  | leaderSlotActions slot => .ok (leaderSlotActionsKeyboard slot)
  | leaderCandidates slot choices => .ok (leaderCandidateKeyboard slot choices)
  | multiplierManagement choices => .ok (multiplierManagementKeyboard choices)
  | multiplierValue choice => multiplierValueKeyboard choice
  | leaderLock choices => .ok (leaderLockKeyboard choices)
  | entryMarginLimit current => entryMarginLimitKeyboard current
  | leaderConfirmation nonce =>
    .ok (confirmationKeyboard "✅ 确认变更" ("lead_confirm:" ++ nonce) "view:leaders")
  | multiplierConfirmation nonce =>
    .ok (confirmationKeyboard "✅ 确认倍数" ("mult_confirm:" ++ nonce) "mult:manage")
  | entryMarginConfirmation nonce =>
    .ok (confirmationKeyboard "✅ 确认额度" ("margin_confirm:" ++ nonce) "margin:manage")
  | leaderLockConfirmation nonce =>
    .ok (confirmationKeyboard "✅ 确认" ("lock_confirm:" ++ nonce) "lock:manage")
  | positionCloseConfirmation nonce leadPortfolioId =>
    if !isLeaderId leadPortfolioId then
      .error (valueError "Telegram position leader ID is invalid")
    else .ok (confirmationKeyboard "✅ 确认清除此仓" ("pos_confirm:" ++ nonce ++ ":" ++ leadPortfolioId)
      ("view:positions:" ++ leadPortfolioId))
  | leaderPositionsCloseConfirmation nonce leadPortfolioId =>
    if !isLeaderId leadPortfolioId then
      .error (valueError "Telegram position leader ID is invalid")
    else .ok (confirmationKeyboard "✅ 确认清空该带单员"
      ("pos_leader_confirm:" ++ nonce ++ ":" ++ leadPortfolioId)
      ("view:positions:" ++ leadPortfolioId))
  | actionConfirmation action nonce =>
    if action = .resetAccountSummary then
      .ok (confirmationKeyboard "✅ 确认初始化" ("summary_confirm:" ++ nonce) "view:funds")
    else .ok (confirmationKeyboard "✅ 确认执行" ("confirm:" ++ nonce) ("cancel:" ++ nonce))

def post (chatId : ℤ) (text : String) (menu : Menu) : Bot Unit := do
  let rows ← .ofExcept menu.rows
  send chatId text (some (.inlineKeyboard rows))

end Menu

/-! ### The confirmation messages are menus -/

section Confirmations

variable (chatId userId : ℤ) (proposal : Proposal) (leader : String)

theorem sendLeaderConfirmation_eq : sendLeaderConfirmation chatId proposal =
    (Menu.leaderConfirmation proposal.nonce).post chatId proposal.confirmationText := rfl

theorem sendMultiplierConfirmation_eq : sendMultiplierConfirmation chatId proposal =
    (Menu.multiplierConfirmation proposal.nonce).post chatId proposal.confirmationText := rfl

theorem sendEntryMarginConfirmation_eq : sendEntryMarginConfirmation chatId proposal =
    (Menu.entryMarginConfirmation proposal.nonce).post chatId proposal.confirmationText := rfl

theorem sendLeaderLockConfirmation_eq : sendLeaderLockConfirmation chatId proposal =
    (Menu.leaderLockConfirmation proposal.nonce).post chatId proposal.confirmationText := rfl

theorem sendPositionCloseConfirmation_eq : sendPositionCloseConfirmation chatId proposal leader =
    (Menu.positionCloseConfirmation proposal.nonce leader).post chatId
      proposal.confirmationText := by
  rw [sendPositionCloseConfirmation, Menu.post, Menu.rows]
  cases isLeaderId leader <;> rfl

theorem sendLeaderPositionsCloseConfirmation_eq :
    sendLeaderPositionsCloseConfirmation chatId proposal leader =
      (Menu.leaderPositionsCloseConfirmation proposal.nonce leader).post chatId
        proposal.confirmationText := by
  rw [sendLeaderPositionsCloseConfirmation, Menu.post, Menu.rows]
  cases isLeaderId leader <;> rfl

def actionText (action : ControlAction) : String :=
  if action = .resetAccountSummary then resetSummaryText
  else "⚠️ 确认执行: " ++ actionLabel action ++ "\n确认按钮 2 分钟内有效。"

theorem requestConfirmation_eq (action : ControlAction) :
    requestConfirmation chatId userId action = (do
      let nonce : String ← ask (.create userId action)
      (Menu.actionConfirmation action nonce).post chatId (actionText action)) := by
  cases action <;> rfl

end Confirmations

def contextualIntents : List (String × List (List Intent)) :=
  [("status", [[.view "status", .auditRun], [.view "health", .view "control"]]),
   ("leaders", [[.view "leaders", .view "selection"], [.leaderManage]]),
   ("positions", [[.view "positions", .view "pending"], [.view "orders", .view "pnl"]]),
   ("pending", [[.view "pending", .view "positions"], [.view "orders"]]),
   ("orders", [[.view "orders", .view "positions"], [.view "pending"]]),
   ("funds", [[.view "funds", .view "pnl"], [.marginManage, .summaryReset]]),
   ("pnl", [[.view "pnl", .view "positions"], [.view "funds"]]),
   ("codex", [[.auditRun, .view "codex"], [.view "repair", .view "selection"]]),
   ("repair", [[.view "repair", .view "codex"], [.view "status"]]),
   ("health", [[.view "health", .view "codex"], [.view "status"]]),
   ("selection", [[.view "selection", .view "leaders"], [.view "codex"]]),
   ("control", [[.control .pauseNewEntries, .control .resumeTestnet], [.control .reduceAll],
     [.view "status"]]),
   ("help", [[.view "status"]])]

namespace Menu

def intents : Menu → List (List Intent)
  | contextual view => (contextualIntents.lookup view).getD [[.view "status"]]
  | pnlOverview choices =>
    [.view "pnl", .view "positions"] ::
      (choices.take 12).map (fun choice => [.leaderPnl choice.leadPortfolioId]) ++
      [[.summaryReset], [.view "funds"]]
  | positionLeaders choices =>
    [.view "positions", .view "pending"] ::
      (choices.take 12).map (fun choice => [.positions choice.leadPortfolioId none]) ++
      [[.view "orders"]]
  | positionClose choices leadPortfolioId page hasNext =>
    let previous : List Intent :=
      if 1 < page then [.positions leadPortfolioId (some (page - 1))] else []
    let next : List Intent :=
      if hasNext then [.positions leadPortfolioId (some (page + 1))] else []
    [.positions leadPortfolioId (some page), .view "positions"] ::
      (choices.take 8).map (fun choice =>
        [.positionClose choice.leadPortfolioId choice.symbol choice.positionSide]) ++
      (if choices = [] then [] else [[.leaderPositionsClose leadPortfolioId]]) ++
      (if previous ++ next = [] then [] else [previous ++ next]) ++
      [[.view "pending", .view "orders"]]
  | leaderPnl leadPortfolioId =>
    [[.leaderPnl leadPortfolioId, .view "pnl"], [.view "positions"]]
  | leaderManagement =>
    [(leaderSlots.map .leaderSlot).take 5, (leaderSlots.map .leaderSlot).drop 5,
     [.multiplierManage, .lockManage], [.view "leaders"]]
  | leaderSlotActions slot =>
    [[if isCustomSlot slot then .leaderManual slot else .leaderCandidates slot,
      .leaderRemove slot], [.leaderManage]]
  | leaderCandidates slot choices =>
    (choices.take 6).map (fun choice => [.leaderSet slot choice.leadPortfolioId]) ++
      [[.leaderManual slot], [.leaderManage]]
  | multiplierManagement choices =>
    let leaders := (choices.take 10).map fun choice =>
      Intent.multiplierLeader choice.leadPortfolioId
    [leaders.take 5, leaders.drop 5].filter (fun row => !row.isEmpty) ++
      [[.multiplierManage], [.leaderManage]]
  | multiplierValue choice =>
    let values := (List.range' 1 10).map (Intent.multiplierSet choice.leadPortfolioId)
    [values.take 5, values.drop 5, [.multiplierManage]]
  | leaderLock choices =>
    (choices.take 10).map (fun choice => [.lockSet choice.leadPortfolioId (!choice.locked)]) ++
      [[.lockManage], [.leaderManage]]
  | entryMarginLimit _ =>
    [[.marginSet 30, .marginSet 60], [.marginSet 90, .marginSet 120], [.marginCustom],
     [.marginManage], [.view "funds"]]
  | leaderConfirmation nonce => [[.leaderConfirm nonce, .view "leaders"]]
  | multiplierConfirmation nonce => [[.multiplierConfirm nonce, .multiplierManage]]
  | entryMarginConfirmation nonce => [[.marginConfirm nonce, .marginManage]]
  | leaderLockConfirmation nonce => [[.lockConfirm nonce, .lockManage]]
  | positionCloseConfirmation nonce leadPortfolioId =>
    [[.positionConfirm nonce leadPortfolioId, .positions leadPortfolioId none]]
  | leaderPositionsCloseConfirmation nonce leadPortfolioId =>
    [[.leaderPositionsConfirm nonce leadPortfolioId, .positions leadPortfolioId none]]
  | actionConfirmation action nonce =>
    if action = .resetAccountSummary then [[.summaryConfirm nonce, .view "funds"]]
    else [[.confirm nonce, .cancel nonce]]

/-- The identifiers, symbols and nonces are as the components make them, and no page is further
than the last one that a view can name. -/
def Valid : Menu → Prop
  | pnlOverview choices => ∀ choice ∈ choices, isLeaderId choice.leadPortfolioId = true
  | positionLeaders choices => ∀ choice ∈ choices, isLeaderId choice.leadPortfolioId = true
  | positionClose choices _ page hasNext =>
    (∀ choice ∈ choices,
      isLeaderId choice.leadPortfolioId = true ∧ isSymbol choice.symbol = true) ∧
    (hasNext = true → page + 1 ≤ 99)
  | leaderCandidates _ choices => ∀ choice ∈ choices, isLeaderId choice.leadPortfolioId = true
  | multiplierManagement choices => ∀ choice ∈ choices, isLeaderId choice.leadPortfolioId = true
  | leaderLock choices => ∀ choice ∈ choices, isLeaderId choice.leadPortfolioId = true
  | leaderConfirmation nonce | multiplierConfirmation nonce | entryMarginConfirmation nonce |
    leaderLockConfirmation nonce | positionCloseConfirmation nonce _ |
    leaderPositionsCloseConfirmation nonce _ | actionConfirmation _ nonce => isNonce nonce = true
  | contextual _ | leaderPnl _ | leaderManagement | leaderSlotActions _ | multiplierValue _ |
    entryMarginLimit _ => True

end Menu

section Data

variable {leader nonce : String}

theorem append_nested (first second third last : String) :
    first ++ (second ++ third ++ last) = first ++ second ++ third ++ last := by
  rw [← String.append_assoc, ← String.append_assoc]

theorem positions_data : (Intent.positions leader none).data = "view:positions:" ++ leader :=
  (append_nested "view:" "positions:" leader "").trans String.append_empty

theorem positionsPage_data {page : ℕ} :
    (Intent.positions leader (some page)).data = positionsView leader page :=
  (append_nested "view:" "positions:" leader (":" ++ toString page)).trans
    (@String.append_assoc ("view:positions:" ++ leader) ":" (toString page)).symm

theorem positionClose_data {choice : PositionCloseChoice} :
    (Intent.positionClose choice.leadPortfolioId choice.symbol choice.positionSide).data =
      positionCloseData choice := by
  have hn : ∀ start leader sym side : String, start ++ (leader ++ ":" ++ sym ++ ":" ++ side) =
        start ++ leader ++ ":" ++ sym ++ ":" ++ side := by
    intro start leader sym side
    rw [← String.append_assoc, ← String.append_assoc, ← String.append_assoc, ← String.append_assoc]
  have hs : Intent.sideText choice.positionSide =
      if choice.positionSide = .long then "L" else "S" := by
    cases choice.positionSide <;> rfl
  rw [positionCloseData, ← hs]
  exact hn "pos:close:" choice.leadPortfolioId choice.symbol _

theorem pair_data {start first second : String} :
    start ++ (first ++ ":" ++ second) = start ++ first ++ ":" ++ second := by
  rw [← String.append_assoc, ← String.append_assoc]

theorem lockSet_data {choice : LeaderLockChoice} :
    (Intent.lockSet choice.leadPortfolioId (!choice.locked)).data =
      (leaderLockButton choice).callbackData := by
  show "lock:set:" ++ (choice.leadPortfolioId ++ ":" ++ if !choice.locked then "1" else "0") = _
  rw [pair_data, leaderLockButton]
  cases choice.locked <;> rfl

end Data

def dataOf (intents : List (List Intent)) : List (List String) :=
  intents.map fun row => row.map Intent.data

def callbackDataOf (rows : InlineKeyboard) : List (List String) :=
  rows.map fun row => row.map Button.callbackData

theorem lookup_map {key : String} {β γ : Type} (change : β → γ) : ∀ table : List (String × β),
    (table.map fun entry => (entry.1, change entry.2)).lookup key = (table.lookup key).map change
  | [] => rfl
  | (first, value) :: rest => by
    rw [List.map_cons, List.lookup_cons, List.lookup_cons, lookup_map change rest]
    cases key == first <;> rfl

theorem contextual_data (view : String) :
    dataOf (Menu.contextual view).intents = callbackDataOf (contextualInlineKeyboard view) := by
  have ht : contextualIntents.map (fun entry => (entry.1, dataOf entry.2)) =
      contextualKeyboards.map fun entry => (entry.1, callbackDataOf entry.2) := by
    rfl
  have hl := congrArg (List.lookup view) ht
  rw [lookup_map, lookup_map] at hl
  show dataOf ((contextualIntents.lookup view).getD [[.view "status"]]) =
    callbackDataOf ((contextualKeyboards.lookup view).getD helpKeyboard)
  cases hi : contextualIntents.lookup view <;>
    cases hk : contextualKeyboards.lookup view <;>
    rw [hi, hk] at hl
  · rfl
  · exact absurd hl.symm (Option.some_ne_none _)
  · exact absurd hl (Option.some_ne_none _)
  · exact Option.some.inj hl

section Join

variable {first rest : List (List Intent)} {row : List Intent} {above below : InlineKeyboard}
  {buttons : List Button}

theorem rows_append (hf : dataOf first = callbackDataOf above)
    (hr : dataOf rest = callbackDataOf below) :
    dataOf (first ++ rest) = callbackDataOf (above ++ below) := by
  rw [dataOf, List.map_append, callbackDataOf, List.map_append]
  exact congrArg₂ _ hf hr

theorem rows_cons (hrow : row.map Intent.data = buttons.map Button.callbackData)
    (hr : dataOf rest = callbackDataOf below) :
    dataOf (row :: rest) = callbackDataOf (buttons :: below) :=
  congrArg₂ List.cons hrow hr

theorem rows_filter (hr : dataOf rest = callbackDataOf below) :
    dataOf (rest.filter fun row => !row.isEmpty) =
      callbackDataOf (below.filter fun row => !row.isEmpty) := by
  have hi : dataOf (rest.filter fun row => !row.isEmpty) =
      (dataOf rest).filter fun row => !row.isEmpty := by
    rw [dataOf, dataOf, List.filter_map]
    simp only [Function.comp_def, List.isEmpty_map]
  have hb : callbackDataOf (below.filter fun row => !row.isEmpty) =
      (callbackDataOf below).filter fun row => !row.isEmpty := by
    rw [callbackDataOf, callbackDataOf, List.filter_map]
    simp only [Function.comp_def, List.isEmpty_map]
  rw [hi, hb, hr]

theorem row_take (length : ℕ) (hr : row.map Intent.data = buttons.map Button.callbackData) :
    (row.take length).map Intent.data = (buttons.take length).map Button.callbackData := by
  rw [List.map_take, List.map_take, hr]

theorem row_drop (length : ℕ) (hr : row.map Intent.data = buttons.map Button.callbackData) :
    (row.drop length).map Intent.data = (buttons.drop length).map Button.callbackData := by
  rw [List.map_drop, List.map_drop, hr]

theorem rows_choices {α : Type} {choices : List α} {intent : α → Intent} {button : α → Button}
    (hd : ∀ choice, (intent choice).data = (button choice).callbackData) :
    dataOf (choices.map fun choice => [intent choice]) =
      callbackDataOf (choices.map fun choice => [button choice]) := by
  rw [dataOf, callbackDataOf, List.map_map, List.map_map]
  refine List.map_congr_left fun choice _ => ?_
  show [(intent choice).data] = [(button choice).callbackData]
  rw [hd]

theorem row_choices {α : Type} {choices : List α} {intent : α → Intent} {button : α × ℕ → Button}
    (hd : ∀ choice number, (intent choice).data = (button (choice, number)).callbackData) :
    (choices.map intent).map Intent.data =
      ((choices.zipIdx 1).map button).map Button.callbackData := by
  calc
    (choices.map intent).map Intent.data
      = ((choices.zipIdx 1).map Prod.fst).map (Intent.data ∘ intent) := by
        rw [List.map_map, List.zipIdx_map_fst]
    _ = ((choices.zipIdx 1).map button).map Button.callbackData := by
        rw [List.map_map, List.map_map]
        exact List.map_congr_left fun entry _ => hd entry.1 entry.2

end Join

section Keyboards

theorem rows_of_checked {present : Bool} {error : Raised} {built rows : InlineKeyboard}
    (hr : (if !present then .error error else .ok built) = (.ok rows : Except Raised _)) :
    present = true ∧ rows = built := by
  cases present with
  | false => exact absurd hr (by simp)
  | true => exact ⟨rfl, (Except.ok.inj hr).symm⟩

theorem positionClose_checked {choices : List PositionCloseChoice} {leader : String} {page : ℕ}
    {ha : Bool} {rows : InlineKeyboard}
    (hr : positionCloseKeyboard choices leader page ha = .ok rows) :
    isLeaderId leader = true ∧ 1 ≤ page ∧ page ≤ 99 := by
  rw [positionCloseKeyboard] at hr
  split at hr
  · cases hr
  · next hp =>
    simp only [Bool.or_eq_true, decide_eq_true_eq, not_or, Bool.not_eq_true', Bool.not_eq_false,
      not_lt] at hp
    exact ⟨hp.1.1, hp.1.2, hp.2⟩

theorem positionClose_rows {choices : List PositionCloseChoice} {leader : String} {page : ℕ}
    {ha : Bool} {rows : InlineKeyboard}
    (hr : positionCloseKeyboard choices leader page ha = .ok rows) :
    dataOf (Menu.positionClose choices leader page ha).intents = callbackDataOf rows := by
  rw [positionCloseKeyboard] at hr
  split at hr
  · cases hr
  · obtain rfl := Except.ok.inj hr
    refine rows_append (rows_append (rows_append (rows_cons ?_ (rows_choices ?_)) ?_) ?_) rfl
    · show [_, _] = [_, _]
      rw [positionsPage_data]
      rfl
    · exact fun _ => positionClose_data
    · split <;> rfl
    · by_cases hb : 1 < page
      · rw [if_pos hb, if_pos hb]
        cases ha
        · exact rows_cons (congrArg₂ List.cons positionsPage_data rfl) rfl
        · exact rows_cons (congrArg₂ List.cons positionsPage_data
            (congrArg₂ List.cons positionsPage_data rfl)) rfl
      · rw [if_neg hb, if_neg hb]
        cases ha
        · rfl
        · exact rows_cons (congrArg₂ List.cons positionsPage_data rfl) rfl

theorem multiplierManagement_rows (choices : List LeaderMultiplierChoice) :
    dataOf (Menu.multiplierManagement choices).intents =
      callbackDataOf (multiplierManagementKeyboard choices) := by
  have hl : ((choices.take 10).map fun choice =>
      Intent.multiplierLeader choice.leadPortfolioId).map Intent.data =
      (((choices.take 10).zipIdx 1).map fun entry =>
        (⟨toString entry.2 ++ "·" ++ toString entry.1.currentMultiplier ++ "倍",
          "mult:leader:" ++ entry.1.leadPortfolioId⟩ : Button)).map Button.callbackData :=
    row_choices fun _ _ => rfl
  exact rows_append (rows_filter (rows_cons (row_take 5 hl) (rows_cons (row_drop 5 hl) rfl))) rfl

theorem rows_data {menu : Menu} {rows : InlineKeyboard} (hr : menu.rows = .ok rows) :
    dataOf menu.intents = callbackDataOf rows := by
  cases menu with
  | contextual view =>
    obtain rfl := Except.ok.inj hr
    exact contextual_data view
  | pnlOverview choices =>
    obtain rfl := Except.ok.inj hr
    exact rows_append (rows_cons rfl (rows_choices fun _ => rfl)) rfl
  | positionLeaders choices =>
    obtain rfl := Except.ok.inj hr
    exact rows_append (rows_cons rfl (rows_choices fun _ => positions_data)) rfl
  | positionClose => exact positionClose_rows hr
  | leaderPnl leader =>
    obtain ⟨-, rfl⟩ := rows_of_checked hr
    rfl
  | leaderManagement =>
    obtain rfl := Except.ok.inj hr
    rfl
  | leaderSlotActions slot =>
    obtain rfl := Except.ok.inj hr
    cases slot <;> rfl
  | leaderCandidates slot choices =>
    obtain rfl := Except.ok.inj hr
    exact rows_append (rows_choices fun _ => pair_data) rfl
  | multiplierManagement choices =>
    obtain rfl := Except.ok.inj hr
    exact multiplierManagement_rows choices
  | multiplierValue choice =>
    obtain ⟨-, rfl⟩ := rows_of_checked hr
    have hv : ((List.range' 1 10).map (Intent.multiplierSet choice.leadPortfolioId)).map
        Intent.data = ((List.range' 1 10).map fun value =>
          (⟨(if (value : ℤ) = choice.currentMultiplier then "✅ " else "") ++ toString value ++ "倍",
            "mult:set:" ++ choice.leadPortfolioId ++ ":" ++ toString value⟩ : Button)).map
        Button.callbackData := by
      rw [List.map_map, List.map_map]
      exact List.map_congr_left fun value _ => pair_data
    exact rows_cons (row_take 5 hv) (rows_cons (row_drop 5 hv) rfl)
  | leaderLock choices =>
    obtain rfl := Except.ok.inj hr
    exact rows_append (rows_choices fun _ => lockSet_data) rfl
  | entryMarginLimit current =>
    change entryMarginLimitKeyboard current = _ at hr
    rw [entryMarginLimitKeyboard] at hr
    cases hl : normalizeEntryMarginLimit current with
    | error error =>
      rw [hl] at hr
      cases hr
    | ok limit =>
      rw [hl] at hr
      obtain rfl := Except.ok.inj hr
      rfl
  | leaderConfirmation nonce =>
    obtain rfl := Except.ok.inj hr
    rfl
  | multiplierConfirmation nonce =>
    obtain rfl := Except.ok.inj hr
    rfl
  | entryMarginConfirmation nonce =>
    obtain rfl := Except.ok.inj hr
    rfl
  | leaderLockConfirmation nonce =>
    obtain rfl := Except.ok.inj hr
    rfl
  | positionCloseConfirmation nonce leader =>
    obtain ⟨-, rfl⟩ := rows_of_checked hr
    exact rows_cons (congrArg₂ List.cons pair_data (congrArg₂ List.cons positions_data rfl)) rfl
  | leaderPositionsCloseConfirmation nonce leader =>
    obtain ⟨-, rfl⟩ := rows_of_checked hr
    exact rows_cons (congrArg₂ List.cons pair_data (congrArg₂ List.cons positions_data rfl)) rfl
  | actionConfirmation action nonce =>
    cases action <;> obtain rfl := Except.ok.inj hr <;> rfl

end Keyboards

end AiQuant.Telegram
