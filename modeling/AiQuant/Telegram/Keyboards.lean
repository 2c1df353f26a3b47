import AiQuant.Telegram.Updates

/-! The keyboards of the bot (`notifications/telegram_bot.py`).  A button sends its callback data
back; on a message that shows a notification the data is wrapped with the notification's token. -/
namespace AiQuant.Telegram
open AiQuant.CopyTrading (LeaderSlot leaderSlots isCustomSlot)

structure Button where
  text : String
  callbackData : String
deriving DecidableEq

abbrev InlineKeyboard := List (List Button)

/-- `reply_markup`, less the flags that never differ. -/
inductive Markup where
  | inlineKeyboard (rows : InlineKeyboard)
  | replyKeyboard (rows : List (List String)) (placeholder : String)
  | forceReply (placeholder : String)
deriving DecidableEq

structure LeaderCandidateChoice where
  leadPortfolioId : String
  buttonLabel : String
  summary : String

structure LeaderPnlChoice where
  leadPortfolioId : String
  buttonLabel : String

structure LeaderMultiplierChoice where
  leadPortfolioId : String
  buttonLabel : String
  currentMultiplier : ℤ

structure LeaderLockChoice where
  leadPortfolioId : String
  buttonLabel : String
  locked : Bool

inductive PositionSide where
  | long | short
deriving DecidableEq

structure PositionCloseChoice where
  leadPortfolioId : String
  symbol : String
  positionSide : PositionSide
  buttonLabel : String

structure PositionLeaderChoice where
  leadPortfolioId : String
  buttonLabel : String

/-- What a `create_…` operation of the administration returns. -/
structure Proposal where
  nonce : String
  confirmationText : String

def persistentReplyKeyboard : Markup :=
  .replyKeyboard [["📊 总览", "📈 仓位"], ["👥 带单员", "🧾 订单"], ["💹 盈亏", "⚙️ 控制"]]
    "点输入框旁的键盘图标展开或收起导航"

def helpKeyboard : InlineKeyboard :=
  [[⟨"📊 查看状态", "view:status"⟩]]

def contextualKeyboards : List (String × InlineKeyboard) :=
  [("status",
     [[⟨"🔄 刷新总览", "view:status"⟩, ⟨"🤖 立即审查", "audit:run"⟩],
      [⟨"🩺 巡检报告", "view:health"⟩, ⟨"⚙️ 控制中心", "view:control"⟩]]),
   ("leaders",
     [[⟨"🔄 刷新带单员", "view:leaders"⟩, ⟨"🤖 选人依据", "view:selection"⟩],
      [⟨"🛠 管理带单员", "lead:manage"⟩]]),
   ("positions",
     [[⟨"🔄 刷新仓位", "view:positions"⟩, ⟨"⏳ 待入场", "view:pending"⟩],
      [⟨"🧾 最近订单", "view:orders"⟩, ⟨"💹 系统盈亏", "view:pnl"⟩]]),
   ("pending",
     [[⟨"🔄 刷新待入场", "view:pending"⟩, ⟨"📈 当前仓位", "view:positions"⟩],
      [⟨"🧾 最近订单", "view:orders"⟩]]),
   ("orders",
     [[⟨"🔄 刷新订单", "view:orders"⟩, ⟨"📈 当前仓位", "view:positions"⟩],
      [⟨"⏳ 待入场", "view:pending"⟩]]),
   ("funds",
     [[⟨"🔄 刷新资金", "view:funds"⟩, ⟨"💹 系统盈亏", "view:pnl"⟩],
      [⟨"⚙️ 配置可用保证金", "margin:manage"⟩, ⟨"♻️ 初始化账户汇总", "summary_reset:request"⟩]]),
   ("pnl",
     [[⟨"🔄 刷新盈亏", "view:pnl"⟩, ⟨"📈 当前仓位", "view:positions"⟩],
      [⟨"💰 资金边界", "view:funds"⟩]]),
   ("codex",
     [[⟨"🚀 立即审查", "audit:run"⟩, ⟨"🔄 刷新审查结果", "view:codex"⟩],
      [⟨"🛠 修复记录", "view:repair"⟩, ⟨"👥 选人依据", "view:selection"⟩]]),
   ("repair",
     [[⟨"🔄 刷新修复结果", "view:repair"⟩, ⟨"🤖 查看系统审查", "view:codex"⟩],
      [⟨"📊 系统状态", "view:status"⟩]]),
   ("health",
     [[⟨"🔄 刷新巡检报告", "view:health"⟩, ⟨"🤖 Codex 审查", "view:codex"⟩],
      [⟨"📊 系统总览", "view:status"⟩]]),
   ("selection",
     [[⟨"🔄 刷新选人依据", "view:selection"⟩, ⟨"👥 当前带单员", "view:leaders"⟩],
      [⟨"🤖 系统审查", "view:codex"⟩]]),
   ("control",
     [[⟨"⏸ 暂停新开仓", "ctl:pause"⟩, ⟨"▶️ 恢复新开仓", "ctl:resume"⟩],
      [⟨"🧯 全部减仓", "ctl:reduce_all"⟩], [⟨"↩️ 返回状态", "view:status"⟩]]),
   ("help", helpKeyboard)]

def contextualInlineKeyboard (view : String) : InlineKeyboard :=
  (contextualKeyboards.lookup view).getD helpKeyboard

def wrapCallback (token data : String) : String :=
  let wrapped := "n:" ++ token ++ ":" ++ data
  if (notificationCallback data).isNone && wrapped.utf8ByteSize ≤ 64 then wrapped else data

def notificationContextMarkup (rows : InlineKeyboard) (token : String) (includeReturn : Bool) :
    Except Raised InlineKeyboard :=
  if !isNotificationToken token then
    .error (valueError "Telegram notification token is invalid")
  else
    let wrapped := rows.map fun row => row.map fun button =>
      { button with callbackData := wrapCallback token button.callbackData }
    let back := if includeReturn then [[⟨"↩️ 返回查看原通知", "n:" ++ token ++ ":return"⟩]] else []
    .ok (wrapped.filter (fun row => !row.isEmpty) ++ back)

def notificationInlineKeyboard (view messageId : String) : Except Raised InlineKeyboard :=
  let token := clip 16 messageId
  if !isNotificationToken token then
    .error (valueError "Telegram notification message ID is invalid")
  else notificationContextMarkup (contextualInlineKeyboard view) token false

def pnlOverviewKeyboard (choices : List LeaderPnlChoice) : InlineKeyboard :=
  [⟨"🔄 刷新总盈亏", "view:pnl"⟩, ⟨"📈 当前仓位", "view:positions"⟩] ::
    (choices.take 12).map (fun choice =>
      [⟨clip 40 choice.buttonLabel, "pnl:leader:" ++ choice.leadPortfolioId⟩]) ++
    [[⟨"♻️ 初始化账户汇总", "summary_reset:request"⟩], [⟨"💰 资金边界", "view:funds"⟩]]

def positionLeaderKeyboard (choices : List PositionLeaderChoice) : InlineKeyboard :=
  [⟨"🔄 刷新全部仓位", "view:positions"⟩, ⟨"⏳ 待入场", "view:pending"⟩] ::
    (choices.take 12).map (fun choice =>
      [⟨clip 40 choice.buttonLabel, "view:positions:" ++ choice.leadPortfolioId⟩]) ++
    [[⟨"🧾 最近订单", "view:orders"⟩]]

def positionsView (leadPortfolioId : String) (page : ℕ) : String :=
  "view:positions:" ++ leadPortfolioId ++ ":" ++ toString page

def positionCloseData (choice : PositionCloseChoice) : String :=
  "pos:close:" ++ choice.leadPortfolioId ++ ":" ++ choice.symbol ++ ":" ++
    (if choice.positionSide = .long then "L" else "S")

def positionCloseKeyboard (choices : List PositionCloseChoice) (leadPortfolioId : String)
    (page : ℕ) (hasNext : Bool) : Except Raised InlineKeyboard :=
  if !isLeaderId leadPortfolioId || page < 1 || 99 < page then
    .error (valueError "Telegram position page is invalid")
  else
    let positionRows := (choices.take 8).map fun choice =>
      [(⟨clip 40 ("🧯 " ++ choice.buttonLabel), positionCloseData choice⟩ : Button)]
    let navigation : List Button :=
      (if 1 < page then [⟨"⬅️ 上一页", positionsView leadPortfolioId (page - 1)⟩] else []) ++
      (if hasNext then [⟨"下一页 ➡️", positionsView leadPortfolioId (page + 1)⟩] else [])
    .ok ([⟨"🔄 刷新此带单员", positionsView leadPortfolioId page⟩,
        ⟨"↩️ 全部带单员", "view:positions"⟩] :: positionRows ++
      (if choices = [] then []
       else [[⟨"🧹 清空该带单员全部仓位", "pos:close_leader:" ++ leadPortfolioId⟩]]) ++
      (if navigation = [] then [] else [navigation]) ++
      [[⟨"⏳ 待入场", "view:pending"⟩, ⟨"🧾 最近订单", "view:orders"⟩]])

/-- `[1-9][0-9]?` -/
def pageOf? (text : String) : Option ℕ :=
  match text.toList with
  | [units] => if units.isDigit && units ≠ '0' then some (digitOf units) else none
  | [tens, units] =>
    if tens.isDigit && tens ≠ '0' && units.isDigit then some (digitOf tens * 10 + digitOf units)
    else none
  | _ => none

/-- `_view_page`: the view, the leader and the page. -/
def viewPage (view : String) : String × Option String × ℕ :=
  match splitColon view with
  | ["positions"] => ("positions", none, 1)
  | ["positions", only] =>
    if isLeaderId only then ("positions", some only, 1)
    else match pageOf? only with
      | some page => ("positions", none, page)
      | none => (view, none, 1)
  | ["positions", leader, last] =>
    match isLeaderId leader, pageOf? last with
    | true, some page => ("positions", some leader, page)
    | _, _ => (view, none, 1)
  | _ => (view, none, 1)

def leaderPnlKeyboard (leadPortfolioId : String) : Except Raised InlineKeyboard :=
  if !isLeaderId leadPortfolioId then .error (valueError "Telegram PnL leader ID is invalid")
  else .ok
    [[⟨"🔄 刷新此带单员", "pnl:leader:" ++ leadPortfolioId⟩, ⟨"↩️ 总盈亏", "view:pnl"⟩],
     [⟨"📈 当前仓位", "view:positions"⟩]]

def compactSlotLabel : LeaderSlot → String
  | .longTerm => "长"
  | .shortTerm1 => "短1"
  | .shortTerm2 => "短2"
  | .custom1 => "自1"
  | .custom2 => "自2"
  | .custom3 => "自3"
  | .custom4 => "自4"
  | .custom5 => "自5"
  | .custom6 => "自6"
  | .custom7 => "自7"

def leaderManagementKeyboard : InlineKeyboard :=
  let slotButtons := (leaderSlots.zipIdx 1).map fun entry =>
    (⟨toString entry.2 ++ "·" ++ compactSlotLabel entry.1,
      "lead:slot:" ++ leaderSlotCallback entry.1⟩ : Button)
  [slotButtons.take 5, slotButtons.drop 5,
   [⟨"📐 跟单倍数", "mult:manage"⟩, ⟨"🔐 自动换人锁定", "lock:manage"⟩],
   [⟨"↩️ 返回带单员", "view:leaders"⟩]]

def leaderSlotActionsKeyboard (slot : LeaderSlot) : InlineKeyboard :=
  let configureButton : Button :=
    if isCustomSlot slot then ⟨"✍️ 设置带单员", "lead:manual:" ++ leaderSlotCallback slot⟩
    else ⟨"🔎 查看候选 / 输入", "lead:candidates:" ++ leaderSlotCallback slot⟩
  [[configureButton, ⟨"🗑 清空此槽位", "lead:remove:" ++ leaderSlotCallback slot⟩],
   [⟨"↩️ 返回 10 个槽位", "lead:manage"⟩]]

def leaderCandidateKeyboard (slot : LeaderSlot) (choices : List LeaderCandidateChoice) :
    InlineKeyboard :=
  (choices.take 6).map (fun choice => [⟨clip 32 choice.buttonLabel,
      "lead:set:" ++ leaderSlotCallback slot ++ ":" ++ choice.leadPortfolioId⟩]) ++
    [[⟨"✍️ 输入 ID 或名称", "lead:manual:" ++ leaderSlotCallback slot⟩],
     [⟨"↩️ 返回管理", "lead:manage"⟩]]

def multiplierManagementKeyboard (choices : List LeaderMultiplierChoice) : InlineKeyboard :=
  let buttons := ((choices.take 10).zipIdx 1).map fun entry =>
    (⟨toString entry.2 ++ "·" ++ toString entry.1.currentMultiplier ++ "倍",
      "mult:leader:" ++ entry.1.leadPortfolioId⟩ : Button)
  [buttons.take 5, buttons.drop 5].filter (fun row => !row.isEmpty) ++
    [[⟨"🔄 刷新倍数", "mult:manage"⟩], [⟨"↩️ 返回管理", "lead:manage"⟩]]

def leaderLockButton (choice : LeaderLockChoice) : Button where
  text := (if choice.locked then "🔒" else "🔓") ++ " " ++ clip 25 choice.buttonLabel ++ " · " ++
    (if choice.locked then "解锁" else "锁定")
  callbackData := "lock:set:" ++ choice.leadPortfolioId ++ ":" ++
    (if choice.locked then "0" else "1")

def leaderLockKeyboard (choices : List LeaderLockChoice) : InlineKeyboard :=
  (choices.take 10).map (fun choice => [leaderLockButton choice]) ++
    [[⟨"🔄 刷新锁定状态", "lock:manage"⟩], [⟨"↩️ 返回管理", "lead:manage"⟩]]

def multiplierValueKeyboard (choice : LeaderMultiplierChoice) : Except Raised InlineKeyboard :=
  if !isLeaderId choice.leadPortfolioId then
    .error (valueError "Telegram multiplier leader ID is invalid")
  else
    let buttons := (List.range' 1 10).map fun value =>
      (⟨(if (value : ℤ) = choice.currentMultiplier then "✅ " else "") ++ toString value ++ "倍",
        "mult:set:" ++ choice.leadPortfolioId ++ ":" ++ toString value⟩ : Button)
    .ok [buttons.take 5, buttons.drop 5, [⟨"↩️ 返回倍数", "mult:manage"⟩]]

/-- `entry_margin_limit_keyboard`, for the text of the current limit. -/
def entryMarginLimitKeyboard (current : String) : Except Raised InlineKeyboard := do
  let current ← normalizeEntryMarginLimit current
  let buttons := [30, 60, 90, 120].map fun value : ℕ =>
    (⟨(if current = value * 100 then "✅ " else "") ++ toString value ++ " U",
      "margin:set:" ++ toString value⟩ : Button)
  return [buttons.take 2, buttons.drop 2, [⟨"✍️ 自定义额度", "margin:custom"⟩],
    [⟨"🔄 刷新资金", "margin:manage"⟩], [⟨"↩️ 返回资金页", "view:funds"⟩]]

def confirmationKeyboard (label confirm cancel : String) : InlineKeyboard :=
  [[⟨label, confirm⟩, ⟨"取消", cancel⟩]]

end AiQuant.Telegram
