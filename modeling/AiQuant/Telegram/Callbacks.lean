import AiQuant.Telegram.Router

/-! The buttons of `TelegramMenuRouter.handle` (`notifications/telegram_bot.py`): one definition
for each prefix of the callback data, and the chain of tests that chooses between them.  A list
pattern stands for a test of the number of parts and the accesses that follow it. -/
namespace AiQuant.Telegram
open AiQuant.Lib
open AiQuant.UserStream (Fields)
open AiQuant.CopyTrading (LeaderSlot ControlAction leaderSlots isCustomSlot)

structure Callback where
  callbackId : String
  chatId : ℤ
  userId : ℤ
  messageId : Option ℤ
  value : String
  token : Option String

namespace Callback

variable (callback : Callback)

def answer (text : String) : Bot Unit :=
  answerCallback callback.callbackId text

/-- `self._client.answer_callback` -/
def answerDirectly (text : String) : Bot Unit :=
  ask (.answerCallback callback.callbackId text)

/-- `if message_id is not None: self._edit_text(…)` -/
def display (content : Bot (String × InlineKeyboard)) : Bot Unit :=
  match callback.messageId with
  | none => pure ()
  | some messageId => do
    let shown ← content
    editText callback.token callback.chatId messageId shown.1 shown.2

def proposed (create : Bot Proposal) (failure : String) (confirm : Proposal → Bot Unit) :
    Bot Unit :=
  .handling Raised.isRejection create (fun _ => callback.answer failure) fun proposal => do
    callback.answer "请二次确认"
    confirm proposal

def confirmed (execute : Bot (Option String)) (done : String) (markup : Bot InlineKeyboard) :
    Bot Unit := do
  let result ← execute
  match result with
  | none => callback.answer "确认已失效"
  | some result => do
    callback.answer done
    callback.display do
      let markup ← markup
      return (result, markup)

end Callback

def controlActionValue : ControlAction → String
  | .pauseNewEntries => "pause"
  | .resumeTestnet => "resume"
  | .reduceAll => "reduce_all"
  | .resetAccountSummary => "reset_summary"

/-- `ControlAction(value)` -/
def controlAction (value : String) : Except Raised ControlAction :=
  match [ControlAction.pauseNewEntries, .resumeTestnet, .reduceAll, .resetAccountSummary].find?
      fun action => controlActionValue action = value with
  | some action => .ok action
  | none => .error (valueError ("'" ++ value ++ "' is not a valid ControlAction"))

namespace Router

variable (router : Router) (callback : Callback)

def returnCallback (token : String) : Bot Unit := do
  let notification : Option (String × String) ← ask (.notificationMessage token)
  match notification with
  | none => callback.answer "原通知已过期或不存在"
  | some (text, contextualView) => do
    callback.answer "已返回原通知"
    match callback.messageId with
    | none => pure ()
    | some messageId => do
      let markup ← .ofExcept (notificationInlineKeyboard contextualView token)
      editText none callback.chatId messageId text markup

def viewCallback : Bot Unit := do
  let view := afterStart callback.value "view:"
  callback.answer ""
  callback.display do
    let text : String ← ask (.render view)
    let markup ← router.viewMarkup view
    return (text, markup)

def pnlLeader : Bot Unit :=
  let leaderId := afterStart callback.value "pnl:leader:"
  if !isLeaderId leaderId then callback.answer "带单员参数无效"
  else do
    callback.answer ""
    callback.display do
      let text : String ← ask (.renderLeaderPnl leaderId)
      let markup ← .ofExcept (leaderPnlKeyboard leaderId)
      return (text, markup)

/-- `self._audit_trigger is not None and self._audit_trigger()` -/
def startAudit : Bot Bool :=
  if router.auditTrigger then ask .auditTrigger else pure false

def auditRun : Bot Unit :=
  if !router.isAuthorized callback.userId then callback.answer "你没有审查权限"
  else do
    let started ← router.startAudit
    if !started then callback.answer "Codex 审查启动失败"
    else
      callback.answer "已启动 Codex 系统审查"
      callback.display (pure ("🤖 Codex 系统审查已启动\n正在读取最新服务、数据库、仓位、订单及通知异常。\n" ++
        "完成后会自动通知; 也可以稍后点击“查看结果”。", contextualInlineKeyboard "codex"))

def summaryResetRequest : Bot Unit :=
  if !router.isAuthorized callback.userId then callback.answer "你没有账户初始化权限"
  else do
    callback.answer "请二次确认"
    requestConfirmation callback.chatId callback.userId .resetAccountSummary

def marginManage : Bot Unit :=
  if !router.marginAdmin then callback.answer "资金配置功能不可用"
  else do
    let current : String ← ask .entryMarginLimit
    callback.answer ""
    callback.display do
      let text : String ← ask (.render "funds")
      let markup ← .ofExcept (entryMarginLimitKeyboard current)
      return (text, markup)

def marginCustom : Bot Unit :=
  if !router.marginAdmin then callback.answer "资金配置功能不可用"
  else do
    callback.answer "请回复额度"
    send callback.chatId entryMarginInputPrompt (some (.forceReply "输入 5-120 U, 最多两位小数"))

def marginSet : Bot Unit :=
  if !router.marginAdmin then callback.answer "资金配置功能不可用"
  else callback.proposed
    (do
      let limit ← .ofExcept (normalizeEntryMarginLimit (afterStart callback.value "margin:set:"))
      ask (.createEntryMarginLimitChange callback.userId limit))
    "额度未变更或参数已失效" (sendEntryMarginConfirmation callback.chatId)

def marginConfirm : Bot Unit :=
  if !router.marginAdmin then callback.answer "资金配置功能不可用"
  else callback.confirmed
    (ask (.executeEntryMarginLimitConfirmed callback.userId
      (afterStart callback.value "margin_confirm:")))
    "已执行" do
      let current : String ← ask .entryMarginLimit
      .ofExcept (entryMarginLimitKeyboard current)

def posClose : Bot Unit :=
  if !router.positionAdmin then callback.answer "仓位清理功能不可用"
  else match splitColon callback.value with
  | [_, _, leaderId, symbol, side] =>
    if !isLeaderId leaderId || !isSymbol symbol || !(side = "L" || side = "S") then
      callback.answer "仓位参数无效"
    else callback.proposed
      (ask (.createPositionClose callback.userId leaderId symbol
        (if side = "L" then .long else .short)))
      "仓位已变化, 请刷新" fun proposal =>
        sendPositionCloseConfirmation callback.chatId proposal leaderId
  | _ => callback.answer "仓位参数无效"

def posCloseLeader : Bot Unit :=
  if !router.positionAdmin then callback.answer "仓位清理功能不可用"
  else
    let leaderId := afterStart callback.value "pos:close_leader:"
    if !isLeaderId leaderId then callback.answer "带单员参数无效"
    else callback.proposed (ask (.createLeaderPositionsClose callback.userId leaderId))
      "仓位已变化, 请刷新" fun proposal =>
        sendLeaderPositionsCloseConfirmation callback.chatId proposal leaderId

def posConfirm : Bot Unit :=
  if !router.positionAdmin then callback.answer "仓位清理功能不可用"
  else match splitColon callback.value with
  | [_, nonce] => callback.confirmed (ask (.executePositionCloseConfirmed callback.userId nonce))
      "已提交" (router.viewMarkup "positions")
  | [_, nonce, leaderId] =>
    if !isLeaderId leaderId then callback.answer "确认参数无效"
    else callback.confirmed (ask (.executePositionCloseConfirmed callback.userId nonce))
      "已提交" (router.viewMarkup ("positions:" ++ leaderId))
  | _ => callback.answer "确认参数无效"

def posLeaderConfirm : Bot Unit :=
  if !router.positionAdmin then callback.answer "仓位清理功能不可用"
  else match splitColon callback.value with
  | [_, nonce, leaderId] =>
    if !isLeaderId leaderId then callback.answer "确认参数无效"
    else callback.confirmed (ask (.executeLeaderPositionsCloseConfirmed callback.userId nonce))
      "已提交" (router.viewMarkup ("positions:" ++ leaderId))
  | _ => callback.answer "确认参数无效"

def leadManage : Bot Unit := do
  callback.answer ""
  if router.leaderAdmin then
    callback.display do
      let text : String ← ask .leaderManagementText
      return (text, leaderManagementKeyboard)

def withSlot (failure : String) (rest : LeaderSlot → Bot Unit) : Bot Unit :=
  .handling Raised.isValueError (.ofExcept (leaderSlotFromCallback (afterColon callback.value)))
    (fun _ => callback.answer failure) rest

def slotText (slot : LeaderSlot) : String :=
  "🎛 " ++ toString (leaderSlots.idxOf slot + 1) ++ " 号槽位 · " ++ leaderSlotLabel slot ++
    "\n配置方式: " ++ (if isCustomSlot slot then "仅由你手动设置" else "系统推荐候选或手动输入") ++
    "\n请选择本槽位的操作。清空和换人都需要二次确认。"

def leadSlot : Bot Unit :=
  withSlot callback "未知槽位" fun slot => do
    callback.answer ""
    callback.display (pure (slotText slot, leaderSlotActionsKeyboard slot))

def leadManual : Bot Unit :=
  withSlot callback "未知席位" fun slot => do
    callback.answer "请回复链接、ID 或名称"
    send callback.chatId (leaderInputPrompt slot) (some (.forceReply "粘贴 Binance 链接、ID 或名称"))

def leadCandidates : Bot Unit :=
  if !router.leaderAdmin then callback.answer "管理功能不可用"
  else withSlot callback "未知席位" fun slot => do
    let choices : List LeaderCandidateChoice ← ask (.leaderCandidates slot)
    callback.answer ""
    callback.display (pure ("\n".intercalate ((leaderSlotLabel slot ++ "候选") ::
      "可点选推荐候选, 也可输入任意公开带单员 ID/名称。" :: choices.map fun choice => choice.summary),
      leaderCandidateKeyboard slot choices))

def leadSet : Bot Unit :=
  if !router.leaderAdmin then callback.answer "管理功能不可用"
  else match splitColon callback.value with
  | [_, _, slotValue, leaderId] => callback.proposed
      (do
        let slot ← .ofExcept (leaderSlotFromCallback slotValue)
        ask (.createLeaderChange callback.userId slot (some leaderId)))
      "候选已失效, 请刷新" (sendLeaderConfirmation callback.chatId)
  | _ => callback.answer "候选参数无效"

def leadRemove : Bot Unit :=
  if !router.leaderAdmin then callback.answer "管理功能不可用"
  else callback.proposed
    (do
      let slot ← .ofExcept (leaderSlotFromCallback (afterColon callback.value))
      ask (.createLeaderChange callback.userId slot none))
    "该席位当前不可删除" (sendLeaderConfirmation callback.chatId)

def leadConfirm : Bot Unit :=
  if !router.leaderAdmin then callback.answer "管理功能不可用"
  else callback.confirmed
    (ask (.executeLeaderChangeConfirmed callback.userId
      (afterStart callback.value "lead_confirm:")))
    "已执行" (pure leaderManagementKeyboard)

def lockManage : Bot Unit :=
  if !router.leaderAdmin then callback.answer "管理功能不可用"
  else do
    let choices : List LeaderLockChoice ← ask .leaderLockChoices
    callback.answer ""
    callback.display do
      let text : String ← ask .leaderLockText
      return (text, leaderLockKeyboard choices)

def lockSet : Bot Unit :=
  if !router.leaderAdmin then callback.answer "管理功能不可用"
  else match splitColon callback.value with
  | [_, _, leaderId, locked] =>
    if !isLeaderId leaderId || !(locked = "0" || locked = "1") then callback.answer "锁定参数无效"
    else callback.proposed
      (ask (.createLeaderLockChange callback.userId leaderId (locked = "1")))
      "状态已变化, 请刷新" (sendLeaderLockConfirmation callback.chatId)
  | _ => callback.answer "锁定参数无效"

def lockConfirm : Bot Unit :=
  if !router.leaderAdmin then callback.answer "管理功能不可用"
  else callback.confirmed
    (ask (.executeLeaderLockConfirmed callback.userId (afterStart callback.value "lock_confirm:")))
    "已执行" do
      let choices : List LeaderLockChoice ← ask .leaderLockChoices
      return leaderLockKeyboard choices

def multManage : Bot Unit :=
  if !router.leaderAdmin then callback.answer "管理功能不可用"
  else do
    let choices : List LeaderMultiplierChoice ← ask .leaderMultiplierChoices
    callback.answer ""
    callback.display do
      let text : String ← ask .leaderMultiplierText
      return (text, multiplierManagementKeyboard choices)

def multiplierText (choice : LeaderMultiplierChoice) : String :=
  "📐 配置跟单金额倍数\n" ++ choice.buttonLabel ++ "\n当前: " ++ toString choice.currentMultiplier ++
    "倍\n\n只影响后续新交易信号; 已有仓位和待入场订单保持原数量。"

def multLeader : Bot Unit :=
  if !router.leaderAdmin then callback.answer "管理功能不可用"
  else do
    let leaderId := afterStart callback.value "mult:leader:"
    let choices : List LeaderMultiplierChoice ← ask .leaderMultiplierChoices
    match choices.reverse.find? fun choice => choice.leadPortfolioId = leaderId with
    | none => callback.answer "带单员已变更, 请刷新"
    | some choice => do
      callback.answer ""
      callback.display do
        let markup ← .ofExcept (multiplierValueKeyboard choice)
        return (multiplierText choice, markup)

def multSet : Bot Unit :=
  if !router.leaderAdmin then callback.answer "管理功能不可用"
  else match splitColon callback.value with
  | [_, _, leaderId, multiplierValue] =>
    if !isLeaderId leaderId then callback.answer "倍数参数无效"
    else callback.proposed
      (do
        let multiplier ← .ofExcept (intOfText multiplierValue)
        ask (.createFollowMultiplierChange callback.userId leaderId multiplier))
      "配置已失效, 请刷新" (sendMultiplierConfirmation callback.chatId)
  | _ => callback.answer "倍数参数无效"

def multConfirm : Bot Unit :=
  if !router.leaderAdmin then callback.answer "管理功能不可用"
  else callback.confirmed
    (ask (.executeFollowMultiplierConfirmed callback.userId
      (afterStart callback.value "mult_confirm:")))
    "已执行" do
      let choices : List LeaderMultiplierChoice ← ask .leaderMultiplierChoices
      return multiplierManagementKeyboard choices

def controlRequest : Bot Unit :=
  .handling Raised.isValueError (.ofExcept (controlAction (afterStart callback.value "ctl:")))
    (fun _ => callback.answerDirectly "未知操作") fun action => do
      callback.answer "请二次确认"
      requestConfirmation callback.chatId callback.userId action

def editDirectly (content : Bot (String × InlineKeyboard)) : Bot Unit :=
  match callback.messageId with
  | none => pure ()
  | some messageId => do
    let shown ← content
    ask (.editMessage callback.chatId messageId shown.1 shown.2)

def cancelCallback : Bot Unit := do
  callback.answer "已取消"
  .handling (fun error => error.kind = .telegramMessageNotModified)
    (editDirectly callback (pure ("已取消本次控制操作。", contextualInlineKeyboard "status")))
    (fun _ => pure ()) pure

def summaryConfirm : Bot Unit :=
  .handling Raised.isRuntimeError
    (ask (.executeConfirmed callback.userId (afterStart callback.value "summary_confirm:")))
    (fun _ => callback.answer "初始化失败, 请刷新后重试") fun (result : Option String) =>
      match result with
      | none => callback.answerDirectly "确认已失效"
      | some result => do
        callback.answer "已初始化"
        editDirectly callback do
          let pnl : String ← ask (.render "pnl")
          let choices : List LeaderPnlChoice ← ask .pnlLeaderChoices
          return (result ++ "\n\n" ++ pnl, pnlOverviewKeyboard choices)

def confirmCallback : Bot Unit := do
  let result : Option String ← ask (.executeConfirmed callback.userId
    (afterStart callback.value "confirm:"))
  match result with
  | none => callback.answerDirectly "确认已失效"
  | some result => do
    callback.answer "已执行"
    editDirectly callback (pure (result, contextualInlineKeyboard "status"))

def guardedStarts : List String :=
  ["lead:", "lead_confirm:", "lock:", "lock_confirm:", "mult:", "mult_confirm:", "pos:",
   "pos_confirm:", "pos_leader_confirm:", "margin:", "margin_confirm:"]

def controlCallback : Bot Unit :=
  let value := callback.value
  if !router.isAuthorized callback.userId then callback.answerDirectly "你没有控制权限"
  else if startsWith value "ctl:" then controlRequest callback
  else if startsWith value "cancel:" then cancelCallback callback
  else if startsWith value "summary_confirm:" then summaryConfirm callback
  else if startsWith value "confirm:" then confirmCallback callback
  else pure ()

def leaderCallback : Bot Unit :=
  let value := callback.value
  if value = "lead:manage" then router.leadManage callback
  else if startsWith value "lead:slot:" then leadSlot callback
  else if startsWith value "lead:manual:" then leadManual callback
  else if startsWith value "lead:candidates:" then router.leadCandidates callback
  else if startsWith value "lead:set:" then router.leadSet callback
  else if startsWith value "lead:remove:" then router.leadRemove callback
  else if startsWith value "lead_confirm:" then router.leadConfirm callback
  else if value = "lock:manage" then router.lockManage callback
  else if startsWith value "lock:set:" then router.lockSet callback
  else if startsWith value "lock_confirm:" then router.lockConfirm callback
  else if value = "mult:manage" then router.multManage callback
  else if startsWith value "mult:leader:" then router.multLeader callback
  else if startsWith value "mult:set:" then router.multSet callback
  else if startsWith value "mult_confirm:" then router.multConfirm callback
  else router.controlCallback callback

def positionCallback : Bot Unit :=
  let value := callback.value
  if value = "margin:manage" then router.marginManage callback
  else if value = "margin:custom" then router.marginCustom callback
  else if startsWith value "margin:set:" then router.marginSet callback
  else if startsWith value "margin_confirm:" then router.marginConfirm callback
  else if startsWith value "pos:close:" then router.posClose callback
  else if startsWith value "pos:close_leader:" then router.posCloseLeader callback
  else if startsWith value "pos_confirm:" then router.posConfirm callback
  else if startsWith value "pos_leader_confirm:" then router.posLeaderConfirm callback
  else router.leaderCallback callback

def openCallback : Bot Unit :=
  let value := callback.value
  if startsWith value "view:" then router.viewCallback callback
  else if startsWith value "pnl:leader:" then pnlLeader callback
  else if value = "audit:run" then router.auditRun callback
  else if value = "summary_reset:request" then router.summaryResetRequest callback
  else if guardedStarts.any (startsWith value ·) && !router.isAuthorized callback.userId then
    callback.answer "你没有管理权限"
  else router.positionCallback callback

def handleCallback : Bot Unit :=
  match callback.value, callback.token with
  | "return", some token => returnCallback callback token
  | _, _ => router.openCallback callback

def handleParsed (parsed : ParsedUpdate) : Bot Unit :=
  if parsed.chatId ∉ router.allowedChatIds then
    match parsed.callbackId with
    | some callbackId =>
      if callbackId = "" then pure () else ask (.answerCallback callbackId "未授权会话")
    | none => pure ()
  else match parsed.kind, parsed.callbackId with
  | .message, _ => router.handleMessage parsed.chatId parsed.userId parsed.value
  | .callback, none => pure ()
  | .callback, some callbackId =>
    let unwrapped := notificationCallback parsed.value
    router.handleCallback
      { callbackId := callbackId, chatId := parsed.chatId, userId := parsed.userId,
        messageId := parsed.messageId, value := (unwrapped.map Prod.snd).getD parsed.value,
        token := unwrapped.map Prod.fst }

def handle (update : Fields) : Bot Unit :=
  match parseUpdate update with
  | none => pure ()
  | some parsed => router.handleParsed parsed

end Router

end AiQuant.Telegram
