import AiQuant.Telegram.Routes

/-! What the buttons of the bot are for (`notifications/telegram_bot.py`): each of them with the
arguments that it is built from, its callback data, and the operation that it asks for.  The
operation is stated over the arguments; it does not see the data. -/
namespace AiQuant.Telegram
open AiQuant.Lib
open AiQuant.CopyTrading (LeaderSlot ControlAction leaderSlots)

def isWordCharacter (character : Char) : Bool :=
  character.isAlphanum || character = '-' || character = '_'

def isDataCharacter (character : Char) : Bool :=
  isWordCharacter character || character = ':'

/-- What `token_urlsafe(12)` returns. -/
def isNonce (text : String) : Bool :=
  text.length = 16 && text.toList.all isWordCharacter

structure Text (kind : Char → Bool) (bound : ℕ) (text : String) : Prop where
  length_le : text.length ≤ bound
  all_kind : ∀ character ∈ text.toList, kind character = true

abbrev Word := Text isWordCharacter

abbrev Data := Text isDataCharacter

namespace Text

variable {kind : Char → Bool} {bound longer : ℕ} {text other : String}

instance : Decidable (Text kind bound text) :=
  decidable_of_iff (text.length ≤ bound ∧ text.toList.all kind = true)
    ⟨fun holds => ⟨holds.1, List.all_eq_true.mp holds.2⟩,
      fun holds => ⟨holds.1, List.all_eq_true.mpr holds.2⟩⟩

theorem mono (ht : Text kind bound text) (hle : bound ≤ longer) : Text kind longer text :=
  ⟨ht.length_le.trans hle, ht.all_kind⟩

theorem append (ht : Text kind bound text) (ho : Text kind longer other) :
    Text kind (bound + longer) (text ++ other) where
  length_le := by
    rw [String.length_append]
    exact Nat.add_le_add ht.length_le ho.length_le
  all_kind := by
    intro character hm
    rw [String.toList_append] at hm
    rcases List.mem_append.mp hm with hf | hs
    · exact ht.all_kind character hf
    · exact ho.all_kind character hs

end Text

namespace Word

variable {bound : ℕ} {text : String}

theorem data (hw : Word bound text) : Data bound text where
  length_le := hw.length_le
  all_kind := by
    intro character hm
    rw [isDataCharacter, hw.all_kind character hm, Bool.true_or]

theorem splitColon (hw : Word bound text) : splitColon text = [text] := by
  refine splitColon_of_notMem fun hm => ?_
  exact absurd (hw.all_kind ':' hm) (by decide)

end Word

namespace Data

variable {bound : ℕ} {text : String}

theorem ascii {character : Char} (hk : isDataCharacter character = true) :
    character.toNat ≤ 127 := by
  have hb : ∀ last : Char, character.val ≤ last.val → character.toNat ≤ last.toNat :=
    fun _ hle => hle
  simp only [isDataCharacter, isWordCharacter, Char.isAlphanum, Bool.or_eq_true,
    decide_eq_true_eq] at hk
  rcases hk with (((hl | hd) | rfl) | rfl) | rfl
  · rcases (Bool.or_eq_true _ _).mp hl with hu | hlo
    · have hr : 'A'.val ≤ character.val ∧ character.val ≤ 'Z'.val := of_decide_eq_true hu
      exact (hb 'Z' hr.2).trans (by decide)
    · have hr : (decide ('a'.val ≤ character.val) && decide (character.val ≤ 'z'.val)) = true :=
        hlo
      have hle := of_decide_eq_true ((Bool.and_eq_true _ _).mp hr).2
      exact (hb 'z' hle).trans (by decide)
  · exact (Char.isDigit_iff_toNat.mp hd).2.trans (by decide)
  all_goals decide

theorem utf8ByteSize_ofList : ∀ {characters : List Char},
    (∀ character ∈ characters, isDataCharacter character = true) →
    (String.ofList characters).utf8ByteSize = characters.length
  | [], _ => rfl
  | first :: rest, ha => by
    have hf : first.utf8Size = 1 :=
      Char.utf8Size_eq_one_iff.mpr
        (UInt32.le_iff_toNat_le.mpr (ascii (ha first List.mem_cons_self)))
    rw [String.ofList_cons, String.utf8ByteSize_append, String.utf8ByteSize_singleton, hf,
      utf8ByteSize_ofList fun character hm => ha character (List.mem_cons_of_mem first hm),
      List.length_cons, Nat.add_comm]

theorem utf8ByteSize (hd : Data bound text) : text.utf8ByteSize = text.length := by
  rw [← String.length_toList, ← utf8ByteSize_ofList hd.all_kind, String.ofList_toList]

theorem clip (hd : Data bound text) : clip bound text = text := by
  rw [Telegram.clip, List.take_of_length_le (by rw [String.length_toList]; exact hd.length_le),
    String.ofList_toList]

end Data

section Arguments

variable {text : String}

theorem isWordCharacter_of_isDigit {character : Char} (hd : character.isDigit = true) :
    isWordCharacter character = true := by
  rw [isWordCharacter, Char.isAlphanum, hd, Bool.or_true, Bool.true_or, Bool.true_or]

theorem isWordCharacter_of_letter {character : Char}
    (hl : character.isUpper = true ∨ character.isLower = true) :
    isWordCharacter character = true := by
  have hk : isWordCharacter character = (character.isUpper || character.isLower ||
      character.isDigit || decide (character = '-') || decide (character = '_')) := rfl
  rw [hk, (Bool.or_eq_true _ _).mpr hl]
  rfl

theorem word_of_isLeaderId (hl : isLeaderId text = true) : Word 24 text := by
  simp only [isLeaderId, Bool.and_eq_true, decide_eq_true_eq, List.all_eq_true] at hl
  exact ⟨hl.1.2, fun character hm =>
    isWordCharacter_of_isDigit (hl.2 character hm)⟩

theorem word_of_isSymbol (hs : isSymbol text = true) : Word 24 text := by
  simp only [isSymbol, Bool.and_eq_true, decide_eq_true_eq, List.all_eq_true, Bool.or_eq_true] at hs
  refine ⟨hs.1.2, fun character hm => ?_⟩
  rcases hs.2 character hm with hu | hd
  · exact isWordCharacter_of_letter (.inl hu)
  · exact isWordCharacter_of_isDigit hd

theorem word_of_isNonce (hn : isNonce text = true) : Word 16 text := by
  simp only [isNonce, Bool.and_eq_true, decide_eq_true_eq, List.all_eq_true] at hn
  exact ⟨hn.1.le, hn.2⟩

theorem word_slot (slot : LeaderSlot) : Word 7 (leaderSlotCallback slot) := by
  cases slot <;> decide

theorem word_number : ∀ number < 121, Word 3 (toString number) := by
  decide

end Arguments

/-- The operation of a button, with its arguments. -/
inductive Intent where
  | view (name : String)
  | positions (leadPortfolioId : String) (page : Option ℕ)
  | leaderPnl (leadPortfolioId : String)
  | auditRun
  | summaryReset
  | marginManage
  | marginCustom
  | marginSet (limit : ℕ)
  | marginConfirm (nonce : String)
  | positionClose (leadPortfolioId symbol : String) (positionSide : PositionSide)
  | leaderPositionsClose (leadPortfolioId : String)
  | positionConfirm (nonce leadPortfolioId : String)
  | leaderPositionsConfirm (nonce leadPortfolioId : String)
  | leaderManage
  | leaderSlot (slot : LeaderSlot)
  | leaderManual (slot : LeaderSlot)
  | leaderCandidates (slot : LeaderSlot)
  | leaderSet (slot : LeaderSlot) (leadPortfolioId : String)
  | leaderRemove (slot : LeaderSlot)
  | leaderConfirm (nonce : String)
  | lockManage
  | lockSet (leadPortfolioId : String) (locked : Bool)
  | lockConfirm (nonce : String)
  | multiplierManage
  | multiplierLeader (leadPortfolioId : String)
  | multiplierSet (leadPortfolioId : String) (multiplier : ℕ)
  | multiplierConfirm (nonce : String)
  | control (action : ControlAction)
  | cancel (nonce : String)
  | summaryConfirm (nonce : String)
  | confirm (nonce : String)

def viewNames : List String :=
  ["status", "health", "control", "leaders", "selection", "positions", "pending", "orders", "pnl",
   "funds", "codex", "repair"]

namespace Intent

def route : Intent → Route
  | view _ | positions .. => .view
  | leaderPnl _ => .pnlLeader
  | auditRun => .auditRun
  | summaryReset => .summaryResetRequest
  | marginManage => .marginManage
  | marginCustom => .marginCustom
  | marginSet _ => .marginSet
  | marginConfirm _ => .marginConfirm
  | positionClose .. => .posClose
  | leaderPositionsClose _ => .posCloseLeader
  | positionConfirm .. => .posConfirm
  | leaderPositionsConfirm .. => .posLeaderConfirm
  | leaderManage => .leadManage
  | leaderSlot _ => .leadSlot
  | leaderManual _ => .leadManual
  | leaderCandidates _ => .leadCandidates
  | leaderSet .. => .leadSet
  | leaderRemove _ => .leadRemove
  | leaderConfirm _ => .leadConfirm
  | lockManage => .lockManage
  | lockSet .. => .lockSet
  | lockConfirm _ => .lockConfirm
  | multiplierManage => .multManage
  | multiplierLeader _ => .multLeader
  | multiplierSet .. => .multSet
  | multiplierConfirm _ => .multConfirm
  | control _ => .control
  | cancel _ => .cancel
  | summaryConfirm _ => .summaryConfirm
  | confirm _ => .confirm

def sideText : PositionSide → String
  | .long => "L"
  | .short => "S"

def pageText : Option ℕ → String
  | none => ""
  | some page => ":" ++ toString page

def arguments : Intent → String
  | view name => name
  | positions leadPortfolioId page => "positions:" ++ leadPortfolioId ++ pageText page
  | marginSet limit => toString limit
  | positionClose leadPortfolioId symbol positionSide =>
    leadPortfolioId ++ ":" ++ symbol ++ ":" ++ sideText positionSide
  | positionConfirm nonce leadPortfolioId | leaderPositionsConfirm nonce leadPortfolioId =>
    nonce ++ ":" ++ leadPortfolioId
  | leaderPnl leadPortfolioId | leaderPositionsClose leadPortfolioId |
    multiplierLeader leadPortfolioId => leadPortfolioId
  | leaderSlot slot | leaderManual slot | leaderCandidates slot | leaderRemove slot =>
    leaderSlotCallback slot
  | leaderSet slot leadPortfolioId => leaderSlotCallback slot ++ ":" ++ leadPortfolioId
  | lockSet leadPortfolioId locked => leadPortfolioId ++ ":" ++ (if locked then "1" else "0")
  | multiplierSet leadPortfolioId multiplier => leadPortfolioId ++ ":" ++ toString multiplier
  | control action => controlActionValue action
  | marginConfirm nonce | leaderConfirm nonce | lockConfirm nonce | multiplierConfirm nonce |
    cancel nonce | summaryConfirm nonce | confirm nonce => nonce
  | auditRun | summaryReset | marginManage | marginCustom | leaderManage | lockManage |
    multiplierManage => ""

def data (intent : Intent) : String :=
  intent.route.head ++ intent.arguments

/-- What the arguments are like. -/
def Valid : Intent → Prop
  | view name => name ∈ viewNames
  | positions leadPortfolioId page =>
    isLeaderId leadPortfolioId = true ∧ ∀ number ∈ page, 1 ≤ number ∧ number ≤ 99
  | marginSet limit => limit ∈ [30, 60, 90, 120]
  | positionClose leadPortfolioId symbol _ =>
    isLeaderId leadPortfolioId = true ∧ isSymbol symbol = true
  | positionConfirm nonce leadPortfolioId | leaderPositionsConfirm nonce leadPortfolioId =>
    isNonce nonce = true ∧ isLeaderId leadPortfolioId = true
  | leaderPnl leadPortfolioId | leaderPositionsClose leadPortfolioId |
    multiplierLeader leadPortfolioId | leaderSet _ leadPortfolioId | lockSet leadPortfolioId _ =>
    isLeaderId leadPortfolioId = true
  | multiplierSet leadPortfolioId multiplier =>
    isLeaderId leadPortfolioId = true ∧ 1 ≤ multiplier ∧ multiplier ≤ 10
  | marginConfirm nonce | leaderConfirm nonce | lockConfirm nonce | multiplierConfirm nonce |
    cancel nonce | summaryConfirm nonce | confirm nonce => isNonce nonce = true
  | _ => True

end Intent

/-- A button is pressed: the callback, less its data. -/
structure Press where
  callbackId : String
  chatId : ℤ
  userId : ℤ
  messageId : Option ℤ

@[reducible] def Press.callback (press : Press) (value : String) (token : Option String) :
    Callback where
  callbackId := press.callbackId
  chatId := press.chatId
  userId := press.userId
  messageId := press.messageId
  value := value
  token := token

/-- Every component is there. -/
structure Router.Complete (router : Router) : Prop where
  leaderAdmin : router.leaderAdmin = true
  positionAdmin : router.positionAdmin = true
  marginAdmin : router.marginAdmin = true
  auditTrigger : router.auditTrigger = true

def positionsMarkup (leadPortfolioId : String) (page : ℕ) : Bot InlineKeyboard := do
  let choices : List PositionCloseChoice ← ask (.positionCloseChoices leadPortfolioId page)
  .ofExcept (positionCloseKeyboard (choices.take 8) leadPortfolioId page (8 < choices.length))

namespace Intent

/-- The operation, for a press on a message that keeps the token of a notification. -/
def run (router : Router) (press : Press) (token : Option String) (intent : Intent) : Bot Unit :=
  let callback := press.callback "" token
  match intent with
  | view name => do
    callback.answer ""
    callback.display do
      let text : String ← ask (.render name)
      let markup ← router.viewMarkup name
      return (text, markup)
  | positions leadPortfolioId page => do
    callback.answer ""
    callback.display do
      let text : String ← ask (.render ("positions:" ++ leadPortfolioId ++ pageText page))
      let markup ← positionsMarkup leadPortfolioId (page.getD 1)
      return (text, markup)
  | leaderPnl leadPortfolioId => do
    callback.answer ""
    callback.display do
      let text : String ← ask (.renderLeaderPnl leadPortfolioId)
      let markup ← .ofExcept (leaderPnlKeyboard leadPortfolioId)
      return (text, markup)
  | auditRun => router.auditRun callback
  | summaryReset => do
    callback.answer "请二次确认"
    requestConfirmation callback.chatId callback.userId .resetAccountSummary
  | marginManage => router.marginManage callback
  | marginCustom => router.marginCustom callback
  | marginSet limit =>
    callback.proposed (ask (.createEntryMarginLimitChange callback.userId (limit * 100)))
      "额度未变更或参数已失效" (sendEntryMarginConfirmation callback.chatId)
  | marginConfirm nonce =>
    callback.confirmed (ask (.executeEntryMarginLimitConfirmed callback.userId nonce)) "已执行" do
      let current : String ← ask .entryMarginLimit
      .ofExcept (entryMarginLimitKeyboard current)
  | positionClose leadPortfolioId symbol positionSide =>
    callback.proposed
      (ask (.createPositionClose callback.userId leadPortfolioId symbol positionSide))
      "仓位已变化, 请刷新" fun proposal =>
        sendPositionCloseConfirmation callback.chatId proposal leadPortfolioId
  | leaderPositionsClose leadPortfolioId =>
    callback.proposed (ask (.createLeaderPositionsClose callback.userId leadPortfolioId))
      "仓位已变化, 请刷新" fun proposal =>
        sendLeaderPositionsCloseConfirmation callback.chatId proposal leadPortfolioId
  | positionConfirm nonce leadPortfolioId =>
    callback.confirmed (ask (.executePositionCloseConfirmed callback.userId nonce)) "已提交"
      (positionsMarkup leadPortfolioId 1)
  | leaderPositionsConfirm nonce leadPortfolioId =>
    callback.confirmed (ask (.executeLeaderPositionsCloseConfirmed callback.userId nonce)) "已提交"
      (positionsMarkup leadPortfolioId 1)
  | leaderManage => router.leadManage callback
  | leaderSlot slot => do
    callback.answer ""
    callback.display (pure (Router.slotText slot, leaderSlotActionsKeyboard slot))
  | leaderManual slot => do
    callback.answer "请回复链接、ID 或名称"
    send callback.chatId (leaderInputPrompt slot) (some (.forceReply "粘贴 Binance 链接、ID 或名称"))
  | leaderCandidates slot => do
    let choices : List LeaderCandidateChoice ← ask (.leaderCandidates slot)
    callback.answer ""
    callback.display (pure ("\n".intercalate ((leaderSlotLabel slot ++ "候选") ::
      "可点选推荐候选, 也可输入任意公开带单员 ID/名称。" :: choices.map fun choice => choice.summary),
      leaderCandidateKeyboard slot choices))
  | leaderSet slot leadPortfolioId =>
    callback.proposed (ask (.createLeaderChange callback.userId slot (some leadPortfolioId)))
      "候选已失效, 请刷新" (sendLeaderConfirmation callback.chatId)
  | leaderRemove slot =>
    callback.proposed (ask (.createLeaderChange callback.userId slot none))
      "该席位当前不可删除" (sendLeaderConfirmation callback.chatId)
  | leaderConfirm nonce =>
    callback.confirmed (ask (.executeLeaderChangeConfirmed callback.userId nonce)) "已执行"
      (pure leaderManagementKeyboard)
  | lockManage => router.lockManage callback
  | lockSet leadPortfolioId locked =>
    callback.proposed (ask (.createLeaderLockChange callback.userId leadPortfolioId locked))
      "状态已变化, 请刷新" (sendLeaderLockConfirmation callback.chatId)
  | lockConfirm nonce =>
    callback.confirmed (ask (.executeLeaderLockConfirmed callback.userId nonce)) "已执行" do
      let choices : List LeaderLockChoice ← ask .leaderLockChoices
      return leaderLockKeyboard choices
  | multiplierManage => router.multManage callback
  | multiplierLeader leadPortfolioId => do
    let choices : List LeaderMultiplierChoice ← ask .leaderMultiplierChoices
    match choices.reverse.find? fun choice => choice.leadPortfolioId = leadPortfolioId with
    | none => callback.answer "带单员已变更, 请刷新"
    | some choice => do
      callback.answer ""
      callback.display do
        let markup ← .ofExcept (multiplierValueKeyboard choice)
        return (Router.multiplierText choice, markup)
  | multiplierSet leadPortfolioId multiplier =>
    callback.proposed
      (ask (.createFollowMultiplierChange callback.userId leadPortfolioId multiplier))
      "配置已失效, 请刷新" (sendMultiplierConfirmation callback.chatId)
  | multiplierConfirm nonce =>
    callback.confirmed (ask (.executeFollowMultiplierConfirmed callback.userId nonce)) "已执行" do
      let choices : List LeaderMultiplierChoice ← ask .leaderMultiplierChoices
      return multiplierManagementKeyboard choices
  | control action => do
    callback.answer "请二次确认"
    requestConfirmation callback.chatId callback.userId action
  | cancel _ => Router.cancelCallback callback
  | summaryConfirm nonce =>
    .handling Raised.isRuntimeError (ask (.executeConfirmed callback.userId nonce))
      (fun _ => callback.answer "初始化失败, 请刷新后重试") fun (result : Option String) =>
        match result with
        | none => callback.answerDirectly "确认已失效"
        | some result => do
          callback.answer "已初始化"
          Router.editDirectly callback do
            let pnl : String ← ask (.render "pnl")
            let choices : List LeaderPnlChoice ← ask .pnlLeaderChoices
            return (result ++ "\n\n" ++ pnl, pnlOverviewKeyboard choices)
  | confirm nonce => do
    let result : Option String ← ask (.executeConfirmed callback.userId nonce)
    match result with
    | none => callback.answerDirectly "确认已失效"
    | some result => do
      callback.answer "已执行"
      Router.editDirectly callback (pure (result, contextualInlineKeyboard "status"))

end Intent

namespace Intent

theorem head_data (route : Route) : Data route.head.length route.head := by
  cases route <;> decide

theorem colon_data : Data 1 ":" := by
  decide

theorem data_of_arguments {intent : Intent} {bound : ℕ} (route : Route)
    (hr : intent.route = route) (ha : Data bound intent.arguments)
    (hle : route.head.length + bound ≤ 64) : Data 64 intent.data := by
  subst hr
  exact ((head_data intent.route).append ha).mono hle

theorem pageText_data {page : Option ℕ} (hp : ∀ number ∈ page, 1 ≤ number ∧ number ≤ 99) :
    Data 4 (pageText page) := by
  cases page with
  | none => decide
  | some number =>
    have hle : number < 121 := by
      have := (hp number rfl).2
      omega
    exact colon_data.append (word_number number hle).data

theorem pair_data {first second : String} {bound other : ℕ} (hf : Word bound first)
    (hs : Data other second) : Data (bound + 1 + other) (first ++ ":" ++ second) :=
  (hf.data.append colon_data).append hs

theorem sideText_word (side : PositionSide) : Word 1 (sideText side) := by
  cases side <;> decide

theorem lockText_word (locked : Bool) : Word 1 (if locked then "1" else "0") := by
  cases locked <;> decide

theorem data_kind {intent : Intent} (hv : intent.Valid) : Data 64 intent.data := by
  cases intent with
  | view name =>
    have hn : ∀ name ∈ viewNames, Data 9 name := by decide
    exact data_of_arguments .view rfl (hn name hv) (by decide)
  | positions leader page =>
    have hst : Data 10 "positions:" := by decide
    have hl := hst.append (word_of_isLeaderId hv.1).data
    exact data_of_arguments .view rfl (hl.append (pageText_data hv.2)) (by decide)
  | leaderPnl leader =>
    exact data_of_arguments .pnlLeader rfl (word_of_isLeaderId hv).data (by decide)
  | auditRun => decide
  | summaryReset => decide
  | marginManage => decide
  | marginCustom => decide
  | marginSet limit =>
    have hli : ∀ limit ∈ [30, 60, 90, 120], limit < 121 := by decide
    exact data_of_arguments .marginSet rfl (word_number limit (hli limit hv)).data (by decide)
  | marginConfirm nonce =>
    exact data_of_arguments .marginConfirm rfl (word_of_isNonce hv).data (by decide)
  | positionClose leader sym side =>
    have hs := pair_data (word_of_isLeaderId hv.1) (word_of_isSymbol hv.2).data
    exact data_of_arguments .posClose rfl
      ((hs.append colon_data).append (sideText_word side).data) (by decide)
  | leaderPositionsClose leader =>
    exact data_of_arguments .posCloseLeader rfl (word_of_isLeaderId hv).data (by decide)
  | positionConfirm nonce leader =>
    exact data_of_arguments .posConfirm rfl
      (pair_data (word_of_isNonce hv.1) (word_of_isLeaderId hv.2).data) (by decide)
  | leaderPositionsConfirm nonce leader =>
    exact data_of_arguments .posLeaderConfirm rfl
      (pair_data (word_of_isNonce hv.1) (word_of_isLeaderId hv.2).data) (by decide)
  | leaderManage => decide
  | leaderSlot slot => exact data_of_arguments .leadSlot rfl (word_slot slot).data (by decide)
  | leaderManual slot => exact data_of_arguments .leadManual rfl (word_slot slot).data (by decide)
  | leaderCandidates slot =>
    exact data_of_arguments .leadCandidates rfl (word_slot slot).data (by decide)
  | leaderSet slot leader =>
    exact data_of_arguments .leadSet rfl
      (pair_data (word_slot slot) (word_of_isLeaderId hv).data) (by decide)
  | leaderRemove slot => exact data_of_arguments .leadRemove rfl (word_slot slot).data (by decide)
  | leaderConfirm nonce =>
    exact data_of_arguments .leadConfirm rfl (word_of_isNonce hv).data (by decide)
  | lockManage => decide
  | lockSet leader locked =>
    exact data_of_arguments .lockSet rfl
      (pair_data (word_of_isLeaderId hv) (lockText_word locked).data) (by decide)
  | lockConfirm nonce =>
    exact data_of_arguments .lockConfirm rfl (word_of_isNonce hv).data (by decide)
  | multiplierManage => decide
  | multiplierLeader leader =>
    exact data_of_arguments .multLeader rfl (word_of_isLeaderId hv).data (by decide)
  | multiplierSet leader multiplier =>
    have hle : multiplier < 121 := by
      have := hv.2.2
      omega
    exact data_of_arguments .multSet rfl
      (pair_data (word_of_isLeaderId hv.1) (word_number multiplier hle).data) (by decide)
  | multiplierConfirm nonce =>
    exact data_of_arguments .multConfirm rfl (word_of_isNonce hv).data (by decide)
  | control action => cases action <;> decide
  | cancel nonce => exact data_of_arguments .cancel rfl (word_of_isNonce hv).data (by decide)
  | summaryConfirm nonce =>
    exact data_of_arguments .summaryConfirm rfl (word_of_isNonce hv).data (by decide)
  | confirm nonce => exact data_of_arguments .confirm rfl (word_of_isNonce hv).data (by decide)

end Intent

end AiQuant.Telegram
