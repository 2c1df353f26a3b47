import AiQuant.CopyTrading.LeaderChanges
import AiQuant.UserStream.EventJournal

/-! What a Telegram update says (`notifications/telegram_bot.py`): the parts of the update
document that the router reads, and the commands in a message.  Texts are sequences of Unicode
scalar values. -/
namespace AiQuant.Telegram
open AiQuant.Lib
open AiQuant.UserStream (Json Fields get)
open AiQuant.CopyTrading (LeaderSlot ControlAction leaderSlots isCustomSlot)

inductive ErrorKind where
  | valueError | runtimeError | telegramBotError | telegramCallbackExpired
  | telegramMessageNotModified | telegramStateError | indexError | other
deriving DecidableEq

structure Raised where
  kind : ErrorKind
  /-- `type(error).__name__` -/
  typeName : String
  /-- `str(error)` -/
  message : String
deriving DecidableEq

/-- `except TelegramBotError` -/
def Raised.isBotError (error : Raised) : Bool :=
  error.kind ∈ [.telegramBotError, .telegramCallbackExpired, .telegramMessageNotModified]

/-- `except ValueError` -/
def Raised.isValueError (error : Raised) : Bool :=
  error.kind = .valueError

/-- `except RuntimeError` -/
def Raised.isRuntimeError (error : Raised) : Bool :=
  error.kind ∉ [.valueError, .indexError, .other]

/-- `except (ValueError, RuntimeError)` -/
def Raised.isRejection (error : Raised) : Bool :=
  error.kind ∉ [.indexError, .other]

def valueError (message : String) : Raised := ⟨.valueError, "ValueError", message⟩

def indexError : Raised := ⟨.indexError, "IndexError", "list index out of range"⟩

/-- `parts[index]` -/
def item (parts : List String) (index : ℕ) : Except Raised String :=
  match parts[index]? with
  | some part => .ok part
  | none => .error indexError

def isSpace (character : Char) : Bool :=
  let code := character.toNat
  (0x9 ≤ code && code ≤ 0xD) || (0x1C ≤ code && code ≤ 0x20) || code = 0x85 || code = 0xA0 ||
    code = 0x1680 || (0x2000 ≤ code && code ≤ 0x200A) || code = 0x2028 || code = 0x2029 ||
    code = 0x202F || code = 0x205F || code = 0x3000

/-- The characters that `splitlines` breaks at. -/
def isLineBreak (character : Char) : Bool :=
  let code := character.toNat
  (0xA ≤ code && code ≤ 0xD) || (0x1C ≤ code && code ≤ 0x1E) || code = 0x85 || code = 0x2028 ||
    code = 0x2029

/-- `text[:length]` -/
def clip (length : ℕ) (text : String) : String :=
  String.ofList (text.toList.take length)

/-- `text.startswith(start)` -/
def startsWith (text start : String) : Bool :=
  start.toList.isPrefixOf text.toList

/-- `text.removeprefix(start)` -/
def afterStart (text start : String) : String :=
  if startsWith text start then String.ofList (text.toList.drop start.length) else text

/-- `text.strip()` -/
def strip (text : String) : String :=
  String.ofList (((text.toList.dropWhile isSpace).reverse.dropWhile isSpace).reverse)

/-- `text.lower()`; what it is compared with has no letter that another one than its own capital
is lowered to. -/
def lower (text : String) : String :=
  String.ofList (text.toList.map Char.toLower)

def splitSpace : ℕ → List Char → List String
  | splits, characters =>
    match splits, characters.dropWhile isSpace with
    | _, [] => []
    | 0, rest => [String.ofList rest]
    | splits + 1, rest =>
      String.ofList (rest.takeWhile (!isSpace ·)) :: splitSpace splits (rest.dropWhile (!isSpace ·))

/-- `text.split(maxsplit=splits)` -/
def splitUpTo (splits : ℕ) (text : String) : List String :=
  splitSpace splits text.toList

/-- `text.split()` -/
def words (text : String) : List String :=
  splitUpTo text.length text

/-- `text.split(":")` -/
def splitColon (text : String) : List String :=
  (text.toList.splitOn ':').map String.ofList

/-- `text.rsplit(":", 1)[-1]` -/
def afterColon (text : String) : String :=
  String.ofList (text.toList.reverse.takeWhile (· ≠ ':')).reverse

/-- `text.split("@", maxsplit=1)[0]` -/
def beforeAt (text : String) : String :=
  String.ofList (text.toList.takeWhile (· ≠ '@'))

/-- `text.splitlines()[0]`, and the empty text for an empty one. -/
def firstLine (text : String) : String :=
  String.ofList (text.toList.takeWhile (!isLineBreak ·))

/-- `[0-9]{10,24}` -/
def isLeaderId (text : String) : Bool :=
  10 ≤ text.length && text.length ≤ 24 && text.toList.all Char.isDigit

/-- `[A-Z0-9]{3,24}` -/
def isSymbol (text : String) : Bool :=
  3 ≤ text.length && text.length ≤ 24 && text.toList.all fun character =>
    character.isUpper || character.isDigit

/-- `[0-9a-f]{16}` -/
def isNotificationToken (text : String) : Bool :=
  text.length = 16 && text.toList.all fun character =>
    character.isDigit || ('a' ≤ character && character ≤ 'f')

def digitsValue (digits : List ℕ) : ℕ :=
  digits.foldl (fun value digit => value * 10 + digit) 0

def digitZeros : List ℕ :=
  [0x30, 0x660, 0x6F0, 0x7C0, 0x966, 0x9E6, 0xA66, 0xAE6, 0xB66, 0xBE6, 0xC66, 0xCE6, 0xD66, 0xDE6,
   0xE50, 0xED0, 0xF20, 0x1040, 0x1090, 0x17E0, 0x1810, 0x1946, 0x19D0, 0x1A80, 0x1A90, 0x1B50,
   0x1BB0, 0x1C40, 0x1C50, 0xA620, 0xA8D0, 0xA900, 0xA9D0, 0xA9F0, 0xAA50, 0xABF0, 0xFF10, 0x104A0,
   0x10D30, 0x11066, 0x110F0, 0x11136, 0x111D0, 0x112F0, 0x11450, 0x114D0, 0x11650, 0x116C0,
   0x11730, 0x118E0, 0x11950, 0x11C50, 0x11D50, 0x11DA0, 0x11F50, 0x16A60, 0x16AC0, 0x16B50,
   0x1D7CE, 0x1D7D8, 0x1D7E2, 0x1D7EC, 0x1D7F6, 0x1E140, 0x1E2F0, 0x1E4D0, 0x1E950, 0x1FBF0]

def decimalDigit (character : Char) : Option ℕ :=
  (digitZeros.find? fun start => start ≤ character.toNat && character.toNat ≤ start + 9).map
    (character.toNat - ·)

def intDigits (text : List Char) : Option (List ℕ) :=
  let groups := text.splitOn '_'
  if groups.any List.isEmpty then none else groups.flatten.mapM decimalDigit

/-- `int(text)` -/
def intOfText (text : String) : Except Raised ℤ :=
  let digits := match (strip text).toList with
    | '-' :: rest => (intDigits rest).map fun digits => -(digitsValue digits : ℤ)
    | '+' :: rest => (intDigits rest).map fun digits => (digitsValue digits : ℤ)
    | rest => (intDigits rest).map fun digits => (digitsValue digits : ℤ)
  match digits with
  | some value => .ok value
  | none => .error (valueError "invalid literal for int() with base 10")

/-- The keys of `_CALLBACK_TO_SLOT`. -/
def leaderSlotCallback : LeaderSlot → String
  | .longTerm => "long"
  | .shortTerm1 => "short1"
  | .shortTerm2 => "short2"
  | .custom1 => "custom1"
  | .custom2 => "custom2"
  | .custom3 => "custom3"
  | .custom4 => "custom4"
  | .custom5 => "custom5"
  | .custom6 => "custom6"
  | .custom7 => "custom7"

def leaderSlotFromCallback (value : String) : Except Raised LeaderSlot :=
  match leaderSlots.find? fun slot => leaderSlotCallback slot = value with
  | some slot => .ok slot
  | none => .error (valueError "copy leader slot callback is invalid")

def leaderSlotLabel : LeaderSlot → String
  | .longTerm => "🔒 长线"
  | .shortTerm1 => "⚡ 短线 1"
  | .shortTerm2 => "⚡ 短线 2"
  | .custom1 => "🎯 自定义 1"
  | .custom2 => "🎯 自定义 2"
  | .custom3 => "🎯 自定义 3"
  | .custom4 => "🎯 自定义 4"
  | .custom5 => "🎯 自定义 5"
  | .custom6 => "🎯 自定义 6"
  | .custom7 => "🎯 自定义 7"

/-- The first line of `_leader_input_prompt`. -/
def leaderInputTitle (slot : LeaderSlot) : String :=
  "✍️ 输入" ++ leaderSlotLabel slot ++ "带单员"

def leaderInputPrompt (slot : LeaderSlot) : String :=
  leaderInputTitle slot ++ "\n请直接回复 Binance 带单员详情链接、带单员 ID, 或回复完整/部分名称进行搜索。\n" ++
    "系统会实时读取公开资料和最近操作, 之后仍需二次确认。"

def entryMarginInputPrompt : String :=
  "✍️ 输入共享可用保证金额度\n请直接回复 5-120 之间的 U 数值, 最多两位小数。\n" ++
    "确认后只限制后续新开仓, 不会调整或强平已有仓位。"

def entryMarginInputReply (replyText : String) : Bool :=
  replyText ≠ "" && firstLine replyText = firstLine entryMarginInputPrompt

def leaderInputReplySlot (replyText : String) : Option LeaderSlot :=
  leaderSlots.find? fun slot => leaderInputTitle slot = firstLine replyText

inductive UpdateKind where
  | message | callback
deriving DecidableEq

structure ParsedUpdate where
  kind : UpdateKind
  callbackId : Option String
  chatId : ℤ
  userId : ℤ
  messageId : Option ℤ
  value : String

def objectOf? : Json → Option Fields
  | .object fields => some fields
  | _ => none

def stringOf? : Json → Option String
  | .string text => some text
  | _ => none

/-- `int(value)` of what is an `int`, as a Boolean is. -/
def intOf? : Json → Option ℤ
  | .integer value => some value
  | .boolean value => some (if value then 1 else 0)
  | _ => none

def messageValue (text : String) (replyText : Option String) : String :=
  match replyText.bind leaderInputReplySlot with
  | some slot => "/leader_input " ++ leaderSlotCallback slot ++ " " ++ clip 256 text
  | none =>
    if replyText.any entryMarginInputReply then "/margin_input " ++ clip 32 text
    else clip 128 text

def parseMessage (message : Fields) : Option ParsedUpdate := do
  let chat ← objectOf? (get message "chat")
  let sender ← objectOf? (get message "from")
  let chatId ← intOf? (get chat "id")
  let userId ← intOf? (get sender "id")
  let text ← stringOf? (get message "text")
  let reply := objectOf? (get message "reply_to_message")
  return { kind := .message, callbackId := none, chatId, userId, messageId := none,
           value := messageValue text (reply.bind fun reply => stringOf? (get reply "text")) }

def parseCallback (callback : Fields) : Option ParsedUpdate := do
  let sender ← objectOf? (get callback "from")
  let message ← objectOf? (get callback "message")
  let chat ← objectOf? (get message "chat")
  let userId ← intOf? (get sender "id")
  let chatId ← intOf? (get chat "id")
  let callbackId ← stringOf? (get callback "id")
  let data ← stringOf? (get callback "data")
  return { kind := .callback, callbackId := some callbackId, chatId, userId,
           messageId := intOf? (get message "message_id"), value := clip 64 data }

def parseUpdate (update : Fields) : Option ParsedUpdate :=
  ((objectOf? (get update "message")).bind parseMessage).or
    ((objectOf? (get update "callback_query")).bind parseCallback)

/-- `_NOTIFICATION_CALLBACK`: a token and the data that it wraps. -/
def notificationCallback (value : String) : Option (String × String) :=
  let token := clip 16 (afterStart value "n:")
  let data := String.ofList (value.toList.drop 19)
  if startsWith value ("n:" ++ token ++ ":") && isNotificationToken token && data ≠ "" &&
      !data.toList.contains '\n' then
    some (token, data)
  else none

/-- The first word, less what follows an `@`. -/
def messageCommand (text : String) : Except Raised String := do
  let word ← item (splitUpTo 1 text) 0
  return lower (beforeAt word)

def messageViews : List (String × String) :=
  [("/start", "status"), ("/menu", "status"), ("/status", "status"), ("/leaders", "leaders"),
   ("/positions", "positions"), ("/pending", "pending"), ("/orders", "orders"), ("/pnl", "pnl"),
   ("/funds", "funds"), ("/codex", "codex"), ("/control", "control"), ("📊", "status"),
   ("📈", "positions"), ("👥", "leaders"), ("🧾", "orders"), ("💹", "pnl"), ("💰", "funds"),
   ("⚙️", "control")]

def messageView (text : String) : Except Raised String := do
  let command ← messageCommand text
  return (messageViews.lookup command).getD "help"

def messageActions : List (String × ControlAction) :=
  [("/pause", .pauseNewEntries), ("/resume", .resumeTestnet), ("/reduce_all", .reduceAll)]

def messageAction (text : String) : Except Raised (Option ControlAction) := do
  let command ← messageCommand text
  return messageActions.lookup command

def digitOf (character : Char) : ℕ :=
  character.toNat - 48

/-- `[0-9]+(?:\.[0-9]{1,2})?` in hundredths. -/
def readHundredths (raw : List Char) : Option ℕ :=
  let whole := raw.takeWhile Char.isDigit
  let units := digitsValue (whole.map digitOf)
  if whole = [] then none else
    match raw.dropWhile Char.isDigit with
    | [] => some (units * 100)
    | ['.', tenths] => if tenths.isDigit then some (units * 100 + digitOf tenths * 10) else none
    | ['.', tenths, hundredths] =>
      if tenths.isDigit && hundredths.isDigit then
        some (units * 100 + digitOf tenths * 10 + digitOf hundredths)
      else none
    | _ => none

/-- `_normalize_entry_margin_limit`, in hundredths. -/
def normalizeEntryMarginLimit (raw : String) : Except Raised ℕ :=
  if 16 < raw.length then .error (valueError "Telegram entry margin limit is invalid")
  else match readHundredths raw.toList with
  | none => .error (valueError "Telegram entry margin limit is invalid")
  | some value =>
    if 500 ≤ value ∧ value ≤ 12000 then .ok value
    else .error (valueError "Telegram entry margin limit is outside bounds")

def messageEntryMarginLimit (text : String) : Except Raised (Option ℕ) :=
  match words (strip text) with
  | [] => .ok none
  | word :: rest =>
    if lower (beforeAt word) ∉ ["/margin_limit", "/margin_input"] then .ok none
    else match rest with
    | [raw] => do
      let limit ← normalizeEntryMarginLimit raw
      return some limit
    | _ => .error (valueError "Telegram entry margin command is invalid")

/-- What `urlsplit` finds, as far as it is looked at. -/
structure SplitUrl where
  scheme : List Char
  netloc : List Char
  path : List Char

/-- `urlsplit`; the hosts that it refuses are not the one that is asked for. -/
def urlsplit (text : String) : SplitUrl :=
  let url := (text.toList.dropWhile (· ≤ ' ')).filter fun character =>
    character ∉ ['\t', '\r', '\n']
  let named := url.takeWhile (· ≠ ':')
  let hasScheme := url.contains ':' && named.head?.any Char.isAlpha &&
    named.all fun character => character.isAlphanum || character ∈ ['+', '-', '.']
  let rest := if hasScheme then url.drop (named.length + 1) else url
  let hasNetloc := ['/', '/'].isPrefixOf rest
  let inNetloc : Char → Bool := fun character => character ∉ ['/', '?', '#']
  { scheme := if hasScheme then named.map Char.toLower else []
    netloc := if hasNetloc then (rest.drop 2).takeWhile inNetloc else []
    path := ((if hasNetloc then (rest.drop 2).dropWhile inNetloc else rest).takeWhile
      (· ≠ '#')).takeWhile (· ≠ '?') }

def afterLanguage (path : List Char) : List (List Char) :=
  match path with
  | '/' :: rest => rest :: match rest with
    | first :: second :: '/' :: more => if [first, second].all Char.isAlpha then [more] else []
    | first :: second :: '-' :: third :: fourth :: '/' :: more =>
      if [first, second, third, fourth].all Char.isAlpha then [more] else []
    | _ => []
  | _ => []

/-- `copy-trading/lead-details/([0-9]{10,24})/?` -/
def leadDetailsId (path : List Char) : Option String :=
  let start := "copy-trading/lead-details/".toList
  let rest := path.drop start.length
  let digits := String.ofList (rest.takeWhile Char.isDigit)
  if start.isPrefixOf path && isLeaderId digits &&
      rest.dropWhile Char.isDigit ∈ [[], ['/']] then some digits else none

/-- `_binance_leader_reference_id`; this host names no user. -/
def binanceLeaderReferenceId (value : String) : Option String :=
  if isLeaderId value then some value
  else
    let parsed := urlsplit value
    if parsed.scheme = "https".toList ∧
        parsed.netloc.map Char.toLower = "www.binance.com".toList then
      (afterLanguage parsed.path).findSome? leadDetailsId
    else none

inductive LeaderOperation where
  | set | find

def messageLeaderCommand (text : String) :
    Except Raised (Option (LeaderOperation × LeaderSlot × String)) :=
  match splitUpTo 2 (strip text) with
  | [] => .ok none
  | word :: rest =>
    let command := lower (beforeAt word)
    if command ∉ ["/leader_input", "/leader_set", "/leader_find"] then .ok none
    else match rest with
    | [slotText, queryText] => do
      let slot ← leaderSlotFromCallback (lower slotText)
      let query := strip queryText
      if query = "" ∨ 256 < query.length ∨ '\n' ∈ query.toList ∨ '\r' ∈ query.toList then
        .error (valueError "Telegram leader query is invalid")
      else
        match command, binanceLeaderReferenceId query with
        | "/leader_set", none => .error (valueError "Telegram leader portfolio ID is invalid")
        | "/leader_set", some leaderId => .ok (some (.set, slot, leaderId))
        | "/leader_input", some leaderId => .ok (some (.set, slot, leaderId))
        | _, _ =>
          if startsWith (lower query) "http://" || startsWith (lower query) "https://" then
            .error (valueError "Telegram Binance leader URL is invalid")
          else .ok (some (.find, slot, query))
    | _ => .error (valueError "Telegram leader command is invalid")

end AiQuant.Telegram
