import AiQuant.Telegram.ButtonHandlers

/-! A button is pressed (`notifications/telegram_bot.py`): Telegram sends its data back,
`_parse_update` cuts it, the token of a notification is taken off, and the branch of the data
runs. -/
namespace AiQuant.Telegram
open AiQuant.Lib
open AiQuant.UserStream (Json Fields get)

theorem Route.head_apart (route : Route) : ∀ other ∈ ["n:", "return"],
    ¬ other.toList <+: route.head.toList ∧ ¬ route.head.toList <+: other.toList := by
  cases route <;> decide

theorem Intent.data_apart {intent : Intent} {other : String} (ho : other ∈ ["n:", "return"]) :
    ¬ other.toList <+: intent.data.toList := by
  intro hp
  have hh : intent.route.head.toList <+: intent.data.toList :=
    startsWith_iff.mp (startsWith_append _ _)
  have ha := intent.route.head_apart other ho
  rcases List.prefix_or_prefix_of_prefix hp hh with hs | hl
  · exact ha.1 hs
  · exact ha.2 hl

theorem Intent.data_ne_empty (intent : Intent) : intent.data ≠ "" := by
  intro heq
  have hh : intent.route.head.toList <+: intent.data.toList :=
    startsWith_iff.mp (startsWith_append _ _)
  rw [heq] at hh
  exact (intent.route.head_apart "n:" (by decide)).2 (hh.trans List.nil_prefix)

theorem Data.newline_notMem {bound : ℕ} {text : String} (hd : Data bound text) :
    '\n' ∉ text.toList :=
  fun hm => absurd (hd.all_kind '\n' hm) (by decide)

theorem notificationCallback_eq_none {value : String} (hst : ¬ "n:".toList <+: value.toList) :
    notificationCallback value = none := by
  have hno : ∀ rest, startsWith value ("n:" ++ rest) = false := by
    intro rest
    refine Bool.eq_false_iff.mpr fun hs => hst ?_
    have hp := startsWith_iff.mp hs
    rw [String.toList_append] at hp
    exact (List.prefix_append _ _).trans hp
  unfold notificationCallback
  dsimp only
  rw [String.append_assoc, hno, Bool.false_and, Bool.false_and, Bool.false_and]
  rfl

theorem length_of_isNotificationToken {token : String} (ht : isNotificationToken token = true) :
    token.length = 16 := by
  rw [isNotificationToken, Bool.and_eq_true, decide_eq_true_eq] at ht
  exact ht.1

theorem notificationCallback_wrapped {token data : String}
    (ht : isNotificationToken token = true) (hd : data ≠ "") (hli : '\n' ∉ data.toList) :
    notificationCallback ("n:" ++ token ++ ":" ++ data) = some (token, data) := by
  have hl : token.toList.length = 16 := by
    rw [String.length_toList, length_of_isNotificationToken ht]
  have ha : clip 16 (afterStart ("n:" ++ token ++ ":" ++ data) "n:") = token := by
    rw [String.append_assoc, String.append_assoc, afterStart_append, clip,
      String.toList_append, List.take_left' hl, String.ofList_toList]
  have hdr : String.ofList (("n:" ++ token ++ ":" ++ data).toList.drop 19) = data := by
    rw [String.toList_append, List.drop_left' (by simp [hl]), String.ofList_toList]
  unfold notificationCallback
  dsimp only
  rw [ha, hdr, startsWith_append, ht]
  simp [hd, hli]

def Sends (update : Fields) (press : Press) (data : String) : Prop :=
  objectOf? (get update "message") = none ∧ ∃ callback sender message chat : Fields,
    get update "callback_query" = .object callback ∧
    get callback "id" = .string press.callbackId ∧ get callback "data" = .string data ∧
    get callback "from" = .object sender ∧ get sender "id" = .integer press.userId ∧
    get callback "message" = .object message ∧
    intOf? (get message "message_id") = press.messageId ∧
    get message "chat" = .object chat ∧ get chat "id" = .integer press.chatId

theorem parseUpdate_of_sends {upd : Fields} {press : Press} {data : String}
    (hse : Sends upd press data) : parseUpdate upd = some
      { kind := .callback, callbackId := some press.callbackId, chatId := press.chatId,
        userId := press.userId, messageId := press.messageId, value := clip 64 data } := by
  obtain ⟨hm, callback, sender, msg, chat, hc, hid, hd, hs, hu, hsh, hn, hchat, hch⟩ := hse
  have hp : parseCallback callback = some
      { kind := .callback, callbackId := some press.callbackId, chatId := press.chatId,
        userId := press.userId, messageId := press.messageId, value := clip 64 data } := by
    rw [parseCallback, hs, hsh, hid, hd]
    show (do
      let chat ← objectOf? (get msg "chat")
      let userId ← intOf? (get sender "id")
      let chatId ← intOf? (get chat "id")
      return ({ kind := .callback, callbackId := some press.callbackId, chatId, userId,
                messageId := intOf? (get msg "message_id"), value := clip 64 data } :
        ParsedUpdate)) = _
    rw [hchat, hu, hn]
    show (do
      let chatId ← intOf? (get chat "id")
      return ({ kind := .callback, callbackId := some press.callbackId, chatId,
                userId := press.userId, messageId := press.messageId, value := clip 64 data } :
        ParsedUpdate)) = _
    rw [hch]
    rfl
  rw [parseUpdate, hm, hc]
  exact hp

/-- The data fits, is not cut, and a press of an allowed user in an allowed chat does nothing but
the operation. -/
structure Carries (router : Router) (data : String) (operation : Press → Bot Unit) : Prop where
  fits : data.utf8ByteSize ≤ 64
  uncut : clip 64 data = data
  handled : ∀ update press, Sends update press data → press.chatId ∈ router.allowedChatIds →
    router.isAuthorized press.userId = true → router.handle update = operation press

namespace Carries

variable {router : Router} {press : Press} {upd : Fields} {data token : String}
  {intent : Intent} {operation : Press → Bot Unit}

theorem of_data (hd : Data 64 data) (hh : ∀ press : Press, router.isAuthorized press.userId = true →
      router.handleCallback (press.callback (((notificationCallback data).map Prod.snd).getD data)
        ((notificationCallback data).map Prod.fst)) = operation press) :
    Carries router data operation where
  fits := by
    rw [hd.utf8ByteSize]
    exact hd.length_le
  uncut := hd.clip
  handled := by
    intro upd press hs hal ha
    rw [Router.handle, parseUpdate_of_sends hs, hd.clip]
    dsimp only
    rw [Router.handleParsed, if_neg (not_not_intro hal)]
    exact hh press ha

theorem handleCallback_of_ne {callback : Callback} (hne : callback.value ≠ "return") :
    router.handleCallback callback = router.openCallback callback := by
  rw [Router.handleCallback]
  split
  · next heq _ => exact absurd heq hne
  · rfl

theorem route_accepts (intent : Intent) : intent.route.Accepts intent.data := by
  rw [Route.Accepts]
  split
  · next hw =>
    have hn : intent.arguments = "" := by
      cases intent <;> first | rfl | exact absurd hw Bool.false_ne_true
    rw [Intent.data, hn, String.append_empty]
  · exact startsWith_append _ _

theorem handleCallback_data (hc : router.Complete) (hv : intent.Valid)
    (ha : router.isAuthorized press.userId = true) (token : Option String) :
    router.handleCallback (press.callback intent.data token) = intent.run router press token := by
  have hne : intent.data ≠ "return" := by
    intro heq
    have hp : "return".toList <+: intent.data.toList := by
      rw [heq]
    exact Intent.data_apart (by decide) hp
  calc
    router.handleCallback (press.callback intent.data token)
      = router.openCallback (press.callback intent.data token) := handleCallback_of_ne hne
    _ = intent.route.handler router (press.callback intent.data token) :=
      Router.openCallback_of_accepts ha (route_accepts intent)
    _ = intent.run router press token := Intent.handler_data hc ha hv

theorem of_intent (hc : router.Complete) (hv : intent.Valid) :
    Carries router intent.data fun press => intent.run router press none := by
  refine of_data (Intent.data_kind hv) fun press ha => ?_
  rw [notificationCallback_eq_none (Intent.data_apart (by decide))]
  exact handleCallback_data hc hv ha none

theorem token_word (ht : isNotificationToken token = true) : Word 16 token := by
  simp only [isNotificationToken, Bool.and_eq_true, decide_eq_true_eq, List.all_eq_true,
    Bool.or_eq_true] at ht
  refine ⟨ht.1.le, fun character hm => ?_⟩
  rcases ht.2 character hm with hd | hl
  · exact isWordCharacter_of_isDigit hd
  · have hla := UInt32.le_trans hl.2 (show 'f'.val ≤ 'z'.val by decide)
    have hlow : (decide ('a'.val ≤ character.val) && decide (character.val ≤ 'z'.val)) = true :=
      (Bool.and_eq_true _ _).mpr ⟨decide_eq_true hl.1, decide_eq_true hla⟩
    exact isWordCharacter_of_letter (.inr hlow)

theorem wrapped_data {bound : ℕ} (ht : isNotificationToken token = true)
    (hd : Data bound data) : Data (2 + 16 + 1 + bound) ("n:" ++ token ++ ":" ++ data) := by
  have hs : Data 2 "n:" := by decide
  exact ((hs.append (token_word ht).data).append Intent.colon_data).append hd

theorem of_wrapped (ht : isNotificationToken token = true) {bound : ℕ}
    (hd : Data bound data) (he : data ≠ "") (hf : ("n:" ++ token ++ ":" ++ data).utf8ByteSize ≤ 64)
    (hh : ∀ press : Press, router.isAuthorized press.userId = true →
      router.handleCallback (press.callback data (some token)) = operation press) :
    Carries router ("n:" ++ token ++ ":" ++ data) operation := by
  have hw := wrapped_data ht hd
  refine of_data ⟨?_, hw.all_kind⟩ fun press ha => ?_
  · rwa [Data.utf8ByteSize hw] at hf
  · rw [notificationCallback_wrapped ht he hd.newline_notMem]
    exact hh press ha

def keptToken (token data : String) : Option String :=
  if ("n:" ++ token ++ ":" ++ data).utf8ByteSize ≤ 64 then some token else none

theorem of_wrapCallback (hc : router.Complete) (hv : intent.Valid)
    (ht : isNotificationToken token = true) : Carries router (wrapCallback token intent.data)
      fun press => intent.run router press (keptToken token intent.data) := by
  have hp : notificationCallback intent.data = none :=
    notificationCallback_eq_none (Intent.data_apart (by decide))
  have he := intent.data_ne_empty
  unfold wrapCallback keptToken
  dsimp only
  by_cases hf : ("n:" ++ token ++ ":" ++ intent.data).utf8ByteSize ≤ 64
  · rw [hp, if_pos hf, if_pos (by simpa using hf)]
    exact of_wrapped ht (Intent.data_kind hv) he hf fun press ha =>
      handleCallback_data hc hv ha (some token)
  · rw [if_neg hf, if_neg (by simpa using fun _ => hf)]
    exact of_intent hc hv

theorem of_return (ht : isNotificationToken token = true) :
    Carries router ("n:" ++ token ++ ":return")
      fun press => Router.returnCallback (press.callback "" (some token)) token := by
  have hr : Data 6 "return" := by decide
  have hf : ("n:" ++ token ++ ":" ++ "return").utf8ByteSize ≤ 64 := by
    rw [Data.utf8ByteSize (wrapped_data ht hr)]
    exact (wrapped_data ht hr).length_le.trans (by decide)
  rw [show ":return" = ":" ++ "return" from rfl, ← String.append_assoc]
  exact of_wrapped ht hr (by decide) hf fun press _ => rfl

end Carries

end AiQuant.Telegram
