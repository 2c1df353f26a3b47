import AiQuant.UserStream.EventJournal
import Mathlib.Data.List.Sort

/-! The Telegram rows of `control.outbox` (`telegram_state.py`): workers claim the due ones, which
renders them inside the claiming transaction, and report each as delivered or failed.  A call
that crashes before its commit leaves no trace; the text of a message is any function of its
payload, which may raise. -/
namespace AiQuant.CopyTrading
open AiQuant.Lib
open AiQuant.UserStream (Json Fields get)

inductive OutboxStatus where
  | pending
  | claimed
  | published
  | dead
deriving DecidableEq

structure OutboxDelivery where
  status : OutboxStatus
  attempts : ℕ
  availableAt : ℤ
  publishedAt : Option ℤ

structure OutboxRow where
  messageId : String
  topic : String
  payload : Json
  createdAt : ℤ
  delivery : OutboxDelivery

/-- The table `control.outbox`, whose primary key is `message_id`. -/
structure Outbox where
  rows : List OutboxRow
  unique : (rows.map fun row => row.messageId).Nodup

namespace Outbox

def empty : Outbox := ⟨[], List.nodup_nil⟩

def lookup (outbox : Outbox) (messageId : String) : Option OutboxRow :=
  outbox.rows.find? fun row => row.messageId = messageId

/-- `UPDATE control.outbox SET … WHERE …` -/
def update (outbox : Outbox) (condition : OutboxRow → Bool)
    (set : OutboxDelivery → OutboxDelivery) : Outbox where
  rows := outbox.rows.map fun row =>
    if condition row then { row with delivery := set row.delivery } else row
  unique := by
    have hids : (fun row : OutboxRow => row.messageId) ∘ (fun row =>
        if condition row then { row with delivery := set row.delivery } else row) =
        fun row => row.messageId := by
      funext row
      simp only [Function.comp_apply]
      split <;> rfl
    rw [List.map_map, hids]
    exact outbox.unique

/-- `INSERT INTO control.outbox(message_id,…,topic,payload,…)` with the defaults of the table; a
row whose key is taken is not inserted. -/
def enqueue (outbox : Outbox) (now : ℤ) (messageId topic : String) (payload : Json) : Outbox :=
  if hnew : messageId ∈ outbox.rows.map fun row => row.messageId then
    outbox
  else
    { rows := outbox.rows ++
        [{ messageId, topic, payload, createdAt := now,
           delivery :=
             { status := .pending, attempts := 0, availableAt := now, publishedAt := none } }]
      unique := by
        rw [List.map_append, List.map_singleton, ← List.concat_eq_append, List.nodup_concat]
        exact ⟨hnew, outbox.unique⟩ }

theorem lookup_eq_some_iff {outbox : Outbox} {messageId : String} {row : OutboxRow} :
    outbox.lookup messageId = some row ↔ row ∈ outbox.rows ∧ row.messageId = messageId := by
  constructor
  · intro hf
    exact ⟨List.mem_of_find?_eq_some hf, by simpa using List.find?_some hf⟩
  · rintro ⟨hm, rfl⟩
    obtain ⟨found, hf⟩ := Option.isSome_iff_exists.mp
      (List.find?_isSome (p := fun other : OutboxRow => other.messageId = row.messageId) |>.mpr
        ⟨row, hm, by simp⟩)
    have hid : found.messageId = row.messageId := by simpa using List.find?_some hf
    rw [lookup, hf, List.inj_on_of_nodup_map outbox.unique (List.mem_of_find?_eq_some hf) hm hid]

theorem lookup_update (outbox : Outbox) (condition : OutboxRow → Bool)
    (set : OutboxDelivery → OutboxDelivery) (messageId : String) :
    (outbox.update condition set).lookup messageId = (outbox.lookup messageId).map fun row =>
      if condition row then { row with delivery := set row.delivery } else row := by
  rw [lookup, update, List.find?_map]
  congr 2
  funext row
  simp only [Function.comp_apply]
  split <;> rfl

theorem lookup_enqueue_of_some {outbox : Outbox} {now : ℤ} {messageId topic other : String}
    {data : Json} {row : OutboxRow} (hf : outbox.lookup other = some row) :
    (outbox.enqueue now messageId topic data).lookup other = some row := by
  rw [lookup_eq_some_iff] at hf ⊢
  unfold enqueue
  split
  · exact hf
  · exact ⟨List.mem_append_left _ hf.1, hf.2⟩

end Outbox

/-- What rendering or a check of the arguments raises. -/
inductive NotificationError where
  | valueError (text : String)
  | typeError (text : String)
  | telegramState (code : String)
  | other (text : String)

/-- `value == text` -/
def equalsText (value : Json) (text : String) : Bool :=
  match value with
  | .string found => found == text
  | _ => false

def hashable : Json → Bool
  | .array _ => false
  | .object _ => false
  | _ => true

/-- `value in {…}`, which hashes the value. -/
def inTexts (value : Json) (texts : List String) : Except NotificationError Bool :=
  if hashable value then
    .ok (texts.any (equalsText value))
  else
    .error (.typeError "unhashable type")

/-- `any(str(reason).startswith("COPY_NEW_ENTRIES_") for reason in reasons)` of a list. -/
def blocksNewEntries : Json → Bool
  | .array reasons => reasons.any fun reason =>
    match reason with
    | .string text => "COPY_NEW_ENTRIES_".toList.isPrefixOf text.toList
    | _ => false
  | _ => false

def contextualViews : List (String × String) :=
  [("copy_signal_decision", "positions"), ("copy_codex_audit", "codex"),
   ("copy_codex_repair", "repair"), ("copy_slot_selection", "leaders"),
   ("copy_slot_replacement", "leaders"), ("copy_leader_manual_change", "leaders"),
   ("copy_leader_follow_multiplier_change", "leaders"),
   ("copy_entry_margin_limit_change", "funds"), ("copy_leader_lock_change", "leaders"),
   ("copy_leader_symbol_stop_triggered", "positions"), ("copy_health", "health"),
   ("copy_runtime_control", "control"), ("copy_system", "status")]

/-- The view of a `copy_signal_decision`, whose state is looked up in sets. -/
def signalDecisionView (state reasons : Json) : Except NotificationError (Option String) := do
  if ← inTexts state ["SUBMITTED", "FILLED"] then
    return none
  else if ← inTexts state ["APPROVED", "UNCERTAIN"] then
    return some "pending"
  else if equalsText state "RISK_REJECTED" then
    return if blocksNewEntries reasons then some "control" else none
  else
    return some "positions"

def notificationContextualView (payload : Fields) : Except NotificationError (Option String) :=
  let event := get payload "event"
  if equalsText event "copy_pnl_reset" || equalsText event "copy_leader_availability_alert" ||
      equalsText event "copy_leader_availability_recovered" then
    .ok none
  else if equalsText event "copy_leader_symbol_stop_triggered" then
    .ok (some "positions")
  else if equalsText event "copy_signal_decision" then
    signalDecisionView (get payload "state") (get payload "reason_codes")
  else
    .ok (some (((contextualViews.find? fun entry => equalsText event entry.1).map
      Prod.snd).getD "status"))

def notificationRestoresNavigationKeyboard (payload : Fields) : Except NotificationError Bool :=
  inTexts (get payload "event")
    ["copy_leader_manual_change", "copy_slot_replacement", "copy_slot_selection"]

structure OutboundTelegramMessage where
  messageId : String
  text : String
  contextualView : Option String
  restoreNavigationKeyboard : Bool

section Calls

/-! `notificationText` is `_notification_text` under the label of the environment. -/
variable (notificationText : Fields → Except NotificationError String)

def outboundMessage (row : OutboxRow) : Except NotificationError OutboundTelegramMessage :=
  match row.payload with
  | .object payload => do
    let text ← notificationText payload
    let contextualView ← notificationContextualView payload
    let restoreNavigationKeyboard ← notificationRestoresNavigationKeyboard payload
    return { messageId := row.messageId, text, contextualView, restoreNavigationKeyboard }
  | _ => .error (.telegramState "TELEGRAM_OUTBOX_PAYLOAD_INVALID")

/-- The payload is an object from which the text, the view and the keyboard can be built. -/
def Renders (payload : Json) : Prop :=
  ∃ fields, payload = .object fields ∧ (∃ text, notificationText fields = .ok text) ∧
    hashable (get fields "event") ∧
    (equalsText (get fields "event") "copy_signal_decision" → hashable (get fields "state"))

variable {notificationText}

theorem inTexts_of_hashable {value : Json} {texts : List String} (hh : hashable value) :
    inTexts value texts = .ok (texts.any (equalsText value)) :=
  if_pos hh

theorem exists_inTexts_iff {value : Json} {texts : List String} :
    (∃ answer, inTexts value texts = .ok answer) ↔ hashable value := by
  unfold inTexts
  split_ifs with hh
  · exact iff_of_true ⟨_, rfl⟩ hh
  · exact iff_of_false (by rintro ⟨_, ⟨⟩⟩) hh

theorem exists_signalDecisionView_iff {st reasons : Json} :
    (∃ view, signalDecisionView st reasons = .ok view) ↔ hashable st := by
  unfold signalDecisionView
  constructor
  · rintro ⟨view, hv⟩
    obtain ⟨answer, ha, _⟩ := bind_eq_ok_iff.mp hv
    exact exists_inTexts_iff.mp ⟨answer, ha⟩
  · intro hh
    rw [inTexts_of_hashable hh, inTexts_of_hashable hh]
    simp only [bind, Except.bind]
    split_ifs <;> exact ⟨_, rfl⟩

theorem equalsText_unique {value : Json} {first second : String} (hf : equalsText value first)
    (hs : equalsText value second) : first = second := by
  cases value with
  | string text => exact (beq_iff_eq.mp hf).symm.trans (beq_iff_eq.mp hs)
  | _ => cases hf

theorem exists_contextualView_iff {data : Fields} :
    (∃ view, notificationContextualView data = .ok view) ↔
      (equalsText (get data "event") "copy_signal_decision" → hashable (get data "state")) := by
  unfold notificationContextualView
  dsimp only
  split_ifs with hq hs hd
  · refine iff_of_true ⟨_, rfl⟩ fun he => ?_
    simp only [Bool.or_eq_true] at hq
    rcases hq with (hq | hq) | hq
    all_goals exact absurd (equalsText_unique hq he) (by decide)
  · exact iff_of_true ⟨_, rfl⟩ fun he =>
      absurd (equalsText_unique hs he) (by decide)
  · rw [exists_signalDecisionView_iff]
    exact ⟨fun hh _ => hh, fun hh => hh hd⟩
  · exact iff_of_true ⟨_, rfl⟩ fun he => absurd he hd

theorem exists_outboundMessage_iff {row : OutboxRow} :
    (∃ msg, outboundMessage notificationText row = .ok msg) ↔
      Renders notificationText row.payload := by
  unfold outboundMessage Renders
  cases row.payload with
  | object data =>
    simp only [bind_eq_ok_iff, Json.object.injEq, exists_eq_left']
    constructor
    · rintro ⟨msg, text, ht, view, hv, restores, hr, _⟩
      exact ⟨⟨text, ht⟩, exists_inTexts_iff.mp ⟨restores, hr⟩,
        exists_contextualView_iff.mp ⟨view, hv⟩⟩
    · rintro ⟨⟨text, ht⟩, he, hs⟩
      obtain ⟨view, hv⟩ := exists_contextualView_iff.mpr hs
      obtain ⟨restores, hr⟩ := exists_inTexts_iff.mpr he
      exact ⟨_, text, ht, view, hv, restores, hr, rfl⟩
  | _ => simp

def telegramTopic : String := "copy.telegram"

/-- `interval '2 minutes'`, in microseconds. -/
def claimTimeout : ℤ := 120000000

/-- `interval '30 seconds'`, in microseconds. -/
def retryDelay : ℤ := 30000000

def maximumAttempts : ℕ := 5

structure ClaimCall where
  /-- `now()`, the start of the transaction. -/
  now : ℤ
  limit : ℕ
  /-- In which order the database finds rows of one `created_at`. -/
  rank : String → ℕ
  /-- Rows that another transaction in flight has changed: the first statement does not see
  their new version, and the second one skips their locks. -/
  held : String → Bool

/-- The first statement of `claim_notifications`: which claims have timed out. -/
def ClaimCall.timedOut (call : ClaimCall) (row : OutboxRow) : Bool :=
  !call.held row.messageId && row.topic == telegramTopic &&
    row.delivery.status == .claimed && row.delivery.availableAt < call.now - claimTimeout

def OutboxDelivery.releasedAt (delivery : OutboxDelivery) (now : ℤ) : OutboxDelivery :=
  { delivery with status := .pending, availableAt := now }

def ClaimCall.released (call : ClaimCall) (outbox : Outbox) : Outbox :=
  outbox.update call.timedOut fun delivery => delivery.releasedAt call.now

def ClaimCall.due (call : ClaimCall) (row : OutboxRow) : Bool :=
  !call.held row.messageId && row.topic == telegramTopic &&
    row.delivery.status == .pending && row.delivery.availableAt ≤ call.now

def ClaimCall.before (call : ClaimCall) (first second : OutboxRow) : Prop :=
  first.createdAt < second.createdAt ∨
    first.createdAt = second.createdAt ∧ call.rank first.messageId ≤ call.rank second.messageId

instance (call : ClaimCall) : DecidableRel call.before :=
  fun _ _ => inferInstanceAs (Decidable (_ ∨ _ ∧ _))

/-- `selected`: the oldest due rows, up to the limit. -/
def ClaimCall.selected (call : ClaimCall) (outbox : Outbox) : List OutboxRow :=
  (((call.released outbox).rows.filter call.due).insertionSort call.before).take call.limit

def OutboxDelivery.claimedAt (delivery : OutboxDelivery) (now : ℤ) : OutboxDelivery :=
  { delivery with status := .claimed, attempts := delivery.attempts + 1, availableAt := now }

def ClaimCall.takes (call : ClaimCall) (outbox : Outbox) (messageId : String) : Bool :=
  (call.selected outbox).any fun row => row.messageId = messageId

def ClaimCall.taken (call : ClaimCall) (outbox : Outbox) : Outbox :=
  (call.released outbox).update (fun row => call.takes outbox row.messageId) fun delivery =>
    delivery.claimedAt call.now

variable (notificationText)

def claimNotifications (call : ClaimCall) (outbox : Outbox) :
    Except NotificationError (List OutboundTelegramMessage) × Outbox :=
  if 1 ≤ call.limit ∧ call.limit ≤ 100 then
    match (call.selected outbox).mapM (outboundMessage notificationText) with
    | .error error => (.error error, outbox)
    | .ok messages => (.ok messages, call.taken outbox)
  else
    (.error (.valueError "Telegram notification claim limit is invalid"), outbox)

def OutboxDelivery.publishedNow (delivery : OutboxDelivery) (now : ℤ) : OutboxDelivery :=
  { delivery with status := .published, publishedAt := some now }

def OutboxDelivery.failedAt (delivery : OutboxDelivery) (now : ℤ) : OutboxDelivery :=
  { delivery with
    status := if maximumAttempts ≤ delivery.attempts then .dead else .pending
    availableAt := now + retryDelay }

def completeNotification (now : ℤ) (messageId : String) (delivered : Bool) (outbox : Outbox) :
    Except NotificationError Unit × Outbox :=
  if messageId.length ≠ 64 then
    (.error (.valueError "Telegram outbox message ID is invalid"), outbox)
  else
    (.ok (), outbox.update
      (fun row => row.messageId == messageId && row.delivery.status == .claimed)
      fun delivery => if delivered then delivery.publishedNow now else delivery.failedAt now)

inductive OutboxCall where
  | claim (call : ClaimCall)
  | complete (now : ℤ) (messageId : String) (delivered : Bool)
  /-- Another procedure inserts a row. -/
  | enqueue (now : ℤ) (messageId topic : String) (payload : Json)
  /-- A call that crashed before its commit. -/
  | crashed

def outboxStep (outbox : Outbox) : OutboxCall → Outbox
  | .claim call => (claimNotifications notificationText call outbox).2
  | .complete now messageId delivered =>
    (completeNotification now messageId delivered outbox).2
  | .enqueue now messageId topic payload => outbox.enqueue now messageId topic payload
  | .crashed => outbox

def returnedIds (outbox : Outbox) (call : ClaimCall) : List String :=
  match (claimNotifications notificationText call outbox).1 with
  | .ok messages => messages.map fun message => message.messageId
  | .error _ => []

def outboxRun (outbox : Outbox) (calls : List OutboxCall) : Outbox :=
  calls.foldl (outboxStep notificationText) outbox

def outboxAfter (calls : List OutboxCall) : Outbox :=
  outboxRun notificationText .empty calls

def returnsRow (outbox : Outbox) (messageId : String) : OutboxCall → Bool
  | .claim call => messageId ∈ returnedIds notificationText outbox call
  | _ => false

def claimCount (messageId : String) : Outbox → List OutboxCall → ℕ
  | _, [] => 0
  | outbox, call :: calls =>
    (returnsRow notificationText outbox messageId call).toNat +
      claimCount messageId (outboxStep notificationText outbox call) calls

inductive DeliveryMove (messageId : String) :
    OutboxCall → Bool → OutboxDelivery → OutboxDelivery → Prop
  | stays {call : OutboxCall} {delivery : OutboxDelivery} :
      DeliveryMove messageId call false delivery delivery
  | released {call : ClaimCall} {delivery : OutboxDelivery} (hstatus : delivery.status = .claimed)
      (hold : delivery.availableAt < call.now - claimTimeout) :
      DeliveryMove messageId (.claim call) false delivery (delivery.releasedAt call.now)
  | claimed {call : ClaimCall} {delivery : OutboxDelivery} (hstatus : delivery.status = .pending)
      (hdue : delivery.availableAt ≤ call.now) :
      DeliveryMove messageId (.claim call) true delivery (delivery.claimedAt call.now)
  | reclaimed {call : ClaimCall} {delivery : OutboxDelivery}
      (hstatus : delivery.status = .claimed)
      (hold : delivery.availableAt < call.now - claimTimeout) :
      DeliveryMove messageId (.claim call) true delivery (delivery.claimedAt call.now)
  | published {now : ℤ} {delivery : OutboxDelivery} (hstatus : delivery.status = .claimed) :
      DeliveryMove messageId (.complete now messageId true) false delivery
        (delivery.publishedNow now)
  | failed {now : ℤ} {delivery : OutboxDelivery} (hstatus : delivery.status = .claimed) :
      DeliveryMove messageId (.complete now messageId false) false delivery
        (delivery.failedAt now)

variable {notificationText} {outbox : Outbox} {call : ClaimCall} {row : OutboxRow}
  {messageId : String}

theorem outboundMessage_messageId {msg : OutboundTelegramMessage}
    (hm : outboundMessage notificationText row = .ok msg) : msg.messageId = row.messageId := by
  unfold outboundMessage at hm
  split at hm
  · simp only [bind_eq_ok_iff] at hm
    obtain ⟨text, _, view, _, restores, _, hm⟩ := hm
    cases hm
    rfl
  · cases hm

theorem mem_selected (hr : row ∈ call.selected outbox) :
    row ∈ (call.released outbox).rows ∧ row.delivery.status = .pending ∧
      row.delivery.availableAt ≤ call.now := by
  have hs := List.mem_of_mem_take hr
  rw [List.mem_insertionSort, List.mem_filter] at hs
  obtain ⟨hm, hd⟩ := hs
  simp only [ClaimCall.due, Bool.and_eq_true, beq_iff_eq, decide_eq_true_eq] at hd
  exact ⟨hm, hd.1.2, hd.2⟩

theorem takes_eq_true_iff : call.takes outbox messageId ↔
    ∃ row ∈ call.selected outbox, row.messageId = messageId := by
  simp only [ClaimCall.takes, List.any_eq_true, decide_eq_true_eq]

theorem claimNotifications_cases (notificationText : Fields → Except NotificationError String)
    (outbox : Outbox) (call : ClaimCall) :
    ((claimNotifications notificationText call outbox).2 = call.taken outbox ∧
      returnedIds notificationText outbox call =
        (call.selected outbox).map fun row => row.messageId) ∨
    ((claimNotifications notificationText call outbox).2 = outbox ∧
      returnedIds notificationText outbox call = []) := by
  unfold returnedIds claimNotifications
  split_ifs with hl
  · cases hr : (call.selected outbox).mapM (outboundMessage notificationText) with
    | error error => exact Or.inr ⟨rfl, rfl⟩
    | ok messages =>
      exact Or.inl ⟨rfl, map_eq_of_mapM (fun _ _ => outboundMessage_messageId) hr⟩
  · exact Or.inr ⟨rfl, rfl⟩

theorem lookup_released : (call.released outbox).lookup messageId =
    (outbox.lookup messageId).map fun row =>
      if call.timedOut row then { row with delivery := row.delivery.releasedAt call.now }
      else row :=
  Outbox.lookup_update outbox call.timedOut _ messageId

theorem lookup_taken : (call.taken outbox).lookup messageId =
    ((call.released outbox).lookup messageId).map fun row =>
      if call.takes outbox row.messageId then
        { row with delivery := row.delivery.claimedAt call.now }
      else row :=
  Outbox.lookup_update (call.released outbox) (fun row => call.takes outbox row.messageId) _
    messageId

theorem due_of_takes (ht : call.takes outbox messageId)
    (hr : (call.released outbox).lookup messageId = some row) :
    row.delivery.status = .pending ∧ row.delivery.availableAt ≤ call.now := by
  obtain ⟨found, hf, hid⟩ := takes_eq_true_iff.mp ht
  obtain ⟨hm, hd⟩ := mem_selected hf
  rw [Outbox.lookup_eq_some_iff.mpr ⟨hm, hid⟩] at hr
  exact Option.some.inj hr ▸ hd

theorem released_move (hr : outbox.lookup messageId = some row) :
    ∃ mid, (call.released outbox).lookup messageId = some mid ∧
      (mid = row ∨ row.delivery.status = .claimed ∧
        row.delivery.availableAt < call.now - claimTimeout ∧
        mid = { row with delivery := row.delivery.releasedAt call.now }) := by
  rw [lookup_released, hr, Option.map_some]
  refine ⟨_, rfl, ?_⟩
  split_ifs with ht
  · simp only [ClaimCall.timedOut, Bool.and_eq_true, beq_iff_eq, decide_eq_true_eq] at ht
    exact Or.inr ⟨ht.1.2, ht.2, rfl⟩
  · exact Or.inl rfl

theorem claim_move (hr : outbox.lookup messageId = some row) :
    ∃ post, (outboxStep notificationText outbox (.claim call)).lookup messageId =
        some { row with delivery := post } ∧
      DeliveryMove messageId (.claim call)
        (returnsRow notificationText outbox messageId (.claim call)) row.delivery post := by
  have hid : row.messageId = messageId := (Outbox.lookup_eq_some_iff.mp hr).2
  rw [outboxStep, returnsRow]
  rcases claimNotifications_cases notificationText outbox call with ⟨ha, hi⟩ | ⟨ha, hi⟩
  · rw [ha, hi]
    have hf : (decide (messageId ∈ (call.selected outbox).map fun row => row.messageId)) =
        call.takes outbox messageId := by
      rw [Bool.eq_iff_iff, decide_eq_true_iff, List.mem_map, takes_eq_true_iff]
    obtain ⟨mid, hm, hmo⟩ := @released_move _ call _ _ hr
    rw [hf, lookup_taken, hm, Option.map_some]
    have hmi : mid.messageId = messageId := (Outbox.lookup_eq_some_iff.mp hm).2
    cases ht : call.takes outbox messageId with
    | true =>
      obtain ⟨hp, hd⟩ := due_of_takes ht hm
      rw [if_pos (hmi.symm ▸ ht)]
      rcases hmo with rfl | ⟨hs, ho, rfl⟩
      · exact ⟨_, rfl, .claimed hp hd⟩
      · exact ⟨_, rfl, .reclaimed hs ho⟩
    | false =>
      rw [if_neg (by rw [hmi, ht]; exact Bool.false_ne_true)]
      rcases hmo with rfl | ⟨hs, ho, rfl⟩
      · exact ⟨_, rfl, .stays⟩
      · exact ⟨_, rfl, .released hs ho⟩
  · rw [ha, hi]
    exact ⟨row.delivery, hr, .stays⟩

theorem complete_move {now : ℤ} {target : String} {delivered : Bool}
    (hr : outbox.lookup messageId = some row) :
    ∃ post, (completeNotification now target delivered outbox).2.lookup messageId =
        some { row with delivery := post } ∧
      DeliveryMove messageId (.complete now target delivered) false row.delivery post := by
  have hid : row.messageId = messageId := (Outbox.lookup_eq_some_iff.mp hr).2
  unfold completeNotification
  split
  · exact ⟨row.delivery, hr, .stays⟩
  · rw [Outbox.lookup_update, hr, Option.map_some]
    split
    · next hm =>
      simp only [Bool.and_eq_true, beq_iff_eq, hid] at hm
      obtain ⟨rfl, hs⟩ := hm
      cases delivered with
      | true => exact ⟨_, rfl, .published hs⟩
      | false => exact ⟨_, rfl, .failed hs⟩
    · exact ⟨row.delivery, rfl, .stays⟩

variable (notificationText)

theorem outboxStep_move (hr : outbox.lookup messageId = some row) (step : OutboxCall) :
    ∃ post, (outboxStep notificationText outbox step).lookup messageId =
        some { row with delivery := post } ∧
      DeliveryMove messageId step (returnsRow notificationText outbox messageId step)
        row.delivery post := by
  cases step with
  | claim call => exact claim_move hr
  | complete now target delivered => exact complete_move hr
  | enqueue now target topic data =>
    exact ⟨row.delivery, Outbox.lookup_enqueue_of_some hr, .stays⟩
  | crashed => exact ⟨row.delivery, hr, .stays⟩

variable {notificationText}

theorem exists_lookup_of_returnsRow {step : OutboxCall}
    (hr : returnsRow notificationText outbox messageId step) :
    ∃ row, outbox.lookup messageId = some row := by
  cases step with
  | claim call =>
    simp only [returnsRow, decide_eq_true_eq] at hr
    rcases claimNotifications_cases notificationText outbox call with ⟨_, hi⟩ | ⟨_, hi⟩
    · rw [hi, List.mem_map] at hr
      obtain ⟨found, hf, hid⟩ := hr
      have hre := Outbox.lookup_eq_some_iff.mpr ⟨(mem_selected hf).1, hid⟩
      rw [lookup_released, Option.map_eq_some_iff] at hre
      obtain ⟨row, hrow, _⟩ := hre
      exact ⟨row, hrow⟩
    · rw [hi] at hr
      cases hr
  | _ => cases hr

theorem outboxStep_fresh (step : OutboxCall) (ha : outbox.lookup messageId = none)
    (hr : (outboxStep notificationText outbox step).lookup messageId = some row) :
    row.delivery.status = .pending ∧ row.delivery.attempts = 0 := by
  cases step with
  | claim call =>
    rw [outboxStep] at hr
    rcases claimNotifications_cases notificationText outbox call with ⟨haf, _⟩ | ⟨haf, _⟩
    · rw [haf, lookup_taken, lookup_released, ha] at hr
      cases hr
    · rw [haf, ha] at hr
      cases hr
  | complete now target delivered =>
    rw [outboxStep, completeNotification] at hr
    split at hr
    · rw [ha] at hr
      cases hr
    · rw [Outbox.lookup_update, ha] at hr
      cases hr
  | enqueue now target topic data =>
    rw [outboxStep, Outbox.enqueue] at hr
    split at hr
    · rw [ha] at hr
      cases hr
    · rw [Outbox.lookup_eq_some_iff, List.mem_append, List.mem_singleton] at hr
      obtain ⟨hm | rfl, hid⟩ := hr
      · rw [Outbox.lookup_eq_some_iff.mpr ⟨hm, hid⟩] at ha
        cases ha
      · exact ⟨rfl, rfl⟩
  | crashed =>
    rw [outboxStep, ha] at hr
    cases hr

def OutboxDelivery.settled (delivery : OutboxDelivery) : Prop :=
  delivery.status = .published ∨ delivery.status = .dead

theorem DeliveryMove.settled {step : OutboxCall} {returned : Bool} {pre post : OutboxDelivery}
    (hm : DeliveryMove messageId step returned pre post) (hse : pre.settled) : post = pre := by
  rcases hse with hs | hs
  all_goals
    cases hm with
    | stays => rfl
    | claimed hpending _ => exact absurd (hs.symm.trans hpending) (by decide)
    | released hclaimed _ | reclaimed hclaimed _ | published hclaimed | failed hclaimed =>
      exact absurd (hs.symm.trans hclaimed) (by decide)

theorem outboxRun_settled (calls : List OutboxCall) (hr : outbox.lookup messageId = some row)
    (hs : row.delivery.settled) :
    (outboxRun notificationText outbox calls).lookup messageId = some row := by
  induction calls generalizing outbox with
  | nil => exact hr
  | cons step calls ih =>
    obtain ⟨post, ha, hm⟩ := outboxStep_move notificationText hr step
    rw [hm.settled hs] at ha
    exact ih ha

theorem DeliveryMove.attempts {step : OutboxCall} {returned : Bool}
    {pre post : OutboxDelivery} (hm : DeliveryMove messageId step returned pre post) :
    post.attempts = pre.attempts + returned.toNat := by
  cases hm <;> rfl

def Outbox.attemptsOf (outbox : Outbox) (messageId : String) : ℕ :=
  ((outbox.lookup messageId).map fun row => row.delivery.attempts).getD 0

theorem attemptsOf_outboxStep (step : OutboxCall) :
    (outboxStep notificationText outbox step).attemptsOf messageId = outbox.attemptsOf messageId +
        (returnsRow notificationText outbox messageId step).toNat := by
  unfold Outbox.attemptsOf
  cases hrow : outbox.lookup messageId with
  | some row =>
    obtain ⟨post, ha, hm⟩ := outboxStep_move notificationText hrow step
    rw [ha]
    exact hm.attempts
  | none =>
    have hr : returnsRow notificationText outbox messageId step = false := by
      rw [Bool.eq_false_iff]
      intro hr
      obtain ⟨row, hf⟩ := exists_lookup_of_returnsRow hr
      cases hrow.symm.trans hf
    rw [hr]
    cases hn : (outboxStep notificationText outbox step).lookup messageId with
    | none => rfl
    | some row => exact (outboxStep_fresh step hrow hn).2

theorem attemptsOf_outboxRun (calls : List OutboxCall) :
    (outboxRun notificationText outbox calls).attemptsOf messageId =
      outbox.attemptsOf messageId + claimCount notificationText messageId outbox calls := by
  induction calls generalizing outbox with
  | nil => rfl
  | cons step calls ih =>
    rw [outboxRun, List.foldl_cons, ← outboxRun, ih, attemptsOf_outboxStep, claimCount,
      Nat.add_assoc]

def DeadAfterAttempts (outbox : Outbox) : Prop :=
  ∀ messageId row, outbox.lookup messageId = some row → row.delivery.status = .dead →
    maximumAttempts ≤ row.delivery.attempts

theorem DeliveryMove.dead {step : OutboxCall} {returned : Bool}
    {pre post : OutboxDelivery} (hm : DeliveryMove messageId step returned pre post)
    (hb : pre.status = .dead → maximumAttempts ≤ pre.attempts)
    (hd : post.status = .dead) : maximumAttempts ≤ post.attempts := by
  cases hm with
  | stays => exact hb hd
  | failed _ =>
    unfold OutboxDelivery.failedAt at hd ⊢
    by_contra hless
    rw [if_neg hless] at hd
    cases hd
  | _ => cases hd

theorem DeadAfterAttempts.step (hd : DeadAfterAttempts outbox) (step : OutboxCall) :
    DeadAfterAttempts (outboxStep notificationText outbox step) := by
  intro messageId row hr hs
  cases hb : outbox.lookup messageId with
  | some pre =>
    obtain ⟨post, ha, hm⟩ := outboxStep_move notificationText hb step
    cases ha.symm.trans hr
    exact hm.dead (hd messageId pre hb) hs
  | none =>
    rw [(outboxStep_fresh step hb hr).1] at hs
    cases hs

theorem DeadAfterAttempts.run (hd : DeadAfterAttempts outbox) (calls : List OutboxCall) :
    DeadAfterAttempts (outboxRun notificationText outbox calls) := by
  induction calls generalizing outbox with
  | nil => exact hd
  | cons step calls ih => exact ih (hd.step step)

theorem deadAfterAttempts_empty : DeadAfterAttempts .empty := by
  intro messageId row hr
  cases hr

theorem claimCount_of_dead {calls : List OutboxCall}
    (hr : (outboxAfter notificationText calls).lookup messageId = some row)
    (hd : row.delivery.status = .dead) :
    maximumAttempts ≤ claimCount notificationText messageId .empty calls := by
  have ha := deadAfterAttempts_empty.run calls messageId row hr hd
  have hc : (outboxAfter notificationText calls).attemptsOf messageId =
      0 + claimCount notificationText messageId .empty calls := attemptsOf_outboxRun calls
  rw [Outbox.attemptsOf, hr, Option.map_some, Option.getD_some, Nat.zero_add] at hc
  exact ha.trans_eq hc

/-! ### The time between two claims of a row -/

def RestsSince (instant : ℤ) (delivery : OutboxDelivery) : Prop :=
  (delivery.status = .claimed → instant ≤ delivery.availableAt) ∧
    (delivery.status = .pending → instant + claimTimeout < delivery.availableAt)

/-- `complete_notification(message_id, delivered=False)` -/
def OutboxCall.reportsFailure (messageId : String) : OutboxCall → Bool
  | .complete _ target delivered => target == messageId && !delivered
  | _ => false

theorem claimTimeout_pos : 0 < claimTimeout := by decide

theorem DeliveryMove.rests {step : OutboxCall} {returned : Bool} {pre post : OutboxDelivery}
    {instant : ℤ} (hm : DeliveryMove messageId step returned pre post)
    (hf : step.reportsFailure messageId = false) (hr : RestsSince instant pre) :
    RestsSince instant post := by
  have hpo := claimTimeout_pos
  obtain ⟨hc, hp⟩ := hr
  cases hm with
  | stays => exact ⟨hc, hp⟩
  | released hstatus hold =>
    have hs := hc hstatus
    exact ⟨by rintro ⟨⟩, fun _ => by simp only [OutboxDelivery.releasedAt]; omega⟩
  | claimed hstatus hdue =>
    have hs := hp hstatus
    exact ⟨fun _ => by simp only [OutboxDelivery.claimedAt]; omega, by rintro ⟨⟩⟩
  | reclaimed hstatus hold =>
    have hs := hc hstatus
    exact ⟨fun _ => by simp only [OutboxDelivery.claimedAt]; omega, by rintro ⟨⟩⟩
  | published _ => exact ⟨by rintro ⟨⟩, by rintro ⟨⟩⟩
  | failed _ => simp [OutboxCall.reportsFailure] at hf

theorem DeliveryMove.rests_of_claim {pre post : OutboxDelivery}
    (hm : DeliveryMove messageId (.claim call) true pre post) : RestsSince call.now post := by
  cases hm with
  | claimed _ _ => exact ⟨fun _ => le_rfl, by rintro ⟨⟩⟩
  | reclaimed _ _ => exact ⟨fun _ => le_rfl, by rintro ⟨⟩⟩

theorem DeliveryMove.spaced {pre post : OutboxDelivery} {instant : ℤ}
    (hm : DeliveryMove messageId (.claim call) true pre post)
    (hr : RestsSince instant pre) : instant + claimTimeout < call.now := by
  cases hm with
  | claimed hstatus hdue => exact (hr.2 hstatus).trans_le hdue
  | reclaimed hstatus hold =>
    have hs := hr.1 hstatus
    omega

theorem outboxRun_rests {instant : ℤ} (calls : List OutboxCall)
    (hrow : outbox.lookup messageId = some row) (hr : RestsSince instant row.delivery)
    (hf : ∀ step ∈ calls, step.reportsFailure messageId = false) :
    ∃ later, (outboxRun notificationText outbox calls).lookup messageId = some later ∧
      RestsSince instant later.delivery := by
  induction calls generalizing outbox row with
  | nil => exact ⟨row, hrow, hr⟩
  | cons step calls ih =>
    rw [List.forall_mem_cons] at hf
    obtain ⟨post, ha, hm⟩ := outboxStep_move notificationText hrow step
    exact ih ha (hm.rests hf.1 hr) hf.2

theorem outboxAfter_append (past later : List OutboxCall) :
    outboxAfter notificationText (past ++ later) =
      outboxRun notificationText (outboxAfter notificationText past) later :=
  List.foldl_append

theorem claims_spaced {past between : List OutboxCall} {first second : ClaimCall}
    (hfi : messageId ∈ returnedIds notificationText (outboxAfter notificationText past) first)
    (hse : messageId ∈ returnedIds notificationText
      (outboxAfter notificationText (past ++ .claim first :: between)) second)
    (hfa : ∀ step ∈ between, step.reportsFailure messageId = false) :
    first.now + claimTimeout < second.now := by
  have hf : returnsRow notificationText (outboxAfter notificationText past) messageId
      (.claim first) = true := decide_eq_true hfi
  have hs : returnsRow notificationText
      (outboxAfter notificationText (past ++ .claim first :: between)) messageId
      (.claim second) = true := decide_eq_true hse
  obtain ⟨row, hrow⟩ := exists_lookup_of_returnsRow hf
  obtain ⟨post, haf, hm⟩ := outboxStep_move notificationText hrow (.claim first)
  rw [hf] at hm
  obtain ⟨later, hl, hr⟩ := outboxRun_rests between haf hm.rests_of_claim hfa
  have hrun : outboxAfter notificationText (past ++ .claim first :: between) =
      outboxRun notificationText (outboxStep notificationText
        (outboxAfter notificationText past) (.claim first)) between := outboxAfter_append past _
  rw [← hrun] at hl
  obtain ⟨_, _, ha⟩ := outboxStep_move notificationText hl (.claim second)
  rw [hs] at ha
  exact ha.spaced hr

/-! ### One payload and the rest of the batch -/

variable (notificationText)

/-- The call returns every due row it selects that can be rendered, whatever the payloads of the
others. -/
def ServesDueRows (outbox : Outbox) (call : ClaimCall) : Prop :=
  ∀ row ∈ call.selected outbox, Renders notificationText row.payload →
    row.messageId ∈ returnedIds notificationText outbox call

variable {notificationText}

theorem returnedIds_of_renders (hl : 1 ≤ call.limit ∧ call.limit ≤ 100)
    (hr : ∀ row ∈ call.selected outbox, Renders notificationText row.payload) :
    returnedIds notificationText outbox call =
      (call.selected outbox).map fun row => row.messageId := by
  obtain ⟨messages, hm⟩ := exists_mapM_eq_ok_iff.mpr fun row hrow =>
    exists_outboundMessage_iff.mpr (hr row hrow)
  rw [returnedIds, claimNotifications, if_pos hl, hm]
  exact map_eq_of_mapM (fun _ _ => outboundMessage_messageId) hm

theorem returnedIds_of_not_renders (hmem : row ∈ call.selected outbox)
    (hp : ¬ Renders notificationText row.payload) :
    returnedIds notificationText outbox call = [] := by
  unfold returnedIds claimNotifications
  split_ifs
  · cases hr : (call.selected outbox).mapM (outboundMessage notificationText) with
    | error error => rfl
    | ok messages =>
      obtain ⟨msg, hm⟩ := exists_mapM_eq_ok_iff.mp ⟨messages, hr⟩ row hmem
      exact absurd (exists_outboundMessage_iff.mp ⟨msg, hm⟩) hp
  · rfl

theorem servesDueRows_iff (hl : 1 ≤ call.limit ∧ call.limit ≤ 100) :
    ServesDueRows notificationText outbox call ↔
      (∀ row ∈ call.selected outbox, Renders notificationText row.payload) ∨
      ∀ row ∈ call.selected outbox, ¬ Renders notificationText row.payload := by
  constructor
  · intro hs
    by_contra hmixed
    push Not at hmixed
    obtain ⟨⟨poison, hp, hf⟩, row, hrow, hr⟩ := hmixed
    have hre := hs row hrow hr
    rw [returnedIds_of_not_renders hp hf] at hre
    cases hre
  · rintro (ha | hn) row hrow hr
    · rw [returnedIds_of_renders hl ha]
      exact List.mem_map_of_mem hrow
    · exact absurd hr (hn row hrow)

/-- Over every history of calls: settled rows stay as they are, a dead row was claimed at least
five times, two claims of a row with no failure in between are more than the time-out apart, and
a claim call serves its due rows exactly when all of them render or none does. -/
theorem outbox_history (notificationText : Fields → Except NotificationError String) :
    (∀ past later messageId row,
      (outboxAfter notificationText past).lookup messageId = some row → row.delivery.settled →
      (outboxAfter notificationText (past ++ later)).lookup messageId = some row) ∧
    (∀ calls messageId row, (outboxAfter notificationText calls).lookup messageId = some row →
      row.delivery.status = .dead → 5 ≤ claimCount notificationText messageId .empty calls) ∧
    (∀ past first between second messageId,
      messageId ∈ returnedIds notificationText (outboxAfter notificationText past) first →
      messageId ∈ returnedIds notificationText
        (outboxAfter notificationText (past ++ .claim first :: between)) second →
      (∀ step ∈ between, step.reportsFailure messageId = false) →
      first.now + claimTimeout < second.now) ∧
    ∀ past call, 1 ≤ call.limit ∧ call.limit ≤ 100 →
      (ServesDueRows notificationText (outboxAfter notificationText past) call ↔
        (∀ row ∈ call.selected (outboxAfter notificationText past),
          Renders notificationText row.payload) ∨
        ∀ row ∈ call.selected (outboxAfter notificationText past),
          ¬ Renders notificationText row.payload) := by
  refine ⟨?_, ?_, ?_, ?_⟩
  · intro past later messageId row hr hs
    rw [outboxAfter_append]
    exact outboxRun_settled later hr hs
  · intro calls messageId row hr hd
    exact claimCount_of_dead hr hd
  · intro past first between second messageId hfi hse hf
    exact claims_spaced hfi hse hf
  · intro past call hl
    exact servesDueRows_iff hl

end Calls

def sampleNotificationText (_payload : Fields) : Except NotificationError String :=
  .ok "🚀 跟单系统: 测试盘运行中"

def samplePayload : Json :=
  .object [("event", .string "copy_system"), ("state", .string "TESTNET RUNNING")]

def sampleClaimAt (seconds : ℤ) : ClaimCall where
  now := seconds * 1000000
  limit := 20
  rank := fun _ => 0
  held := fun _ => false

/-- A row with the given payload, and a younger one that renders. -/
def poisonedHistory (poison : Json) : List OutboxCall :=
  [.enqueue 0 "first" telegramTopic poison, .enqueue 1 "second" telegramTopic samplePayload]

theorem selected_poisonedHistory (poison : Json) :
    ((sampleClaimAt 1).selected (outboxAfter sampleNotificationText (poisonedHistory poison))).map
      (fun row => (row.messageId, row.payload)) = [("first", poison), ("second", samplePayload)] :=
  rfl

theorem samplePayload_renders : Renders sampleNotificationText samplePayload :=
  ⟨_, rfl, ⟨_, rfl⟩, rfl, fun _ => rfl⟩

theorem not_servesDueRows_of_poison {poison : Json} (hp : ¬ Renders sampleNotificationText poison) :
    ¬ ServesDueRows sampleNotificationText
      (outboxAfter sampleNotificationText (poisonedHistory poison)) (sampleClaimAt 1) := by
  rw [servesDueRows_iff (by decide)]
  have hs := selected_poisonedHistory poison
  rw [List.map_eq_cons_iff] at hs
  obtain ⟨first, rest, hs, hf, hre⟩ := hs
  obtain ⟨second, last, rfl, hse, _⟩ := List.map_eq_cons_iff.mp hre
  rw [hs]
  rintro (ha | hn)
  · have hr := ha first List.mem_cons_self
    rw [(Prod.mk.inj hf).2] at hr
    exact hp hr
  · refine hn second (List.mem_cons_of_mem _ List.mem_cons_self) ?_
    rw [(Prod.mk.inj hse).2]
    exact samplePayload_renders

/-- A payload that is no object, and one whose event cannot be hashed, keep a younger row from
being returned. -/
theorem poison_blocks_younger_row : ¬ ServesDueRows sampleNotificationText
        (outboxAfter sampleNotificationText (poisonedHistory (.array []))) (sampleClaimAt 1) ∧
      ¬ ServesDueRows sampleNotificationText
        (outboxAfter sampleNotificationText (poisonedHistory (.object [("event", .array [])])))
        (sampleClaimAt 1) := by
  constructor
  · refine not_servesDueRows_of_poison ?_
    rintro ⟨_, ⟨⟩, _⟩
  · refine not_servesDueRows_of_poison ?_
    rintro ⟨_, ⟨⟩, _, hh, _⟩
    cases hh

def sampleMessageId : String :=
  String.ofList (List.replicate 64 'a')

def failingHistory (failures : ℕ) : List OutboxCall :=
  .enqueue 0 sampleMessageId telegramTopic samplePayload ::
    (List.range failures).flatMap fun attempt =>
      [.claim (sampleClaimAt (600 * attempt + 1)),
       .complete ((600 * attempt + 2) * 1000000) sampleMessageId false]

theorem outbox_history_sample :
    (∃ row, (outboxAfter sampleNotificationText (failingHistory 5)).lookup sampleMessageId =
        some row ∧
      (outboxAfter sampleNotificationText (failingHistory 5 ++ failingHistory 7)).lookup
        sampleMessageId = some row ∧
      5 ≤ claimCount sampleNotificationText sampleMessageId .empty (failingHistory 5)) ∧
    (sampleClaimAt 1).now + claimTimeout < (sampleClaimAt 122).now ∧
    ServesDueRows sampleNotificationText
      (outboxAfter sampleNotificationText (poisonedHistory samplePayload)) (sampleClaimAt 1) := by
  obtain ⟨hs, hd, hsp, hse⟩ := outbox_history sampleNotificationText
  refine ⟨?_, ?_, ?_⟩
  · have hst : ((outboxAfter sampleNotificationText (failingHistory 5)).lookup
        sampleMessageId).map (fun row => row.delivery.status) = some .dead := by decide
    obtain ⟨row, hrow, hr⟩ := Option.map_eq_some_iff.mp hst
    exact ⟨row, hrow, hs _ (failingHistory 7) _ row hrow (Or.inr hr), hd _ _ row hrow hr⟩
  · exact hsp (poisonedHistory samplePayload) (sampleClaimAt 1) [] (sampleClaimAt 122) "first"
      (by decide) (by decide) (by simp)
  · refine (hse (poisonedHistory samplePayload) (sampleClaimAt 1) (by decide)).mpr (Or.inl ?_)
    intro row hrow
    have hm := List.mem_map_of_mem (f := fun row => (row.messageId, row.payload)) hrow
    rw [selected_poisonedHistory, List.mem_cons, List.mem_singleton, Prod.mk.injEq,
      Prod.mk.injEq] at hm
    rcases hm with ⟨_, hp⟩ | ⟨_, hp⟩
    · exact hp ▸ samplePayload_renders
    · exact hp ▸ samplePayload_renders

end AiQuant.CopyTrading
