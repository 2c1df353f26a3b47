import Mathlib.Data.List.Forall2
import AiQuant.Telegram.ButtonPress
import AiQuant.Telegram.Menus

/-! A press of any button does what the button is for (`notifications/telegram_bot.py`), on a
notification's message too. -/
namespace AiQuant.Telegram
open AiQuant.Lib
open AiQuant.CopyTrading (LeaderSlot ControlAction leaderSlots isCustomSlot)

def AllValid (intents : List (List Intent)) : Prop :=
  ∀ row ∈ intents, row ≠ [] ∧ ∀ intent ∈ row, intent.Valid

section Validity

variable {first rest : List (List Intent)} {row : List Intent}

theorem allValid_nil : AllValid [] := by
  intro row hm
  cases hm

theorem allValid_cons (hn : row ≠ []) (hrow : ∀ intent ∈ row, intent.Valid)
    (hr : AllValid rest) : AllValid (row :: rest) := by
  intro other hm
  rcases List.mem_cons.mp hm with rfl | hl
  · exact ⟨hn, hrow⟩
  · exact hr other hl

theorem valid_single {intent : Intent} (hi : intent.Valid) : ∀ other ∈ [intent], other.Valid := by
  intro other hm
  obtain rfl := List.mem_singleton.mp hm
  exact hi

theorem valid_pair {intent second : Intent} (hi : intent.Valid) (hs : second.Valid) :
    ∀ other ∈ [intent, second], other.Valid := by
  intro other hm
  rcases List.mem_pair.mp hm with rfl | rfl
  · exact hi
  · exact hs

theorem allValid_single {intent : Intent} (hi : intent.Valid) (hr : AllValid rest) :
    AllValid ([intent] :: rest) :=
  allValid_cons (List.cons_ne_nil _ _) (valid_single hi) hr

theorem allValid_pair {intent second : Intent} (hi : intent.Valid) (hs : second.Valid)
    (hr : AllValid rest) : AllValid ([intent, second] :: rest) :=
  allValid_cons (List.cons_ne_nil _ _) (valid_pair hi hs) hr

theorem view_valid {name : String} (hn : name ∈ viewNames) : (Intent.view name).Valid := hn

theorem limit_valid {limit : ℕ} (hl : limit ∈ [30, 60, 90, 120]) :
    (Intent.marginSet limit).Valid := hl

theorem positions_valid {leader : String} (hl : isLeaderId leader = true) :
    (Intent.positions leader none).Valid :=
  ⟨hl, fun _ hm => absurd hm (Option.not_mem_none _)⟩

theorem allValid_append (hf : AllValid first) (hr : AllValid rest) : AllValid (first ++ rest) := by
  intro row hm
  rcases List.mem_append.mp hm with he | hl
  · exact hf row he
  · exact hr row hl

theorem allValid_choices {α : Type} {choices : List α} {intent : α → Intent}
    (hc : ∀ choice ∈ choices, (intent choice).Valid) :
    AllValid (choices.map fun choice => [intent choice]) := by
  intro row hm
  obtain ⟨choice, hch, rfl⟩ := List.mem_map.mp hm
  refine ⟨List.cons_ne_nil _ _, fun other ho => ?_⟩
  obtain rfl := List.mem_singleton.mp ho
  exact hc choice hch

theorem allValid_row (hr : ∀ intent ∈ row, intent.Valid) :
    AllValid (if row = [] then [] else [row]) := by
  split
  · exact allValid_nil
  · next hn => exact allValid_cons hn hr allValid_nil

theorem contextual_valid (view : String) : AllValid (Menu.contextual view).intents := by
  have hta : ∀ entry ∈ contextualIntents, AllValid entry.2 := by
    simp [contextualIntents, AllValid, Intent.Valid, viewNames]
  show AllValid ((contextualIntents.lookup view).getD [[.view "status"]])
  cases hl : contextualIntents.lookup view with
  | none => simp [AllValid, Intent.Valid, viewNames]
  | some intents =>
    obtain ⟨pre, post, ht, -⟩ := List.lookup_eq_some_iff.mp hl
    exact hta (view, intents) (ht ▸ List.mem_append_right _ List.mem_cons_self)

theorem valid_of_mem_map {α : Type} {choices : List α} {intent : α → Intent}
    (hc : ∀ choice ∈ choices, (intent choice).Valid) :
    ∀ other ∈ choices.map intent, other.Valid := by
  intro other hm
  obtain ⟨choice, hch, rfl⟩ := List.mem_map.mp hm
  exact hc choice hch

theorem multiplierManagement_valid {choices : List LeaderMultiplierChoice}
    (hv : (Menu.multiplierManagement choices).Valid) :
    AllValid (Menu.multiplierManagement choices).intents := by
  have hl : ∀ intent ∈ (choices.take 10).map fun choice =>
      Intent.multiplierLeader choice.leadPortfolioId, intent.Valid :=
    valid_of_mem_map fun choice hm => hv choice (List.mem_of_mem_take hm)
  refine allValid_append (fun row hm => ?_) (by simp [AllValid, Intent.Valid])
  obtain ⟨hr, hn⟩ := List.mem_filter.mp hm
  refine ⟨by simpa using hn, fun intent hi => hl intent ?_⟩
  rcases List.mem_pair.mp hr with rfl | rfl
  · exact List.mem_of_mem_take hi
  · exact List.mem_of_mem_drop hi

theorem positionClose_valid {choices : List PositionCloseChoice} {leader : String} {page : ℕ}
    {ha : Bool} {rows : InlineKeyboard} (hv : (Menu.positionClose choices leader page ha).Valid)
    (hr : positionCloseKeyboard choices leader page ha = .ok rows) :
    AllValid (Menu.positionClose choices leader page ha).intents := by
  obtain ⟨hl, hpo, hla⟩ := positionClose_checked hr
  have hpa : ∀ target, 1 ≤ target → target ≤ 99 →
      (Intent.positions leader (some target)).Valid := by
    rintro target hf hle
    refine ⟨hl, fun number hmem => ?_⟩
    obtain rfl := Option.mem_some.mp hmem
    exact ⟨hf, hle⟩
  refine allValid_append (allValid_append (allValid_append (allValid_cons (by simp) ?_
    (allValid_choices fun choice hmem => hv.1 choice (List.mem_of_mem_take hmem))) ?_) ?_)
    (by simp [AllValid, Intent.Valid, viewNames])
  · intro intent hmem
    rcases List.mem_pair.mp hmem with rfl | rfl
    · exact hpa page hpo hla
    · simp [Intent.Valid, viewNames]
  · split
    · exact allValid_nil
    · exact allValid_cons (by simp) (by simpa [Intent.Valid] using hl) allValid_nil
  · refine allValid_row fun intent hmem => ?_
    rcases List.mem_append.mp hmem with hp | hn
    · split at hp
      · next hb =>
        obtain rfl := List.mem_singleton.mp hp
        exact hpa (page - 1) (by omega) (by omega)
      · cases hp
    · split at hn
      · next hm =>
        obtain rfl := List.mem_singleton.mp hn
        exact hpa (page + 1) (by omega) (hv.2 hm)
      · cases hn

theorem intents_valid {menu : Menu} {rows : InlineKeyboard} (hv : menu.Valid)
    (hro : menu.rows = .ok rows) : AllValid menu.intents := by
  cases menu with
  | contextual view => exact contextual_valid view
  | pnlOverview choices =>
    refine allValid_append (allValid_pair (view_valid (by decide)) (view_valid (by decide)) ?_)
      (allValid_single trivial (allValid_single (view_valid (by decide)) allValid_nil))
    exact allValid_choices fun choice hm => hv choice (List.mem_of_mem_take hm)
  | positionLeaders choices =>
    refine allValid_append (allValid_pair (view_valid (by decide)) (view_valid (by decide)) ?_)
      (allValid_single (view_valid (by decide)) allValid_nil)
    exact allValid_choices fun choice hm =>
      positions_valid (hv choice (List.mem_of_mem_take hm))
  | positionClose => exact positionClose_valid hv hro
  | leaderPnl leader =>
    exact allValid_pair (rows_of_checked hro).1 (view_valid (by decide))
      (allValid_single (view_valid (by decide)) allValid_nil)
  | leaderManagement =>
    have hs : ∀ intent ∈ leaderSlots.map Intent.leaderSlot, intent.Valid :=
      valid_of_mem_map fun _ _ => trivial
    exact allValid_cons (by decide) (fun intent hm => hs intent (List.mem_of_mem_take hm))
      (allValid_cons (by decide) (fun intent hm => hs intent (List.mem_of_mem_drop hm))
        (allValid_pair trivial trivial (allValid_single (view_valid (by decide)) allValid_nil)))
  | leaderSlotActions slot =>
    cases slot <;> exact allValid_pair trivial trivial (allValid_single trivial allValid_nil)
  | leaderCandidates slot choices =>
    exact allValid_append (allValid_choices fun choice hm => hv choice (List.mem_of_mem_take hm))
      (allValid_single trivial (allValid_single trivial allValid_nil))
  | multiplierManagement choices => exact multiplierManagement_valid hv
  | multiplierValue choice =>
    have hl := (rows_of_checked hro).1
    have hva : ∀ intent ∈ (List.range' 1 10).map
        (Intent.multiplierSet choice.leadPortfolioId), intent.Valid := by
      refine valid_of_mem_map fun value hm => ?_
      have hr := List.mem_range'_1.mp hm
      exact ⟨hl, hr.1, Nat.le_of_lt_succ hr.2⟩
    exact allValid_cons (by simp [List.range'])
      (fun intent hm => hva intent (List.mem_of_mem_take hm))
      (allValid_cons (by simp [List.range']) (fun intent hm => hva intent (List.mem_of_mem_drop hm))
        (allValid_single trivial allValid_nil))
  | leaderLock choices =>
    exact allValid_append (allValid_choices fun choice hm => hv choice (List.mem_of_mem_take hm))
      (allValid_single trivial (allValid_single trivial allValid_nil))
  | entryMarginLimit current =>
    exact allValid_pair (limit_valid (by decide)) (limit_valid (by decide))
      (allValid_pair (limit_valid (by decide)) (limit_valid (by decide))
        (allValid_single trivial (allValid_single trivial
          (allValid_single (view_valid (by decide)) allValid_nil))))
  | leaderConfirmation nonce =>
    exact allValid_pair hv (view_valid (by decide)) allValid_nil
  | multiplierConfirmation nonce => exact allValid_pair hv trivial allValid_nil
  | entryMarginConfirmation nonce => exact allValid_pair hv trivial allValid_nil
  | leaderLockConfirmation nonce => exact allValid_pair hv trivial allValid_nil
  | positionCloseConfirmation nonce leader =>
    have hl := (rows_of_checked hro).1
    exact allValid_pair ⟨hv, hl⟩ (positions_valid hl) allValid_nil
  | leaderPositionsCloseConfirmation nonce leader =>
    have hl := (rows_of_checked hro).1
    exact allValid_pair ⟨hv, hl⟩ (positions_valid hl) allValid_nil
  | actionConfirmation action nonce =>
    have hc : AllValid [[.confirm nonce, .cancel nonce]] :=
      allValid_pair hv hv allValid_nil
    cases action with
    | resetAccountSummary => exact allValid_pair hv (view_valid (by decide)) allValid_nil
    | pauseNewEntries => exact hc
    | resumeTestnet => exact hc
    | reduceAll => exact hc

end Validity

theorem forall₂_of_map_eq {α β γ : Type} {f : α → γ} {g : β → γ} {holds : α → Prop} {first : List α}
    {second : List β} (hm : first.map f = second.map g) (ha : ∀ entry ∈ first, holds entry) :
    List.Forall₂ (fun entry other => holds entry ∧ f entry = g other) first second := by
  have he : List.Forall₂ (· = ·) (first.map f) (second.map g) := by
    rw [List.forall₂_eq_eq_eq]
    exact hm
  exact (List.forall₂_and_left _ _).mpr
    ⟨ha, List.forall₂_map_left_iff.mp (List.forall₂_map_right_iff.mp he)⟩

theorem buttons_of_intents {carries : Intent → String → Prop} {intents : List (List Intent)}
    {rows : InlineKeyboard} (hd : dataOf intents = callbackDataOf rows)
    (ha : ∀ row ∈ intents, ∀ intent ∈ row, carries intent intent.data) :
    List.Forall₂ (List.Forall₂ fun intent button => carries intent button.callbackData) intents
      rows :=
  (forall₂_of_map_eq hd ha).imp fun _ _ hr =>
    (forall₂_of_map_eq hr.2 hr.1).imp fun _ _ hb => hb.2 ▸ hb.1

theorem rows_ne_nil {intents : List (List Intent)} {rows : InlineKeyboard}
    (hd : dataOf intents = callbackDataOf rows) (hv : AllValid intents) :
    ∀ row ∈ rows, row ≠ [] := by
  rintro row hm rfl
  have he : [] ∈ dataOf intents := by
    rw [hd]
    exact List.mem_map.mpr ⟨[], hm, rfl⟩
  obtain ⟨intentRow, hi, hn⟩ := List.mem_map.mp he
  exact (hv intentRow hi).1 (List.map_eq_nil_iff.mp hn)

def returnRows (token : String) (includeReturn : Bool) : InlineKeyboard :=
  if includeReturn then [[⟨"↩️ 返回查看原通知", "n:" ++ token ++ ":return"⟩]] else []

def withToken (token : String) (button : Button) : Button :=
  { button with callbackData := wrapCallback token button.callbackData }

theorem withToken_callbackData (token : String) (button : Button) :
    (withToken token button).callbackData = wrapCallback token button.callbackData := by
  rw [withToken]

theorem notificationContextMarkup_eq {rows : InlineKeyboard} {token : String}
    (hr : ∀ row ∈ rows, row ≠ []) (ht : isNotificationToken token = true) (includeReturn : Bool) :
    notificationContextMarkup rows token includeReturn =
      .ok (rows.map (List.map (withToken token)) ++ returnRows token includeReturn) := by
  have hk : (rows.map (List.map (withToken token))).filter (fun row => !row.isEmpty) =
      rows.map (List.map (withToken token)) := by
    refine List.filter_eq_self.mpr fun row hm => ?_
    obtain ⟨orig, ho, rfl⟩ := List.mem_map.mp hm
    simpa using hr orig ho
  rw [notificationContextMarkup, ht, if_neg (by decide)]
  show Except.ok ((rows.map (List.map (withToken token))).filter (fun row => !row.isEmpty) ++
    returnRows token includeReturn) = _
  rw [hk]

section RoundTrip

variable {router : Router} {menu : Menu} {rows : InlineKeyboard} {token : String}

theorem Menu.carries (hc : router.Complete) (hv : menu.Valid) (hr : menu.rows = .ok rows) :
    List.Forall₂ (List.Forall₂ fun intent button =>
      Carries router button.callbackData fun press => intent.run router press none)
      menu.intents rows := by
  refine @buttons_of_intents
    (fun intent data => Carries router data fun press => intent.run router press none)
    menu.intents rows (rows_data hr) fun row hrow intent hm => ?_
  exact Carries.of_intent hc ((intents_valid hv hr row hrow).2 intent hm)

theorem Menu.carries_withToken (hc : router.Complete) (hv : menu.Valid)
    (hr : menu.rows = .ok rows) (ht : isNotificationToken token = true) :
    List.Forall₂ (List.Forall₂ fun intent button =>
      Carries router button.callbackData fun press =>
        intent.run router press (Carries.keptToken token intent.data)) menu.intents
      (rows.map (List.map (withToken token))) := by
  have hb := @buttons_of_intents
    (fun intent data => Carries router (wrapCallback token data) fun press =>
      intent.run router press (Carries.keptToken token intent.data))
    menu.intents rows (rows_data hr) fun row hrow intent hm =>
      Carries.of_wrapCallback hc ((intents_valid hv hr row hrow).2 intent hm) ht
  rw [List.forall₂_map_right_iff]
  simp only [List.forall₂_map_right_iff, withToken_callbackData]
  exact hb

/-- A button that is built does what it is for, with what it was built from, and so does it on a
notification, where it keeps the token if there is room for it. -/
theorem Menu.round_trip (hcomplete : router.Complete) (hvalid : menu.Valid)
    (hrows : menu.rows = .ok rows) : List.Forall₂ (List.Forall₂ fun intent button =>
      Carries router button.callbackData fun press => intent.run router press none)
      menu.intents rows ∧
    ∀ token includeReturn, isNotificationToken token = true → ∃ shown,
      notificationContextMarkup rows token includeReturn =
        .ok (shown ++ returnRows token includeReturn) ∧
      List.Forall₂ (List.Forall₂ fun intent button =>
        Carries router button.callbackData fun press =>
          intent.run router press (Carries.keptToken token intent.data)) menu.intents shown ∧
      ∀ row ∈ returnRows token includeReturn, ∀ button ∈ row,
        Carries router button.callbackData fun press =>
          Router.returnCallback (press.callback "" (some token)) token := by
  refine ⟨Menu.carries hcomplete hvalid hrows, fun token includeReturn ht => ?_⟩
  have hn := rows_ne_nil (rows_data hrows) (intents_valid hvalid hrows)
  refine ⟨rows.map (List.map (withToken token)), notificationContextMarkup_eq hn ht includeReturn,
    Menu.carries_withToken hcomplete hvalid hrows ht, ?_⟩
  intro row hr button hm
  cases includeReturn with
  | false => cases hr
  | true =>
    obtain rfl := List.mem_singleton.mp hr
    obtain rfl := List.mem_singleton.mp hm
    exact Carries.of_return ht

theorem Menu.position_confirmation_carries :
    Carries ⟨[1], [2], true, true, true, true, id⟩ "pos_confirm:abcdefghijklmno_:1234567890"
      fun press => (Intent.positionConfirm "abcdefghijklmno_" "1234567890").run
        ⟨[1], [2], true, true, true, true, id⟩ press none := by
  have hv : (Menu.positionCloseConfirmation "abcdefghijklmno_" "1234567890").Valid :=
    show isNonce "abcdefghijklmno_" = true by decide
  have hr : (Menu.positionCloseConfirmation "abcdefghijklmno_" "1234567890").rows =
      .ok (confirmationKeyboard "✅ 确认清除此仓" "pos_confirm:abcdefghijklmno_:1234567890"
        "view:positions:1234567890") := by
    rfl
  have hc : Router.Complete ⟨[1], [2], true, true, true, true, id⟩ := ⟨rfl, rfl, rfl, rfl⟩
  have hb := (Menu.round_trip hc hv hr).1
  exact (List.forall₂_cons.mp (List.forall₂_cons.mp hb).1).1

end RoundTrip

end AiQuant.Telegram
