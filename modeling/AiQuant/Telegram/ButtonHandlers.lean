import Mathlib.Tactic.FinCases
import Mathlib.Tactic.IntervalCases
import AiQuant.Telegram.Intents

/-! The handlers of `TelegramMenuRouter.handle` (`notifications/telegram_bot.py`) on the data of
their own buttons: the arguments come back, and every test of them passes. -/
namespace AiQuant.Telegram
open AiQuant.Lib
open AiQuant.CopyTrading (LeaderSlot ControlAction leaderSlots)

namespace Intent

section Decode

variable {bound other : ℕ} {start first second text : String}

theorem slot_of_callback (slot : LeaderSlot) :
    leaderSlotFromCallback (leaderSlotCallback slot) = .ok slot := by
  cases slot <;> rfl

theorem afterColon_after (stem : String) (hs : start = stem ++ ":") (hw : Word bound text) :
    afterColon (start ++ text) = text := by
  have hc : (start ++ text).toList.reverse = text.toList.reverse ++ ':' :: stem.toList.reverse := by
    rw [hs, String.toList_append, String.toList_append, List.reverse_append, List.reverse_append]
    rfl
  have hn : ∀ character ∈ text.toList.reverse, decide (character ≠ ':') = true := by
    intro character hm
    refine decide_eq_true fun heq => ?_
    subst heq
    exact absurd (hw.all_kind ':' (List.mem_reverse.mp hm)) (by decide)
  rw [afterColon, hc, List.takeWhile_append_of_pos hn, List.takeWhile_cons_of_neg (by simp),
    List.append_nil, List.reverse_reverse, String.ofList_toList]

theorem splitColon_pair (stem : String) (hst : start = stem ++ ":") (hf : Word bound first)
    (hs : Word other second) :
    splitColon (start ++ (first ++ ":" ++ second)) = splitColon stem ++ [first, second] := by
  rw [splitColon_after stem hst, splitColon_append, hf.splitColon, hs.splitColon]
  rfl

theorem page_of_text : ∀ page < 100, 1 ≤ page → pageOf? (toString page) = some page := by
  decide

theorem multiplier_of_text : ∀ multiplier : ℕ, multiplier < 11 →
    intOfText (toString multiplier) = .ok (multiplier : ℤ) := by
  intro multiplier hlt
  interval_cases multiplier <;> rfl

theorem limit_of_text : ∀ limit ∈ [30, 60, 90, 120],
    normalizeEntryMarginLimit (toString limit) = .ok (limit * 100) := by
  intro limit hm
  fin_cases hm <;> rfl

end Decode

theorem viewPage_positions {leader : String} {page : Option ℕ}
    (hl : isLeaderId leader = true) (hpa : ∀ number ∈ page, 1 ≤ number ∧ number ≤ 99) :
    viewPage ("positions:" ++ leader ++ pageText page) =
      ("positions", some leader, page.getD 1) := by
  have hw := word_of_isLeaderId hl
  cases page with
  | none =>
    have hp : splitColon ("positions:" ++ leader ++ pageText none) = ["positions", leader] := by
      rw [pageText, String.append_empty, splitColon_after "positions" (by decide), hw.splitColon]
      rfl
    rw [viewPage, hp]
    simp only [hl, if_true, Option.getD_none]
  | some number =>
    have hn := hpa number rfl
    have hp : splitColon ("positions:" ++ leader ++ pageText (some number)) =
        ["positions", leader, toString number] := by
      rw [pageText, String.append_assoc, ← @String.append_assoc leader,
        splitColon_pair "positions" (by decide) hw (word_number number (by omega))]
      rfl
    rw [viewPage, hp]
    simp only [hl, page_of_text number (by omega) hn.1, Option.getD_some]

end Intent

namespace Router

open Intent

variable {router : Router} {press : Press} {token : Option String} {leader nonce : String}
  {slot : LeaderSlot}

theorem unless_absent {present : Bool} {wrong right : Bot Unit} (hp : present = true) :
    (if !present then wrong else right) = right := by
  subst hp
  rfl

theorem viewCallback_view (name : String) :
    router.viewCallback (press.callback (view name).data token) =
      (view name).run router press token := by
  show (view (afterStart ("view:" ++ name) "view:")).run router press token = _
  rw [afterStart_append]

theorem viewMarkup_positions {page : Option ℕ} (hc : router.Complete)
    (hv : (positions leader page).Valid) :
    router.viewMarkup ("positions:" ++ leader ++ pageText page) =
      positionsMarkup leader (page.getD 1) := by
  rw [viewMarkup, viewPage_positions hv.1 hv.2]
  dsimp only
  rw [if_neg (by decide), if_pos ⟨rfl, hc.positionAdmin⟩]
  rfl

theorem viewCallback_positions {page : Option ℕ} (hc : router.Complete)
    (hv : (positions leader page).Valid) :
    router.viewCallback (press.callback (positions leader page).data token) =
      (positions leader page).run router press token := by
  let name := "positions:" ++ leader ++ pageText page
  rw [show (positions leader page).data = (view name).data from rfl, viewCallback_view]
  show (do
    (press.callback "" token).answer ""
    (press.callback "" token).display do
      let text : String ← ask (.render name)
      let markup ← router.viewMarkup name
      return (text, markup)) = _
  rw [viewMarkup_positions hc hv]
  rfl

theorem pnlLeader_data (hv : (Intent.leaderPnl leader).Valid) :
    pnlLeader (press.callback (Intent.leaderPnl leader).data token) =
      (Intent.leaderPnl leader).run router press token := by
  rw [pnlLeader]
  show (if !isLeaderId (afterStart ("pnl:leader:" ++ leader) "pnl:leader:") then
      (press.callback "" token).answer "带单员参数无效"
    else (Intent.leaderPnl (afterStart ("pnl:leader:" ++ leader) "pnl:leader:")).run router press
      token) = _
  rw [afterStart_append, unless_absent hv]

theorem marginSet_data {limit : ℕ} (hc : router.Complete) (hv : (Intent.marginSet limit).Valid) :
    router.marginSet (press.callback (Intent.marginSet limit).data token) =
      (Intent.marginSet limit).run router press token := by
  rw [marginSet, unless_absent hc.marginAdmin]
  show (press.callback "" token).proposed (do
    let limit ← .ofExcept
      (normalizeEntryMarginLimit (afterStart ("margin:set:" ++ toString limit) "margin:set:"))
    ask (.createEntryMarginLimitChange press.userId limit)) _ _ = _
  rw [afterStart_append, limit_of_text limit hv]
  rfl

theorem marginConfirm_data (hc : router.Complete) :
    router.marginConfirm (press.callback (Intent.marginConfirm nonce).data token) =
      (Intent.marginConfirm nonce).run router press token := by
  rw [marginConfirm, unless_absent hc.marginAdmin]
  show (Intent.marginConfirm (afterStart ("margin_confirm:" ++ nonce) "margin_confirm:")).run
    router press token = _
  rw [afterStart_append]

section

variable (hc : router.Complete)
include hc

theorem posClose_data {sym : String} {side : PositionSide}
    (hv : (positionClose leader sym side).Valid) :
    router.posClose (press.callback (positionClose leader sym side).data token) =
      (positionClose leader sym side).run router press token := by
  have hp : splitColon (positionClose leader sym side).data =
      ["pos", "close", leader, sym, sideText side] := by
    show splitColon ("pos:close:" ++ (leader ++ ":" ++ sym ++ ":" ++ sideText side)) = _
    rw [splitColon_after "pos:close" (by decide), splitColon_append, splitColon_append,
      (word_of_isLeaderId hv.1).splitColon, (word_of_isSymbol hv.2).splitColon,
      (sideText_word side).splitColon]
    rfl
  have hs : (sideText side = "L" || sideText side = "S") = true := by
    cases side <;> rfl
  rw [posClose, unless_absent hc.positionAdmin]
  dsimp only [Press.callback]
  rw [hp]
  dsimp only
  rw [hv.1, hv.2, hs, if_neg (by decide)]
  cases side <;> rfl

theorem posCloseLeader_data (hv : (leaderPositionsClose leader).Valid) :
    router.posCloseLeader (press.callback (leaderPositionsClose leader).data token) =
      (leaderPositionsClose leader).run router press token := by
  rw [posCloseLeader, unless_absent hc.positionAdmin]
  show (if !isLeaderId (afterStart ("pos:close_leader:" ++ leader) "pos:close_leader:") then
      (press.callback "" token).answer "带单员参数无效"
    else (leaderPositionsClose (afterStart ("pos:close_leader:" ++ leader) "pos:close_leader:")).run
      router press token) = _
  rw [afterStart_append, unless_absent hv]

theorem viewMarkup_leader (hl : isLeaderId leader = true) :
    router.viewMarkup ("positions:" ++ leader) = positionsMarkup leader 1 := by
  have hv : (positions leader none).Valid := ⟨hl, by simp⟩
  have hm := viewMarkup_positions hc hv
  rwa [pageText, String.append_empty] at hm

theorem posConfirm_data (hv : (positionConfirm nonce leader).Valid) :
    router.posConfirm (press.callback (positionConfirm nonce leader).data token) =
      (positionConfirm nonce leader).run router press token := by
  have hp : splitColon (positionConfirm nonce leader).data = ["pos_confirm", nonce, leader] :=
    splitColon_pair "pos_confirm" rfl (word_of_isNonce hv.1)
      (word_of_isLeaderId hv.2)
  rw [posConfirm, unless_absent hc.positionAdmin]
  dsimp only [Press.callback]
  rw [hp]
  dsimp only
  rw [unless_absent hv.2, viewMarkup_leader hc hv.2]
  rfl

theorem posLeaderConfirm_data (hv : (leaderPositionsConfirm nonce leader).Valid) :
    router.posLeaderConfirm (press.callback (leaderPositionsConfirm nonce leader).data token) =
      (leaderPositionsConfirm nonce leader).run router press token := by
  have hp : splitColon (leaderPositionsConfirm nonce leader).data =
      ["pos_leader_confirm", nonce, leader] :=
    splitColon_pair "pos_leader_confirm" rfl (word_of_isNonce hv.1)
      (word_of_isLeaderId hv.2)
  rw [posLeaderConfirm, unless_absent hc.positionAdmin]
  dsimp only [Press.callback]
  rw [hp]
  dsimp only
  rw [unless_absent hv.2, viewMarkup_leader hc hv.2]
  rfl

end

theorem withSlot_after {start failure : String} {rest : LeaderSlot → Bot Unit} (stem : String)
    (hs : start = stem ++ ":") (slot : LeaderSlot) :
    withSlot (press.callback (start ++ leaderSlotCallback slot) token) failure rest =
      rest slot := by
  rw [withSlot]
  dsimp only [Press.callback]
  rw [afterColon_after stem hs (word_slot slot), slot_of_callback]
  rfl

theorem leadSlot_data : leadSlot (press.callback (Intent.leaderSlot slot).data token) =
      (Intent.leaderSlot slot).run router press token :=
  withSlot_after "lead:slot" rfl slot

theorem leadManual_data : leadManual (press.callback (leaderManual slot).data token) =
      (leaderManual slot).run router press token :=
  withSlot_after "lead:manual" rfl slot

theorem leadCandidates_data (hc : router.Complete) :
    router.leadCandidates (press.callback (leaderCandidates slot).data token) =
      (leaderCandidates slot).run router press token := by
  rw [leadCandidates, unless_absent hc.leaderAdmin]
  exact withSlot_after "lead:candidates" rfl slot

theorem leadSet_data (hc : router.Complete) (hv : (leaderSet slot leader).Valid) :
    router.leadSet (press.callback (leaderSet slot leader).data token) =
      (leaderSet slot leader).run router press token := by
  have hp : splitColon (leaderSet slot leader).data =
      ["lead", "set", leaderSlotCallback slot, leader] :=
    splitColon_pair "lead:set" rfl (word_slot slot) (word_of_isLeaderId hv)
  rw [leadSet, unless_absent hc.leaderAdmin]
  dsimp only [Press.callback]
  rw [hp]
  dsimp only
  rw [slot_of_callback]
  rfl

theorem leadRemove_data (hc : router.Complete) :
    router.leadRemove (press.callback (leaderRemove slot).data token) =
      (leaderRemove slot).run router press token := by
  rw [leadRemove, unless_absent hc.leaderAdmin]
  show (press.callback "" token).proposed (do
    let slot ← .ofExcept
      (leaderSlotFromCallback (afterColon ("lead:remove:" ++ leaderSlotCallback slot)))
    ask (.createLeaderChange press.userId slot none)) _ _ = _
  rw [afterColon_after "lead:remove" (by decide) (word_slot slot), slot_of_callback]
  rfl

theorem leadConfirm_data (hc : router.Complete) :
    router.leadConfirm (press.callback (leaderConfirm nonce).data token) =
      (leaderConfirm nonce).run router press token := by
  rw [leadConfirm, unless_absent hc.leaderAdmin]
  show (leaderConfirm (afterStart ("lead_confirm:" ++ nonce) "lead_confirm:")).run
    router press token = _
  rw [afterStart_append]

section

variable (hc : router.Complete)
include hc

theorem lockSet_data {locked : Bool} (hv : (Intent.lockSet leader locked).Valid) :
    router.lockSet (press.callback (Intent.lockSet leader locked).data token) =
      (Intent.lockSet leader locked).run router press token := by
  have hp : splitColon (Intent.lockSet leader locked).data =
      ["lock", "set", leader, if locked then "1" else "0"] :=
    splitColon_pair "lock:set" rfl (word_of_isLeaderId hv) (lockText_word locked)
  rw [lockSet, unless_absent hc.leaderAdmin]
  dsimp only [Press.callback]
  rw [hp]
  dsimp only
  rw [show isLeaderId leader = true from hv]
  cases locked <;> rfl

theorem lockConfirm_data :
    router.lockConfirm (press.callback (Intent.lockConfirm nonce).data token) =
      (Intent.lockConfirm nonce).run router press token := by
  rw [lockConfirm, unless_absent hc.leaderAdmin]
  show (Intent.lockConfirm (afterStart ("lock_confirm:" ++ nonce) "lock_confirm:")).run
    router press token = _
  rw [afterStart_append]

theorem multLeader_data : router.multLeader (press.callback (multiplierLeader leader).data token) =
      (multiplierLeader leader).run router press token := by
  rw [multLeader, unless_absent hc.leaderAdmin]
  show (multiplierLeader (afterStart ("mult:leader:" ++ leader) "mult:leader:")).run
    router press token = _
  rw [afterStart_append]

theorem multSet_data {multiplier : ℕ} (hv : (multiplierSet leader multiplier).Valid) :
    router.multSet (press.callback (multiplierSet leader multiplier).data token) =
      (multiplierSet leader multiplier).run router press token := by
  have hle : multiplier < 11 := by
    have := hv.2.2
    omega
  have hp : splitColon (multiplierSet leader multiplier).data =
      ["mult", "set", leader, toString multiplier] :=
    splitColon_pair "mult:set" rfl (word_of_isLeaderId hv.1)
      (word_number multiplier (by omega))
  rw [multSet, unless_absent hc.leaderAdmin]
  dsimp only [Press.callback]
  rw [hp]
  dsimp only
  rw [unless_absent hv.1, multiplier_of_text multiplier hle]
  rfl

theorem multConfirm_data :
    router.multConfirm (press.callback (multiplierConfirm nonce).data token) =
      (multiplierConfirm nonce).run router press token := by
  rw [multConfirm, unless_absent hc.leaderAdmin]
  show (multiplierConfirm (afterStart ("mult_confirm:" ++ nonce) "mult_confirm:")).run
    router press token = _
  rw [afterStart_append]

end

theorem control_of_value (action : ControlAction) :
    controlAction (controlActionValue action) = .ok action := by
  cases action <;> rfl

theorem controlRequest_data {action : ControlAction} :
    controlRequest (press.callback (Intent.control action).data token) =
      (Intent.control action).run router press token := by
  rw [controlRequest]
  show Attempt.handling _
    (.ofExcept (controlAction (afterStart ("ctl:" ++ controlActionValue action) "ctl:"))) _ _ = _
  rw [afterStart_append, control_of_value]
  rfl

theorem summaryConfirm_data :
    Router.summaryConfirm (press.callback (Intent.summaryConfirm nonce).data token) =
      (Intent.summaryConfirm nonce).run router press token := by
  show (Intent.summaryConfirm (afterStart ("summary_confirm:" ++ nonce) "summary_confirm:")).run
    router press token = _
  rw [afterStart_append]

theorem confirmCallback_data : confirmCallback (press.callback (Intent.confirm nonce).data token) =
      (Intent.confirm nonce).run router press token := by
  show (Intent.confirm (afterStart ("confirm:" ++ nonce) "confirm:")).run router press token = _
  rw [afterStart_append]

end Router

namespace Intent

variable {router : Router} {press : Press} {token : Option String} {intent : Intent}

theorem handler_data (hc : router.Complete)
    (ha : router.isAuthorized press.userId = true) (hv : intent.Valid) :
    intent.route.handler router (press.callback intent.data token) =
      intent.run router press token := by
  cases intent with
  | view name => exact Router.viewCallback_view name
  | positions => exact Router.viewCallback_positions hc hv
  | leaderPnl =>
    rw [route, Route.handler]
    exact Router.pnlLeader_data hv
  | auditRun => rfl
  | summaryReset => exact Router.unless_absent ha
  | marginManage => rfl
  | marginCustom => rfl
  | marginSet => exact Router.marginSet_data hc hv
  | marginConfirm => exact Router.marginConfirm_data hc
  | positionClose => exact Router.posClose_data hc hv
  | leaderPositionsClose => exact Router.posCloseLeader_data hc hv
  | positionConfirm => exact Router.posConfirm_data hc hv
  | leaderPositionsConfirm => exact Router.posLeaderConfirm_data hc hv
  | leaderManage => rfl
  | leaderSlot => exact Router.leadSlot_data
  | leaderManual => exact Router.leadManual_data
  | leaderCandidates => exact Router.leadCandidates_data hc
  | leaderSet => exact Router.leadSet_data hc hv
  | leaderRemove => exact Router.leadRemove_data hc
  | leaderConfirm => exact Router.leadConfirm_data hc
  | lockManage => rfl
  | lockSet => exact Router.lockSet_data hc hv
  | lockConfirm => exact Router.lockConfirm_data hc
  | multiplierManage => rfl
  | multiplierLeader => exact Router.multLeader_data hc
  | multiplierSet => exact Router.multSet_data hc hv
  | multiplierConfirm => exact Router.multConfirm_data hc
  | control => exact Router.controlRequest_data
  | cancel => rfl
  | summaryConfirm => exact Router.summaryConfirm_data
  | confirm => exact Router.confirmCallback_data

end Intent

end AiQuant.Telegram
