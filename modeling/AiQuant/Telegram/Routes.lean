import AiQuant.Telegram.Callbacks

/-! Which branch of `TelegramMenuRouter.handle` (`notifications/telegram_bot.py`) callback data
takes.  No head of a branch starts another one, so the order of the tests does not matter. -/
namespace AiQuant.Telegram
open AiQuant.Lib

section Texts

variable {text start : String}

theorem startsWith_iff : startsWith text start = true ↔ start.toList <+: text.toList :=
  List.isPrefixOf_iff_prefix

@[simp] theorem startsWith_append (start rest : String) :
    startsWith (start ++ rest) start = true := by
  rw [startsWith_iff, String.toList_append]
  exact List.prefix_append _ _

@[simp] theorem afterStart_append (start rest : String) :
    afterStart (start ++ rest) start = rest := by
  rw [afterStart, if_pos (startsWith_append start rest), String.toList_append,
    ← String.length_toList, List.drop_left, String.ofList_toList]

theorem splitColon_append (first rest : String) :
    splitColon (first ++ ":" ++ rest) = splitColon first ++ splitColon rest := by
  have hc : (first ++ ":" ++ rest).toList = first.toList ++ ':' :: rest.toList := by
    rw [String.toList_append, String.toList_append, List.append_assoc]
    rfl
  rw [splitColon, hc, List.splitOn_append_cons_self, List.map_append]
  rfl

theorem splitColon_after (stem : String) (hs : start = stem ++ ":") (rest : String) :
    splitColon (start ++ rest) = splitColon stem ++ splitColon rest := by
  rw [hs, splitColon_append]

theorem splitColon_of_notMem (hp : ':' ∉ text.toList) : splitColon text = [text] := by
  rw [splitColon, List.splitOn_eq_singleton hp, List.map_singleton, String.ofList_toList]

end Texts

inductive Route where
  | view | pnlLeader | auditRun | summaryResetRequest
  | marginManage | marginCustom | marginSet | marginConfirm
  | posClose | posCloseLeader | posConfirm | posLeaderConfirm
  | leadManage | leadSlot | leadManual | leadCandidates | leadSet | leadRemove | leadConfirm
  | lockManage | lockSet | lockConfirm
  | multManage | multLeader | multSet | multConfirm
  | control | cancel | summaryConfirm | confirm
deriving DecidableEq

namespace Route

def chain : List Route :=
  [view, pnlLeader, auditRun, summaryResetRequest, marginManage, marginCustom, marginSet,
   marginConfirm, posClose, posCloseLeader, posConfirm, posLeaderConfirm, leadManage, leadSlot,
   leadManual, leadCandidates, leadSet, leadRemove, leadConfirm, lockManage, lockSet, lockConfirm,
   multManage, multLeader, multSet, multConfirm, control, cancel, summaryConfirm, confirm]

def head : Route → String
  | view => "view:"
  | pnlLeader => "pnl:leader:"
  | auditRun => "audit:run"
  | summaryResetRequest => "summary_reset:request"
  | marginManage => "margin:manage"
  | marginCustom => "margin:custom"
  | marginSet => "margin:set:"
  | marginConfirm => "margin_confirm:"
  | posClose => "pos:close:"
  | posCloseLeader => "pos:close_leader:"
  | posConfirm => "pos_confirm:"
  | posLeaderConfirm => "pos_leader_confirm:"
  | leadManage => "lead:manage"
  | leadSlot => "lead:slot:"
  | leadManual => "lead:manual:"
  | leadCandidates => "lead:candidates:"
  | leadSet => "lead:set:"
  | leadRemove => "lead:remove:"
  | leadConfirm => "lead_confirm:"
  | lockManage => "lock:manage"
  | lockSet => "lock:set:"
  | lockConfirm => "lock_confirm:"
  | multManage => "mult:manage"
  | multLeader => "mult:leader:"
  | multSet => "mult:set:"
  | multConfirm => "mult_confirm:"
  | control => "ctl:"
  | cancel => "cancel:"
  | summaryConfirm => "summary_confirm:"
  | confirm => "confirm:"

def isWhole : Route → Bool
  | auditRun | summaryResetRequest | marginManage | marginCustom | leadManage | lockManage |
    multManage => true
  | _ => false

def Accepts (route : Route) (value : String) : Prop :=
  if route.isWhole then value = route.head else startsWith value route.head = true

instance (route : Route) (value : String) : Decidable (route.Accepts value) :=
  inferInstanceAs (Decidable (ite ..))

variable (router : Router) (callback : Callback)

def handler : Route → Bot Unit
  | view => router.viewCallback callback
  | pnlLeader => Router.pnlLeader callback
  | auditRun => router.auditRun callback
  | summaryResetRequest => router.summaryResetRequest callback
  | marginManage => router.marginManage callback
  | marginCustom => router.marginCustom callback
  | marginSet => router.marginSet callback
  | marginConfirm => router.marginConfirm callback
  | posClose => router.posClose callback
  | posCloseLeader => router.posCloseLeader callback
  | posConfirm => router.posConfirm callback
  | posLeaderConfirm => router.posLeaderConfirm callback
  | leadManage => router.leadManage callback
  | leadSlot => Router.leadSlot callback
  | leadManual => Router.leadManual callback
  | leadCandidates => router.leadCandidates callback
  | leadSet => router.leadSet callback
  | leadRemove => router.leadRemove callback
  | leadConfirm => router.leadConfirm callback
  | lockManage => router.lockManage callback
  | lockSet => router.lockSet callback
  | lockConfirm => router.lockConfirm callback
  | multManage => router.multManage callback
  | multLeader => router.multLeader callback
  | multSet => router.multSet callback
  | multConfirm => router.multConfirm callback
  | control => Router.controlRequest callback
  | cancel => Router.cancelCallback callback
  | summaryConfirm => Router.summaryConfirm callback
  | confirm => Router.confirmCallback callback

def run : List Route → Bot Unit
  | [] => pure ()
  | route :: rest =>
    if route.Accepts callback.value then route.handler router callback else run rest

end Route

theorem Router.openCallback_eq_run {router : Router} {callback : Callback}
    (ha : router.isAuthorized callback.userId = true) :
    router.openCallback callback = Route.run router callback Route.chain := by
  unfold Router.openCallback Router.positionCallback Router.leaderCallback Router.controlCallback
  simp only [ha, Bool.not_true, Bool.and_false, Bool.false_eq_true, if_false]
  rfl

namespace Route

variable {route other : Route} {value : String}

theorem mem_chain (route : Route) : route ∈ chain := by
  cases route <;> decide

theorem head_starts (ha : route.Accepts value) : route.head.toList <+: value.toList := by
  unfold Accepts at ha
  split at ha
  · rw [ha]
  · exact startsWith_iff.mp ha

theorem heads_apart : ∀ first ∈ chain, ∀ second ∈ chain,
    first.head.toList <+: second.head.toList → first = second := by
  decide

theorem eq_of_accepts (hr : route.Accepts value) (ho : other.Accepts value) : other = route := by
  rcases List.prefix_or_prefix_of_prefix (head_starts ho) (head_starts hr) with
    hs | hlonger
  · exact heads_apart other (mem_chain other) route (mem_chain route) hs
  · exact (heads_apart route (mem_chain route) other (mem_chain other) hlonger).symm

theorem run_of_accepts {router : Router} {callback : Callback}
    (ha : route.Accepts callback.value) {routes : List Route} (hm : route ∈ routes) :
    run router callback routes = route.handler router callback := by
  induction routes with
  | nil => exact absurd hm List.not_mem_nil
  | cons first rest ih =>
    by_cases hf : first.Accepts callback.value
    · rw [run, if_pos hf, eq_of_accepts ha hf]
    · rw [run, if_neg hf]
      rcases List.mem_cons.mp hm with rfl | hl
      · exact absurd ha hf
      · exact ih hl

end Route

theorem Router.openCallback_of_accepts {router : Router} {callback : Callback} {route : Route}
    (ha : router.isAuthorized callback.userId = true) (hac : route.Accepts callback.value) :
    router.openCallback callback = route.handler router callback :=
  (openCallback_eq_run ha).trans (Route.run_of_accepts hac (Route.mem_chain route))

end AiQuant.Telegram
