import AiQuant.Lib.SlidingWindow
import Mathlib.Algebra.Order.Ring.Int
import Mathlib.Data.List.Induction
import Mathlib.Data.List.Pairwise
import Mathlib.Logic.Function.Basic

/-! `OutboundNotifier` (`notifications/outbound.py`).  A table of last times and a deque of recent
ones decide what a look through everything sent would decide. -/
namespace AiQuant.Notifications
open AiQuant.Lib

/-- `occurredAt` in microseconds. -/
structure Notification where
  severity : String
  eventType : String
  summary : String
  runbook : String
  occurredAt : ℤ
  deduplicationKey : String

structure OutboundNotifier where
  maximumPerMinute : ℤ := 20
  deduplicationTtl : ℤ := 600000000
  sent : String → Option ℤ := fun _ => none
  recent : List ℤ := []

/-- `timedelta(minutes=1)` -/
def minute : ℤ := 60000000

variable {ε : Type} (render : Notification → String)

/-- The answer and the notifier after it; a sender may raise.  The text is a parameter. -/
def OutboundNotifier.notify (notifier : OutboundNotifier) (sender : String → Except ε Unit)
    (notification : Notification) : Except ε Bool × OutboundNotifier :=
  let occurredAt := notification.occurredAt
  if ∃ prior ∈ notifier.sent notification.deduplicationKey,
      occurredAt - prior < notifier.deduplicationTtl then (.ok false, notifier)
  else
    let recent := notifier.recent.dropWhile (· ≤ occurredAt - minute)
    if notifier.maximumPerMinute ≤ recent.length then
      (.ok false, { notifier with recent := recent })
    else match sender (render notification) with
      | .error raised => (.error raised, { notifier with recent := recent })
      | .ok () => (.ok true, { notifier with
          recent := recent ++ [occurredAt]
          sent := Function.update notifier.sent notification.deduplicationKey occurredAt })

structure NotifyCall (ε : Type) where
  notification : Notification
  sender : String → Except ε Unit

/-- The notifier with everything that it has sent, in order. -/
def deliver (state : OutboundNotifier × List Notification) (call : NotifyCall ε) :
    OutboundNotifier × List Notification :=
  match state.1.notify render call.sender call.notification with
  | (.ok true, after) => (after, state.2 ++ [call.notification])
  | (_, after) => (after, state.2)

def delivered (notifier : OutboundNotifier) (calls : List (NotifyCall ε)) :
    OutboundNotifier × List Notification :=
  calls.foldl (deliver render) (notifier, [])

/-- The policy, in terms of everything sent so far: the key was last sent a while ago, and the
minute has room. -/
def Admissible (notifier : OutboundNotifier) (history : List Notification)
    (notification : Notification) : Prop :=
  (∀ earlier ∈ history, earlier.deduplicationKey = notification.deduplicationKey →
      notifier.deduplicationTtl ≤ notification.occurredAt - earlier.occurredAt) ∧
    SlidingWindow.held minute notification.occurredAt (history.map Notification.occurredAt) <
      notifier.maximumPerMinute

structure KeepsLimits (notifier : OutboundNotifier) (history : List Notification) : Prop where
  rate : ∀ moment,
    SlidingWindow.held minute moment (history.map Notification.occurredAt) ≤
      notifier.maximumPerMinute.toNat
  apart : history.Pairwise fun earlier later =>
    earlier.deduplicationKey = later.deduplicationKey →
      notifier.deduplicationTtl ≤ later.occurredAt - earlier.occurredAt

/-- The table and the deque of `notifier`, started as `start`, say what was sent until `now`. -/
structure Represents (start notifier : OutboundNotifier) (history : List Notification)
    (now : ℤ) : Prop where
  maximum : notifier.maximumPerMinute = start.maximumPerMinute
  ttl : notifier.deduplicationTtl = start.deduplicationTtl
  past : ∀ earlier ∈ history, earlier.occurredAt ≤ now
  ordered : (history.map Notification.occurredAt).Pairwise (· ≤ ·)
  sent : ∀ key, notifier.sent key = ((history.filter (·.deduplicationKey = key)).getLast?).map
    Notification.occurredAt
  recent : ∃ bound ≤ now - minute,
    notifier.recent = (history.map Notification.occurredAt).filter (bound < ·)
  bounded : SlidingWindow.Bounded minute start.maximumPerMinute.toNat
    (history.map Notification.occurredAt)
  apart : history.Pairwise fun earlier later =>
    earlier.deduplicationKey = later.deduplicationKey →
      start.deduplicationTtl ≤ later.occurredAt - earlier.occurredAt

section Steps

variable {start notifier : OutboundNotifier} {hist : List Notification} {now : ℤ}
  {notification : Notification}

theorem Represents.later (hr : Represents start notifier hist now)
    {later : ℤ} (hl : now ≤ later) : Represents start notifier hist later :=
  { hr with
    past := fun earlier he => (hr.past earlier he).trans hl
    recent := by
      obtain ⟨bound, hb, hrecent⟩ := hr.recent
      exact ⟨bound, hb.trans (sub_le_sub_right hl minute), hrecent⟩ }

/-- Sent times do not decrease, so the last one of a key is the one that matters. -/
theorem Represents.duplicate_iff (hr : Represents start notifier hist notification.occurredAt) :
    (∃ prior ∈ notifier.sent notification.deduplicationKey,
        notification.occurredAt - prior < notifier.deduplicationTtl) ↔
      ∃ earlier ∈ hist, earlier.deduplicationKey = notification.deduplicationKey ∧
        notification.occurredAt - earlier.occurredAt < start.deduplicationTtl := by
  rw [hr.sent, hr.ttl]
  constructor
  · rintro ⟨prior, hp, hlt⟩
    obtain ⟨earlier, he, rfl⟩ := Option.mem_map.mp hp
    have hm := List.mem_filter.mp (List.mem_of_mem_getLast? he)
    exact ⟨earlier, hm.1, of_decide_eq_true hm.2, hlt⟩
  · rintro ⟨earlier, he, hkey, hlt⟩
    have hm : earlier ∈ hist.filter (·.deduplicationKey = notification.deduplicationKey) :=
      List.mem_filter.mpr ⟨he, decide_eq_true hkey⟩
    have hordered := (List.pairwise_map.mp hr.ordered).sublist
      (List.filter_sublist (p := (·.deduplicationKey = notification.deduplicationKey)))
    refine ⟨((hist.filter (·.deduplicationKey = notification.deduplicationKey)).getLast
        (List.ne_nil_of_mem hm)).occurredAt, ?_, ?_⟩
    · rw [List.getLast?_eq_getLast_of_ne_nil (List.ne_nil_of_mem hm)]
      rfl
    · have hle := hordered.rel_getLast_of_rel_getLast_getLast hm le_rfl
      omega

theorem Represents.pruned (hr : Represents start notifier hist notification.occurredAt) :
    notifier.recent.dropWhile (· ≤ notification.occurredAt - minute) =
      (hist.map Notification.occurredAt).filter (notification.occurredAt - minute < ·) := by
  obtain ⟨bound, hb, hrecent⟩ := hr.recent
  rw [hrecent, SlidingWindow.dropWhile_eq_filter (hr.ordered.sublist List.filter_sublist),
    List.filter_filter]
  apply List.filter_congr
  intro time _
  rw [Bool.and_eq_left_iff_imp, decide_eq_true_eq, decide_eq_true_eq]
  exact hb.trans_lt

theorem Represents.admissible_iff (hr : Represents start notifier hist notification.occurredAt) :
    Admissible start hist notification ↔ ¬(∃ prior ∈ notifier.sent notification.deduplicationKey,
        notification.occurredAt - prior < notifier.deduplicationTtl) ∧
      ¬notifier.maximumPerMinute ≤
        (notifier.recent.dropWhile (· ≤ notification.occurredAt - minute)).length := by
  rw [hr.duplicate_iff, hr.pruned, SlidingWindow.length_filter_eq_held
    (List.forall_mem_map.mpr hr.past), hr.maximum, not_le, Admissible]
  push Not
  rfl

theorem Represents.forgets (hr : Represents start notifier hist notification.occurredAt) :
    Represents start { notifier with
      recent := notifier.recent.dropWhile (· ≤ notification.occurredAt - minute) } hist
      notification.occurredAt :=
  { hr with recent := ⟨_, le_rfl, hr.pruned⟩ }

theorem Represents.sends (hr : Represents start notifier hist notification.occurredAt)
    (ha : Admissible start hist notification) : Represents start { notifier with
      recent := notifier.recent.dropWhile (· ≤ notification.occurredAt - minute) ++
        [notification.occurredAt]
      sent := Function.update notifier.sent notification.deduplicationKey
        notification.occurredAt } (hist ++ [notification]) notification.occurredAt where
  maximum := hr.maximum
  ttl := hr.ttl
  past := List.forall_mem_append.mpr ⟨hr.past, by simp⟩
  ordered := by
    rw [List.map_append, List.pairwise_append]
    refine ⟨hr.ordered, List.pairwise_singleton _ _, ?_⟩
    simpa using hr.past
  sent key := by
    dsimp only
    rw [List.filter_append, Function.update_apply]
    split_ifs with hkey
    · rw [List.filter_cons_of_pos (by simp [hkey]), List.filter_nil, List.getLast?_concat]
      rfl
    · rw [List.filter_cons_of_neg (by simpa using Ne.symm hkey), List.filter_nil,
        List.append_nil, hr.sent]
  recent := by
    refine ⟨_, le_rfl, ?_⟩
    rw [hr.pruned, List.map_append, List.filter_append]
    simp [minute]
  bounded := by
    rw [List.map_append]
    refine .append hr.bounded (List.forall_mem_map.mpr hr.past) ?_
    have hroom := ha.2
    omega
  apart := by
    rw [List.pairwise_append]
    refine ⟨hr.apart, List.pairwise_singleton _ _, ?_⟩
    simpa using ha.1

/-- One call: the policy decides the answer, and what was sent stays represented. -/
theorem Represents.deliver (hr : Represents start notifier hist notification.occurredAt)
    (sender : String → Except ε Unit) : (Admissible start hist notification →
      (notifier.notify render sender notification).1 =
        (sender (render notification)).map fun _ => true) ∧
    (¬Admissible start hist notification →
      (notifier.notify render sender notification).1 = .ok false) ∧
    Represents start (deliver render (notifier, hist) ⟨notification, sender⟩).1
      (deliver render (notifier, hist) ⟨notification, sender⟩).2 notification.occurredAt := by
  rw [hr.admissible_iff]
  unfold Notifications.deliver OutboundNotifier.notify
  dsimp only
  split_ifs with hdup hfull
  · exact ⟨fun ha => absurd hdup ha.1, fun _ => rfl, hr⟩
  · exact ⟨fun ha => absurd hfull ha.2, fun _ => rfl, hr.forgets⟩
  · refine ⟨fun _ => ?_, fun hn => absurd ⟨hdup, hfull⟩ hn, ?_⟩
    · cases sender (render notification) <;> rfl
    · cases sender (render notification) with
      | error raised => exact hr.forgets
      | ok _ => exact hr.sends (hr.admissible_iff.mpr ⟨hdup, hfull⟩)

end Steps

section Runs

variable {start : OutboundNotifier} {calls : List (NotifyCall ε)}

theorem represents_new (hsent : start.sent = fun _ => none) (hrecent : start.recent = [])
    (now : ℤ) : Represents start start [] now where
  maximum := rfl
  ttl := rfl
  past _ hmem := absurd hmem List.not_mem_nil
  ordered := .nil
  sent key := congrFun hsent key
  recent := ⟨now - minute, le_rfl, hrecent⟩
  bounded := .nil
  apart := .nil

theorem represents_delivered (hsent : start.sent = fun _ => none) (hrecent : start.recent = [])
    (ho : (calls.map (·.notification.occurredAt)).Pairwise (· ≤ ·)) (now : ℤ)
    (hn : ∀ call ∈ calls, call.notification.occurredAt ≤ now) :
    Represents start (delivered render start calls).1 (delivered render start calls).2 now := by
  induction calls using List.reverseRecOn generalizing now with
  | nil => exact represents_new hsent hrecent now
  | append_singleton calls call ih =>
    rw [List.map_append, List.pairwise_append] at ho
    have hb := ih ho.1 call.notification.occurredAt fun earlier he =>
      ho.2.2 _ (List.mem_map_of_mem he) _ (List.mem_singleton_self _)
    rw [delivered, List.foldl_append]
    exact (hb.deliver render call.sender).2.2.later
      (hn call (List.mem_append_right _ (List.mem_singleton_self call)))

/-- The table and the deque decide as the policy does about everything sent so far, so what is
sent keeps both limits, whatever the senders do. -/
theorem outbound_notifier_follows_policy (start : OutboundNotifier)
    (hsent : start.sent = fun _ => none) (hrecent : start.recent = []) (calls : List (NotifyCall ε))
    (hordered : (calls.map (·.notification.occurredAt)).Pairwise (· ≤ ·)) :
    KeepsLimits start (delivered render start calls).2 ∧
      ∀ pre call post, calls = pre ++ call :: post →
        let now := delivered render start pre
        (Admissible start now.2 call.notification →
          (now.1.notify render call.sender call.notification).1 =
            (call.sender (render call.notification)).map fun _ => true) ∧
        (¬Admissible start now.2 call.notification →
          (now.1.notify render call.sender call.notification).1 = .ok false) := by
  constructor
  · obtain ⟨now, hn⟩ : ∃ now : ℤ, ∀ call ∈ calls, call.notification.occurredAt ≤ now := by
      induction calls with
      | nil => exact ⟨0, by simp⟩
      | cons first calls ih =>
        obtain ⟨now, hn⟩ := ih hordered.of_cons
        refine ⟨max first.notification.occurredAt now, ?_⟩
        simp only [List.forall_mem_cons, le_max_left, true_and]
        exact fun call hc => (hn call hc).trans (le_max_right _ _)
    have hr := represents_delivered render hsent hrecent hordered now hn
    exact ⟨hr.bounded.held_le, hr.apart⟩
  · rintro pre call post rfl
    rw [List.map_append, List.pairwise_append] at hordered
    have hr := represents_delivered render hsent hrecent hordered.1
      call.notification.occurredAt fun earlier he =>
        hordered.2.2 _ (List.mem_map_of_mem he) _ List.mem_cons_self
    exact ⟨(hr.deliver render call.sender).1, (hr.deliver render call.sender).2.1⟩

end Runs

def alarm (deduplicationKey : String) (occurredAt : ℤ) : NotifyCall String where
  notification := ⟨"P1", "ALARM", "stale", "runbook", occurredAt, deduplicationKey⟩
  sender _ := .ok ()

/-- A repeated alarm, one that finds the minute full, and one of the next minute. -/
def alarms : List (NotifyCall String) :=
  [alarm "book" 0, alarm "book" 1000000, alarm "disk" 2000000, alarm "disk" 61000000]

theorem outbound_notifier_alarms :
    (delivered Notification.summary { maximumPerMinute := 1 } alarms).2.map
        Notification.occurredAt = [0, 61000000] ∧
      KeepsLimits { maximumPerMinute := 1 }
        (delivered Notification.summary { maximumPerMinute := 1 } alarms).2 :=
  ⟨by decide, (outbound_notifier_follows_policy Notification.summary { maximumPerMinute := 1 }
    rfl rfl alarms (by decide)).1⟩

end AiQuant.Notifications
