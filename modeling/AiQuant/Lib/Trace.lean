import AiQuant.Lib.Proc
import Mathlib.Data.List.Basic

/-! What a procedure of `Lib.Proc` asked of the outside world and what it was answered, in
order.  `Traces` relates a completed run to its events; the world is unconstrained, and the
state is the procedure's own. -/
namespace AiQuant.Lib

abbrev Event {Q : Type} (R : Q → Type) := (query : Q) × R query

namespace Proc

variable {S Q : Type} {R : Q → Type} {α β : Type}

inductive Traces : S → Proc S Q R α → List (Event R) → α → S → Prop
  | done {state : S} {value : α} : Traces state (done value) [] value state
  | atomic {state final : S} {update : S → S} {next : S → Proc S Q R α} {value : α}
      {events : List (Event R)} (hrest : Traces (update state) (next state) events value final) :
      Traces state (atomic update next) events value final
  | ask {state final : S} {query : Q} {next : R query → Proc S Q R α} {value : α}
      {events : List (Event R)} (reply : R query)
      (hrest : Traces state (next reply) events value final) :
      Traces state (ask query next) (⟨query, reply⟩ :: events) value final

variable {state final : S} {events : List (Event R)}

@[simp] theorem traces_pure {value result : α} :
    Traces state (pure value : Proc S Q R α) events result final ↔
      events = [] ∧ result = value ∧ final = state := by
  constructor
  · intro ht
    cases ht
    exact ⟨rfl, rfl, rfl⟩
  · rintro ⟨rfl, rfl, rfl⟩
    exact .done

@[simp] theorem traces_read {qry : S → α} {result : α} :
    Traces state (read qry : Proc S Q R α) events result final ↔
      events = [] ∧ result = qry state ∧ final = state := by
  constructor
  · rintro (_ | ⟨⟨⟩⟩)
    exact ⟨rfl, rfl, rfl⟩
  · rintro ⟨rfl, rfl, rfl⟩
    exact .atomic .done

@[simp] theorem traces_write {upd : S → S} {result : Unit} :
    Traces state (write upd : Proc S Q R Unit) events result final ↔
      events = [] ∧ final = upd state := by
  constructor
  · rintro (_ | ⟨⟨⟩⟩)
    exact ⟨rfl, rfl⟩
  · rintro ⟨rfl, rfl⟩
    exact .atomic .done

@[simp] theorem traces_question {qry : Q} {result : R qry} :
    Traces state (question qry : Proc S Q R (R qry)) events result final ↔
      events = [⟨qry, result⟩] ∧ final = state := by
  constructor
  · rintro (_ | _ | ⟨_, ⟨⟩⟩)
    exact ⟨rfl, rfl⟩
  · rintro ⟨rfl, rfl⟩
    exact .ask _ .done

@[simp] theorem traces_bind {proc : Proc S Q R α} {rest : α → Proc S Q R β} {result : β} :
    Traces state (proc >>= rest) events result final ↔
      ∃ first value mid second, Traces state proc first value mid ∧
        Traces mid (rest value) second result final ∧ events = first ++ second := by
  show Traces state (proc.bind rest) events result final ↔ _
  constructor
  · intro ht
    induction proc generalizing state events with
    | done value => exact ⟨[], value, state, events, .done, ht, rfl⟩
    | halt => cases ht
    | atomic upd next ih =>
      rcases ht with _ | ⟨hr⟩
      obtain ⟨first, value, mid, second, hf, hs, rfl⟩ := ih state hr
      exact ⟨first, value, mid, second, .atomic hf, hs, rfl⟩
    | ask qry next ih =>
      rcases ht with _ | _ | ⟨reply, hr⟩
      obtain ⟨first, value, mid, second, hf, hs, rfl⟩ := ih reply hr
      exact ⟨⟨qry, reply⟩ :: first, value, mid, second, .ask reply hf, hs, rfl⟩
  · rintro ⟨first, value, mid, second, hf, hs, rfl⟩
    induction hf with
    | done => exact hs
    | atomic _ ih => exact .atomic (ih hs)
    | ask reply _ ih => exact .ask reply (ih hs)

def traced (answer : List (Event R) → (query : Q) → R query) :
    Proc S Q R α → List (Event R) → S → Option (List (Event R) × α × S)
  | done value, past, state => some (past, value, state)
  | halt, _, _ => none
  | atomic update next, past, state => (next state).traced answer past (update state)
  | ask query next, past, state =>
    (next (answer past query)).traced answer (past ++ [⟨query, answer past query⟩]) state

private theorem traced_extends {answer : List (Event R) → (qry : Q) → R qry}
    {proc : Proc S Q R α} {past whole : List (Event R)} {value : α}
    (hr : proc.traced answer past state = some (whole, value, final)) :
    ∃ events, whole = past ++ events ∧ Traces state proc events value final := by
  induction proc generalizing past state with
  | done result =>
    cases hr
    exact ⟨[], (List.append_nil _).symm, .done⟩
  | halt => cases hr
  | atomic upd next ih =>
    obtain ⟨events, rfl, ht⟩ := ih state hr
    exact ⟨events, rfl, .atomic ht⟩
  | ask qry next ih =>
    obtain ⟨events, rfl, ht⟩ := ih _ hr
    exact ⟨⟨qry, answer past qry⟩ :: events, by simp, .ask _ ht⟩

theorem traces_traced {answer : List (Event R) → (qry : Q) → R qry} {proc : Proc S Q R α}
    {value : α} (hr : proc.traced answer [] state = some (events, value, final)) :
    Traces state proc events value final := by
  obtain ⟨events, rfl, ht⟩ := traced_extends hr
  exact ht

end Proc

end AiQuant.Lib
