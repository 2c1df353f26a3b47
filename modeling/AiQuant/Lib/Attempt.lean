import AiQuant.Lib.Proc

/-! Procedures that may raise.  An `Attempt` asks the outside world questions that it answers with
a value or an exception, and ends with a value or an exception itself.  `Obeys` judges an attempt
by the questions that it asks and the exceptions that it ends with, over all answers within the
rules. -/
namespace AiQuant.Lib

/-- A procedure that writes no store of its own; `S` is what the world keeps. -/
def Attempt (S Q : Type) (R : Q → Type) (E α : Type) : Type :=
  Proc S Q (fun query => Except E (R query)) (Except E α)

structure Rules (Q : Type) (R : Q → Type) (E : Type) where
  asks : Q → Prop
  answers : (query : Q) → Except E (R query) → Prop
  raises : E → Prop
  /-- An exception of the world may pass through. -/
  passes : ∀ query error, answers query (.error error) → raises error

namespace Attempt

variable {S Q : Type} {R : Q → Type} {E α β : Type}

def ofExcept (outcome : Except E α) : Attempt S Q R E α :=
  Proc.done outcome

def raise (error : E) : Attempt S Q R E α :=
  ofExcept (.error error)

def ask (query : Q) : Attempt S Q R E (R query) :=
  Proc.ask query ofExcept

/-- `try: body … except: handler … else: rest` -/
def handling (accepts : E → Bool) (body : Attempt S Q R E α) (handler : E → Attempt S Q R E β)
    (rest : α → Attempt S Q R E β) : Attempt S Q R E β :=
  Proc.bind body fun outcome =>
    match outcome with
    | .ok value => rest value
    | .error error => if accepts error then handler error else raise error

instance : Monad (Attempt S Q R E) where
  pure value := ofExcept (.ok value)
  bind body rest := handling (fun _ => false) body raise rest

variable {rules : Rules Q R E}

inductive Obeys (rules : Rules Q R E) : Attempt S Q R E α → Prop
  | value (value : α) : Obeys rules (ofExcept (.ok value))
  | raise {error : E} (hraises : rules.raises error) : Obeys rules (raise error)
  | ask {query : Q} {next : Except E (R query) → Attempt S Q R E α} (hasks : rules.asks query)
      (hnext : ∀ reply, rules.answers query reply → Obeys rules (next reply)) :
      Obeys rules (Proc.ask query next)

theorem obeys_pure {value : α} : Obeys rules (pure value : Attempt S Q R E α) := .value value

theorem obeys_raise {error : E} (hr : rules.raises error) :
    Obeys rules (raise error : Attempt S Q R E α) := .raise hr

theorem obeys_ofExcept {outcome : Except E α}
    (hr : ∀ error, outcome = .error error → rules.raises error) :
    Obeys rules (ofExcept outcome : Attempt S Q R E α) := by
  cases outcome with
  | ok value => exact .value value
  | error error => exact .raise (hr error rfl)

theorem obeys_ask {qry : Q} (ha : rules.asks qry) :
    Obeys rules (ask qry : Attempt S Q R E (R qry)) := by
  refine .ask ha fun reply hr => obeys_ofExcept fun error he => ?_
  exact rules.passes qry error (he ▸ hr)

theorem obeys_handling {accepts : E → Bool} {body : Attempt S Q R E α}
    {handler : E → Attempt S Q R E β} {rest : α → Attempt S Q R E β} (hb : Obeys rules body)
    (hh : ∀ error, Obeys rules (handler error)) (hr : ∀ value, Obeys rules (rest value)) :
    Obeys rules (handling accepts body handler rest) := by
  induction hb with
  | value value => exact hr value
  | @raise error hraises =>
    show Obeys rules (if accepts error then handler error else Attempt.raise error)
    split
    · exact hh error
    · exact .raise hraises
  | ask hasks _ ih => exact .ask hasks ih

theorem obeys_bind {body : Attempt S Q R E α} {rest : α → Attempt S Q R E β}
    (hb : Obeys rules body) (hr : ∀ value, Obeys rules (rest value)) :
    Obeys rules (body >>= rest) := by
  show Obeys rules (handling (fun _ => false) body Attempt.raise rest)
  induction hb with
  | value value => exact hr value
  | raise hraises => exact .raise hraises
  | ask hasks _ ih => exact .ask hasks ih

theorem obeys_ite {condition : Prop} [Decidable condition] {first second : Attempt S Q R E α}
    (hf : condition → Obeys rules first) (hs : ¬ condition → Obeys rules second) :
    Obeys rules (if condition then first else second) := by
  split
  · next hc => exact hf hc
  · next hc => exact hs hc

variable {env : S → (qry : Q) → Except E (R qry) → S → Prop} {st final : S}
  {attempt : Attempt S Q R E α}

/-- Whatever the world answers, the attempt ends with `post`. -/
def Ends (env : S → (query : Q) → Except E (R query) → S → Prop) (attempt : Attempt S Q R E α)
    (post : Except E α → S → Prop) (state : S) : Prop :=
  Proc.Ends env attempt post state

theorem Obeys.ends (inv : S → Prop) (ho : Obeys rules attempt)
    (ha : ∀ pre qry reply post, env pre qry reply post → rules.answers qry reply)
    (has : ∀ pre qry reply post, inv pre → rules.asks qry →
      env pre qry reply post → inv post) (hs : inv st) :
    attempt.Ends env (fun outcome reached => inv reached ∧
      ∀ error, outcome = .error error → rules.raises error) st := by
  induction ho generalizing st with
  | value value =>
    refine ⟨hs, ?_⟩
    rintro error ⟨⟩
  | raise hraises =>
    refine ⟨hs, ?_⟩
    rintro error ⟨⟩
    exact hraises
  | ask hask _ ih =>
    intro reply answered he
    exact ih reply (ha _ _ _ _ he) (has _ _ _ _ hs hask he)

theorem Obeys.reaches (inv : S → Prop) (ho : Obeys rules attempt)
    (ha : ∀ pre qry reply post, env pre qry reply post → rules.answers qry reply)
    (has : ∀ pre qry reply post, inv pre → rules.asks qry → env pre qry reply post → inv post)
    (hs : inv st) (hr : Proc.Reaches env st attempt final) : inv final := by
  induction ho generalizing st with
  | value value =>
    cases hr
    exact hs
  | raise hraises =>
    cases hr
    exact hs
  | ask hask _ ih =>
    rcases hr with _ | _ | ⟨he, hre⟩
    · exact hs
    · exact ih _ (ha _ _ _ _ he) (has _ _ _ _ hs hask he) hre

variable {handler : E → Attempt S Q R E β} {rest : α → Attempt S Q R E β}
  {post : Except E β → S → Prop}

theorem ends_handling {accepts : E → Bool} :
    (handling accepts attempt handler rest).Ends env post st ↔
      attempt.Ends env (fun outcome reached =>
        match outcome with
        | .ok value => (rest value).Ends env post reached
        | .error error => (if accepts error then handler error else raise error).Ends env post
            reached) st := by
  refine Proc.ends_bind.trans (iff_of_eq (congrArg (Proc.Ends env attempt · st) ?_))
  funext outcome reached
  cases outcome with
  | ok value => rfl
  | error error => rfl

theorem ends_bind : (attempt >>= rest).Ends env post st ↔ attempt.Ends env (fun outcome reached =>
        match outcome with
        | .ok value => (rest value).Ends env post reached
        | .error error => post (.error error) reached) st :=
  ends_handling

theorem Ends.mono {strong weak : Except E α → S → Prop} (he : attempt.Ends env strong st)
    (hp : ∀ outcome reached, strong outcome reached → weak outcome reached) :
    attempt.Ends env weak st :=
  Proc.Ends.mono he hp

end Attempt

theorem Proc.Ends.run {S Q α : Type} {R : Q → Type} {env : S → (qry : Q) → R qry → S → Prop}
    {proc : Proc S Q R α} {post : α → S → Prop} {st : S} {answer : S → (qry : Q) → R qry × S}
    (he : proc.Ends env post st) (ha : ∀ st qry, env st qry (answer st qry).1 (answer st qry).2) :
    ∃ value, (proc.run answer st).1 = some value ∧ post value (proc.run answer st).2 := by
  induction proc generalizing st with
  | done value => exact ⟨value, rfl, he⟩
  | halt => cases he
  | atomic upd next ih => exact ih st he
  | ask qry next ih => exact ih _ (he _ _ (ha st qry))

end AiQuant.Lib
