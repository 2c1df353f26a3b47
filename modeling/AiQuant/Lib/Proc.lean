import Mathlib.Logic.Basic

/-! Procedures over a durable store and an outside world.  A procedure alternates
atomic transactions on the store with questions whose answers it cannot predict, and
may be stopped between any two of them: by an uncaught exception, or by the end of its
process.  `Reaches` collects every state that a possibly stopped run leaves behind,
`Returns` the completed runs, and `Proc.Safe` is the rule to prove things of both. -/
namespace AiQuant.Lib

/-- `update` commits a transaction; the rest of the procedure sees the state it read. -/
inductive Proc (S Q : Type) (R : Q → Type) (α : Type) : Type where
  | done (value : α)
  | halt
  | atomic (update : S → S) (next : S → Proc S Q R α)
  | ask (question : Q) (next : R question → Proc S Q R α)

namespace Proc

variable {S Q : Type} {R : Q → Type} {α β : Type}

def bind : Proc S Q R α → (α → Proc S Q R β) → Proc S Q R β
  | done value, rest => rest value
  | halt, _ => halt
  | atomic update next, rest => atomic update fun state => (next state).bind rest
  | ask question next, rest => ask question fun reply => (next reply).bind rest

instance : Monad (Proc S Q R) where
  pure := done
  bind := bind

def read (query : S → α) : Proc S Q R α :=
  atomic id fun state => done (query state)

def write (update : S → S) : Proc S Q R Unit :=
  atomic update fun _ => done ()

def transact (transaction : S → α × S) : Proc S Q R α :=
  atomic (fun state => (transaction state).2) fun state => done (transaction state).1

def question (query : Q) : Proc S Q R (R query) :=
  ask query done

/-- The completed runs, where `env` says what the world may answer and do to the state
while it does. -/
inductive Returns (env : S → (query : Q) → R query → S → Prop) :
    S → Proc S Q R α → α → S → Prop
  | done {state : S} {value : α} : Returns env state (done value) value state
  | atomic {state final : S} {update : S → S} {next : S → Proc S Q R α} {value : α}
      (hrest : Returns env (update state) (next state) value final) :
      Returns env state (atomic update next) value final
  | ask {state answered final : S} {query : Q} {next : R query → Proc S Q R α}
      {reply : R query} {value : α} (henv : env state query reply answered)
      (hrest : Returns env answered (next reply) value final) :
      Returns env state (ask query next) value final

/-- Every state that a run may be stopped in. -/
inductive Reaches (env : S → (query : Q) → R query → S → Prop) :
    S → Proc S Q R α → S → Prop
  | here {state : S} {proc : Proc S Q R α} : Reaches env state proc state
  | atomic {state final : S} {update : S → S} {next : S → Proc S Q R α}
      (hrest : Reaches env (update state) (next state) final) :
      Reaches env state (atomic update next) final
  | ask {state answered final : S} {query : Q} {next : R query → Proc S Q R α}
      {reply : R query} (henv : env state query reply answered)
      (hrest : Reaches env answered (next reply) final) :
      Reaches env state (ask query next) final

/-- From `state`, every step of the procedure keeps `invariant`, and a completed run
ends with `post`. -/
def Safe (env : S → (query : Q) → R query → S → Prop) (invariant : S → Prop) :
    Proc S Q R α → (α → S → Prop) → S → Prop
  | done value, post, state => post value state
  | halt, _, _ => True
  | atomic update next, post, state =>
    invariant (update state) ∧ (next state).Safe env invariant post (update state)
  | ask query next, post, state => ∀ reply answered, env state query reply answered →
    invariant answered ∧ (next reply).Safe env invariant post answered

variable {env : S → (query : Q) → R query → S → Prop} {inv : S → Prop}
  {proc : Proc S Q R α} {post strong : α → S → Prop} {state final : S}

@[simp] theorem safe_pure {value : α} :
    (pure value : Proc S Q R α).Safe env inv post state ↔ post value state :=
  Iff.rfl

@[simp] theorem safe_halt : (halt : Proc S Q R α).Safe env inv post state := trivial

@[simp] theorem safe_read {query : S → α} : (read query : Proc S Q R α).Safe env inv post state ↔
      inv state ∧ post (query state) state :=
  Iff.rfl

@[simp] theorem safe_write {upd : S → S} {post : Unit → S → Prop} :
    (write upd : Proc S Q R Unit).Safe env inv post state ↔ inv (upd state) ∧ post () (upd state) :=
  Iff.rfl

@[simp] theorem safe_transact {transaction : S → α × S} :
    (transact transaction : Proc S Q R α).Safe env inv post state ↔
      inv (transaction state).2 ∧ post (transaction state).1 (transaction state).2 :=
  Iff.rfl

@[simp] theorem safe_question {query : Q} {post : R query → S → Prop} :
    (question query : Proc S Q R (R query)).Safe env inv post state ↔
      ∀ reply answered, env state query reply answered → inv answered ∧ post reply answered :=
  Iff.rfl

@[simp] theorem safe_bind {rest : α → Proc S Q R β} {post : β → S → Prop} :
    (proc >>= rest).Safe env inv post state ↔
      proc.Safe env inv (fun value reached => (rest value).Safe env inv post reached)
        state := by
  show (proc.bind rest).Safe env inv post state ↔ _
  induction proc generalizing state with
  | done value => exact Iff.rfl
  | halt => exact Iff.rfl
  | atomic upd next ih => exact and_congr_right fun _ => ih state
  | ask query next ih =>
    exact forall₂_congr fun reply answered => imp_congr_right fun _ =>
      and_congr_right fun _ => ih reply

theorem Safe.mono (hs : proc.Safe env inv strong state)
    (hp : ∀ value reached, strong value reached → post value reached) :
    proc.Safe env inv post state := by
  induction proc generalizing state with
  | done value => exact hp value state hs
  | halt => trivial
  | atomic upd next ih => exact ⟨hs.1, ih state hs.2⟩
  | ask query next ih =>
    intro reply answered he
    exact ⟨(hs reply answered he).1, ih reply (hs reply answered he).2⟩

theorem Safe.weaken {weak : S → Prop} (hs : proc.Safe env inv post state)
    (hi : ∀ reached, inv reached → weak reached) : proc.Safe env weak post state := by
  induction proc generalizing state with
  | done value => exact hs
  | halt => trivial
  | atomic upd next ih => exact ⟨hi _ hs.1, ih state hs.2⟩
  | ask query next ih =>
    intro reply answered he
    exact ⟨hi _ (hs reply answered he).1, ih reply (hs reply answered he).2⟩

theorem Safe.and {other : S → Prop} {after : α → S → Prop}
    (hl : proc.Safe env inv post state) (hr : proc.Safe env other after state) :
    proc.Safe env (fun reached => inv reached ∧ other reached)
      (fun value reached => post value reached ∧ after value reached) state := by
  induction proc generalizing state with
  | done value => exact ⟨hl, hr⟩
  | halt => trivial
  | atomic upd next ih => exact ⟨⟨hl.1, hr.1⟩, ih state hl.2 hr.2⟩
  | ask query next ih =>
    intro reply answered he
    obtain ⟨hke, hl⟩ := hl reply answered he
    obtain ⟨hk, hr⟩ := hr reply answered he
    exact ⟨⟨hke, hk⟩, ih reply hl hr⟩

theorem Reaches.mono {allowed : S → (query : Q) → R query → S → Prop}
    (ha : ∀ pre query reply post, env pre query reply post → allowed pre query reply post)
    (hr : Reaches env state proc final) : Reaches allowed state proc final := by
  induction hr with
  | here => exact .here
  | atomic _ ih => exact .atomic ih
  | ask henv _ ih => exact .ask (ha _ _ _ _ henv) ih

theorem Safe.reaches (hsa : proc.Safe env inv post state) (hs : inv state)
    (hr : Reaches env state proc final) : inv final := by
  induction hr with
  | here => exact hs
  | atomic _ ih => exact ih hsa.2 hsa.1
  | ask henv _ ih => exact ih (hsa _ _ henv).2 (hsa _ _ henv).1

theorem Safe.returns {value : α} (hs : proc.Safe env inv post state)
    (hr : Returns env state proc value final) : post value final := by
  induction hr with
  | done => exact hs
  | atomic _ ih => exact ih hs.2
  | ask henv _ ih => exact ih (hs _ _ henv).2

theorem safe_returns : proc.Safe env (fun _ => True) (Returns env state proc) state := by
  induction proc generalizing state with
  | done value => exact .done
  | halt => trivial
  | atomic upd next ih =>
    exact ⟨trivial, (ih state).mono fun _ _ hr => .atomic hr⟩
  | ask query next ih =>
    intro reply answered he
    exact ⟨trivial, (ih reply).mono fun _ _ hr => .ask he hr⟩

/-- Every question is of an allowed kind and every transaction is one of `writes`. -/
def Within (asks : Q → Prop) (writes : S → S → Prop) : Proc S Q R α → Prop
  | done _ => True
  | halt => True
  | atomic update next =>
    (∀ state, writes state (update state)) ∧ ∀ state, (next state).Within asks writes
  | ask query next => asks query ∧ ∀ reply, (next reply).Within asks writes

variable {asks : Q → Prop} {writes : S → S → Prop}

@[simp] theorem within_pure {value : α} : (pure value : Proc S Q R α).Within asks writes := trivial

@[simp] theorem within_halt : (halt : Proc S Q R α).Within asks writes := trivial

@[simp] theorem within_read {query : S → α} :
    (read query : Proc S Q R α).Within asks writes ↔ ∀ state, writes state state :=
  ⟨fun hw => hw.1, fun hwr => ⟨hwr, fun _ => trivial⟩⟩

@[simp] theorem within_write {upd : S → S} :
    (write upd : Proc S Q R Unit).Within asks writes ↔ ∀ state, writes state (upd state) :=
  ⟨fun hw => hw.1, fun hwr => ⟨hwr, fun _ => trivial⟩⟩

@[simp] theorem within_transact {transaction : S → α × S} :
    (transact transaction : Proc S Q R α).Within asks writes ↔
      ∀ state, writes state (transaction state).2 :=
  ⟨fun hw => hw.1, fun hwr => ⟨hwr, fun _ => trivial⟩⟩

@[simp] theorem within_question {query : Q} :
    (question query : Proc S Q R (R query)).Within asks writes ↔ asks query :=
  ⟨fun hw => hw.1, fun ha => ⟨ha, fun _ => trivial⟩⟩

theorem within_bind {rest : α → Proc S Q R β} (hp : proc.Within asks writes)
    (hr : ∀ value, (rest value).Within asks writes) : (proc >>= rest).Within asks writes := by
  show (proc.bind rest).Within asks writes
  induction proc with
  | done value => exact hr value
  | halt => trivial
  | atomic upd next ih => exact ⟨hp.1, fun state => ih state (hp.2 state)⟩
  | ask query next ih => exact ⟨hp.1, fun reply => ih reply (hp.2 reply)⟩

theorem Within.mono {allowed : Q → Prop} {permitted : S → S → Prop}
    (hw : proc.Within asks writes) (ha : ∀ query, asks query → allowed query)
    (hwr : ∀ pre post, writes pre post → permitted pre post) : proc.Within allowed permitted := by
  induction proc with
  | done value => trivial
  | halt => trivial
  | atomic upd next ih =>
    exact ⟨fun state => hwr state _ (hw.1 state), fun state => ih state (hw.2 state)⟩
  | ask query next ih => exact ⟨ha query hw.1, fun reply => ih reply (hw.2 reply)⟩

theorem Within.safe (hw : proc.Within asks writes)
    (hwr : ∀ pre post, inv pre → writes pre post → inv post)
    (ha : ∀ pre query reply post, inv pre → asks query → env pre query reply post → inv post)
    (hs : inv state) : proc.Safe env inv (fun _ => inv) state := by
  induction proc generalizing state with
  | done value => exact hs
  | halt => trivial
  | atomic upd next ih =>
    have hn := hwr state _ hs (hw.1 state)
    exact ⟨hn, ih state (hw.2 state) hn⟩
  | ask query next ih =>
    intro reply answered he
    have hn := ha state query reply answered hs hw.1 he
    exact ⟨hn, ih reply (hw.2 reply) hn⟩

def run (answer : S → (query : Q) → R query × S) : Proc S Q R α → S → Option α × S
  | done value, state => (some value, state)
  | halt, state => (none, state)
  | atomic update next, state => (next state).run answer (update state)
  | ask query next, state =>
    (next (answer state query).1).run answer (answer state query).2

@[simp] theorem run_pure {answer : S → (query : Q) → R query × S} {value : α} :
    (pure value : Proc S Q R α).run answer state = (some value, state) := rfl

@[simp] theorem run_read_bind {answer : S → (query : Q) → R query × S} {query : S → β}
    {rest : β → Proc S Q R α} :
    (read query >>= rest).run answer state = (rest (query state)).run answer state := rfl

@[simp] theorem run_question_bind {answer : S → (query : Q) → R query × S} {query : Q}
    {rest : R query → Proc S Q R α} : (question query >>= rest).run answer state =
      (rest (answer state query).1).run answer (answer state query).2 := rfl

theorem run_bind_of_some {answer : S → (query : Q) → R query × S} {rest : α → Proc S Q R β}
    {value : α} {reached : S} (hp : proc.run answer state = (some value, reached)) :
    (proc >>= rest).run answer state = (rest value).run answer reached := by
  show (proc.bind rest).run answer state = (rest value).run answer reached
  induction proc generalizing state with
  | done result =>
    cases hp
    rfl
  | halt => cases hp
  | atomic upd next ih => exact ih state hp
  | ask query next ih => exact ih _ hp

theorem reaches_run {answer : S → (query : Q) → R query × S}
    (ha : ∀ state query, env state query (answer state query).1 (answer state query).2) :
    Reaches env state proc (proc.run answer state).2 := by
  induction proc generalizing state with
  | done value => exact .here
  | halt => exact .here
  | atomic upd next ih => exact .atomic (ih state)
  | ask query next ih => exact .ask (ha state query) (ih _)

theorem returns_run {answer : S → (query : Q) → R query × S} {value : α}
    (ha : ∀ state query, env state query (answer state query).1 (answer state query).2)
    (hr : (proc.run answer state).1 = some value) :
    Returns env state proc value (proc.run answer state).2 := by
  induction proc generalizing state with
  | done result =>
    cases hr
    exact .done
  | halt => cases hr
  | atomic upd next ih => exact .atomic (ih state hr)
  | ask query next ih => exact .ask (ha state query) (ih _ hr)

def runFor (answer : S → (query : Q) → R query × S) : Nat → Proc S Q R α → S → S
  | 0, _, state => state
  | _ + 1, done _, state => state
  | _ + 1, halt, state => state
  | steps + 1, atomic update next, state => (next state).runFor answer steps (update state)
  | steps + 1, ask query next, state =>
    (next (answer state query).1).runFor answer steps (answer state query).2

theorem reaches_runFor {answer : S → (query : Q) → R query × S}
    (ha : ∀ state query, env state query (answer state query).1 (answer state query).2)
    (steps : Nat) : Reaches env state proc (proc.runFor answer steps state) := by
  induction steps generalizing proc state with
  | zero => exact .here
  | succ steps ih =>
    cases proc with
    | done value => exact .here
    | halt => exact .here
    | atomic upd next => exact .atomic ih
    | ask query next => exact .ask (ha state query) ih

/-- From `state`, whatever the world answers, the procedure completes with `post`. -/
def Ends (env : S → (query : Q) → R query → S → Prop) :
    Proc S Q R α → (α → S → Prop) → S → Prop
  | done value, post, state => post value state
  | halt, _, _ => False
  | atomic update next, post, state => (next state).Ends env post (update state)
  | ask query next, post, state => ∀ reply answered, env state query reply answered →
    (next reply).Ends env post answered

@[simp] theorem ends_pure {value : α} :
    (pure value : Proc S Q R α).Ends env post state ↔ post value state :=
  Iff.rfl

@[simp] theorem ends_read {query : S → α} :
    (read query : Proc S Q R α).Ends env post state ↔ post (query state) state :=
  Iff.rfl

@[simp] theorem ends_write {upd : S → S} {post : Unit → S → Prop} :
    (write upd : Proc S Q R Unit).Ends env post state ↔ post () (upd state) :=
  Iff.rfl

@[simp] theorem ends_transact {transaction : S → α × S} :
    (transact transaction : Proc S Q R α).Ends env post state ↔
      post (transaction state).1 (transaction state).2 :=
  Iff.rfl

@[simp] theorem ends_question {query : Q} {post : R query → S → Prop} :
    (question query : Proc S Q R (R query)).Ends env post state ↔
      ∀ reply answered, env state query reply answered → post reply answered :=
  Iff.rfl

@[simp] theorem ends_bind {rest : α → Proc S Q R β} {post : β → S → Prop} :
    (proc >>= rest).Ends env post state ↔
      proc.Ends env (fun value reached => (rest value).Ends env post reached) state := by
  show (proc.bind rest).Ends env post state ↔ _
  induction proc generalizing state with
  | done value => exact Iff.rfl
  | halt => exact Iff.rfl
  | atomic upd next ih => exact ih state
  | ask query next ih =>
    exact forall₂_congr fun reply answered => imp_congr_right fun _ => ih reply

theorem Ends.mono (he : proc.Ends env strong state)
    (hp : ∀ value reached, strong value reached → post value reached) :
    proc.Ends env post state := by
  induction proc generalizing state with
  | done value => exact hp value state he
  | halt => exact he
  | atomic upd next ih => exact ih state he
  | ask query next ih => exact fun reply answered henv => ih reply (he reply answered henv)

theorem Ends.and_safe (he : proc.Ends env post state) (hs : proc.Safe env inv strong state) :
    proc.Ends env (fun value reached => post value reached ∧ strong value reached) state := by
  induction proc generalizing state with
  | done value => exact ⟨he, hs⟩
  | halt => exact he
  | atomic upd next ih => exact ih state he hs.2
  | ask query next ih =>
    exact fun reply answered henv => ih reply (he reply answered henv) (hs reply answered henv).2

def Replies (answer : S → (query : Q) → R query × S) (state : S) (query : Q) (reply : R query)
    (answered : S) : Prop :=
  reply = (answer state query).1 ∧ answered = (answer state query).2

theorem ends_replies_of_run {answer : S → (query : Q) → R query × S} {value : α}
    (hr : (proc.run answer state).1 = some value) (hp : post value (proc.run answer state).2) :
    proc.Ends (Replies answer) post state := by
  induction proc generalizing state with
  | done result =>
    cases hr
    exact hp
  | halt => cases hr
  | atomic upd next ih => exact ih state hr hp
  | ask query next ih =>
    rintro reply answered ⟨rfl, rfl⟩
    exact ih _ hr hp

end Proc

end AiQuant.Lib
