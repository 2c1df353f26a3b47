import AiQuant.Lib.Proc
import Mathlib.Logic.Relation

/-! Executions of a procedure among other parties, which share its store and may act
between any two of its steps. -/
namespace AiQuant.Lib

namespace Proc

variable {S Q : Type} {R : Q → Type} {α : Type}

/-- `own` lists the procedure's transactions by the states before and after them.  Its
questions are answered in any way, and it may be stopped anywhere. -/
inductive Interleaves (others : S → S → Prop) :
    S → Proc S Q R α → List (S × S) → S → Prop
  | here {state : S} {proc : Proc S Q R α} : Interleaves others state proc [] state
  | atomic {state final : S} {update : S → S} {next : S → Proc S Q R α} {own : List (S × S)}
      (hrest : Interleaves others (update state) (next state) own final) :
      Interleaves others state (atomic update next) ((state, update state) :: own) final
  | ask {state final : S} {query : Q} {next : R query → Proc S Q R α} {own : List (S × S)}
      (reply : R query) (hrest : Interleaves others state (next reply) own final) :
      Interleaves others state (ask query next) own final
  | others {state moved final : S} {proc : Proc S Q R α} {own : List (S × S)}
      (hmove : others state moved) (hrest : Interleaves others moved proc own final) :
      Interleaves others state proc own final

namespace Interleaves

variable {others : S → S → Prop} {state final : S} {own : List (S × S)}

theorem of_done {value : α} (hr : Interleaves others state (done value : Proc S Q R α) own final) :
    own = [] := by
  generalize hp : (done value : Proc S Q R α) = proc at hr
  induction hr with
  | here => rfl
  | atomic _ _ => cases hp
  | ask _ _ _ => cases hp
  | others _ _ ih => exact ih hp

theorem of_halt (hr : Interleaves others state (halt : Proc S Q R α) own final) : own = [] := by
  generalize hp : (halt : Proc S Q R α) = proc at hr
  induction hr with
  | here => rfl
  | atomic _ _ => cases hp
  | ask _ _ _ => cases hp
  | others _ _ ih => exact ih hp

theorem of_atomic {upd : S → S} {next : S → Proc S Q R α}
    (hrun : Interleaves others state (Proc.atomic upd next) own final) :
    own = [] ∨ ∃ seen rest, Relation.ReflTransGen others state seen ∧
      own = (seen, upd seen) :: rest ∧
      Interleaves others (upd seen) (next seen) rest final := by
  generalize hp : (Proc.atomic upd next : Proc S Q R α) = proc at hrun
  induction hrun with
  | here => exact Or.inl rfl
  | atomic hr _ =>
    cases hp
    exact Or.inr ⟨_, _, .refl, rfl, hr⟩
  | ask _ _ _ => cases hp
  | others hmove _ ih =>
    refine (ih hp).imp_right ?_
    rintro ⟨seen, rest, hm, ho, hr⟩
    exact ⟨seen, rest, .head hmove hm, ho, hr⟩

theorem of_ask {qry : Q} {next : R qry → Proc S Q R α}
    (hrun : Interleaves others state (Proc.ask qry next) own final) :
    own = [] ∨ ∃ seen reply, Relation.ReflTransGen others state seen ∧
      Interleaves others seen (next reply) own final := by
  generalize hp : (Proc.ask qry next : Proc S Q R α) = proc at hrun
  induction hrun with
  | here => exact Or.inl rfl
  | atomic _ _ => cases hp
  | ask reply hr _ =>
    cases hp
    exact Or.inr ⟨_, reply, .refl, hr⟩
  | others hmove _ ih =>
    refine (ih hp).imp_right ?_
    rintro ⟨seen, reply, hm, hr⟩
    exact ⟨seen, reply, .head hmove hm, hr⟩

theorem moves {moved : S} {proc : Proc S Q R α} (hm : Relation.ReflTransGen others state moved)
    (hr : Interleaves others moved proc own final) : Interleaves others state proc own final := by
  induction hm using Relation.ReflTransGen.head_induction_on with
  | refl => exact hr
  | head hmove _ ih => exact .others hmove ih

variable {β : Type}

theorem read_bind {qry : S → β} {rest : β → Proc S Q R α}
    (hr : Interleaves others state (rest (qry state)) own final) :
    Interleaves others state (Proc.read qry >>= rest) ((state, state) :: own) final :=
  .atomic hr

theorem of_read_bind {qry : S → β} {rest : β → Proc S Q R α}
    (hr : Interleaves others state (Proc.read qry >>= rest) own final) :
    own = [] ∨ ∃ seen later, Relation.ReflTransGen others state seen ∧
      own = (seen, seen) :: later ∧ Interleaves others seen (rest (qry seen)) later final :=
  of_atomic hr

theorem of_question_bind {qry : Q} {rest : R qry → Proc S Q R α}
    (hr : Interleaves others state (Proc.question qry >>= rest) own final) :
    own = [] ∨ ∃ seen reply, Relation.ReflTransGen others state seen ∧
      Interleaves others seen (rest reply) own final :=
  of_ask hr

theorem of_write {upd : S → S}
    (hrun : Interleaves others state (Proc.write upd : Proc S Q R Unit) own final) :
    own = [] ∨ ∃ seen, Relation.ReflTransGen others state seen ∧ own = [(seen, upd seen)] := by
  refine (of_atomic hrun).imp_right ?_
  rintro ⟨seen, rest, hm, ho, hr⟩
  rw [of_done hr] at ho
  exact ⟨seen, hm, ho⟩

theorem own_within {asks : Q → Prop} {writes : S → S → Prop} {proc : Proc S Q R α}
    (hw : proc.Within asks writes) (hr : Interleaves others state proc own final) :
    ∀ step ∈ own, writes step.1 step.2 := by
  induction hr with
  | here => simp
  | atomic _ ih =>
    rw [List.forall_mem_cons]
    exact ⟨hw.1 _, ih (hw.2 _)⟩
  | ask reply _ ih => exact ih (hw.2 reply)
  | others _ _ ih => exact ih hw

theorem own_related {asks : Q → Prop} {relation : S → S → Prop} {proc : Proc S Q R α}
    (hr : ∀ reached, relation reached reached)
    (ht : ∀ {first second third}, relation first second → relation second third →
      relation first third) (ho : ∀ {pre post}, others pre post → relation pre post)
    (hw : proc.Within asks relation) (hrun : Interleaves others state proc own final) :
    ∀ step ∈ own, relation state step.1 := by
  induction hrun with
  | here => simp
  | atomic _ ih =>
    rw [List.forall_mem_cons]
    exact ⟨hr _, fun step hs => ht (hw.1 _) (ih (hw.2 _) step hs)⟩
  | ask reply _ ih => exact ih (hw.2 reply)
  | others hmove _ ih => exact fun step hs => ht (ho hmove) (ih hw step hs)

theorem of_asking_bind {proc : Proc S Q R β} {rest : β → Proc S Q R α}
    (ha : proc.Within (fun _ => True) fun _ _ => False)
    (hrun : Interleaves others state (proc >>= rest) own final) :
    own = [] ∨ ∃ seen value, Relation.ReflTransGen others state seen ∧
      Interleaves others seen (rest value) own final := by
  induction proc generalizing state with
  | done value => exact Or.inr ⟨state, value, .refl, hrun⟩
  | halt => exact Or.inl (of_halt hrun)
  | atomic upd next _ => exact absurd (ha.1 state) id
  | ask qry next ih =>
    rcases of_ask hrun with hn | ⟨seen, reply, hm, hr⟩
    · exact Or.inl hn
    · refine (ih reply (ha.2 reply) hr).imp_right ?_
      rintro ⟨reached, value, hmo, haf⟩
      exact ⟨reached, value, hm.trans hmo, haf⟩

end Interleaves

/-- At most one transaction of the procedure is loud, and all others are quiet. -/
def Once (quiet loud : S → S → Prop) : Proc S Q R α → Prop
  | done _ => True
  | halt => True
  | atomic update next => ∀ state,
    quiet state (update state) ∧ (next state).Once quiet loud ∨
      loud state (update state) ∧ (next state).Within (fun _ => True) quiet
  | ask _ next => ∀ reply, (next reply).Once quiet loud

section Once

variable {β : Type} {asks : Q → Prop} {quiet loud : S → S → Prop} {proc : Proc S Q R α}

theorem Within.once (hw : proc.Within asks quiet) : proc.Once quiet loud := by
  induction proc with
  | done value => trivial
  | halt => trivial
  | atomic upd next ih => exact fun state => Or.inl ⟨hw.1 state, ih state (hw.2 state)⟩
  | ask qry next ih => exact fun reply => ih reply (hw.2 reply)

theorem once_write {upd : S → S} (hl : ∀ state, loud state (upd state)) :
    (write upd : Proc S Q R Unit).Once quiet loud :=
  fun state => Or.inr ⟨hl state, within_pure⟩

theorem once_bind_quiet {rest : α → Proc S Q R β} (hw : proc.Within asks quiet)
    (hr : ∀ value, (rest value).Once quiet loud) : (proc >>= rest).Once quiet loud := by
  show (proc.bind rest).Once quiet loud
  induction proc with
  | done value => exact hr value
  | halt => trivial
  | atomic upd next ih => exact fun state => Or.inl ⟨hw.1 state, ih state (hw.2 state)⟩
  | ask qry next ih => exact fun reply => ih reply (hw.2 reply)

theorem once_bind {rest : α → Proc S Q R β} (ho : proc.Once quiet loud)
    (hr : ∀ value, (rest value).Within (fun _ => True) quiet) :
    (proc >>= rest).Once quiet loud := by
  show (proc.bind rest).Once quiet loud
  induction proc with
  | done value => exact (hr value).once
  | halt => trivial
  | atomic upd next ih =>
    intro state
    refine (ho state).imp ?_ ?_
    · exact fun hq => ⟨hq.1, ih state hq.2⟩
    · exact fun hl => ⟨hl.1, within_bind hl.2 hr⟩
  | ask qry next ih => exact fun reply => ih reply (ho reply)

/-- What precedes the loud transaction was quiet, or done by others. -/
theorem Interleaves.own_once {others : S → S → Prop} {state final : S} {own : List (S × S)}
    (ho : proc.Once quiet loud) (hr : Interleaves others state proc own final) :
    ∀ step ∈ own, quiet step.1 step.2 ∨ loud step.1 step.2 ∧
      Relation.ReflTransGen (fun pre post => others pre post ∨ quiet pre post) state step.1 := by
  induction hr with
  | here => simp
  | atomic hrest ih =>
    rw [List.forall_mem_cons]
    rcases ho _ with ⟨hq, hn⟩ | ⟨hl, hn⟩
    · exact ⟨Or.inl hq, fun step hs =>
        (ih hn step hs).imp_right fun hlo => ⟨hlo.1, .head (Or.inr hq) hlo.2⟩⟩
    · exact ⟨Or.inr ⟨hl, .refl⟩, fun step hs => Or.inl (hrest.own_within hn step hs)⟩
  | ask reply _ ih => exact ih (ho reply)
  | others hmove _ ih =>
    exact fun step hs =>
      (ih ho step hs).imp_right fun hlo => ⟨hlo.1, .head (Or.inl hmove) hlo.2⟩

end Once

end Proc

end AiQuant.Lib
