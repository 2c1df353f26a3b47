import Mathlib.Data.List.Sublists

/-! A sequence of values of which only the last one is remembered.  What is taken is every value
that differs from the one before it; nothing is taken twice just when no value comes back after
another one. -/
namespace AiQuant.Lib

variable {α : Type}

/-- No value is followed by another one and by itself again. -/
def NoReturn (values : List α) : Prop :=
  ∀ value other, List.Sublist [value, other, value] values → other = value

section Changes

variable [DecidableEq α]

def changes : Option α → List α → List α
  | _, [] => []
  | last, value :: rest =>
    if last = some value then changes last rest else value :: changes (some value) rest

theorem mem_changes {last : Option α} {value : α} {values : List α}
    (hm : value ∈ changes last values) : value ∈ values := by
  induction values generalizing last with
  | nil => exact hm
  | cons first rest ih =>
    rw [changes] at hm
    split at hm
    · exact List.mem_cons_of_mem _ (ih hm)
    · rcases List.mem_cons.mp hm with rfl | hl
      · exact List.mem_cons_self
      · exact List.mem_cons_of_mem _ (ih hl)

theorem mem_cons_changes {last value : α} {values : List α} :
    value ∈ last :: changes (some last) values ↔ value ∈ last :: values := by
  constructor
  · intro hm
    rcases List.mem_cons.mp hm with rfl | hl
    · exact List.mem_cons_self
    · exact List.mem_cons_of_mem _ (mem_changes hl)
  · intro hm
    induction values generalizing last with
    | nil => exact hm
    | cons first rest ih =>
      rw [changes]
      split
      · next hs =>
        obtain rfl := Option.some.inj hs
        refine ih ?_
        rcases List.mem_cons.mp hm with rfl | hl
        · exact List.mem_cons_self
        · exact hl
      · rcases List.mem_cons.mp hm with rfl | hl
        · exact List.mem_cons_self
        · exact List.mem_cons_of_mem _ (ih hl)

end Changes

theorem NoReturn.of_cons {first : α} {rest : List α} (hn : NoReturn (first :: rest)) :
    NoReturn rest :=
  fun value other hs => hn value other (hs.cons first)

theorem noReturn_cons_self {first : α} {rest : List α} :
    NoReturn (first :: first :: rest) ↔ NoReturn (first :: rest) := by
  refine ⟨NoReturn.of_cons, fun hn value other hs => ?_⟩
  cases hs with
  | cons _ hl => exact hn value other hl
  | cons_cons _ hr =>
    cases hr with
    | cons _ hl => exact hn first other (hl.cons_cons first)
    | cons_cons _ _ => rfl

theorem noReturn_cons_cons {first second : α} {rest : List α} (hne : second ≠ first) :
    NoReturn (first :: second :: rest) ↔ first ∉ second :: rest ∧ NoReturn (second :: rest) := by
  constructor
  · refine fun hn => ⟨fun hm => ?_, hn.of_cons⟩
    rcases List.mem_cons.mp hm with rfl | hl
    · exact hne rfl
    · have hb : List.Sublist [first, second, first] (first :: second :: rest) :=
        ((List.singleton_sublist.mpr hl).cons_cons second).cons_cons first
      exact hne (hn first second hb)
  · rintro ⟨hnew, hn⟩ value other hs
    cases hs with
    | cons _ hl => exact hn value other hl
    | cons_cons _ hrest =>
      have hm := hrest.subset (List.mem_cons_of_mem _ List.mem_cons_self)
      exact absurd hm hnew

theorem noReturn_map {β : Type} {text : α → β} (hi : Function.Injective text)
    {values : List α} : NoReturn (values.map text) ↔ NoReturn values := by
  constructor
  · intro hn value other hs
    exact hi (hn (text value) (text other) (hs.map text))
  · intro hn value other hs
    obtain ⟨sub, hs, hte⟩ := List.sublist_map_iff.mp hs
    obtain ⟨first, _, rfl, rfl, hl⟩ := List.map_eq_cons_iff.mp hte.symm
    obtain ⟨second, _, rfl, rfl, hla⟩ := List.map_eq_cons_iff.mp hl
    obtain ⟨third, _, rfl, ht, hnil⟩ := List.map_eq_cons_iff.mp hla
    obtain rfl := hi ht
    obtain rfl := List.map_eq_nil_iff.mp hnil
    rw [hn third second hs]

theorem nodup_changes_iff [DecidableEq α] : ∀ values : List α,
    (changes none values).Nodup ↔ NoReturn values
  | [] => by
    refine iff_of_true List.nodup_nil fun value other hsub => ?_
    cases hsub
  | first :: rest => by
    have hf : ∀ (rest : List α) (first : α),
        (first :: changes (some first) rest).Nodup ↔ NoReturn (first :: rest) := by
      intro rest
      induction rest with
      | nil =>
        intro first
        refine iff_of_true (List.nodup_singleton first) fun value other hsub => ?_
        have hl := hsub.length_le
        simp at hl
      | cons second later ih =>
        intro first
        rw [changes]
        by_cases hs : second = first
        · subst hs
          rw [if_pos rfl, ih, noReturn_cons_self]
        · rw [if_neg fun heq => hs (Option.some.inj heq).symm, List.nodup_cons, ih,
            mem_cons_changes, noReturn_cons_cons hs]
    rw [changes, if_neg (Option.some_ne_none first).symm]
    exact hf rest first

end AiQuant.Lib
