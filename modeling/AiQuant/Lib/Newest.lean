import Mathlib.Data.List.MinMax
import Mathlib.Data.Prod.Lex

/-! Reading the newest row of an append-only table.  A row carries a time and an
identifier, and the newest row is the greatest pair of the two: the query
`ORDER BY time DESC, id DESC LIMIT 1`.  Commit order and query order agree only
as long as the times of the committed rows strictly increase. -/
namespace AiQuant.Lib

section NewestBy

variable {α β : Type} [LinearOrder β] (key : α → β)

/-- The row that `ORDER BY key DESC LIMIT 1` returns.  The order of the keys is asked for
as a linear one: the partial order of `ℤ` may be found through instances that do not
compute. -/
def newestBy (rows : List α) : Option α :=
  rows.argmax key

theorem newestBy_eq_none_iff {rows : List α} : newestBy key rows = none ↔ rows = [] :=
  List.argmax_eq_none

theorem newestBy_mem {rows : List α} {row : α} (hn : newestBy key rows = some row) : row ∈ rows :=
  List.argmax_mem hn

theorem le_of_newestBy {rows : List α} {row best : α} (hm : row ∈ rows)
    (hn : newestBy key rows = some best) : key row ≤ key best :=
  List.le_of_mem_argmax hm hn

theorem newestBy_concat (rows : List α) (row : α) : newestBy key (rows ++ [row]) =
      match newestBy key rows with
      | none => some row
      | some best => if key best < key row then some row else some best := by
  unfold newestBy
  rw [List.argmax_concat]
  cases rows.argmax key with
  | none => rfl
  | some best => rfl

end NewestBy

section Newest

variable {α : Type} (stamp : α → ℤ) (rank : α → ℕ)

/-- The row that `ORDER BY stamp DESC, rank DESC LIMIT 1` returns. -/
def newest (rows : List α) : Option α :=
  newestBy (fun row => (toLex (stamp row, rank row) : ℤ ×ₗ ℕ)) rows

@[simp] theorem newest_nil : newest stamp rank [] = none := rfl

@[simp] theorem newest_eq_none_iff {rows : List α} : newest stamp rank rows = none ↔ rows = [] :=
  newestBy_eq_none_iff _

theorem newest_mem {rows : List α} {row : α}
    (hn : newest stamp rank rows = some row) : row ∈ rows :=
  newestBy_mem _ hn

theorem newest_concat_of_lt {rows : List α} {row : α} (hl : ∀ old ∈ rows, stamp old < stamp row) :
    newest stamp rank (rows ++ [row]) = some row := by
  unfold newest
  rw [newestBy_concat]
  cases hb : newestBy (fun row => (toLex (stamp row, rank row) : ℤ ×ₗ ℕ)) rows with
  | none => rfl
  | some best =>
    have hlt : toLex (stamp best, rank best) < toLex (stamp row, rank row) := by
      rw [Prod.Lex.toLex_lt_toLex]
      exact Or.inl (hl best (newestBy_mem _ hb))
    simp [hlt]

theorem newest_append_cases (rows added : List α) :
    newest stamp rank (rows ++ added) = newest stamp rank rows ∨
      ∃ row ∈ added, newest stamp rank (rows ++ added) = some row := by
  induction added using List.reverseRecOn with
  | nil => exact Or.inl (by rw [List.append_nil])
  | append_singleton added row ih =>
    have hl : newest stamp rank (rows ++ (added ++ [row])) = newest stamp rank (rows ++ added) ∨
        newest stamp rank (rows ++ (added ++ [row])) = some row := by
      unfold newest
      rw [← List.append_assoc, newestBy_concat]
      cases newestBy (fun row => (toLex (stamp row, rank row) : ℤ ×ₗ ℕ)) (rows ++ added) with
      | none => exact Or.inr rfl
      | some best =>
        dsimp only
        split
        · exact Or.inr rfl
        · exact Or.inl rfl
    rcases hl with hs | hn
    · rcases ih with hold | ⟨other, hm, ho⟩
      · exact Or.inl (hs.trans hold)
      · exact Or.inr ⟨other, by simp [hm], hs.trans ho⟩
    · exact Or.inr ⟨row, by simp, hn⟩

/-- `ORDER BY stamp DESC, rank DESC` puts `row` strictly before `other`. -/
def Newer (row other : α) : Prop :=
  toLex (stamp other, rank other) < toLex (stamp row, rank row)

instance (row other : α) : Decidable (Newer stamp rank row other) :=
  inferInstanceAs (Decidable (toLex (stamp other, rank other) < toLex (stamp row, rank row)))

theorem Newer.trans {first second third : α} (hf : Newer stamp rank first second)
    (hs : Newer stamp rank second third) : Newer stamp rank first third :=
  lt_trans hs hf

theorem not_newer_of_newest {rows : List α} {best row : α}
    (hn : newest stamp rank rows = some best) (hm : row ∈ rows) : ¬ Newer stamp rank row best := by
  have hle := le_of_newestBy _ hm hn
  exact not_lt.mpr hle

theorem Newer.of_not_newer {first second third : α} (hf : Newer stamp rank first second)
    (hs : ¬ Newer stamp rank third second) : Newer stamp rank first third :=
  lt_of_le_of_lt (not_lt.mp hs) hf

theorem newest_concat_of_newer {rows : List α} {row : α}
    (hn : ∀ old ∈ rows, Newer stamp rank row old) :
    newest stamp rank (rows ++ [row]) = some row := by
  unfold newest
  rw [newestBy_concat]
  cases hb : newestBy (fun row => (toLex (stamp row, rank row) : ℤ ×ₗ ℕ)) rows with
  | none => rfl
  | some best => exact if_pos (hn best (newestBy_mem _ hb))

theorem newer_of_newest_concat {rows : List α} {row : α} (hf : row ∉ rows)
    (hn : newest stamp rank (rows ++ [row]) = some row) :
    ∀ old ∈ rows, Newer stamp rank row old := by
  intro old ho
  unfold newest at hn
  rw [newestBy_concat] at hn
  cases hb : newestBy (fun row => (toLex (stamp row, rank row) : ℤ ×ₗ ℕ)) rows with
  | none =>
    rw [newestBy_eq_none_iff] at hb
    simp [hb] at ho
  | some best =>
    rw [hb] at hn
    dsimp only at hn
    split at hn
    · rename_i hlt
      have hle := le_of_newestBy _ ho hb
      exact lt_of_le_of_lt hle hlt
    · cases hn
      exact absurd (newestBy_mem _ hb) hf

theorem newest_concat_cases (rows : List α) (row : α) :
    (newest stamp rank (rows ++ [row]) = some row ∧ ∀ old ∈ rows, Newer stamp rank row old) ∨
      newest stamp rank (rows ++ [row]) = newest stamp rank rows := by
  unfold newest
  rw [newestBy_concat]
  cases hb : newestBy (fun row => (toLex (stamp row, rank row) : ℤ ×ₗ ℕ)) rows with
  | none =>
    rw [newestBy_eq_none_iff] at hb
    exact Or.inl ⟨rfl, by simp [hb]⟩
  | some best =>
    dsimp only
    split
    · rename_i hlt
      refine Or.inl ⟨rfl, fun old ho => ?_⟩
      have hle := le_of_newestBy _ ho hb
      exact lt_of_le_of_lt hle hlt
    · exact Or.inr rfl

theorem newest_filter_concat_cases (keep : α → Bool) (rows : List α) (row : α) :
    (keep row = true ∧ newest stamp rank ((rows ++ [row]).filter keep) = some row ∧
        ∀ old ∈ rows.filter keep, Newer stamp rank row old) ∨
      newest stamp rank ((rows ++ [row]).filter keep) = newest stamp rank (rows.filter keep) := by
  rw [List.filter_append]
  cases hk : keep row with
  | false => exact Or.inr (by rw [List.filter_cons_of_neg (by simp [hk]), List.filter_nil,
      List.append_nil])
  | true =>
    rw [List.filter_cons_of_pos hk, List.filter_nil]
    rcases newest_concat_cases stamp rank (rows.filter keep) row with hn | hs
    · exact Or.inl ⟨rfl, hn⟩
    · exact Or.inr hs

theorem newest_append_of_not_newer {rows added : List α} {best : α}
    (hn : newest stamp rank rows = some best) (ha : ∀ row ∈ added, ¬ Newer stamp rank row best) :
    newest stamp rank (rows ++ added) = some best := by
  induction added using List.reverseRecOn with
  | nil => rwa [List.append_nil]
  | append_singleton added row ih =>
    have ho : newest stamp rank (rows ++ added) = some best :=
      ih fun other hm => ha other (List.mem_append_left _ hm)
    unfold newest at ho ⊢
    rw [← List.append_assoc, newestBy_concat, ho]
    exact if_neg (ha row (by simp))

theorem newest_append_of_forall {kept : α → Prop} {rows added : List α}
    (hn : ∃ best, newest stamp rank rows = some best ∧ kept best) (ha : ∀ row ∈ added, kept row) :
    ∃ best, newest stamp rank (rows ++ added) = some best ∧ kept best := by
  rcases newest_append_cases stamp rank rows added with hs | ⟨row, hr, hnew⟩
  · rw [hs]
    exact hn
  · exact ⟨row, hnew, ha row hr⟩

theorem newest_of_later {kept : α → Prop} {rows : List α} {row : α} (hm : row ∈ rows)
    (hl : ∀ other ∈ rows, ¬ kept other → stamp other < stamp row) :
    ∃ best, newest stamp rank rows = some best ∧ kept best := by
  cases hn : newest stamp rank rows with
  | none =>
    rw [newest_eq_none_iff] at hn
    rw [hn] at hm
    cases hm
  | some best =>
    refine ⟨best, rfl, by_contra fun hlo => ?_⟩
    have hlt := hl best (newest_mem _ _ hn) hlo
    exact not_newer_of_newest _ _ hn hm (Prod.Lex.toLex_lt_toLex.mpr (Or.inl hlt))

theorem newest_eq_some_of_lt {rows : List α} {row : α} (hm : row ∈ rows)
    (hl : ∀ other ∈ rows, other ≠ row → stamp other < stamp row) :
    newest stamp rank rows = some row := by
  cases hn : newest stamp rank rows with
  | none =>
    rw [newest_eq_none_iff] at hn
    rw [hn] at hm
    cases hm
  | some best =>
    by_contra hother
    have hlt := hl best (newest_mem _ _ hn) fun he => hother (congrArg some he)
    exact not_newer_of_newest _ _ hn hm (Prod.Lex.toLex_lt_toLex.mpr (Or.inl hlt))

theorem newest_eq_getLast {rows : List α}
    (hi : rows.Pairwise fun left right => stamp left < stamp right) :
    newest stamp rank rows = rows.getLast? := by
  induction rows using List.reverseRecOn with
  | nil => rfl
  | append_singleton rows row _ =>
    rw [List.pairwise_append] at hi
    rw [newest_concat_of_lt stamp rank fun old ho =>
      hi.2.2 old ho row (by simp)]
    simp

end Newest

section Greatest

variable {α : Type} [LinearOrder α]

theorem max?_concat (values : List α) (value : α) :
    (values ++ [value]).max? = some (values.max?.elim value (max · value)) := by
  cases values with
  | nil => rfl
  | cons first rest =>
    rw [List.cons_append, List.max?_cons', List.foldl_append, List.max?_cons']
    rfl

theorem le_of_max? {values : List α} {value best : α} (hb : values.max? = some best)
    (hm : value ∈ values) : value ≤ best :=
  (List.max?_eq_some_iff.mp hb).2 value hm

theorem le_getD_max? {values : List α} {value : α} (hm : value ∈ values) (default : α) :
    value ≤ values.max?.getD default := by
  cases hmax : values.max? with
  | none =>
    rw [List.max?_eq_none_iff.mp hmax] at hm
    cases hm
  | some best => exact le_of_max? hmax hm

end Greatest

end AiQuant.Lib
