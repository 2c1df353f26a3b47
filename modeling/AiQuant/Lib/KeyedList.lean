import Mathlib.Data.List.Basic
import Mathlib.Data.List.Nodup

/-! A dictionary whose values carry their own keys, in the order of insertion. -/
namespace AiQuant.Lib

variable {α κ : Type}

structure KeyedList (key : α → κ) where
  items : List α
  nodup : (items.map key).Nodup

namespace KeyedList

variable {key : α → κ}

def empty : KeyedList key where
  items := []
  nodup := List.nodup_nil

variable [DecidableEq κ]

def lookup (dict : KeyedList key) (name : κ) : Option α :=
  dict.items.find? fun item => key item = name

variable {dict : KeyedList key} {item found : α} {name : κ}

theorem key_of_lookup (hl : dict.lookup name = some item) : key item = name := by
  simpa using List.find?_some hl

theorem mem_of_lookup (hl : dict.lookup name = some item) : item ∈ dict.items :=
  List.mem_of_find?_eq_some hl

theorem lookup_of_mem (hm : item ∈ dict.items) : dict.lookup (key item) = some item := by
  cases hf : dict.lookup (key item) with
  | none =>
    have hne := List.find?_eq_none.mp hf item hm
    simp at hne
  | some found =>
    have hk := key_of_lookup hf
    exact congrArg some (List.inj_on_of_nodup_map dict.nodup (mem_of_lookup hf) hm hk)

theorem notMem_of_lookup_eq_none (hn : dict.lookup name = none) : name ∉ dict.items.map key := by
  intro hm
  obtain ⟨item, hi, rfl⟩ := List.mem_map.mp hm
  rw [lookup_of_mem hi] at hn
  exact absurd hn (Option.some_ne_none _)

/-- `dict.setdefault(key(item), item)` -/
def setDefault (dict : KeyedList key) (item : α) : KeyedList key :=
  if hnone : dict.lookup (key item) = none then
    { items := dict.items ++ [item]
      nodup := by
        rw [List.map_append, List.map_singleton, List.nodup_append_comm, List.singleton_append]
        exact List.nodup_cons.mpr ⟨notMem_of_lookup_eq_none hnone, dict.nodup⟩ }
  else dict

/-- `dict[key(item)] = item` of a key that is there. -/
def replace (dict : KeyedList key) (item : α) : KeyedList key where
  items := dict.items.map fun other => if key other = key item then item else other
  nodup := by
    have hkeys : (dict.items.map fun other =>
        if key other = key item then item else other).map key = dict.items.map key := by
      rw [List.map_map]
      apply List.map_congr_left
      intro other _
      by_cases hkey : key other = key item
      · simp [hkey]
      · simp [hkey]
    rw [hkeys]
    exact dict.nodup

theorem lookup_setDefault : (dict.setDefault item).lookup name =
      if name = key item then some ((dict.lookup name).getD item) else dict.lookup name := by
  unfold setDefault
  split_ifs with hno hn hn
  · subst hn
    simp only [lookup, List.find?_append] at hno ⊢
    simp [hno]
  · have hk : ¬ key item = name := fun heq => hn heq.symm
    simp [lookup, List.find?_append, hk]
  · subst hn
    obtain ⟨found, hf⟩ := Option.ne_none_iff_exists'.mp hno
    simp [hf]
  · rfl

theorem lookup_replace : (dict.replace item).lookup name =
      if name = key item then (dict.lookup name).map fun _ => item else dict.lookup name := by
  obtain ⟨items, hn⟩ := dict
  simp only [replace, lookup]
  induction items with
  | nil => simp
  | cons head items ih =>
    have ht := ih (List.nodup_cons.mp hn).2
    by_cases hh : key head = key item
    · by_cases hna : name = key item
      · simp [hh, hna]
      · have ho : ¬ key item = name := fun heq => hna heq.symm
        simpa [hh, hna, ho] using ht
    · by_cases hf : key head = name
      · have hna : ¬ name = key item := fun heq => hh (hf.trans heq)
        simp [hf, hna]
      · simpa [hh, hf] using ht

end KeyedList

end AiQuant.Lib
