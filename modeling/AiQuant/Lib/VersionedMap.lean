import Mathlib.Data.Finmap

/-! Finite maps that change by numbered versions.  Each version writes absolute values at
some keys, and a patch that carries the values of a later version at every key written in
between moves an older copy to that version: what a reader of snapshots and patches needs. -/
namespace AiQuant.Lib

variable {κ ν : Type} [DecidableEq κ]

/-- An absolute value at a key; `none` removes the key. -/
abbrev Write (κ ν : Type) := κ × Option ν

def put (map : Finmap fun _ : κ => ν) (write : Write κ ν) : Finmap fun _ : κ => ν :=
  match write.2 with
  | none => map.erase write.1
  | some value => map.insert write.1 value

def putAll (map : Finmap fun _ : κ => ν) (writes : List (Write κ ν)) : Finmap fun _ : κ => ν :=
  writes.foldl put map

variable {map : Finmap fun _ : κ => ν} {writes : List (Write κ ν)} {write : Write κ ν} {key : κ}

theorem lookup_put : (put map write).lookup key =
    if key = write.1 then write.2 else map.lookup key := by
  obtain ⟨target, value⟩ := write
  by_cases hk : key = target
  · subst hk
    cases value <;> simp [put]
  · cases value <;> simp [put, hk]

theorem lookup_putAll_of_forall_ne (hne : ∀ write ∈ writes, write.1 ≠ key) :
    (putAll map writes).lookup key = map.lookup key := by
  induction writes generalizing map with
  | nil => rfl
  | cons head tail ih =>
    have hh : key ≠ head.1 := fun heq => hne head (by simp) heq.symm
    rw [putAll, List.foldl_cons, ← putAll,
      ih fun write hw => hne write (by simp [hw]), lookup_put, if_neg hh]

theorem lookup_putAll_of_forall_eq {value : Option ν}
    (heq : ∀ write ∈ writes, write.1 = key → write.2 = value)
    (hm : ∃ write ∈ writes, write.1 = key) : (putAll map writes).lookup key = value := by
  induction writes generalizing map with
  | nil => simp at hm
  | cons head tail ih =>
    rw [putAll, List.foldl_cons, ← putAll]
    by_cases ht : ∃ write ∈ tail, write.1 = key
    · exact ih (fun write hw => heq write (by simp [hw])) ht
    · -- The last write at the key is the head.
      push Not at ht
      have hh : head.1 = key := by
        obtain ⟨write, hw, hk⟩ := hm
        rcases List.mem_cons.1 hw with rfl | hw
        · exact hk
        · exact absurd hk (ht write hw)
      rw [lookup_putAll_of_forall_ne ht, lookup_put, if_pos hh.symm]
      exact heq head (by simp) hh

/-- The map at a version, where `log` holds the writes of every version. -/
def mapAt (log : ℕ → List (Write κ ν)) : ℕ → Finmap fun _ : κ => ν
  | 0 => putAll ∅ (log 0)
  | version + 1 => putAll (mapAt log version) (log (version + 1))

/-- The key is written by a version after `since`, up to `version`. -/
def WrittenIn (log : ℕ → List (Write κ ν)) (since version : ℕ) (key : κ) : Prop :=
  ∃ id, since < id ∧ id ≤ version ∧ ∃ write ∈ log id, write.1 = key

variable {log : ℕ → List (Write κ ν)} {since version : ℕ}

omit [DecidableEq κ] in
theorem WrittenIn.succ (hw : WrittenIn log since version key) :
    WrittenIn log since (version + 1) key := by
  obtain ⟨id, hs, hid, hwr⟩ := hw
  exact ⟨id, hs, Nat.le_succ_of_le hid, hwr⟩

theorem lookup_mapAt_of_not_writtenIn (hle : since ≤ version)
    (hn : ¬WrittenIn log since version key) :
    (mapAt log version).lookup key = (mapAt log since).lookup key := by
  induction version, hle using Nat.le_induction with
  | base => rfl
  | succ version hle ih =>
    have hne : ∀ write ∈ log (version + 1), write.1 ≠ key := fun write hwr hk =>
      hn ⟨version + 1, Nat.lt_succ_of_le hle, le_rfl, write, hwr, hk⟩
    rw [mapAt, lookup_putAll_of_forall_ne hne]
    exact ih fun hw => hn hw.succ

/-- A patch with the absolute values of `version` at every key written since. -/
structure Patches (log : ℕ → List (Write κ ν)) (since version : ℕ)
    (writes : List (Write κ ν)) : Prop where
  absolute : ∀ write ∈ writes, write.2 = (mapAt log version).lookup write.1
  complete : ∀ key, WrittenIn log since version key → ∃ write ∈ writes, write.1 = key

theorem Patches.putAll_eq (hp : Patches log since version writes) (hle : since ≤ version) :
    putAll (mapAt log since) writes = mapAt log version := by
  refine Finmap.ext_lookup fun key => ?_
  by_cases hm : ∃ write ∈ writes, write.1 = key
  · refine lookup_putAll_of_forall_eq ?_ hm
    rintro write hwr rfl
    exact hp.absolute write hwr
  · have hn : ¬WrittenIn log since version key := fun hw =>
      hm (hp.complete key hw)
    push Not at hm
    rw [lookup_putAll_of_forall_ne hm, lookup_mapAt_of_not_writtenIn hle hn]

theorem putAll_empty_eq (ha : ∀ write ∈ writes, write.2 = (mapAt log version).lookup write.1)
    (hc : ∀ key ∈ mapAt log version, ∃ write ∈ writes, write.1 = key) :
    putAll ∅ writes = mapAt log version := by
  refine Finmap.ext_lookup fun key => ?_
  by_cases hm : ∃ write ∈ writes, write.1 = key
  · refine lookup_putAll_of_forall_eq ?_ hm
    rintro write hw rfl
    exact ha write hw
  · have hab : key ∉ mapAt log version := fun hk => hm (hc key hk)
    push Not at hm
    rw [lookup_putAll_of_forall_ne hm, Finmap.lookup_empty, Finmap.lookup_eq_none.2 hab]

end AiQuant.Lib
