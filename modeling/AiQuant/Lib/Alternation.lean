import Mathlib.Data.List.Chain

/-! Lists whose neighbours differ in kind.  A new item of the last one's kind replaces it when it
exceeds it; an item of another kind is appended. -/
namespace AiQuant.Lib

variable {α κ : Type} (kind : α → κ) (exceeds : α → α → Bool)

/-- The newer list starts with all but the last item of the older one, and has the last one or
one that exceeds it in its place. -/
def Continues (older newer : List α) : Prop :=
  ∀ settled last, older = settled ++ [last] →
    ∃ current more, newer = settled ++ current :: more ∧
      (current = last ∨ kind current = kind last ∧ exceeds current last)

def Alternates (items : List α) : Prop :=
  items.IsChain fun earlier later => kind earlier ≠ kind later

variable {kind exceeds}

theorem Continues.refl (items : List α) : Continues kind exceeds items items := by
  rintro settled last rfl
  exact ⟨last, [], rfl, .inl rfl⟩

theorem Continues.trans
    (ht : ∀ first second third, kind first = kind second → kind second = kind third →
      exceeds first second → exceeds second third → exceeds first third)
    {older newer newest : List α} (hne : Continues kind exceeds older newer)
    (hn : Continues kind exceeds newer newest) : Continues kind exceeds older newest := by
  intro settled last holder
  obtain ⟨current, more, rfl, hc⟩ := hne settled last holder
  rcases more.eq_nil_or_concat with rfl | ⟨between, final, rfl⟩
  · obtain ⟨latest, later, rfl, hl⟩ := hn settled current rfl
    refine ⟨latest, later, rfl, ?_⟩
    rcases hl with rfl | ⟨hk, he⟩
    · exact hc
    · rcases hc with rfl | ⟨hs, hexc⟩
      · exact .inr ⟨hk, he⟩
      · exact .inr ⟨hk.trans hs, ht latest current last hk hs he hexc⟩
  · obtain ⟨latest, later, hn, -⟩ := hn (settled ++ current :: between) final (by simp)
    exact ⟨current, between ++ latest :: later, by simp [hn], hc⟩

variable [DecidableEq κ]

variable (kind exceeds) in
def pushExtreme (items : List α) (item : α) : List α :=
  match items.getLast? with
  | none => [item]
  | some last =>
    if kind last = kind item then
      if exceeds item last then items.dropLast ++ [item] else items
    else items ++ [item]

variable {items settled : List α} {item last : α}

theorem pushExtreme_concat : pushExtreme kind exceeds (settled ++ [last]) item =
      if kind last = kind item then
        if exceeds item last then settled ++ [item] else settled ++ [last]
      else settled ++ [last] ++ [item] := by
  rw [pushExtreme, List.getLast?_concat]
  dsimp only
  rw [List.dropLast_concat]

theorem pushExtreme_sublist : (pushExtreme kind exceeds items item).Sublist (items ++ [item]) := by
  rcases items.eq_nil_or_concat with rfl | ⟨settled, last, rfl⟩
  · exact List.Sublist.refl _
  · rw [List.concat_eq_append, pushExtreme_concat]
    split_ifs with hk he
    · exact (List.sublist_append_left settled [last]).append_right [item]
    · exact List.sublist_append_left _ _
    · exact List.Sublist.refl _

theorem Alternates.pushExtreme (ha : Alternates kind items) :
    Alternates kind (pushExtreme kind exceeds items item) := by
  rcases items.eq_nil_or_concat with rfl | ⟨settled, last, rfl⟩
  · exact List.isChain_singleton _
  · rw [List.concat_eq_append] at ha ⊢
    rw [pushExtreme_concat]
    split_ifs with hk hexc
    · obtain ⟨hs, -, hla⟩ := List.isChain_append.mp ha
      refine List.isChain_append.mpr ⟨hs, List.isChain_singleton _, ?_⟩
      intro earlier he later hl
      obtain rfl : item = later := by simpa using hl
      rw [← hk]
      exact hla earlier he last rfl
    · exact ha
    · refine List.isChain_append.mpr ⟨ha, List.isChain_singleton _, ?_⟩
      intro earlier he later hl
      obtain rfl : item = later := by simpa using hl
      obtain rfl : last = earlier := by simpa using he
      exact hk

theorem continues_pushExtreme :
    Continues kind exceeds items (pushExtreme kind exceeds items item) := by
  rintro settled last rfl
  rw [pushExtreme_concat]
  split_ifs with hk he
  · exact ⟨item, [], rfl, .inr ⟨hk.symm, he⟩⟩
  · exact ⟨last, [], rfl, .inl rfl⟩
  · exact ⟨last, [item], List.append_assoc _ _ _, .inl rfl⟩

theorem foldl_pushExtreme_sublist (pushed : List α) :
    (pushed.foldl (pushExtreme kind exceeds) items).Sublist (items ++ pushed) := by
  induction pushed generalizing items with
  | nil => simp
  | cons item pushed ih =>
    have hi : (pushExtreme kind exceeds items item ++ pushed).Sublist
        (items ++ [item] ++ pushed) := pushExtreme_sublist.append_right pushed
    simpa using ih.trans hi

theorem Alternates.foldl_pushExtreme (ha : Alternates kind items) (pushed : List α) :
    Alternates kind (pushed.foldl (Lib.pushExtreme kind exceeds) items) := by
  induction pushed generalizing items with
  | nil => exact ha
  | cons item pushed ih => exact ih ha.pushExtreme

theorem continues_foldl_pushExtreme
    (ht : ∀ first second third, kind first = kind second → kind second = kind third →
      exceeds first second → exceeds second third → exceeds first third) (pushed : List α) :
    Continues kind exceeds items (pushed.foldl (pushExtreme kind exceeds) items) := by
  induction pushed generalizing items with
  | nil => exact Continues.refl items
  | cons item pushed ih => exact continues_pushExtreme.trans ht ih

end AiQuant.Lib
