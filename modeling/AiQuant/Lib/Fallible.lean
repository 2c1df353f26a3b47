import Mathlib.Data.List.Basic

/-! Inversion of computations that may fail.  A successful run of a sequence or
of a loop is peeled apart into the successful runs of its steps. -/
namespace AiQuant.Lib

variable {ε α β : Type}

@[simp] theorem bind_eq_ok_iff {first : Except ε α} {rest : α → Except ε β} {result : β} :
    (first >>= rest) = .ok result ↔ ∃ value, first = .ok value ∧ rest value = .ok result := by
  cases first with
  | error code => simp [bind, Except.bind]
  | ok value => simp [bind, Except.bind]

theorem ite_error_eq_ok_iff {guard : Prop} [Decidable guard] {code : ε} {rest : Except ε α}
    {result : α} :
    (if guard then .error code else rest) = .ok result ↔ ¬ guard ∧ rest = .ok result := by
  split_ifs with hg
  · simp [hg]
  · simp [hg]

theorem bind_eq_error_iff {first : Except ε α} {rest : α → Except ε β} {code : ε} :
    (first >>= rest) = .error code ↔
      first = .error code ∨ ∃ value, first = .ok value ∧ rest value = .error code := by
  cases first with
  | error other => simp [bind, Except.bind]
  | ok value => simp [bind, Except.bind]

theorem foldlM_nil_eq_ok_iff {step : β → α → Except ε β} {start finish : β} :
    ([] : List α).foldlM step start = .ok finish ↔ start = finish := by
  simp [pure, Except.pure]

theorem foldlM_cons_eq_ok_iff {step : β → α → Except ε β} {item : α} {items : List α}
    {start finish : β} : (item :: items).foldlM step start = .ok finish ↔
      ∃ mid, step start item = .ok mid ∧ items.foldlM step mid = .ok finish := by
  rw [List.foldlM_cons, bind_eq_ok_iff]

theorem foldlM_invariant {step : β → α → Except ε β} {items : List α} (inv : β → Prop)
    (hst : ∀ item ∈ items, ∀ pre post, inv pre → step pre item = .ok post → inv post)
    {start finish : β} (hs : inv start)
    (hrun : items.foldlM step start = .ok finish) : inv finish := by
  induction items generalizing start with
  | nil =>
    rw [foldlM_nil_eq_ok_iff] at hrun
    exact hrun ▸ hs
  | cons item items ih =>
    rw [foldlM_cons_eq_ok_iff] at hrun
    obtain ⟨mid, hf, hr⟩ := hrun
    apply ih
    · intro later hl
      exact hst later (List.mem_cons_of_mem item hl)
    · exact hst item List.mem_cons_self start mid hs hf
    · exact hr

theorem foldlM_map {γ : Type} {step : β → α → Except ε β} {other : γ → α → Except ε γ}
    {carry : β → γ} (hs : ∀ pre item, other (carry pre) item =
      (step pre item).map carry) (items : List α) (start : β) :
    items.foldlM other (carry start) = (items.foldlM step start).map carry := by
  induction items generalizing start with
  | nil => rfl
  | cons item items ih =>
    rw [List.foldlM_cons, List.foldlM_cons, hs]
    cases step start item with
    | error code => rfl
    | ok mid => exact ih mid

theorem foldlM_isOk {step : β → α → Except ε β} {items : List α} (inv : β → Prop)
    (hst : ∀ item ∈ items, ∀ pre, inv pre → ∃ post, step pre item = .ok post ∧ inv post)
    {start : β} (hs : inv start) : ∃ finish, items.foldlM step start = .ok finish := by
  induction items generalizing start with
  | nil => exact ⟨start, rfl⟩
  | cons item items ih =>
    obtain ⟨mid, hf, hm⟩ := hst item List.mem_cons_self start hs
    obtain ⟨finish, hr⟩ := ih (fun later hl => hst later (List.mem_cons_of_mem item hl)) hm
    exact ⟨finish, foldlM_cons_eq_ok_iff.mpr ⟨mid, hf, hr⟩⟩

theorem mapM_cons_eq_ok_iff {step : α → Except ε β} {item : α} {items : List α}
    {results : List β} : (item :: items).mapM step = .ok results ↔ ∃ first rest,
      step item = .ok first ∧ items.mapM step = .ok rest ∧ results = first :: rest := by
  rw [List.mapM_cons, bind_eq_ok_iff]
  refine exists_congr fun first => ?_
  rw [bind_eq_ok_iff, exists_and_left]
  refine and_congr_right fun _ => exists_congr fun rest => and_congr_right fun _ => ?_
  exact ⟨fun hr => (Except.ok.inj hr).symm, fun hr => hr ▸ rfl⟩

theorem exists_of_mem_mapM {step : α → Except ε β} {items : List α} {results : List β}
    (hrun : items.mapM step = .ok results) {result : β} (hm : result ∈ results) :
    ∃ item ∈ items, step item = .ok result := by
  induction items generalizing results with
  | nil =>
    rw [List.mapM_nil] at hrun
    cases hrun
    cases hm
  | cons item items ih =>
    obtain ⟨first, rest, hfi, hr, rfl⟩ := mapM_cons_eq_ok_iff.mp hrun
    rcases List.mem_cons.mp hm with rfl | hm
    · exact ⟨item, List.mem_cons_self, hfi⟩
    · obtain ⟨found, hf, hs⟩ := ih hr hm
      exact ⟨found, List.mem_cons_of_mem _ hf, hs⟩

theorem exists_mapM_eq_ok_iff {step : α → Except ε β} {items : List α} :
    (∃ results, items.mapM step = .ok results) ↔
      ∀ item ∈ items, ∃ result, step item = .ok result := by
  induction items with
  | nil => exact iff_of_true ⟨[], rfl⟩ (by simp)
  | cons item items ih =>
    rw [List.forall_mem_cons, ← ih]
    constructor
    · rintro ⟨results, hrun⟩
      obtain ⟨first, rest, hf, hr, _⟩ := mapM_cons_eq_ok_iff.mp hrun
      exact ⟨⟨first, hf⟩, rest, hr⟩
    · rintro ⟨⟨first, hf⟩, rest, hr⟩
      exact ⟨first :: rest, mapM_cons_eq_ok_iff.mpr ⟨first, rest, hf, hr, rfl⟩⟩

theorem map_eq_of_mapM {γ : Type} {step : α → Except ε β} {pre : α → γ} {post : β → γ}
    (hs : ∀ item result, step item = .ok result → post result = pre item)
    {items : List α} {results : List β} (hrun : items.mapM step = .ok results) :
    results.map post = items.map pre := by
  induction items generalizing results with
  | nil =>
    cases hrun
    rfl
  | cons item items ih =>
    obtain ⟨first, rest, hf, hr, rfl⟩ := mapM_cons_eq_ok_iff.mp hrun
    rw [List.map_cons, List.map_cons, hs item first hf, ih hr]

theorem exists_mem_of_mapM {step : α → Except ε β} {items : List α} {results : List β}
    (hrun : items.mapM step = .ok results) {item : α} (hm : item ∈ items) :
    ∃ result ∈ results, step item = .ok result := by
  induction items generalizing results with
  | nil => cases hm
  | cons head items ih =>
    obtain ⟨first, rest, hf, hre, rfl⟩ := mapM_cons_eq_ok_iff.mp hrun
    rcases List.mem_cons.mp hm with rfl | hm
    · exact ⟨first, List.mem_cons_self, hf⟩
    · obtain ⟨result, hr, hs⟩ := ih hre hm
      exact ⟨result, List.mem_cons_of_mem _ hr, hs⟩

theorem forM_eq_ok_iff {check : α → Except ε Unit} {items : List α} {result : Unit} :
    items.forM check = .ok result ↔ ∀ item ∈ items, check item = .ok () := by
  induction items with
  | nil => simp [pure, Except.pure]
  | cons item items ih =>
    show (check item >>= fun _ => items.forM check) = .ok result ↔ _
    rw [bind_eq_ok_iff, List.forall_mem_cons, ← ih]
    exact ⟨fun ⟨_, hf, hr⟩ => ⟨hf, hr⟩,
      fun ⟨hf, hr⟩ => ⟨_, hf, hr⟩⟩

def failure? (result : Except ε α) : Option ε :=
  match result with
  | .error code => some code
  | .ok _ => none

theorem mapM_eq_match (step : α → Except ε β) (items : List α) : items.mapM step =
      match items.findSome? (failure? ∘ step) with
      | some code => .error code
      | none => .ok (items.filterMap fun item => (step item).toOption) := by
  induction items with
  | nil => rfl
  | cons item items ih =>
    rw [List.mapM_cons, ih, List.findSome?_cons, List.filterMap_cons]
    cases hs : step item with
    | error code =>
      simp only [Function.comp_apply, hs, failure?]
      rfl
    | ok value =>
      simp only [Function.comp_apply, hs, failure?, Except.toOption]
      cases items.findSome? (failure? ∘ step) with
      | some code => rfl
      | none => rfl

theorem mapM_eq_ite {step : α → Except ε β} {refuses : α → Bool} {code : ε} {value : α → β}
    (hs : ∀ item, step item = if refuses item then .error code else .ok (value item))
    (items : List α) :
    items.mapM step = if items.any refuses then .error code else .ok (items.map value) := by
  induction items with
  | nil => rfl
  | cons item items ih =>
    rw [List.mapM_cons, ih, hs, List.any_cons]
    cases refuses item with
    | true => rfl
    | false => cases items.any refuses <;> rfl

def okValue (result : Except ε α) (hok : result.isOk = true) : α :=
  match result, hok with
  | .ok value, _ => value

theorem eq_ok_okValue {result : Except ε α} (hok : result.isOk = true) :
    result = .ok (okValue result hok) := by
  cases result with
  | error code => cases hok
  | ok value => rfl

end AiQuant.Lib
