import Mathlib.Algebra.Order.Ring.Int
import Mathlib.Data.List.Induction
import Mathlib.Data.List.ReduceOption
import Mathlib.Data.Option.Basic

/-! Reading from a stream that hands out its symbols in chunks and may time out between them.
What a reader returns depends on the symbols and the timeouts only, not on how the symbols are
cut into chunks.  A reader that stops early has lost what it took before. -/
namespace AiQuant.Lib

/-- What the next call of `recv` meets. -/
inductive Arrival (β : Type) where
  | chunk (content : List β)
  | timedOut

/-- Every chunk holds something. -/
def Filled {β : Type} (arrivals : List (Arrival β)) : Prop :=
  ∀ content, .chunk content ∈ arrivals → content ≠ []

/-- The symbols of the stream in order; `none` stands for a timeout. -/
def signals {β : Type} : List (Arrival β) → List (Option β)
  | [] => []
  | .chunk content :: rest => content.map some ++ signals rest
  | .timedOut :: rest => none :: signals rest

theorem Filled.tail {β : Type} {arrival : Arrival β} {rest : List (Arrival β)}
    (hf : Filled (arrival :: rest)) : Filled rest :=
  fun content hc => hf content (List.mem_cons_of_mem _ hc)

theorem split_shorter {β : Type} {short long : List β} {later post : List (Option β)}
    (hsa : short.map some ++ later = long.map some ++ post) (hle : short.length ≤ long.length) :
    ∃ more, long = short ++ more ∧ later = more.map some ++ post := by
  rcases List.append_eq_append_iff.mp hsa with ⟨more, hlo, hla⟩ | ⟨more, hs, ha⟩
  · obtain ⟨first, second, rfl, hf, hse⟩ := List.map_eq_append_iff.mp hlo
    have hf := (Option.some_injective β).list_map hf
    exact ⟨second, by rw [hf], by rw [hla, hse]⟩
  · have he : more = [] := by
      have hl := congrArg List.length hs
      rw [List.length_append, List.length_map, List.length_map] at hl
      exact List.eq_nil_of_length_eq_zero (by omega)
    rw [he, List.append_nil] at hs
    rw [he, List.nil_append] at ha
    have hsa := (Option.some_injective β).list_map hs
    exact ⟨[], by rw [hsa, List.append_nil], by rw [ha]; rfl⟩

inductive ReadStop (E : Type) where
  | timedOut
  | waiting
  | failed (error : E)

def Reader (β E α : Type) : Type :=
  List (Arrival β) → Except (ReadStop E) α × List (Arrival β)

namespace Reader

variable {β E α γ : Type}

def fail (error : E) : Reader β E α := fun arrivals => (.error (.failed error), arrivals)

instance : Monad (Reader β E) where
  pure value := fun arrivals => (.ok value, arrivals)
  bind reader next := fun arrivals =>
    match reader arrivals with
    | (.ok value, rest) => next value rest
    | (.error stop, rest) => (.error stop, rest)

theorem bind_ok {reader : Reader β E α} {next : α → Reader β E γ} {arrivals rest : List (Arrival β)}
    {value : α} (hr : reader arrivals = (.ok value, rest)) :
    (reader >>= next) arrivals = next value rest := by
  show (match reader arrivals with
    | (.ok value, rest) => next value rest
    | (.error stop, rest) => (.error stop, rest)) = next value rest
  rw [hr]

theorem bind_error {reader : Reader β E α} {next : α → Reader β E γ}
    {arrivals rest : List (Arrival β)} {stop : ReadStop E}
    (hr : reader arrivals = (.error stop, rest)) :
    (reader >>= next) arrivals = (.error stop, rest) := by
  show (match reader arrivals with
    | (.ok value, rest) => next value rest
    | (.error stop, rest) => (.error stop, rest)) = (.error stop, rest)
  rw [hr]

/-- The reader turns `taken` into `value` whenever no timeout comes in between. -/
def Consumes (reader : Reader β E α) (taken : List β) (value : α) : Prop :=
  ∀ arrivals later, Filled arrivals → signals arrivals = taken.map some ++ later →
    ∃ rest, reader arrivals = (.ok value, rest) ∧ Filled rest ∧ signals rest = later

theorem Consumes.pure (value : α) : Consumes (Pure.pure value : Reader β E α) [] value :=
  fun arrivals _ hf hs => ⟨arrivals, rfl, hf, hs⟩

theorem Consumes.bind {reader : Reader β E α} {next : α → Reader β E γ} {first second : List β}
    {value : α} {result : γ} (hfi : Consumes reader first value)
    (hse : Consumes (next value) second result) :
    Consumes (reader >>= next) (first ++ second) result := by
  intro arrivals later hf hs
  rw [List.map_append, List.append_assoc] at hs
  obtain ⟨mid, hre, hm, hr⟩ := hfi arrivals _ hf hs
  rw [bind_ok hre]
  exact hse mid later hm hr

theorem Consumes.map {reader : Reader β E α} {taken : List β} {value : α} (f : α → γ)
    (hr : Consumes reader taken value) : Consumes (do return f (← reader)) taken (f value) := by
  rw [← List.append_nil taken]
  exact hr.bind (Consumes.pure (f value))

def Takes (reader : Reader β E α) (returns : List β → α → Prop) : Prop :=
  ∀ arrivals, Filled arrivals →
    Filled (reader arrivals).2 ∧
      (∀ value, (reader arrivals).1 = .ok value → ∃ taken, returns taken value ∧
        signals arrivals = taken.map some ++ signals (reader arrivals).2) ∧
      ((reader arrivals).1 = .error .timedOut → ∃ taken : List β,
        signals arrivals = taken.map some ++ none :: signals (reader arrivals).2)

theorem Takes.pure (value : α) :
    Takes (Pure.pure value : Reader β E α) fun taken result => taken = [] ∧ result = value :=
  fun _ hf => ⟨hf, fun _ hok => ⟨[], ⟨rfl, (Except.ok.inj hok).symm⟩, rfl⟩,
    fun hs => by cases hs⟩

theorem Takes.fail {returns : List β → α → Prop} (error : E) :
    Takes (Reader.fail error : Reader β E α) returns :=
  fun _ hf => ⟨hf, fun _ hok => (by cases hok), fun hs => (by cases hs)⟩

theorem Takes.mono {reader : Reader β E α} {returns weaker : List β → α → Prop}
    (hta : Takes reader returns) (hw : ∀ taken value, returns taken value → weaker taken value) :
    Takes reader weaker := by
  intro arrivals hf
  obtain ⟨hre, hok, ht⟩ := hta arrivals hf
  refine ⟨hre, fun value hv => ?_, ht⟩
  obtain ⟨taken, hr, hs⟩ := hok value hv
  exact ⟨taken, hw taken value hr, hs⟩

theorem Takes.bind {reader : Reader β E α} {next : α → Reader β E γ}
    {returns : List β → α → Prop} {post : α → List β → γ → Prop}
    (hre : Takes reader returns) (hn : ∀ value, Takes (next value) (post value)) :
    Takes (reader >>= next) fun taken result =>
      ∃ first value second, taken = first ++ second ∧ returns first value ∧
        post value second result := by
  intro arrivals hf
  obtain ⟨hrest, hok, ht⟩ := hre arrivals hf
  rcases hread : reader arrivals with ⟨outcome, rest⟩
  rw [hread] at hrest hok ht
  cases outcome with
  | error stop =>
    rw [bind_error hread]
    exact ⟨hrest, fun _ hv => (by cases hv),
      fun hst => ht (congrArg Except.error (Except.error.inj hst))⟩
  | ok value =>
    rw [bind_ok hread]
    obtain ⟨first, hfi, hs⟩ := hok value rfl
    obtain ⟨hla, hv, hlate⟩ := hn value rest hrest
    refine ⟨hla, fun result hr => ?_, fun hst => ?_⟩
    · obtain ⟨second, hse, hl⟩ := hv result hr
      refine ⟨first ++ second, ⟨first, value, second, rfl, hfi, hse⟩, ?_⟩
      rw [hs, hl, List.map_append, List.append_assoc]
    · obtain ⟨second, hl⟩ := hlate hst
      exact ⟨first ++ second, by rw [hs, hl, List.map_append, List.append_assoc]⟩

theorem Takes.map {reader : Reader β E α} {returns : List β → α → Prop} (f : α → γ)
    (hr : Takes reader returns) : Takes (do return f (← reader)) fun taken result =>
      ∃ value, returns taken value ∧ result = f value := by
  refine (hr.bind fun value => Takes.pure (f value)).mono ?_
  rintro taken result ⟨first, value, second, rfl, hre, rfl, rfl⟩
  exact ⟨value, by rwa [List.append_nil], rfl⟩

end Reader

end AiQuant.Lib
