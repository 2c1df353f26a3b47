import Mathlib.Data.List.Induction
import Mathlib.Order.Basic

/-! Chains in which every link carries a digest of its content and of the digest before it.  The
digest has no key, so whoever can compute it can build a chain; what a chain does show is that no
link of it was taken from another chain without everything before that link. -/
namespace AiQuant.Lib

structure ChainLink (α δ : Type) where
  content : α
  previous : δ
  digest : δ

variable {α β δ : Type}

def Linked (hash : α → δ → δ) : δ → List (ChainLink α δ) → Prop
  | _, [] => True
  | previous, link :: rest =>
    link.previous = previous ∧ link.digest = hash link.content previous ∧
      Linked hash link.digest rest

def tip : δ → List (ChainLink α δ) → δ
  | previous, [] => previous
  | _, link :: rest => tip link.digest rest

/-- What is compared of a link: its content as `view` sees it, and its digests. -/
def ChainLink.shape (view : α → β) (link : ChainLink α δ) : β × δ × δ :=
  (view link.content, link.previous, link.digest)

/-- Among these links, equal digests come from equal contents and equal digests before them, and
none is the digest that a chain starts from. -/
structure Separates (hash : α → δ → δ) (view : α → β) (genesis : δ)
    (links : List (ChainLink α δ)) : Prop where
  injective : ∀ first ∈ links, ∀ second ∈ links,
    hash first.content first.previous = hash second.content second.previous →
      view first.content = view second.content ∧ first.previous = second.previous
  genesis : ∀ link ∈ links, hash link.content link.previous ≠ genesis

section Chains

variable {hash : α → δ → δ} {view : α → β} {genesis previous : δ}
  {link other : ChainLink α δ} {links first second orig changed : List (ChainLink α δ)}

theorem linked_append : Linked hash previous (first ++ second) ↔
      Linked hash previous first ∧ Linked hash (tip previous first) second := by
  induction first generalizing previous with
  | nil => exact (and_iff_right trivial).symm
  | cons link first ih => rw [List.cons_append, Linked, Linked, ih, tip, and_assoc, and_assoc]

theorem tip_concat : tip previous (first ++ [link]) = link.digest := by
  induction first generalizing previous with
  | nil => rfl
  | cons head first ih => exact ih

theorem Linked.last (hl : Linked hash previous (first ++ [link])) :
    link.previous = tip previous first ∧ link.digest = hash link.content link.previous := by
  obtain ⟨-, hp, hd, -⟩ := linked_append.mp hl
  exact ⟨hp, by rw [hd, hp]⟩

theorem Separates.subset (hs : Separates hash view genesis links)
    (hsu : first ⊆ links) : Separates hash view genesis first where
  injective left hleft right hright :=
    hs.injective left (hsu hleft) right (hsu hright)
  genesis link hlink := hs.genesis link (hsu hlink)

theorem Linked.eq_nil (hl : Linked hash genesis links) (ht : tip genesis links = genesis)
    (hs : Separates hash view genesis links) : links = [] := by
  induction links using List.reverseRecOn with
  | nil => rfl
  | append_singleton links link _ =>
    rw [tip_concat, hl.last.2] at ht
    exact absurd ht (hs.genesis link (List.mem_append_right _ (List.mem_singleton_self _)))

theorem Linked.shapes_eq (hf : Linked hash genesis first) (hse : Linked hash genesis second)
    (ht : tip genesis first = tip genesis second)
    (hs : Separates hash view genesis (first ++ second)) :
    first.map (ChainLink.shape view) = second.map (ChainLink.shape view) := by
  induction first using List.reverseRecOn generalizing second with
  | nil =>
    rw [hse.eq_nil ht.symm (hs.subset (List.subset_append_right _ _))]
  | append_singleton first link ih =>
    induction second using List.reverseRecOn with
    | nil =>
      have hn := hf.eq_nil ht (hs.subset (List.subset_append_left _ _))
      exact absurd hn (List.append_ne_nil_of_right_ne_nil _ (List.cons_ne_nil _ _))
    | append_singleton second other _ =>
      obtain ⟨hpr, hdi⟩ := hf.last
      obtain ⟨hp, hd⟩ := hse.last
      rw [tip_concat, tip_concat] at ht
      obtain ⟨hc, hsa⟩ := hs.injective link (by simp) other (by simp) (by rw [← hdi, ← hd, ht])
      have he := ih (linked_append.mp hf).1 (linked_append.mp hse).1 (by rw [← hpr, ← hp, hsa])
        (hs.subset fun earlier he => by
          rcases List.mem_append.mp he with hl | hr
          · exact List.mem_append_left _ (List.mem_append_left _ hl)
          · exact List.mem_append_right _ (List.mem_append_left _ hr))
      rw [List.map_append, List.map_append, he, List.map_singleton, List.map_singleton,
        ChainLink.shape, ChainLink.shape, hc, hsa, ht]

theorem Linked.kept_and_added (ho : Linked hash genesis orig) (hc : Linked hash genesis changed)
    (hs : Separates hash view genesis (changed ++ orig)) : ∃ kept added, changed = kept ++ added ∧
      kept.map (ChainLink.shape view) <+: orig.map (ChainLink.shape view) ∧
      ∀ link ∈ added, link.digest ∉ orig.map ChainLink.digest := by
  induction changed using List.reverseRecOn with
  | nil => exact ⟨[], [], rfl, List.nil_prefix, fun link hli => absurd hli List.not_mem_nil⟩
  | append_singleton changed link ih =>
    by_cases hh : link.digest ∈ orig.map ChainLink.digest
    · obtain ⟨other, hot, hd⟩ := List.mem_map.mp hh
      obtain ⟨earlier, later, rfl⟩ := List.append_of_mem hot
      have hsp : earlier ++ other :: later = (earlier ++ [other]) ++ later :=
        List.append_cons earlier other later
      rw [hsp] at ho hs ⊢
      refine ⟨changed ++ [link], [], (List.append_nil _).symm, ?_,
        fun added ha => absurd ha List.not_mem_nil⟩
      have hsh := hc.shapes_eq (linked_append.mp ho).1 (by rw [tip_concat, tip_concat, hd])
        (hs.subset fun each he => by
          rw [← List.append_assoc]
          exact List.mem_append_left _ he)
      rw [hsh, @List.map_append _ _ _ _ later]
      exact List.prefix_append _ _
    · obtain ⟨kept, added, rfl, hk, ha⟩ := ih (linked_append.mp hc).1 (hs.subset fun each he => by
          rcases List.mem_append.mp he with hl | hr
          · exact List.mem_append_left _ (List.mem_append_left _ hl)
          · exact List.mem_append_right _ hr)
      refine ⟨kept, added ++ [link], List.append_assoc _ _ _, hk, fun each he => ?_⟩
      rcases List.mem_append.mp he with hold | hn
      · exact ha each hold
      · rw [List.mem_singleton.mp hn]
        exact hh

end Chains

end AiQuant.Lib
