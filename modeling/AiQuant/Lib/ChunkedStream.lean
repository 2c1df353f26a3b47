import Mathlib.Data.List.Basic

/-! A stream that hands out its symbols in chunks and then ends.  Each call gives at most as many
symbols as it asks for, and the rest of a chunk stays. -/
namespace AiQuant.Lib

structure ChunkedStream (β : Type) where
  chunks : List (List β)
  filled : ∀ chunk ∈ chunks, chunk ≠ []

namespace ChunkedStream

variable {β : Type}

def content (stream : ChunkedStream β) : List β := stream.chunks.flatten

def recv (stream : ChunkedStream β) (size : ℕ) : List β × ChunkedStream β :=
  match stream with
  | ⟨[], filled⟩ => ([], ⟨[], filled⟩)
  | ⟨chunk :: rest, filled⟩ =>
    have later := fun other ho => filled other (List.mem_cons_of_mem chunk ho)
    if hfits : chunk.length ≤ size then (chunk, ⟨rest, later⟩)
    else (chunk.take size, ⟨chunk.drop size :: rest, by
      intro other ho
      rcases List.mem_cons.mp ho with rfl | ho
      · rw [ne_eq, List.drop_eq_nil_iff]
        exact hfits
      · exact later other ho⟩)

variable (stream : ChunkedStream β) (size : ℕ)

theorem recv_content : (stream.recv size).1 ++ (stream.recv size).2.content = stream.content := by
  obtain ⟨chunks, filled⟩ := stream
  cases chunks with
  | nil => rfl
  | cons chunk rest =>
    rw [recv]
    split_ifs with hf
    · rfl
    · rw [content, content, List.flatten_cons, List.flatten_cons, ← List.append_assoc,
        List.take_append_drop]

theorem recv_length_le : (stream.recv size).1.length ≤ size := by
  obtain ⟨chunks, filled⟩ := stream
  cases chunks with
  | nil => exact Nat.zero_le size
  | cons chunk rest =>
    rw [recv]
    split_ifs with hf
    · exact hf
    · exact List.length_take_le size chunk

theorem content_eq_nil_of_recv (hs : 0 < size) (hr : (stream.recv size).1 = []) :
    stream.content = [] := by
  obtain ⟨chunks, filled⟩ := stream
  cases chunks with
  | nil => rfl
  | cons chunk rest =>
    have hc := filled chunk List.mem_cons_self
    rw [recv] at hr
    split_ifs at hr with hf
    · exact absurd hr hc
    · rcases List.take_eq_nil_iff.mp hr with hz | hn
      · exact absurd hz (Nat.ne_of_gt hs)
      · exact absurd hn hc

end ChunkedStream

end AiQuant.Lib
