import Mathlib.Data.List.Basic

/-!
# Chunks

`List.toChunks n` cuts a list into chunks of length `n`, of which only the last may be shorter.
-/

namespace Chunks

variable {α : Type*}

/-- The chunks read the list; none is empty or longer than `n`, and only the last may be shorter. -/
structure Cuts (n : ℕ) (l : List α) (chunks : List (List α)) : Prop where
  flatten : chunks.flatten = l
  ne_nil : ∀ c ∈ chunks, c ≠ []
  length_le : ∀ c ∈ chunks, c.length ≤ n
  full : ∀ c ∈ chunks.dropLast, c.length = n

/-- The loop of `toChunks`, with the chunk under construction and the finished ones. -/
theorem cuts_go {n : ℕ} (l : List α) (chunk : Array α) (done : Array (List α))
    (hne : chunk.toList ≠ []) (hle : chunk.toList.length ≤ n)
    (hdone : ∀ c ∈ done.toList, c ≠ [] ∧ c.length = n) :
    Cuts n (done.toList.flatten ++ chunk.toList ++ l) (List.toChunks.go n l chunk done) := by
  induction l generalizing chunk done with
  | nil =>
    rw [List.toChunks.go, Array.toList_push, List.append_nil]
    refine ⟨by simp, fun c hc => ?_, fun c hc => ?_, fun c hc => ?_⟩
    · rcases List.mem_append.mp hc with hc | hc
      · exact (hdone c hc).1
      · rwa [List.mem_singleton.mp hc]
    · rcases List.mem_append.mp hc with hc | hc
      · exact Nat.le_of_eq (hdone c hc).2
      · rwa [List.mem_singleton.mp hc]
    · rw [List.dropLast_concat] at hc
      exact (hdone c hc).2
  | cons a l ih =>
    rw [List.toChunks.go]
    by_cases hfull : chunk.size = n
    · rw [if_pos (by simpa using hfull)]
      have hpos : 0 < n := Nat.lt_of_lt_of_le (List.length_pos_iff.mpr hne) hle
      have hnext := ih ((Array.mkEmpty n).push a) (done.push chunk.toList) (by simp)
        (by simpa using Nat.succ_le_of_lt hpos) fun c hc => by
          rw [Array.toList_push, List.mem_append, List.mem_singleton] at hc
          rcases hc with hc | rfl
          · exact hdone c hc
          · exact ⟨hne, by simpa using hfull⟩
      simpa using hnext
    · rw [if_neg (by simpa using hfull)]
      have hnext := ih (chunk.push a) done (by simp)
        (by simp only [Array.length_toList, Array.size_push] at hle ⊢; omega) hdone
      simpa using hnext

/-- **What `toChunks` cuts.** -/
theorem cuts_toChunks {n : ℕ} (hn : 0 < n) (l : List α) : Cuts n l (l.toChunks n) := by
  rcases l with _ | ⟨a, l⟩
  · rw [List.toChunks]
    exact ⟨rfl, by simp, by simp, by simp⟩
  · obtain ⟨n, rfl⟩ : ∃ m, n = m + 1 := ⟨n - 1, by omega⟩
    rw [List.toChunks]
    · simpa using cuts_go (n := n + 1) l #[a] #[] (by simp) (by simp) (by simp)
    · simp

/-- The number of chunks is the length divided by `n`, rounded up. -/
theorem Cuts.length_eq {n : ℕ} {l : List α} {chunks : List (List α)} (h : Cuts n l chunks)
    (hn : 0 < n) : chunks.length = (l.length + n - 1) / n := by
  rcases List.eq_nil_or_concat chunks with rfl | ⟨init, last, rfl⟩
  · rw [← h.flatten, List.flatten_nil, List.length_nil, List.length_nil,
      Nat.div_eq_of_lt (by omega)]
  · rw [List.concat_eq_append] at h ⊢
    have hinit : init.flatten.length = init.length * n := by
      have hfull : ∀ c ∈ init, c.length = n := by simpa using h.full
      clear h
      induction init with
      | nil => simp
      | cons c init ih =>
        rw [List.flatten_cons, List.length_append, hfull c List.mem_cons_self,
          ih fun d hd => hfull d (List.mem_cons_of_mem c hd), List.length_cons, Nat.succ_mul,
          Nat.add_comm]
    have hlast : 0 < last.length ∧ last.length ≤ n :=
      ⟨List.length_pos_iff.mpr (h.ne_nil last (by simp)), h.length_le last (by simp)⟩
    have hlength := congrArg List.length h.flatten
    rw [List.flatten_append, List.length_append, hinit, List.flatten_singleton] at hlength
    rw [List.length_append, List.length_singleton, ← hlength, eq_comm, Nat.div_eq_iff hn]
    constructor <;> (rw [Nat.add_mul]; omega)

end Chunks
