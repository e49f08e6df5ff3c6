import Mathlib.Data.List.DropRight

/-!
# The recent end of a log

A buffer keeps the recent end of a growing log: entries leave it when they are old, or when there
are more than `cap`, and both happen at the next operation that looks.
-/

namespace Havn.Lib

open List

universe u

variable {α : Type u}

theorem filter_concat (p : α → Bool) (entries : List α) (entry : α) :
    (entries ++ [entry]).filter p = entries.filter p ++ if p entry then [entry] else [] := by
  rw [filter_append]
  cases kept : p entry with
  | true => rw [filter_cons_of_pos kept, filter_nil, if_pos rfl]
  | false => rw [filter_cons_of_neg (by simp [kept]), filter_nil, if_neg (by simp)]

theorem dropWhile_eq_filter {p : α → Bool} : ∀ {entries : List α},
    entries.Pairwise (fun earlier later => p later = true → p earlier = true) →
      entries.dropWhile p = entries.filter fun entry => !p entry
  | [], _ => rfl
  | entry :: entries, ordered => by
      obtain ⟨first, rest⟩ := pairwise_cons.mp ordered
      cases dropped : p entry with
      | true =>
        rw [dropWhile_cons_of_pos dropped, filter_cons_of_neg (by simp [dropped])]
        exact dropWhile_eq_filter rest
      | false =>
        have kept : ∀ later ∈ entries, (!p later) = true := by
          intro later mem
          rw [Bool.not_eq_true', Bool.eq_false_iff]
          intro isDropped
          exact absurd (first later mem isDropped) (by simp [dropped])
        rw [dropWhile_cons_of_neg (by simp [dropped]),
          filter_cons_of_pos (by simp [dropped]), filter_eq_self.mpr kept]

theorem filter_eq_drop {p : α → Bool} : ∀ {entries : List α} {k : ℕ},
    (∀ i entry, entries[i]? = some entry → (p entry = true ↔ k ≤ i)) →
      entries.filter p = entries.drop k
  | [], k, _ => by rw [filter_nil, drop_nil]
  | entry :: entries, 0, kept => by
      refine filter_eq_self.mpr fun later mem => ?_
      obtain ⟨i, at'⟩ := mem_iff_getElem?.mp mem
      exact (kept i later at').mpr (Nat.zero_le i)
  | entry :: entries, k + 1, kept => by
      have dropped : ¬ p entry = true := fun isKept =>
        absurd ((kept 0 entry rfl).mp isKept) (Nat.not_succ_le_zero k)
      rw [filter_cons_of_neg dropped, drop_succ_cons]
      exact filter_eq_drop fun i later at' =>
        (kept (i + 1) later at').trans Nat.succ_le_succ_iff

/-- The buffer is an end of the log; what went before it is old, or not among the
last `cap` entries. -/
structure Retains (cap : ℕ) (old : α → Bool) (log buffer : List α) : Prop where
  short : buffer.length ≤ cap
  covers : ∃ gone, gone ++ buffer = log ∧ ∀ entry ∈ gone.drop (log.length - cap), old entry = true

namespace Retains

variable {cap : ℕ} {old old' : α → Bool} {log buffer : List α}

theorem nil : Retains cap old [] ([] : List α) :=
  ⟨Nat.zero_le _, [], rfl, by simp⟩

theorem suffix (retains : Retains cap old log buffer) : buffer <:+ log := by
  obtain ⟨gone, parts, -⟩ := retains.covers
  exact ⟨gone, parts⟩

theorem imp (older : ∀ entry, old entry = true → old' entry = true)
    (retains : Retains cap old log buffer) : Retains cap old' log buffer := by
  obtain ⟨gone, parts, covers⟩ := retains.covers
  exact ⟨retains.short, gone, parts, fun entry mem => older entry (covers entry mem)⟩

theorem evict (retains : Retains cap old log buffer) :
    Retains cap old log (buffer.dropWhile old) := by
  obtain ⟨gone, parts, covers⟩ := retains.covers
  refine ⟨(buffer.dropWhile_suffix old).length_le.trans retains.short,
    gone ++ buffer.takeWhile old, ?_, ?_⟩
  · rw [append_assoc, takeWhile_append_dropWhile, parts]
  · intro entry mem
    rw [drop_append] at mem
    rcases mem_append.mp mem with before | evicted
    · exact covers entry before
    · exact mem_takeWhile_imp (mem_of_mem_drop evicted)

theorem push (room : 0 < cap) (retains : Retains cap old log buffer) (entry : α) :
    Retains cap old (log ++ [entry])
      (buffer.drop (buffer.length + 1 - cap) ++ [entry]) := by
  obtain ⟨gone, rfl, covers⟩ := retains.covers
  refine ⟨?_, gone ++ buffer.take (buffer.length + 1 - cap), ?_, ?_⟩
  · have := retains.short
    simp only [length_append, length_drop, length_singleton]
    omega
  · rw [append_assoc, ← append_assoc (buffer.take _), take_append_drop,
      append_assoc]
  · intro earlier mem
    have sameCut : (gone ++ buffer ++ [entry]).length - cap - gone.length =
        buffer.length + 1 - cap := by
      simp only [length_append, length_singleton]
      omega
    rw [drop_append, sameCut, drop_take_self, append_nil] at mem
    have further : (gone ++ buffer).length - cap ≤ (gone ++ buffer ++ [entry]).length - cap := by
      simp only [length_append, length_singleton]
      omega
    exact covers earlier ((drop_sublist_drop_left gone further).subset mem)

/-- **What the buffer holds that is not old** is what the last `cap` entries of
the log hold. -/
theorem filter_eq (retains : Retains cap old log buffer) :
    buffer.filter (fun entry => !old entry) =
      (log.rtake cap).filter fun entry => !old entry := by
  obtain ⟨gone, rfl, covers⟩ := retains.covers
  have whole : (gone ++ buffer).length - cap - gone.length = 0 := by
    have := retains.short
    rw [length_append]
    omega
  have stale : (gone.drop ((gone ++ buffer).length - cap)).filter (fun entry => !old entry) = [] :=
    filter_eq_nil_iff.mpr fun entry mem => by simp [covers entry mem]
  rw [List.rtake, drop_append, whole, drop_zero, filter_append, stale,
    nil_append]

end Retains

end Havn.Lib
