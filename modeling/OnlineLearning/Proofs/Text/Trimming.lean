import Mathlib.Data.List.Induction
import OnlineLearning.Text.Blank

/-!
# Trimmed texts

Trimming takes characters off both ends and nothing else: it may start at either end, and it stops at the
first character that it does not take. What follows a word that stays is trimmed at its end only
(`exists_trimBy_append`).
-/

namespace OnlineLearning.Text
variable {p : Char → Bool} {c : Char} {cs head : List Char}

theorem dropWhile_of_head? (h : ∀ c ∈ cs.head?, p c = false) : cs.dropWhile p = cs := by
  cases cs with
  | nil => rfl
  | cons c cs =>
    have hc : ¬ p c = true := Bool.eq_false_iff.mp (h c rfl)
    exact List.dropWhile_cons_of_neg hc

theorem trimBy_cons (h : p c = true) (cs : List Char) : trimBy p (c :: cs) = trimBy p cs := by
  rw [trimBy, List.dropWhile_cons_of_pos h, trimBy]

theorem trimBy_concat (h : p c = true) (cs : List Char) : trimBy p (cs ++ [c]) = trimBy p cs := by
  rw [trimBy, trimBy, List.dropWhile_append]
  split
  · rename_i hempty
    rw [List.dropWhile_cons_of_pos h, List.isEmpty_iff.mp hempty]
    rfl
  · rw [List.reverse_append, List.reverse_singleton, List.singleton_append, List.dropWhile_cons_of_pos h]

theorem trimBy_of_ends (hfirst : ∀ c ∈ cs.head?, p c = false) (hlast : ∀ c ∈ cs.getLast?, p c = false) :
    trimBy p cs = cs := by
  have hreverse : ∀ c ∈ cs.reverse.head?, p c = false := by
    rw [List.head?_reverse]
    exact hlast
  rw [trimBy, dropWhile_of_head? hfirst, dropWhile_of_head? hreverse, List.reverse_reverse]

theorem length_trimBy_le (p : Char → Bool) (cs : List Char) : (trimBy p cs).length ≤ cs.length := by
  rw [trimBy, List.length_reverse]
  refine Nat.le_trans (List.dropWhile_sublist p).length_le ?_
  rw [List.length_reverse]
  exact (List.dropWhile_sublist p).length_le

/-- A text that follows a word loses nothing but characters at its end. -/
theorem exists_trimBy_append (hne : head ≠ []) (hfirst : ∀ c ∈ head.head?, p c = false)
    (hlast : ∀ c ∈ head.getLast?, p c = false) (cs : List Char) :
    ∃ rest, trimBy p (head ++ cs) = head ++ rest ∧ trimBy p rest = trimBy p cs := by
  have hfirst' : ∀ cs, ∀ c ∈ (head ++ cs).head?, p c = false := by
    obtain ⟨d, head, rfl⟩ := List.exists_cons_of_ne_nil hne
    exact fun _ => hfirst
  -- from the end: a character that is taken off leaves a shorter text, any other one ends the trimming
  induction cs using List.reverseRecOn with
  | nil =>
    refine ⟨[], ?_, rfl⟩
    rw [List.append_nil]
    exact trimBy_of_ends hfirst hlast
  | append_singleton cs c ih =>
    cases hc : p c with
    | true =>
      rw [← List.append_assoc, trimBy_concat hc, trimBy_concat hc]
      exact ih
    | false =>
      refine ⟨cs ++ [c], ?_, rfl⟩
      refine trimBy_of_ends (hfirst' _) fun d hd => ?_
      rw [← List.append_assoc, List.getLast?_concat] at hd
      obtain rfl := Option.some.inj hd
      exact hc

end OnlineLearning.Text
