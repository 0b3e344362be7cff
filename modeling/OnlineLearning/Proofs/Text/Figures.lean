import Mathlib.Algebra.Group.Nat.Defs
import OnlineLearning.Decimal.Reading

/-!
# The characters of written numbers

Numbers are written with plain characters: visible ones of the Latin script, none of them an underscore.
Reading a number leaves such a text as it is, and none of its characters is blank or breaks a line. The
digits of a number are Latin ones, as many as it takes.
-/

namespace OnlineLearning.Text
variable {c : Char} {cs : List Char} {n k : Nat}

/-- Whether a character is visible and of the Latin script, and no underscore. -/
def isPlain (c : Char) : Bool := 33 ≤ c.toNat && c.toNat ≤ 126 && c.toNat != 95

/-- What holds of every character of a text can be checked from one to the next. -/
theorem forall_mem_of_all {P : Char → Prop} [DecidablePred P] (h : (cs.all fun c => decide (P c)) = true) :
    ∀ c ∈ cs, P c := by simpa using h

theorem forall_mem_option_of_all {P : Char → Prop} [DecidablePred P] {first : Option Char}
    (h : (first.all fun c => decide (P c)) = true) : ∀ c ∈ first, P c := by simpa [Option.all_eq_true] using h

theorem isPlain_iff : isPlain c = true ↔ 33 ≤ c.toNat ∧ c.toNat ≤ 126 ∧ c.toNat ≠ 95 := by
  simp [isPlain, and_assoc]

theorem isLatinDigit_iff : isLatinDigit c = true ↔ 48 ≤ c.toNat ∧ c.toNat ≤ 57 := by
  rw [isLatinDigit, Bool.and_eq_true, decide_eq_true_eq, decide_eq_true_eq]
  exact Iff.rfl

theorem isPlain_of_isLatinDigit (h : isLatinDigit c = true) : isPlain c = true := by
  rw [isLatinDigit_iff] at h
  rw [isPlain_iff]
  omega

theorem isBlank_of_isPlain (h : isPlain c = true) : isBlank c = false := by
  rw [isPlain_iff] at h
  simp only [isBlank, isWhiteSpace, Bool.or_eq_false_iff, Bool.and_eq_false_iff, decide_eq_false_iff_not,
    beq_eq_false_iff_ne]
  omega

theorem isWhiteSpace_of_isPlain (h : isPlain c = true) : isWhiteSpace c = false := by
  have hblank := isBlank_of_isPlain h
  rw [isBlank, Bool.or_eq_false_iff] at hblank
  exact hblank.1

/-! ### Digits -/

theorem digitValue?_of_isLatinDigit (h : isLatinDigit c = true) : digitValue? c = some (c.toNat - 48) := by
  rw [isLatinDigit_iff] at h
  have hzeros : zeroDigits = 48 :: zeroDigits.tail := rfl
  rw [digitValue?, hzeros, List.find?_cons_of_pos, Option.map_some]
  simp only [Bool.and_eq_true, decide_eq_true_eq]
  omega

theorem isDigit_of_isLatinDigit (h : isLatinDigit c = true) : isDigit c = true := by
  rw [isDigit, digitValue?_of_isLatinDigit h]
  rfl

theorem digitValue?_of_isPlain (h : isPlain c = true) (hne : isLatinDigit c = false) : digitValue? c = none := by
  have hlarge : ∀ z ∈ zeroDigits, z = 48 ∨ 126 < z := by decide
  rw [isPlain_iff] at h
  rw [← Bool.not_eq_true, isLatinDigit_iff] at hne
  rw [digitValue?, List.find?_eq_none.mpr, Option.map_none]
  intro z hz
  simp only [Bool.and_eq_true, decide_eq_true_eq]
  rcases hlarge z hz with rfl | hz
  · omega
  · omega

theorem latinDigit_of_isPlain (h : isPlain c = true) : latinDigit c = c := by
  unfold latinDigit
  cases hc : isLatinDigit c with
  | true =>
    rw [digitValue?_of_isLatinDigit hc]
    rw [isLatinDigit_iff] at hc
    have hnat : '0'.toNat + (c.toNat - 48) = c.toNat := by
      show 48 + (c.toNat - 48) = c.toNat
      omega
    dsimp only
    rw [digitChar, hnat, Char.ofNat_toNat]
  | false => rw [digitValue?_of_isPlain h hc]

theorem isLatinDigit_digitChar {d : Nat} (h : d < 10) : isLatinDigit (digitChar d) = true := by
  have all : ∀ d : Fin 10, isLatinDigit (digitChar d.val) = true := by decide
  exact all ⟨d, h⟩

theorem isLatinDigit_of_mem_digits (n : Nat) : ∀ c ∈ digits n, isLatinDigit c = true := by
  induction n using Nat.strongRecOn with
  | ind n ih =>
    rcases Nat.lt_or_ge n 10 with h | h
    · rw [digits_of_lt h]
      intro c hc
      rw [List.mem_singleton.mp hc]
      exact isLatinDigit_digitChar h
    · rw [digits_of_le h]
      intro c hc
      rcases List.mem_append.mp hc with hc | hc
      · exact ih (n / 10) (by omega) c hc
      · rw [List.mem_singleton.mp hc]
        exact isLatinDigit_digitChar (Nat.mod_lt n (by decide))

theorem digits_ne_nil (n : Nat) : digits n ≠ [] := by
  rcases Nat.lt_or_ge n 10 with h | h
  · rw [digits_of_lt h]
    exact List.cons_ne_nil _ _
  · rw [digits_of_le h]
    exact List.append_ne_nil_of_right_ne_nil _ (List.cons_ne_nil _ _)

/-- A number below a power of ten has no more digits than that power has zeros. -/
theorem length_digits_le (hk : 0 < k) (h : n < 10 ^ k) : (digits n).length ≤ k := by
  induction k generalizing n with
  | zero => omega
  | succ k ih =>
    rcases Nat.lt_or_ge n 10 with hn | hn
    · rw [digits_of_lt hn]
      exact Nat.succ_le_succ (Nat.zero_le k)
    · have hpos : 0 < k := by
        rcases Nat.eq_zero_or_pos k with rfl | hpos
        · omega
        · exact hpos
      have hlt : n / 10 < 10 ^ k := by
        rw [Nat.pow_succ] at h
        omega
      rw [digits_of_le hn, List.length_append, List.length_singleton]
      exact Nat.succ_le_succ (ih hpos hlt)

/-! ### Spans -/

section
variable {p : Char → Bool} {run rest : List Char}

theorem takeWhile_append_exact (hrun : ∀ c ∈ run, p c = true) (hrest : ∀ c ∈ rest.head?, p c = false) :
    (run ++ rest).takeWhile p = run := by
  rw [List.takeWhile_append_of_pos hrun]
  cases rest with
  | nil => exact List.append_nil _
  | cons c rest =>
    have hc : ¬ p c = true := Bool.eq_false_iff.mp (hrest c rfl)
    rw [List.takeWhile_cons_of_neg hc, List.append_nil]

theorem dropWhile_append_exact (hrun : ∀ c ∈ run, p c = true) (hrest : ∀ c ∈ rest.head?, p c = false) :
    (run ++ rest).dropWhile p = rest := by
  rw [List.dropWhile_append_of_pos hrun]
  cases rest with
  | nil => rfl
  | cons c rest =>
    have hc : ¬ p c = true := Bool.eq_false_iff.mp (hrest c rfl)
    exact List.dropWhile_cons_of_neg hc

end

end OnlineLearning.Text
