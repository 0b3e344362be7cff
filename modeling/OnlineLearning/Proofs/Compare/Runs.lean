import OnlineLearning.Compare.Record
import OnlineLearning.Proofs.Binary.Magnitude
import OnlineLearning.Proofs.Decimal.Places

/-!
# Figures found in a line

The figures of a line stand between words without digits and signs. A word is passed over, and a figure is taken
whole: the digits of a whole number, or the sign and the mantissa of a decimal. What comes first in a line is
what is found first.
-/

namespace OnlineLearning.Compare
variable {word rest run : List Char}

/-! ### Whole numbers -/

theorem isDigit_of_mem_digits (n : Nat) : ∀ c ∈ Text.digits n, Text.isDigit c = true := fun c hc =>
  Text.isDigit_of_isLatinDigit (Text.isLatinDigit_of_mem_digits n c hc)

theorem digitRuns_append (hword : ∀ c ∈ word, Text.isDigit c = false) (n : Nat)
    (hrest : ∀ c ∈ rest.head?, Text.isDigit c = false) (steps : Nat) :
    digitRuns (steps + 1) (word ++ (Text.digits n ++ rest)) = Text.digits n :: digitRuns steps rest := by
  have hdigits := isDigit_of_mem_digits n
  have hstop : ∀ c ∈ (Text.digits n ++ rest).head?, (!Text.isDigit c) = false := by
    obtain ⟨c, cs, hcs⟩ := List.exists_cons_of_ne_nil (Text.digits_ne_nil n)
    intro d hd
    rw [hcs] at hd
    obtain rfl := Option.some.inj hd
    rw [hdigits c (by rw [hcs]; exact List.mem_cons_self ..)]
    rfl
  have hskip : (word ++ (Text.digits n ++ rest)).dropWhile (fun c => !Text.isDigit c) = Text.digits n ++ rest :=
    Text.dropWhile_append_exact (fun c hc => by rw [hword c hc]; rfl) hstop
  have hempty : (Text.digits n ++ rest).isEmpty = false := by simpa using fun h => absurd h (Text.digits_ne_nil n)
  rw [digitRuns, hskip, hempty, if_neg Bool.false_ne_true, Text.takeWhile_append_exact hdigits hrest,
    Text.dropWhile_append_exact hdigits hrest]

theorem exists_wholeNumbers_eq (hword : ∀ c ∈ word, Text.isDigit c = false) (n : Nat)
    (hrest : ∀ c ∈ rest.head?, Text.isDigit c = false) :
    ∃ runs, wholeNumbers (word ++ (Text.digits n ++ rest)) = Text.digits n :: runs := by
  have hpos : 0 < (Text.digits n).length := List.length_pos_iff.mpr (Text.digits_ne_nil n)
  obtain ⟨steps, hsteps⟩ : ∃ steps, (word ++ (Text.digits n ++ rest)).length = steps + 1 := by
    refine Nat.exists_eq_succ_of_ne_zero ?_
    rw [List.length_append, List.length_append]
    omega
  rw [wholeNumbers, hsteps]
  exact ⟨_, digitRuns_append hword n hrest steps⟩

theorem exists_wholeNumbers_eq_pair {word' : List Char} (hword : ∀ c ∈ word, Text.isDigit c = false) (n : Nat)
    (hword' : ∀ c ∈ word', Text.isDigit c = false) (hne : word' ≠ []) (k : Nat) :
    ∃ runs, wholeNumbers (word ++ (Text.digits n ++ (word' ++ (Text.digits k ++ [])))) =
      Text.digits n :: Text.digits k :: runs := by
  have hpos : 0 < (Text.digits n).length := List.length_pos_iff.mpr (Text.digits_ne_nil n)
  have hpos' : 0 < (Text.digits k).length := List.length_pos_iff.mpr (Text.digits_ne_nil k)
  obtain ⟨steps, hsteps⟩ : ∃ steps,
      (word ++ (Text.digits n ++ (word' ++ (Text.digits k ++ [])))).length = steps + 1 + 1 := by
    refine ⟨word.length + (Text.digits n).length + word'.length + (Text.digits k).length - 2, ?_⟩
    simp only [List.length_append, List.length_nil]
    omega
  have hrest : ∀ c ∈ (word' ++ (Text.digits k ++ [])).head?, Text.isDigit c = false := by
    obtain ⟨d, cs, rfl⟩ := List.exists_cons_of_ne_nil hne
    intro c hc
    obtain rfl := Option.some.inj hc
    exact hword' _ (List.mem_cons_self ..)
  rw [wholeNumbers, hsteps, digitRuns_append hword n hrest, digitRuns_append hword' k (fun c hc => by cases hc)]
  exact ⟨_, rfl⟩

/-- The digits of a number are read as the number, if they are not too many to be read. -/
theorem toNat_digits {n : Nat} (h : n < 10 ^ Fault.digitLimit) : toNat (Text.digits n) = .ok n := by
  have hlength : (Text.digits n).length ≤ Fault.digitLimit := Text.length_digits_le (by decide) h
  rw [toNat, if_neg (Nat.not_lt.mpr hlength), Text.digitsValue_digits]

/-! ### Decimals -/

/-- A character at which no number starts. -/
def IsIdle (c : Char) : Prop := c ≠ '-' ∧ Text.isLatinDigit c = false

instance (c : Char) : Decidable (IsIdle c) := inferInstanceAs (Decidable (_ ∧ _))

/-- The characters of a number without a sign at the start of a text. -/
def unsignedAt? (cs : List Char) : Option (List Char) :=
  let fraction := (cs.dropWhile Text.isLatinDigit).tail.takeWhile Text.isLatinDigit
  if (cs.takeWhile Text.isLatinDigit).isEmpty then none
  else if (cs.dropWhile Text.isLatinDigit).head? = some '.' ∧ ¬fraction.isEmpty then
    some (cs.takeWhile Text.isLatinDigit ++ '.' :: fraction)
  else some (cs.takeWhile Text.isLatinDigit)

theorem drop_length_takeWhile (p : Char → Bool) (cs : List Char) :
    cs.drop (cs.takeWhile p).length = cs.dropWhile p := by
  have hsplit : cs.takeWhile p ++ cs.dropWhile p = cs := List.takeWhile_append_dropWhile
  calc cs.drop (cs.takeWhile p).length
      = (cs.takeWhile p ++ cs.dropWhile p).drop (cs.takeWhile p).length := by rw [hsplit]
    _ = cs.dropWhile p := List.drop_left ..

theorem numberAt?_signText {body : List Char} (s : Bool) (h : ∀ c ∈ body.head?, c ≠ '-') :
    numberAt? (Number.signText s ++ body) = (unsignedAt? body).map (Number.signText s ++ ·) := by
  have hsign : ((Number.signText s ++ body).takeWhile (· = '-')).take 1 = Number.signText s := by
    have hbody : body.takeWhile (· = '-') = [] := by
      cases body with
      | nil => rfl
      | cons c cs => exact List.takeWhile_cons_of_neg (by simpa using h c rfl)
    cases s with
    | false =>
      show (body.takeWhile (· = '-')).take 1 = []
      rw [hbody]
      rfl
    | true => rfl
  unfold numberAt? unsignedAt?
  rw [hsign]
  dsimp only
  rw [← List.drop_drop, List.drop_left, drop_length_takeWhile]
  split
  · rfl
  · split
    · rw [Option.map_some, List.append_assoc]
    · rfl

theorem numberAt?_of_isIdle {c : Char} (h : IsIdle c) (cs : List Char) : numberAt? (c :: cs) = none := by
  obtain ⟨hminus, hdigit⟩ := h
  have hunsigned : unsignedAt? (c :: cs) = none := by
    rw [unsignedAt?, List.takeWhile_cons_of_neg (Bool.eq_false_iff.mp hdigit)]
    rfl
  have hfirst : ∀ d ∈ (c :: cs).head?, d ≠ '-' := by
    intro d hd
    obtain rfl := Option.some.inj hd
    exact hminus
  exact (numberAt?_signText false hfirst).trans (by rw [hunsigned]; rfl)

theorem numberRuns_append (hword : ∀ c ∈ word, IsIdle c) (cs : List Char) (steps : Nat) :
    numberRuns (word.length + steps) (word ++ cs) = numberRuns steps cs := by
  induction word with
  | nil => rw [List.length_nil, Nat.zero_add, List.nil_append]
  | cons c word ih =>
    obtain ⟨hc, hword⟩ := List.forall_mem_cons.mp hword
    rw [List.length_cons, Nat.succ_add, List.cons_append, numberRuns, numberAt?_of_isIdle hc]
    exact ih hword

theorem numberRuns_eq_cons (hne : run ≠ []) (hrun : numberAt? (run ++ rest) = some run) (steps : Nat) :
    numberRuns (steps + 1) (run ++ rest) = run :: numberRuns steps rest := by
  obtain ⟨c, cs, rfl⟩ := List.exists_cons_of_ne_nil hne
  rw [List.cons_append] at hrun ⊢
  rw [numberRuns, hrun]
  dsimp only
  rw [← List.cons_append, List.drop_left]

theorem numberAt?_mantissa {d : Decimal} {whole fraction : List Char} (h : d.Pointed whole fraction) (s : Bool)
    (hrest : ∀ c ∈ rest.head?, Text.isLatinDigit c = false ∧ c ≠ '.') :
    numberAt? (Number.signText s ++ Decimal.mantissa whole fraction ++ rest) =
      some (Number.signText s ++ Decimal.mantissa whole fraction) := by
  obtain ⟨hwhole, -, hfraction, -⟩ := id h
  have hstop : ∀ c ∈ rest.head?, Text.isLatinDigit c = false := fun c hc => (hrest c hc).1
  have hminus : ∀ c ∈ (Decimal.mantissa whole fraction ++ rest).head?, c ≠ '-' := by
    obtain ⟨d, cs, hcs, hd⟩ := h.exists_first
    intro c hc
    rw [hcs] at hc
    obtain rfl := Option.some.inj hc
    rintro rfl
    cases hd
  rw [List.append_assoc, numberAt?_signText s hminus]
  refine congrArg (Option.map (Number.signText s ++ ·)) (?_ : _ = some (Decimal.mantissa whole fraction))
  unfold unsignedAt? Decimal.mantissa
  by_cases hnil : fraction = []
  · have hpoint : rest.head? ≠ some '.' := fun hhead => (hrest '.' hhead).2 rfl
    rw [if_pos hnil, List.append_nil, Text.takeWhile_append_exact hwhole hstop, Text.dropWhile_append_exact hwhole hstop,
      h.isEmpty_whole]
    simp [hpoint]
  · rw [if_neg hnil, List.append_assoc, List.cons_append, Text.takeWhile_append_exact hwhole (by simp; decide),
      Text.dropWhile_append_exact hwhole (by simp; decide), h.isEmpty_whole, List.tail_cons,
      Text.takeWhile_append_exact hfraction hstop]
    simp [hnil]

/-- A text that is the sign and the mantissa of a decimal. -/
def IsFigure (run : List Char) : Prop :=
  ∃ s d whole fraction, Decimal.Pointed d whole fraction ∧
    run = Number.signText s ++ Decimal.mantissa whole fraction

theorem IsFigure.ne_nil (h : IsFigure run) : run ≠ [] := by
  obtain ⟨s, d, whole, fraction, hpointed, rfl⟩ := h
  obtain ⟨c, cs, hcs, -⟩ := hpointed.exists_first
  rw [hcs]
  exact List.append_ne_nil_of_right_ne_nil _ (List.cons_ne_nil _ _)

theorem IsFigure.numberAt? (h : IsFigure run) (hrest : ∀ c ∈ rest.head?, Text.isLatinDigit c = false ∧ c ≠ '.') :
    Compare.numberAt? (run ++ rest) = some run := by
  obtain ⟨s, d, whole, fraction, hpointed, rfl⟩ := h
  exact numberAt?_mantissa hpointed s hrest

theorem isFigure_fixed {x : Double} (h : x.isFinite = true) : IsFigure (x.fixed 2) := by
  obtain ⟨s, r, rfl⟩ := Number.isFinite_iff.mp h
  obtain ⟨whole, fraction, htext, -, hpointed⟩ := Number.exists_fixed_eq (show 0 < 2 by decide) s r
  exact ⟨s, _, whole, fraction, hpointed, htext⟩

theorem exists_floats_eq (word rest : List Char) (hword : ∀ c ∈ word, IsIdle c) (hrun : IsFigure run)
    (hrest : ∀ c ∈ rest.head?, Text.isLatinDigit c = false ∧ c ≠ '.') :
    ∃ xs, floats (word ++ (run ++ rest)) = toDouble run :: xs := by
  have hpos : 0 < run.length := List.length_pos_iff.mpr hrun.ne_nil
  obtain ⟨steps, hsteps⟩ : ∃ steps, (word ++ (run ++ rest)).length = word.length + (steps + 1) := by
    refine ⟨run.length + rest.length - 1, ?_⟩
    rw [List.length_append, List.length_append]
    omega
  rw [floats, hsteps, numberRuns_append hword, numberRuns_eq_cons hrun.ne_nil (hrun.numberAt? hrest)]
  exact ⟨_, rfl⟩

theorem exists_floats_eq_pair (word word' rest : List Char) {run' : List Char} (hword : ∀ c ∈ word, IsIdle c)
    (hrun : IsFigure run)
    (hword' : ∀ c ∈ word', IsIdle c ∧ c ≠ '.') (hne : word' ≠ []) (hrun' : IsFigure run')
    (hrest : ∀ c ∈ rest.head?, Text.isLatinDigit c = false ∧ c ≠ '.') :
    ∃ xs, floats (word ++ (run ++ (word' ++ (run' ++ rest)))) = toDouble run :: toDouble run' :: xs := by
  have hpos : 0 < run.length := List.length_pos_iff.mpr hrun.ne_nil
  have hpos' : 0 < run'.length := List.length_pos_iff.mpr hrun'.ne_nil
  obtain ⟨steps, hsteps⟩ : ∃ steps, (word ++ (run ++ (word' ++ (run' ++ rest)))).length =
      word.length + (word'.length + (steps + 1) + 1) := by
    refine ⟨run.length - 1 + (run'.length - 1) + rest.length, ?_⟩
    simp only [List.length_append]
    omega
  have hbetween : ∀ c ∈ (word' ++ (run' ++ rest)).head?, Text.isLatinDigit c = false ∧ c ≠ '.' := by
    obtain ⟨d, cs, rfl⟩ := List.exists_cons_of_ne_nil hne
    intro c hc
    obtain rfl := Option.some.inj hc
    obtain ⟨⟨-, hdigit⟩, hpoint⟩ := hword' _ (List.mem_cons_self ..)
    exact ⟨hdigit, hpoint⟩
  rw [floats, hsteps, numberRuns_append hword, numberRuns_eq_cons hrun.ne_nil (hrun.numberAt? hbetween),
    numberRuns_append (fun c hc => (hword' c hc).1), numberRuns_eq_cons hrun'.ne_nil (hrun'.numberAt? hrest)]
  exact ⟨_, rfl⟩

end OnlineLearning.Compare
