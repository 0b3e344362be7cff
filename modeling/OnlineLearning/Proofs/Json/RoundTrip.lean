import OnlineLearning.Json.Reader
import OnlineLearning.Json.Writer
import OnlineLearning.Proofs.Text.Lines

/-!
# Written data are read again

`Written` says of a text that it is read as a datum wherever it stands, with as many steps as it has
characters. Texts are written, whatever their characters (`written_text`), and so are arrays and objects
of written data; a written text alone on its line is read as its datum (`read_of_written`). Line breaks
are among the characters that are not written as they are, so nothing written breaks its line.
-/

namespace OnlineLearning.Json

/-! ### Characters -/

theorem hexValue?_hexChar {d : Nat} (h : d < 16) : hexValue? (Text.hexChar d) = some d := by
  have hall : ∀ d : Fin 16, hexValue? (Text.hexChar d) = some d.val := by decide
  exact hall ⟨d, h⟩

theorem codeUnit?_hexDigits {n : Nat} (h : n < 0x10000) {more : List Char} (hmore : more ≠ []) :
    codeUnit? (Text.hexDigits 4 n ++ more) = some n := by
  obtain ⟨next, more, rfl⟩ := List.exists_cons_of_ne_nil hmore
  have hlt : ∀ m, m % 16 < 16 := fun m => Nat.mod_lt m (by decide)
  show codeUnit? (Text.hexChar (n / 16 / 16 / 16 % 16) :: Text.hexChar (n / 16 / 16 % 16) ::
    Text.hexChar (n / 16 % 16) :: Text.hexChar (n % 16) :: next :: more) = some n
  simp only [codeUnit?, hexValue?_hexChar (hlt _), Option.bind_eq_bind, Option.bind_some, Option.pure_def,
    Option.some.injEq]
  omega

/-- The forms in which a character is written: as it is, as a letter of its own, or by its number. -/
inductive Form (x : Char) : List Char → Prop where
  | plain (hquote : x ≠ '"') (hslash : x ≠ '\\') (hcontrol : ¬x.toNat < 0x20) : Form x [x]
  | letter (e : Char) (h : escape? e = some x) : Form x ['\\', e]
  | control (h : x.toNat < 0x20) : Form x ('\\' :: 'u' :: Text.hexDigits 4 x.toNat)

theorem form_textChar (x : Char) : Form x (textChar x) := by
  unfold textChar
  -- seven characters have a letter of their own
  iterate 7
    split
    · rename_i h
      rw [h]
      exact .letter _ rfl
  split
  · rename_i hcontrol
    exact .control hcontrol
  · rename_i hquote hslash _ _ _ _ _ hcontrol
    exact .plain hquote hslash hcontrol

section
variable (start steps offset : Nat) (done : CodePoints) {more : List Char} {x : Char}

theorem readTextFrom_plain (hquote : x ≠ '"') (hslash : x ≠ '\\') (hcontrol : ¬x.toNat < 0x20) :
    readTextFrom start (steps + 1) done ⟨x :: more, offset⟩ =
      readTextFrom start steps (.char x :: done) ⟨more, offset + 1⟩ := by
  rw [readTextFrom]
  split
  · rename_i h
    cases h
  · rename_i h
    exact absurd (List.cons.inj h).1 hquote
  · rename_i h
    exact absurd (List.cons.inj h).1 hslash
  · rename_i h
    obtain ⟨rfl, rfl⟩ := List.cons.inj h
    rw [if_neg hcontrol]
    rfl

theorem readTextFrom_control (hx : x.toNat < 0x20) (hmore : more ≠ []) :
    readTextFrom start (steps + 1) done ⟨'\\' :: 'u' :: (Text.hexDigits 4 x.toNat ++ more), offset⟩ =
      readTextFrom start steps (.char x :: done) ⟨more, offset + 6⟩ := by
  have hunit := codeUnit?_hexDigits (n := x.toNat) (by omega) hmore
  have hhigh : isHighUnit x.toNat = false := by
    simp only [isHighUnit, Bool.and_eq_false_iff, decide_eq_false_iff_not]
    omega
  have hchar : CodePoint.ofUnit x.toNat = .char x := by
    rw [CodePoint.ofUnit, dif_neg (by omega), Char.ofNat_toNat]
  have hpoint : readCodePoint (Text.hexDigits 4 x.toNat ++ more) (offset + 2) = .ok (.char x, 4) := by
    rw [readCodePoint, hunit]
    dsimp only
    rw [hhigh, hchar]
  show readCodePoint (Text.hexDigits 4 x.toNat ++ more) (offset + 2) >>= _ = _
  rw [hpoint]
  rfl

theorem readTextFrom_letter {e : Char} (h : escape? e = some x) :
    readTextFrom start (steps + 1) done ⟨'\\' :: e :: more, offset⟩ =
      readTextFrom start steps (.char x :: done) ⟨more, offset + 2⟩ := by
  unfold escape? at h
  split at h <;> cases h <;> rfl

/-- One character is read in one step, in whatever form it is written. -/
theorem readTextFrom_textChar (x : Char) (hmore : more ≠ []) :
    ∃ offset', readTextFrom start (steps + 1) done ⟨textChar x ++ more, offset⟩ =
      readTextFrom start steps (.char x :: done) ⟨more, offset'⟩ := by
  have hform := form_textChar x
  generalize textChar x = cs at hform
  cases hform with
  | plain hquote hslash hcontrol => exact ⟨_, readTextFrom_plain start steps offset done hquote hslash hcontrol⟩
  | letter e he => exact ⟨_, readTextFrom_letter start steps offset done he⟩
  | control hcontrol => exact ⟨_, readTextFrom_control start steps offset done hcontrol hmore⟩

theorem readTextFrom_flatMap (cs rest : List Char) (hsteps : cs.length < steps) :
    ∃ offset', readTextFrom start steps done ⟨cs.flatMap textChar ++ '"' :: rest, offset⟩ =
      .ok (done.reverse ++ CodePoints.ofChars cs, ⟨rest, offset'⟩) := by
  induction cs generalizing steps done offset with
  | nil =>
    obtain ⟨steps, rfl⟩ := Nat.exists_eq_add_of_lt hsteps
    refine ⟨offset + 1, ?_⟩
    rw [CodePoints.ofChars, List.map_nil, List.append_nil]
    rfl
  | cons x cs ih =>
    obtain ⟨steps, rfl⟩ := Nat.exists_eq_succ_of_ne_zero (Nat.ne_of_gt (Nat.zero_lt_of_lt hsteps))
    have hmore : cs.flatMap textChar ++ '"' :: rest ≠ [] := by simp
    obtain ⟨next, hnext⟩ := readTextFrom_textChar start steps offset done x hmore
    obtain ⟨offset', hread⟩ := ih steps next (.char x :: done) (Nat.lt_of_succ_lt_succ hsteps)
    refine ⟨offset', ?_⟩
    rw [List.flatMap_cons, List.append_assoc, hnext, hread, List.reverse_cons, List.append_assoc]
    rfl

end

theorem length_textChar_pos (c : Char) : 0 < (textChar c).length := by
  have hform := form_textChar c
  generalize textChar c = cs at hform
  cases hform <;> exact Nat.succ_pos _

theorem length_le_flatMap_textChar (cs : List Char) : cs.length ≤ (cs.flatMap textChar).length := by
  induction cs with
  | nil => exact Nat.le_refl 0
  | cons c cs ih =>
    have hpos := length_textChar_pos c
    rw [List.flatMap_cons, List.length_append, List.length_cons]
    omega

theorem readText_text (s : String) (rest : List Char) (offset : Nat) :
    ∃ offset', readText ⟨text s ++ rest, offset⟩ = .ok (s, ⟨rest, offset'⟩) := by
  have hlength := length_le_flatMap_textChar s.toList
  have hsteps : s.toList.length < (text s ++ rest).length + 1 := by
    simp only [text, List.length_append, List.length_cons]
    omega
  obtain ⟨offset', hread⟩ := readTextFrom_flatMap offset _ (offset + 1) [] s.toList rest hsteps
  refine ⟨offset', ?_⟩
  rw [readText]
  refine Eq.trans ?_ hread
  rw [text, List.append_assoc]
  rfl

/-! ### Data -/

/-- A character that no reader passes over. -/
def IsSolid (c : Char) : Prop := ¬(c = ' ' ∨ c = '\t' ∨ c = '\n' ∨ c = '\r')

instance (c : Char) : Decidable (IsSolid c) := inferInstanceAs (Decidable (¬_))

/-- A character with which a text, an array or an object starts. -/
def Opens (c : Char) : Prop := c = '"' ∨ c = '[' ∨ c = '\x7b'

theorem Opens.isSolid {c : Char} (h : Opens c) : IsSolid c := by
  rcases h with rfl | rfl | rfl <;> decide

/-- A text that is read as a datum wherever it stands, in as many steps as it has characters. -/
structure Written (v : List Char) (d : Datum) : Prop where
  first : ∃ c cs, v = c :: cs ∧ Opens c
  reads : ∀ {n : Nat}, v.length ≤ n → ∀ rest offset,
    ∃ offset', readDatum n ⟨v ++ rest, offset⟩ = .ok (d, ⟨rest, offset'⟩)

theorem takeWhile_of_isSolid {c : Char} (h : IsSolid c) (cs : List Char) :
    ((c :: cs).takeWhile fun x => x = ' ' || x = '\t' || x = '\n' || x = '\r') = [] := by
  have hc : (decide (c = ' ') || decide (c = '\t') || decide (c = '\n') || decide (c = '\r')) = false := by
    simpa [IsSolid, not_or, and_assoc] using h
  rw [List.takeWhile_cons, hc]
  rfl

theorem skipBlanks_of_isSolid {c : Char} (h : IsSolid c) (cs : List Char) (offset : Nat) :
    Cursor.skipBlanks ⟨c :: cs, offset⟩ = ⟨c :: cs, offset⟩ := by
  rw [Cursor.skipBlanks, takeWhile_of_isSolid h]
  rfl

theorem skipBlanks_space {c : Char} (h : IsSolid c) (cs : List Char) (offset : Nat) :
    Cursor.skipBlanks ⟨' ' :: c :: cs, offset⟩ = ⟨c :: cs, offset + 1⟩ := by
  have hfirst : ((' ' :: c :: cs).takeWhile fun x => x = ' ' || x = '\t' || x = '\n' || x = '\r') = [' '] :=
    congrArg (' ' :: ·) (takeWhile_of_isSolid h cs)
  rw [Cursor.skipBlanks, hfirst]
  rfl

theorem advance_cons (c : Char) (cs : List Char) (offset : Nat) :
    Cursor.advance ⟨c :: cs, offset⟩ 1 = ⟨cs, offset + 1⟩ := rfl

theorem written_text (s : String) : Written (text s) (.text s) := by
  refine ⟨⟨'"', _, rfl, .inl rfl⟩, fun {n} hn rest offset => ?_⟩
  have hpos : 0 < (text s).length := Nat.succ_pos _
  obtain ⟨n, rfl⟩ := Nat.exists_eq_succ_of_ne_zero (Nat.ne_of_gt (Nat.lt_of_lt_of_le hpos hn))
  obtain ⟨offset', hread⟩ := readText_text s rest offset
  refine ⟨offset', ?_⟩
  rw [readDatum]
  show (readText ⟨text s ++ rest, offset⟩ >>= _) = _
  rw [hread]
  rfl

/-! ### Arrays -/

theorem commaSeparated_cons_cons (part next : List Char) (parts : List (List Char)) :
    Text.commaSeparated (part :: next :: parts) = part ++ ',' :: ' ' :: Text.commaSeparated (next :: parts) := by
  rw [Text.commaSeparated, Text.joinWith_cons _ _ (List.cons_ne_nil _ _), List.append_assoc]
  rfl

theorem first_commaSeparated {items : List (List Char × Datum)} (hne : items ≠ [])
    (h : ∀ e ∈ items, Written e.1 e.2) :
    ∃ c cs, Text.commaSeparated (items.map Prod.fst) = c :: cs ∧ Opens c := by
  obtain ⟨e, items, rfl⟩ := List.exists_cons_of_ne_nil hne
  obtain ⟨c, cs, he, hc⟩ := (h e (List.mem_cons_self ..)).first
  rw [Text.commaSeparated, List.map_cons, he]
  cases items with
  | nil => exact ⟨c, _, rfl, hc⟩
  | cons e' items => exact ⟨c, _, rfl, hc⟩

section
variable {n : Nat} {v : List Char} {d : Datum} (h : Written v d) (hn : v.length ≤ n) (done : List Datum) (offset : Nat)
include h hn

theorem readItems_last (rest : List Char) : ∃ offset', readItems (n + 1) done ⟨v ++ ']' :: rest, offset⟩ =
    .ok (.list (d :: done).reverse, ⟨rest, offset'⟩) := by
  obtain ⟨next, hread⟩ := h.reads hn (']' :: rest) offset
  refine ⟨next + 1, ?_⟩
  rw [readItems, hread]
  dsimp only [bind, Except.bind]
  rw [skipBlanks_of_isSolid (by decide)]
  rfl

theorem readItems_next {c : Char} (hc : IsSolid c) (cs : List Char) :
    ∃ offset', readItems (n + 1) done ⟨v ++ ',' :: ' ' :: c :: cs, offset⟩ =
      readItems n (d :: done) ⟨c :: cs, offset'⟩ := by
  obtain ⟨next, hread⟩ := h.reads hn (',' :: ' ' :: c :: cs) offset
  refine ⟨next + 2, ?_⟩
  rw [readItems, hread]
  dsimp only [bind, Except.bind]
  rw [skipBlanks_of_isSolid (by decide)]
  show readItems n (d :: done) (Cursor.skipBlanks ⟨' ' :: c :: cs, next + 1⟩) = _
  rw [skipBlanks_space hc]

end

theorem readItems_written {items : List (List Char × Datum)} (hne : items ≠ []) (h : ∀ e ∈ items, Written e.1 e.2)
    {n : Nat} (hn : (Text.commaSeparated (items.map Prod.fst)).length < n) (done : List Datum) (rest : List Char)
    (offset : Nat) :
    ∃ offset', readItems n done ⟨Text.commaSeparated (items.map Prod.fst) ++ ']' :: rest, offset⟩ =
      .ok (.list (done.reverse ++ items.map Prod.snd), ⟨rest, offset'⟩) := by
  induction items generalizing n done offset with
  | nil => exact absurd rfl hne
  | cons e items ih =>
    obtain ⟨he, hitems⟩ := List.forall_mem_cons.mp h
    obtain ⟨n, rfl⟩ := Nat.exists_eq_succ_of_ne_zero (Nat.ne_of_gt (Nat.zero_lt_of_lt hn))
    cases items with
    | nil =>
      obtain ⟨offset', hread⟩ := readItems_last he (Nat.le_of_lt_succ hn) done offset rest
      refine ⟨offset', hread.trans ?_⟩
      rw [List.reverse_cons]
      rfl
    | cons e' items =>
      obtain ⟨c, cs, hfirst, hc⟩ := first_commaSeparated (List.cons_ne_nil e' items) hitems
      have hjoin : Text.commaSeparated ((e :: e' :: items).map Prod.fst) =
          e.1 ++ ',' :: ' ' :: Text.commaSeparated ((e' :: items).map Prod.fst) :=
        commaSeparated_cons_cons e.1 e'.1 _
      rw [hjoin, List.length_append, List.length_cons, List.length_cons] at hn
      obtain ⟨next, hnext⟩ := readItems_next he (n := n) (by omega) done offset hc.isSolid (cs ++ ']' :: rest)
      obtain ⟨offset', hread⟩ := ih (List.cons_ne_nil e' items) hitems (n := n) (by omega) (e.2 :: done) next
      refine ⟨offset', ?_⟩
      rw [hfirst] at hjoin hread
      rw [hjoin, List.append_assoc]
      refine hnext.trans (hread.trans ?_)
      rw [List.reverse_cons, List.append_assoc]
      rfl

theorem written_array (items : List (List Char × Datum)) (h : ∀ e ∈ items, Written e.1 e.2) :
    Written (array (items.map Prod.fst)) (.list (items.map Prod.snd)) := by
  refine ⟨⟨'[', _, rfl, .inr (.inl rfl)⟩, fun {n} hn rest offset => ?_⟩
  have hlength : (array (items.map Prod.fst)).length = (Text.commaSeparated (items.map Prod.fst)).length + 2 := by
    rw [array, List.length_append, List.length_cons, List.length_singleton]
  obtain ⟨n, rfl⟩ := Nat.exists_eq_succ_of_ne_zero (Nat.ne_of_gt (show 0 < n by omega))
  have harray : array (items.map Prod.fst) ++ rest =
      '[' :: (Text.commaSeparated (items.map Prod.fst) ++ ']' :: rest) := by
    rw [array, List.append_assoc]
    rfl
  rw [harray, readDatum]
  dsimp only
  rw [advance_cons]
  cases items with
  | nil =>
    refine ⟨offset + 2, ?_⟩
    show (if (Cursor.skipBlanks ⟨']' :: rest, offset + 1⟩).rest.head? = some ']' then _ else _) = _
    rw [skipBlanks_of_isSolid (by decide)]
    rfl
  | cons e items =>
    obtain ⟨c, cs, hfirst, hc⟩ := first_commaSeparated (List.cons_ne_nil e items) h
    have hne : c ≠ ']' := by rcases hc with rfl | rfl | rfl <;> decide
    obtain ⟨offset', hread⟩ := readItems_written (List.cons_ne_nil e items) h (n := n) (by omega) [] rest (offset + 1)
    refine ⟨offset', ?_⟩
    rw [hfirst] at hread ⊢
    rw [List.cons_append, skipBlanks_of_isSolid hc.isSolid, if_neg (by simpa using hne)]
    exact hread

/-! ### Objects -/

/-- An entry of an object as it is written. -/
def entryText (e : String × List Char × Datum) : List Char := text e.1 ++ ':' :: ' ' :: e.2.1

section
variable {n : Nat} {e : String × List Char × Datum} (h : Written e.2.1 e.2.2) (hn : e.2.1.length ≤ n)
  (done : List (Datum × Datum)) (offset : Nat)
include h hn

theorem readEntries_entry {c : Char} (hc : IsSolid c) (cs : List Char) :
    ∃ offset', readEntries (n + 1) done ⟨entryText e ++ c :: cs, offset⟩ =
      match c :: cs with
      | '\x7d' :: _ => .ok (.dict (Datum.setEntry (.text e.1) e.2.2 done), ⟨cs, offset' + 1⟩)
      | ',' :: _ => readEntries n (Datum.setEntry (.text e.1) e.2.2 done) (Cursor.skipBlanks ⟨cs, offset' + 1⟩)
      | _ => Cursor.refuse ⟨c :: cs, offset'⟩ .expectingComma := by
  obtain ⟨colon, hname⟩ := readText_text e.1 (':' :: ' ' :: (e.2.1 ++ c :: cs)) offset
  obtain ⟨offset', hvalue⟩ := h.reads hn (c :: cs) (colon + 2)
  refine ⟨offset', ?_⟩
  have hentry : entryText e ++ c :: cs = text e.1 ++ ':' :: ' ' :: (e.2.1 ++ c :: cs) := by
    rw [entryText, List.append_assoc]
    rfl
  have hquote : (Cursor.mk (text e.1 ++ ':' :: ' ' :: (e.2.1 ++ c :: cs)) offset).rest.head? = some '"' := rfl
  obtain ⟨first, more, hfirst, hopens⟩ := h.first
  rw [hentry, readEntries, if_neg (by rw [hquote]; simp), hname]
  dsimp only [bind, Except.bind]
  rw [skipBlanks_of_isSolid (by decide), if_neg (by simp), advance_cons]
  rw [hfirst] at hvalue ⊢
  rw [List.cons_append, skipBlanks_space hopens.isSolid]
  rw [List.cons_append] at hvalue
  rw [hvalue]
  dsimp only
  rw [skipBlanks_of_isSolid hc]
  rfl

end

theorem isSolid_quote : IsSolid '"' := by decide

theorem first_entries (e : String × List Char × Datum) (entries : List (String × List Char × Datum)) :
    ∃ cs, Text.commaSeparated ((e :: entries).map entryText) = '"' :: cs := by
  cases entries with
  | nil => exact ⟨_, rfl⟩
  | cons e' entries => exact ⟨_, rfl⟩

/-- The entries of an object are set one after another, as the reader comes to them. -/
theorem readEntries_written {entries : List (String × List Char × Datum)} (hne : entries ≠ [])
    (h : ∀ e ∈ entries, Written e.2.1 e.2.2) {n : Nat} (hn : (Text.commaSeparated (entries.map entryText)).length < n)
    (done : List (Datum × Datum)) (rest : List Char) (offset : Nat) :
    ∃ offset', readEntries n done ⟨Text.commaSeparated (entries.map entryText) ++ '\x7d' :: rest, offset⟩ =
      .ok (.dict (entries.foldl (fun es e => Datum.setEntry (.text e.1) e.2.2 es) done), ⟨rest, offset'⟩) := by
  induction entries generalizing n done offset with
  | nil => exact absurd rfl hne
  | cons e entries ih =>
    obtain ⟨he, hentries⟩ := List.forall_mem_cons.mp h
    obtain ⟨n, rfl⟩ := Nat.exists_eq_succ_of_ne_zero (Nat.ne_of_gt (Nat.zero_lt_of_lt hn))
    have hlength : e.2.1.length < (entryText e).length := by
      rw [entryText, List.length_append, List.length_cons, List.length_cons]
      omega
    cases entries with
    | nil =>
      replace hn : (entryText e).length < n + 1 := hn
      obtain ⟨offset', hread⟩ := readEntries_entry he (n := n) (by omega) done offset (c := '\x7d') (by decide) rest
      exact ⟨offset' + 1, hread⟩
    | cons e' entries =>
      have hjoin : Text.commaSeparated ((e :: e' :: entries).map entryText) =
          entryText e ++ ',' :: ' ' :: Text.commaSeparated ((e' :: entries).map entryText) :=
        commaSeparated_cons_cons (entryText e) (entryText e') _
      rw [hjoin, List.length_append, List.length_cons, List.length_cons] at hn
      obtain ⟨cs, hfirst⟩ := first_entries e' entries
      obtain ⟨next, hnext⟩ := readEntries_entry he (n := n) (by omega) done offset (c := ',') (by decide)
        (' ' :: (Text.commaSeparated ((e' :: entries).map entryText) ++ '\x7d' :: rest))
      obtain ⟨offset', hread⟩ := ih (List.cons_ne_nil e' entries) hentries (n := n) (by omega)
        (Datum.setEntry (.text e.1) e.2.2 done) (next + 2)
      refine ⟨offset', ?_⟩
      rw [hjoin, List.append_assoc]
      refine hnext.trans (Eq.trans ?_ hread)
      rw [hfirst, List.cons_append, skipBlanks_space isSolid_quote]
      rfl

theorem written_object (entries : List (String × List Char × Datum)) (hne : entries ≠ [])
    (h : ∀ e ∈ entries, Written e.2.1 e.2.2) :
    Written (object (entries.map fun e => (e.1, e.2.1)))
      (.ofEntries (entries.map fun e => (.text e.1, e.2.2))) := by
  have hobject : object (entries.map fun e => (e.1, e.2.1)) =
      '\x7b' :: Text.commaSeparated (entries.map entryText) ++ ['\x7d'] := by
    rw [object, List.map_map]
    rfl
  refine ⟨⟨'\x7b', _, rfl, .inr (.inr rfl)⟩, fun {n} hn rest offset => ?_⟩
  rw [hobject, List.length_append, List.length_cons, List.length_singleton] at hn
  obtain ⟨n, rfl⟩ := Nat.exists_eq_succ_of_ne_zero (Nat.ne_of_gt (show 0 < n by omega))
  obtain ⟨e, entries, rfl⟩ := List.exists_cons_of_ne_nil hne
  obtain ⟨cs, hfirst⟩ := first_entries e entries
  obtain ⟨offset', hread⟩ := readEntries_written (List.cons_ne_nil e entries) h (n := n) (by omega) [] rest (offset + 1)
  refine ⟨offset', ?_⟩
  have hrest : object ((e :: entries).map fun e => (e.1, e.2.1)) ++ rest =
      '\x7b' :: (Text.commaSeparated ((e :: entries).map entryText) ++ '\x7d' :: rest) := by
    rw [hobject, List.append_assoc]
    rfl
  rw [hrest, readDatum, Datum.ofEntries, List.foldl_map]
  dsimp only
  rw [advance_cons]
  rw [hfirst] at hread ⊢
  rw [List.cons_append, skipBlanks_of_isSolid isSolid_quote, if_neg (by simp)]
  exact hread

/-- A line that is written ends where its datum does. -/
theorem read_of_written {v : List Char} {d : Datum} (h : Written v d) : read (v ++ ['\n']) = .ok d := by
  obtain ⟨c, cs, hfirst, hopens⟩ := h.first
  obtain ⟨offset, hread⟩ := h.reads (n := 2 * (v ++ ['\n']).length + 2)
    (by rw [List.length_append, List.length_singleton]; omega) ['\n'] 0
  have hc : c ≠ '\ufeff' := by rcases hopens with rfl | rfl | rfl <;> decide
  have hmark : (v ++ ['\n']).head? ≠ some '\ufeff' := by
    rw [hfirst]
    exact fun h => hc (Option.some.inj h)
  have hstart : Cursor.skipBlanks ⟨v ++ ['\n'], 0⟩ = ⟨v ++ ['\n'], 0⟩ := by
    rw [hfirst]
    exact skipBlanks_of_isSolid hopens.isSolid _ _
  rw [read, if_neg hmark, hstart, hread]
  rfl

/-! ### Line breaks -/

theorem unbroken_hexDigits (width n : Nat) : Text.Unbroken (Text.hexDigits width n) := by
  have hchar : ∀ d : Fin 16, Text.hexChar d.val ≠ '\n' ∧ Text.hexChar d.val ≠ '\r' := by decide
  induction width generalizing n with
  | zero => exact .nil
  | succ width ih =>
    obtain ⟨hn, hr⟩ := hchar ⟨n % 16, Nat.mod_lt n (by decide)⟩
    exact (ih (n / 16)).append (.cons hn hr .nil)

theorem unbroken_textChar (c : Char) : Text.Unbroken (textChar c) := by
  have hform := form_textChar c
  generalize textChar c = cs at hform
  cases hform with
  | plain hquote hslash hcontrol =>
    exact .cons (by rintro rfl; exact hcontrol (by decide)) (by rintro rfl; exact hcontrol (by decide)) .nil
  | letter e he =>
    exact .cons (by decide) (by decide) (.cons (by rintro rfl; cases he) (by rintro rfl; cases he) .nil)
  | control hcontrol =>
    exact .cons (by decide) (by decide) (.cons (by decide) (by decide) (unbroken_hexDigits 4 _))

theorem unbroken_flatMap {cs : List Char} {f : Char → List Char} (h : ∀ c, Text.Unbroken (f c)) :
    Text.Unbroken (cs.flatMap f) := by
  induction cs with
  | nil => exact .nil
  | cons c cs ih => exact (h c).append ih

theorem unbroken_text (s : String) : Text.Unbroken (text s) :=
  (Text.Unbroken.cons (by decide) (by decide) (unbroken_flatMap unbroken_textChar)).append
    (.cons (by decide) (by decide) .nil)

theorem unbroken_commaSeparated {parts : List (List Char)} (h : ∀ part ∈ parts, Text.Unbroken part) :
    Text.Unbroken (Text.commaSeparated parts) := by
  induction parts with
  | nil => exact .nil
  | cons part parts ih =>
    obtain ⟨hpart, hparts⟩ := List.forall_mem_cons.mp h
    cases parts with
    | nil => exact hpart
    | cons part' parts =>
      rw [commaSeparated_cons_cons]
      exact hpart.append (.cons (by decide) (by decide) (.cons (by decide) (by decide) (ih hparts)))

theorem unbroken_array {items : List (List Char)} (h : ∀ v ∈ items, Text.Unbroken v) : Text.Unbroken (array items) :=
  (Text.Unbroken.cons (by decide) (by decide) (unbroken_commaSeparated h)).append
    (.cons (by decide) (by decide) .nil)

theorem unbroken_object {entries : List (String × List Char)} (h : ∀ e ∈ entries, Text.Unbroken e.2) :
    Text.Unbroken (object entries) := by
  have hentries : ∀ part ∈ entries.map fun e => text e.1 ++ ':' :: ' ' :: e.2, Text.Unbroken part := by
    intro part hpart
    obtain ⟨e, he, rfl⟩ := List.mem_map.mp hpart
    exact (unbroken_text e.1).append (.cons (by decide) (by decide) (.cons (by decide) (by decide) (h e he)))
  exact (Text.Unbroken.cons (by decide) (by decide) (unbroken_commaSeparated hentries)).append
    (.cons (by decide) (by decide) .nil)

end OnlineLearning.Json
