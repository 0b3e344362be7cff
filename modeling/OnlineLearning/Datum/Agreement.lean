import OnlineLearning.Datum.Conversion

/-! # Agreement is an equivalence on keys

Data without mutable parts agree with themselves, in both directions, and along chains. So keys fall
into classes, and a table may compare with any key of a class. -/

namespace OnlineLearning

namespace Datum

namespace Quantity

theorem agrees_self (p : Quantity) : p.agrees p = true := by
  cases p with
  | whole n => simp [agrees]
  | real x m =>
    cases h : x.isNaN with
    | false => simp [agrees, Number.same_self h]
    | true => simp [agrees, h]

theorem agrees_comm (p q : Quantity) : p.agrees q = q.agrees p := by
  rcases p with a | ⟨x, m⟩ <;> rcases q with b | ⟨y, k⟩
  · exact BEq.comm
  · rfl
  · rfl
  · simp only [agrees, Number.same_comm x y, Bool.and_comm x.isNaN]
    rw [BEq.comm (a := m)]

theorem agrees_trans {p q r : Quantity} (h : p.agrees q = true) (k : q.agrees r = true) :
    p.agrees r = true := by
  rcases p with a | ⟨x, l⟩ <;> rcases q with b | ⟨y, m⟩ <;> rcases r with c | ⟨z, n⟩ <;>
    simp only [agrees, Bool.or_eq_true, Bool.and_eq_true, beq_iff_eq] at h k ⊢
  · exact h.trans k
  · rwa [h]
  · exact Number.eq_of_isInt h k
  · rcases k with k | ⟨⟨hy, -⟩, -⟩
    · rwa [← Number.isInt_of_same k]
    · exact absurd hy (by simp [Number.isNaN_eq_false_of_isInt h])
  · rwa [← k]
  · exact .inl (Number.same_of_isInt h k)
  · rcases h with h | ⟨⟨-, hy⟩, -⟩
    · rwa [Number.isInt_of_same h]
    · exact absurd hy (by simp [Number.isNaN_eq_false_of_isInt k])
  · rcases h with h | ⟨⟨hx, hy⟩, hm⟩
    · rcases k with k | ⟨⟨hy, -⟩, -⟩
      · exact .inl (Number.same_trans h k)
      · rw [Number.same_comm] at h
        exact absurd hy (by simp [Number.isNaN_eq_false_of_same h])
    · rcases k with k | ⟨⟨-, hz⟩, hn⟩
      · exact absurd hy (by simp [Number.isNaN_eq_false_of_same k])
      · exact .inr ⟨⟨hx, hz⟩, hm.trans hn⟩

end Quantity

theorem agreesPlainly_iff {a b : Datum} : a.agreesPlainly b = true ↔
    (a = null ∧ b = null) ∨ (∃ s, a = text s ∧ b = text s) ∨
      ∃ p q, a.quantity? = some p ∧ b.quantity? = some q ∧ p.agrees q = true := by
  cases a <;> cases b <;> simp [agreesPlainly, quantity?]
  exact eq_comm

theorem agreesPlainly_symm {a b : Datum} (h : a.agreesPlainly b = true) :
    b.agreesPlainly a = true := by
  rw [agreesPlainly_iff] at h ⊢
  rcases h with ⟨ha, hb⟩ | ⟨s, ha, hb⟩ | ⟨p, q, ha, hb, h⟩
  · exact .inl ⟨hb, ha⟩
  · exact .inr (.inl ⟨s, hb, ha⟩)
  · exact .inr (.inr ⟨q, p, hb, ha, by rwa [Quantity.agrees_comm]⟩)

theorem agreesPlainly_trans {a b c : Datum} (h : a.agreesPlainly b = true)
    (k : b.agreesPlainly c = true) : a.agreesPlainly c = true := by
  rcases agreesPlainly_iff.mp h with ⟨rfl, rfl⟩ | ⟨s, rfl, rfl⟩ | ⟨p, q, ha, hb, hpq⟩
  · exact k
  · exact k
  · rcases agreesPlainly_iff.mp k with ⟨rfl, -⟩ | ⟨s, rfl, -⟩ | ⟨q', r, hb', hc, hqr⟩
    · simp [quantity?] at hb
    · simp [quantity?] at hb
    · rw [hb] at hb'
      obtain rfl := Option.some.inj hb'
      exact agreesPlainly_iff.mpr (.inr (.inr ⟨p, r, ha, hc, Quantity.agrees_trans hpq hqr⟩))

theorem agrees_of_agreesPlainly {a b : Datum} (h : a.agreesPlainly b = true) :
    a.agrees b = true := by
  cases a <;> cases b <;> first | exact h | simp [agreesPlainly, quantity?] at h

/-- A datum without mutable parts agrees with another plainly, or both are tuples that agree item by
item. -/
theorem agrees_cases {a b : Datum} (ha : a.mutablePart? = none) (h : a.agrees b = true) :
    a.agreesPlainly b = true ∨
      ∃ xs ys, a = tuple xs ∧ b = tuple ys ∧ agreesItems xs ys = true := by
  cases a with
  | tuple xs =>
    cases b with
    | tuple ys => exact .inr ⟨xs, ys, rfl, rfl, by rwa [agrees] at h⟩
    | _ => exact .inl h
  | list xs => simp [mutablePart?] at ha
  | dict es => simp [mutablePart?] at ha
  | _ => exact .inl (by cases b <;> exact h)

theorem mutablePartOfItems?_cons {x : Datum} {xs : List Datum}
    (h : mutablePartOfItems? (x :: xs) = none) :
    x.mutablePart? = none ∧ mutablePartOfItems? xs = none := by
  rw [mutablePartOfItems?] at h
  split at h
  · simp at h
  · rename_i hx
    exact ⟨hx, h⟩

mutual

theorem agrees_self : (d : Datum) → d.mutablePart? = none → d.agrees d = true
  | null, _ => rfl
  | bool b, _ => by simp [agrees, agreesPlainly, quantity?, Quantity.agrees_self]
  | int n, _ => by simp [agrees, agreesPlainly, quantity?, Quantity.agrees_self]
  | float x m, _ => by simp [agrees, agreesPlainly, quantity?, Quantity.agrees_self]
  | text s, _ => by simp [agrees, agreesPlainly]
  | tuple xs, h => by
    rw [agrees]
    exact agreesItems_self xs (by simpa [mutablePart?] using h)
  | list _, h => by simp [mutablePart?] at h
  | dict _, h => by simp [mutablePart?] at h

theorem agreesItems_self : (xs : List Datum) → mutablePartOfItems? xs = none →
    agreesItems xs xs = true
  | [], _ => rfl
  | x :: xs, h => by
    have h := mutablePartOfItems?_cons h
    simp [agreesItems, agrees_self x h.1, agreesItems_self xs h.2]

end

mutual

theorem agrees_symm {a b : Datum} (ha : a.mutablePart? = none) (h : a.agrees b = true) :
    b.agrees a = true := by
  rcases agrees_cases ha h with h' | ⟨xs, ys, rfl, rfl, h'⟩
  · exact agrees_of_agreesPlainly (agreesPlainly_symm h')
  · rw [agrees]
    exact agreesItems_symm (by rwa [mutablePart?] at ha) h'
termination_by sizeOf a

theorem agreesItems_symm {xs ys : List Datum} (hxs : mutablePartOfItems? xs = none)
    (h : agreesItems xs ys = true) : agreesItems ys xs = true := by
  match xs, ys with
  | [], [] => rfl
  | x :: xs, y :: ys =>
    have hx := mutablePartOfItems?_cons hxs
    simp only [agreesItems, Bool.and_eq_true] at h ⊢
    exact ⟨agrees_symm hx.1 h.1, agreesItems_symm hx.2 h.2⟩
  | [], _ :: _ => simp [agreesItems] at h
  | _ :: _, [] => simp [agreesItems] at h
termination_by sizeOf xs

end

mutual

theorem agrees_trans {a b c : Datum} (ha : a.mutablePart? = none) (hb : b.mutablePart? = none)
    (h : a.agrees b = true) (k : b.agrees c = true) : a.agrees c = true := by
  rcases agrees_cases ha h with h' | ⟨xs, ys, rfl, rfl, h'⟩
  · rcases agrees_cases hb k with k' | ⟨ys, zs, rfl, rfl, -⟩
    · exact agrees_of_agreesPlainly (agreesPlainly_trans h' k')
    · exact absurd (agreesPlainly_symm h') (by simp [agreesPlainly, quantity?])
  · rcases agrees_cases hb k with k' | ⟨_, zs, e, rfl, k'⟩
    · exact absurd k' (by simp [agreesPlainly, quantity?])
    · obtain rfl := Datum.tuple.inj e
      rw [agrees]
      exact agreesItems_trans (by rwa [mutablePart?] at ha) (by rwa [mutablePart?] at hb) h' k'
termination_by sizeOf a

theorem agreesItems_trans {xs ys zs : List Datum} (hxs : mutablePartOfItems? xs = none)
    (hys : mutablePartOfItems? ys = none) (h : agreesItems xs ys = true)
    (k : agreesItems ys zs = true) : agreesItems xs zs = true := by
  match xs, ys, zs with
  | [], [], [] => rfl
  | x :: xs, y :: ys, z :: zs =>
    have hx := mutablePartOfItems?_cons hxs
    have hy := mutablePartOfItems?_cons hys
    simp only [agreesItems, Bool.and_eq_true] at h k ⊢
    exact ⟨agrees_trans hx.1 hy.1 h.1 k.1, agreesItems_trans hx.2 hy.2 h.2 k.2⟩
  | [], _ :: _, _ => simp [agreesItems] at h
  | _ :: _, [], _ => simp [agreesItems] at h
  | [], [], _ :: _ => simp [agreesItems] at k
  | _ :: _, _ :: _, [] => simp [agreesItems] at k
termination_by sizeOf xs

end

end Datum

namespace Key

theorem same_self (k : Key) : k.same k = true := Datum.agrees_self k.datum k.immutable

theorem same_symm {k l : Key} (h : k.same l = true) : l.same k = true :=
  Datum.agrees_symm k.immutable h

theorem same_trans {k l m : Key} (h : k.same l = true) (h' : l.same m = true) :
    k.same m = true :=
  Datum.agrees_trans k.immutable l.immutable h h'

theorem same_comm (k l : Key) : k.same l = l.same k :=
  Bool.eq_iff_iff.mpr ⟨same_symm, same_symm⟩

theorem same_congr_left {k l : Key} (h : k.same l = true) (m : Key) : k.same m = l.same m :=
  Bool.eq_iff_iff.mpr ⟨same_trans (same_symm h), same_trans h⟩

theorem same_congr_right {k l : Key} (h : k.same l = true) (m : Key) : m.same k = m.same l := by
  rw [same_comm m k, same_comm m l, same_congr_left h]

end Key

end OnlineLearning
