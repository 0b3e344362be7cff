import OnlineLearning.Learning.Request
import OnlineLearning.Proofs.Learning.Growth
import OnlineLearning.Proofs.Learning.Stages
import OnlineLearning.Proofs.Model.Keys

/-!
# What requests leave of a model

Until it is flushed a model only grows. Whatever it is asked, also where it answers with a fault, its
labels and the keys of every label stay where they are, and what is new comes behind them
(`extends_served`). A call that changes the model enters its own label and, under the label and under
its rival, the keys of the example, each where it first occurs (`taught_learn`): an update enters the
key of one coordinate after another, and the rival is known before.
-/

namespace OnlineLearning

namespace Registry
variable {r : Registry} {label key : Key} {rival : Option Key} {cs : List Coordinate}

/-! ### Nothing is lost -/

theorem extends_serve (r : Registry) (request : Request) : r.Extends (r.serve request).registry :=
  serve_induction request (.refl r) (fun _ l hr => hr.create l) fun _ l k w hr => hr.set l k w

theorem extends_served (r : Registry) (requests : List Request) : r.Extends (r.served requests) :=
  List.foldlRecOn (motive := r.Extends) requests _ (.refl r) fun r' h request _ => h.trans (extends_serve r' request)

/-! ### What is new -/

/-- Whether a label is one of those that an update writes to. -/
def touches (label : Key) (rival : Option Key) (l : Key) : Bool := label.same l || rival.any (·.same l)

/-- What is written along one coordinate: a weight under the label, and then one under its rival. -/
inductive Sets (label key : Key) (r : Registry) : Option Key → Registry → Prop where
  | alone (w : Weight) : Sets label key r none (r.set label key w)
  | both (rival : Key) (w w' : Weight) : Sets label key r (some rival) ((r.set label key w).set rival key w')

theorem sets_stepBoth (size phi : Single) (label : Key) (rival : Option Key) (state : Registry × List Notice)
    (c : Coordinate) : Sets label c.key state.1 rival (stepBoth size phi label rival state c).1 := by
  cases rival with
  | none => exact .alone _
  | some rival => exact .both rival _ _

theorem sets_shiftBoth (label : Key) (rival : Option Key) (r : Registry) (c : Coordinate) :
    Sets label c.key r rival (Learner.shiftBoth label rival r c) := by
  cases rival with
  | none => exact .alone _
  | some rival => exact .both rival _ _

namespace Sets
variable {r' : Registry}

theorem extends_of_sets (h : Sets label key r rival r') : r.Extends r' := by
  cases h with
  | alone w => exact (Extends.refl r).set label key w
  | both rival w w' => exact ((Extends.refl r).set label key w).set rival key w'

/-- The key is entered where the weights are set, and once if that is one store. -/
theorem keysOf (h : Sets label key r rival r') (l : Key) :
    r'.keysOf l = if touches label rival l then Key.enter (r.keysOf l) key else r.keysOf l := by
  unfold touches
  cases h with
  | alone w => rw [keysOf_set, Option.any_none, Bool.or_false]
  | both rival w w' =>
    rw [keysOf_set, keysOf_set, Option.any_some]
    cases label.same l with
    | false => rfl
    | true =>
      show (if rival.same l then Key.enter (Key.enter (r.keysOf l) key) key else Key.enter (r.keysOf l) key) =
        Key.enter (r.keysOf l) key
      rw [Key.enter_enter, ite_self]

end Sets

/-- What an update along the coordinates of an example leaves behind: its label is known, and the keys of
the example stand behind those that the label and its rival had. -/
structure Written (label : Key) (rival : Option Key) (cs : List Coordinate) (r r' : Registry) : Prop where
  contains : r'.contains label = true
  keys : ∀ l, r'.keysOf l =
    if touches label rival l then r.keysOf l ++ Key.news (r.keysOf l) (cs.map Coordinate.key) else r.keysOf l

section
variable {σ : Type} {m : σ → Registry} {f : σ → Coordinate → σ}

theorem extends_foldl (hf : ∀ s c, Sets label c.key (m s) rival (m (f s c))) (cs : List Coordinate)
    (s : σ) : (m s).Extends (m (cs.foldl f s)) :=
  List.foldlRecOn (motive := fun s' => (m s).Extends (m s')) cs f (.refl _)
    fun s' h c _ => h.trans (hf s' c).extends_of_sets

theorem keysOf_foldl (hf : ∀ s c, Sets label c.key (m s) rival (m (f s c))) (cs : List Coordinate)
    (s : σ) (l : Key) : (m (cs.foldl f s)).keysOf l =
      if touches label rival l then (cs.map Coordinate.key).foldl Key.enter ((m s).keysOf l)
      else (m s).keysOf l := by
  induction cs generalizing s with
  | nil => exact (ite_self _).symm
  | cons c cs ih =>
    rw [List.foldl_cons, ih, (hf s c).keysOf l]
    cases touches label rival l <;> rfl

/-- From a model in which the label is known, and which has the keys of `r`. -/
theorem written_foldl (hf : ∀ s c, Sets label c.key (m s) rival (m (f s c))) (cs : List Coordinate) (s : σ)
    (hlabel : (m s).contains label = true) (hkeys : ∀ l, (m s).keysOf l = r.keysOf l) :
    Written label rival cs r (m (cs.foldl f s)) := by
  refine ⟨(extends_foldl hf cs s).contains hlabel, fun l => ?_⟩
  rw [keysOf_foldl hf, Key.foldl_enter, hkeys]

end

theorem keysOf_createBoth (r : Registry) (label : Key) (rival : Option Key) (l : Key) :
    (match rival with
      | none => r.create label
      | some rival => (r.create label).create rival).keysOf l = r.keysOf l := by
  cases rival with
  | none => exact keysOf_create r label l
  | some rival => exact (keysOf_create _ rival l).trans (keysOf_create r label l)

theorem contains_createBoth (r : Registry) (label : Key) (rival : Option Key) :
    (match rival with
      | none => r.create label
      | some rival => (r.create label).create rival).contains label = true := by
  cases rival with
  | none => exact contains_create r label
  | some rival => exact ((Extends.refl _).create rival).contains (contains_create r label)

theorem written_step (r : Registry) (size phi : Single) (label : Key) (rival : Option Key) (cs : List Coordinate) :
    Written label rival cs r (r.step size phi label rival cs).1 :=
  written_foldl (m := Prod.fst) (sets_stepBoth size phi label rival) cs _ (contains_createBoth r label rival)
    (keysOf_createBoth r label rival)

theorem written_shiftAll (r : Registry) (label : Key) (rival : Option Key) (cs : List Coordinate) :
    Written label rival cs r (Learner.shiftAll r label rival cs) :=
  written_foldl (m := id) (sets_shiftBoth label rival) cs _ (contains_createBoth r label rival)
    (keysOf_createBoth r label rival)

theorem written_learn {learner : Learner} {r : Registry} {cs : List Coordinate} {label : Key}
    (h : (learner.learn r cs label).1 = true) :
    Written label (r.margin learner.usesVariance cs label).rival cs r (learner.learn r cs label).2.1 := by
  cases learner with
  | perceptron =>
    simp only [Learner.learn] at h ⊢
    revert h
    split
    · exact fun h => by cases h
    · exact fun _ => written_shiftAll r label _ cs
  | confidenceWeighted phi =>
    simp only [Learner.learn] at h ⊢
    revert h
    split
    · exact fun _ => written_step r _ _ label _ cs
    · exact fun h => by cases h

theorem Grown.labels_eq {r' : Registry} (h : Grown label r r') (hlabel : r'.contains label = true) :
    r'.labels = Key.enter r.labels label := by
  rw [contains_eq_isAmong] at hlabel
  rcases h with h | h
  · rw [h] at hlabel ⊢
    exact (if_pos hlabel).symm
  · -- the label stands behind others that are not the same
    have hdistinct : (r.labels ++ [label]).Pairwise fun a b => a.same b = false := h ▸ r'.stores.distinct_keys
    have hnew : ¬label.isAmong r.labels = true := fun hknown => by
      obtain ⟨l, hl, hsame⟩ := Key.isAmong_iff.mp hknown
      have hother := (List.pairwise_append.mp hdistinct).2.2 l hl label (List.mem_singleton_self label)
      rw [hsame] at hother
      cases hother
    rw [h, Key.enter, if_neg hnew]

/-- What a call that changes a model makes of its labels and keys. -/
structure Taught (label : Key) (rival : Option Key) (cs : List Coordinate) (r r' : Registry) : Prop where
  labels : r'.labels = Key.enter r.labels label
  keys : ∀ l, r'.keysOf l =
    if touches label rival l then r.keysOf l ++ Key.news (r.keysOf l) (cs.map Coordinate.key) else r.keysOf l
  rival : ∀ l, rival = some l → l ∈ r.labels

theorem taught_learn {learner : Learner} {r : Registry} {cs : List Coordinate} {label : Key}
    (h : (learner.learn r cs label).1 = true) :
    Taught label (r.margin learner.usesVariance cs label).rival cs r (learner.learn r cs label).2.1 where
  labels := (grown_learn learner r cs label).1.labels_eq (written_learn h).contains
  keys := (written_learn h).keys
  rival _ hl := (exists_of_rival hl).1

theorem train_cases (learner : Learner) (r : Registry) (tokens label : Datum) :
    ((learner.train r tokens label).result = .ok true ∧ ∃ key cs,
      Learner.readExample tokens label = .ok (key, cs) ∧
        Taught key (r.margin learner.usesVariance cs key).rival cs r (learner.train r tokens label).registry) ∨
    (learner.train r tokens label).result ≠ .ok true ∧ (learner.train r tokens label).registry = r := by
  cases hread : Learner.readExample tokens label with
  | error e =>
    rw [Learner.train, hread]
    exact .inr ⟨(by rintro ⟨⟩), rfl⟩
  | ok example' =>
    obtain ⟨key, cs⟩ := example'
    rw [learner.result_train hread r, learner.registry_train hread r]
    cases hchanged : (learner.learn r cs key).1 with
    | false => exact .inr ⟨(by rintro ⟨⟩), (grown_learn learner r cs key).2 hchanged⟩
    | true => exact .inl ⟨rfl, key, cs, rfl, taught_learn hchanged⟩

/-! ### Requests in a row -/

/-- The number one as an integer, as a float and as a truth value. -/
def ones (mark : Nat) : List Datum := [.int 1, .float 1 mark, .bool true]

theorem same_of_mem_ones {mark : Nat} {k l : Key} (hk : k.datum ∈ ones mark) (hl : l.datum ∈ ones mark) :
    k.same l = true := by
  have hfloat : (1 : Double).isInt 1 = true := by decide +kernel
  have hone : ∀ m : Key, m.datum ∈ ones mark → Key.same ⟨.int 1, rfl⟩ m = true := by
    intro m hm
    simp only [ones, List.mem_cons, List.not_mem_nil, or_false] at hm
    rw [Key.same]
    rcases hm with hm | hm | hm <;> rw [hm]
    · rfl
    · exact hfloat
    · rfl
  exact Key.same_trans (Key.same_symm (hone k hk)) (hone l hl)

/-- Whatever requests a model gets, with or without a fault, its labels and the keys of each label stay at
the front, and all of them stay distinct: one that comes again as another datum, as `1` and `1.0` and the
truth value do, is still the datum that came first. A call adds no label but its own, and behind the keys
of the label and the rival, which is known by then, the new keys of the example in order of first
occurrence. -/
theorem requests_only_extend (r : Registry) (requests : List Request) :
    r.Extends (r.served requests) ∧
      (r.served requests).labels.Pairwise (fun a b => a.same b = false) ∧
      (∀ label, ((r.served requests).keysOf label).Pairwise fun a b => a.same b = false) ∧
      (∀ k ∈ r.labels, ∀ l ∈ (r.served requests).labels, k.same l = true → l = k) ∧
      (∀ label, ∀ k ∈ r.keysOf label, ∀ l ∈ (r.served requests).keysOf label, k.same l = true → l = k) ∧
      (∀ mark, ∀ k l : Key, k.datum ∈ ones mark → l.datum ∈ ones mark → k.same l = true) ∧
      ∀ (learner : Learner) (tokens label : Datum),
        ((learner.train r tokens label).result = .ok true ∧ ∃ key cs,
          Learner.readExample tokens label = .ok (key, cs) ∧ key.datum = label ∧
            Taught key (r.margin learner.usesVariance cs key).rival cs r (learner.train r tokens label).registry) ∨
        (learner.train r tokens label).result ≠ .ok true ∧ (learner.train r tokens label).registry = r := by
  have hextends := extends_served r requests
  have hlabels := (r.served requests).stores.distinct_keys
  have hkeys : ∀ label, ((r.served requests).keysOf label).Pairwise fun a b => a.same b = false :=
    fun label => ((r.served requests).storeOf label).weights.distinct_keys
  refine ⟨hextends, hlabels, hkeys, fun k hk l hl hsame => ?_, fun label k hk l hl hsame => ?_,
    fun mark k l hk hl => same_of_mem_ones hk hl, fun learner tokens label => ?_⟩
  · exact (Key.eq_of_same hlabels (hextends.labels.subset hk) hl hsame).symm
  · exact (Key.eq_of_same (hkeys label) ((hextends.keys label).subset hk) hl hsame).symm
  · rcases train_cases learner r tokens label with ⟨hresult, key, cs, hread, htaught⟩ | hkept
    · obtain ⟨-, hkey, -⟩ := Learner.exists_of_readExample hread
      exact .inl ⟨hresult, key, cs, hread, Datum.toKey_eq_ok_iff.mp hkey, htaught⟩
    · exact .inr hkept

end Registry

end OnlineLearning
