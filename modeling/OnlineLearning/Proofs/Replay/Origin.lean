import Mathlib.Data.List.Perm.Subperm
import OnlineLearning.Proofs.Learning.Extension
import OnlineLearning.Proofs.Replay.Counts

/-!
# Where labels and keys come from

A call enters nothing but its own label and the keys of its own example. So what holds of the labels and
of the keys of examples holds of those of a model that is trained on them (`MadeOf.trained`). The labels
and the keys of a trace are scalars, and so are those of a model that was trained on the trace
(`Course.madeOf_scalars`).
-/

namespace OnlineLearning

namespace Registry
variable {L K : Key → Prop} {r : Registry} {tokens label : Datum}

/-- All labels of a model have one property, and all keys another. -/
structure MadeOf (L K : Key → Prop) (r : Registry) : Prop where
  labels : ∀ l ∈ r.labels, L l
  keys : ∀ l, ∀ k ∈ r.keysOf l, K k

namespace MadeOf

theorem empty : MadeOf L K .empty := ⟨List.forall_mem_nil _, fun _ => List.forall_mem_nil _⟩

theorem train (h : MadeOf L K r) (learner : Learner)
    (hread : ∀ key cs, Learner.readExample tokens label = .ok (key, cs) → L key ∧ ∀ c ∈ cs, K c.key) :
    MadeOf L K (learner.train r tokens label).registry := by
  rcases train_cases learner r tokens label with ⟨-, key, cs, hexample, htaught⟩ | ⟨-, hkept⟩
  · obtain ⟨hlabel, hkeys⟩ := hread key cs hexample
    constructor
    · intro l hl
      rw [htaught.labels] at hl
      rcases Key.mem_enter hl with hl | rfl
      · exact h.labels l hl
      · exact hlabel
    · intro l k hk
      rw [htaught.keys] at hk
      split at hk
      · rw [← Key.foldl_enter] at hk
        rcases Key.mem_foldl_enter hk with hk | hk
        · exact h.keys l k hk
        · obtain ⟨c, hc, rfl⟩ := List.mem_map.mp hk
          exact hkeys c hc
      · exact h.keys l k hk
  · rw [hkept]
    exact h

theorem trained (learner : Learner) {es : List (List Datum × Datum)}
    (hes : ∀ e ∈ es, ∀ key cs, Learner.readExample (.list e.1) e.2 = .ok (key, cs) → L key ∧ ∀ c ∈ cs, K c.key) :
    MadeOf L K (learner.trained es) := by
  unfold Learner.trained afterAll
  rw [List.foldl_map]
  exact List.foldlRecOn (motive := MadeOf L K) es _ empty fun r hr e he => hr.train learner (hes e he)

/-- A model has no more labels than there are data to choose them from. -/
theorem length_labels_le {names : List Datum} (h : MadeOf (fun l => l.datum ∈ names) K r) :
    r.labels.length ≤ names.length := by
  have hnodup : (r.labels.map Key.datum).Nodup := by
    rw [List.Nodup, List.pairwise_map]
    refine r.stores.distinct_keys.imp fun hdistinct heq => ?_
    rw [Key.same_of_datum_eq heq] at hdistinct
    cases hdistinct
  have hsubset : r.labels.map Key.datum ⊆ names := by
    intro d hd
    obtain ⟨l, hl, rfl⟩ := List.mem_map.mp hd
    exact h.labels l hl
  have hle := (List.subperm_of_subset hnodup hsubset).length_le
  rwa [List.length_map] at hle

end MadeOf

end Registry

/-! ### Examples of a text -/

theorem Learner.scalar_of_readExample {tokens : List Datum} {label : Datum} {key : Key} {cs : List Coordinate}
    (htokens : ∀ t ∈ tokens, Json.Value t) (hlabel : Json.Value label)
    (h : readExample (.list tokens) label = .ok (key, cs)) :
    Json.Scalar key.datum ∧ ∀ c ∈ cs, Json.Scalar c.key.datum := by
  obtain ⟨hnull, hkey, fs, hfs, hcs⟩ := exists_of_readExample h
  obtain rfl := Datum.toKey_eq_ok_iff.mp hkey
  refine ⟨hlabel.scalar hnull key.immutable, fun c hc => ?_⟩
  obtain ⟨f, hf, hdatum, -⟩ := Feature.exists_of_mem_coordinates hcs hc
  rw [hdatum]
  exact Feature.scalar_of_ofTokenList htokens hfs f hf

namespace Trace

theorem value_of_example {line : List Char} {e : List Datum × Datum} (h : example? line = some e) :
    (∀ t ∈ e.1, Json.Value t) ∧ Json.Value e.2 := by
  have hread := reading 0 line
  unfold example? at h
  generalize verdict line = v at hread
  generalize readLine 0 line = x at hread h
  cases hread with
  | labelled tokens label _ _ htokens hlabel =>
    cases h
    exact ⟨htokens, hlabel⟩
  | _ => cases h

theorem value_of_mem_examples {ls : List (List Char)} {e : List Datum × Datum} (h : e ∈ examples ls) :
    (∀ t ∈ e.1, Json.Value t) ∧ Json.Value e.2 := by
  obtain ⟨line, -, he⟩ := List.mem_filterMap.mp h
  exact value_of_example he

end Trace

namespace Replay
variable {s : Settings} {quantile : Double → Double} {wall : Double} {files made tabled done : FileTree} {f : Finished}
  {text : String}

theorem Course.madeOf_scalars (h : Course s quantile wall files f text made tabled done) :
    (f.learner.trained (Trace.accepted s.skipInvalid text)).MadeOf (fun l => Json.Scalar l.datum)
      (fun k => Json.Scalar k.datum) := by
  refine Registry.MadeOf.trained f.learner fun e he key cs hread => ?_
  have hsound : (Progress.ofTrace f.learner s.skipInvalid text).fault? = none := by
    rw [h.progress]
    exact h.sound
  rw [Progress.accepted_eq hsound] at he
  obtain ⟨htokens, hlabel⟩ := Trace.value_of_mem_examples he
  exact Learner.scalar_of_readExample htokens hlabel hread

end Replay

end OnlineLearning
