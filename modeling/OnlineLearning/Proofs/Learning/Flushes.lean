import OnlineLearning.Learning.Action
import OnlineLearning.Proofs.Learning.Extension
import OnlineLearning.Proofs.Model.Snapshot

/-!
# What a flush hands out

However a model has come about, its rows are a snapshot of it: every stored weight once, in the order in which
labels and keys came, and nothing else is there to be read. What happens after a flush happens as to a new model.
All this is `flush_snapshot`; it needs no more of a model than what comes through single writes
(`act_induction`).
-/

namespace OnlineLearning

namespace Registry
variable {Q : Registry → Prop} {r : Registry}

/-- What comes through every write, and holds of a model without labels if there is a flush, comes through an
action. -/
theorem act_induction (action : Action) (hr : Q r) (hflush : action = .flush → Q .empty)
    (hcreate : ∀ (r : Registry) (l : Key), Q r → Q (r.create l))
    (hset : ∀ (r : Registry) (l k : Key) (w : Weight), Q r → Q (r.set l k w)) : Q (r.act action).2 := by
  cases action with
  | ask request => exact serve_induction request hr hcreate hset
  | create label =>
    rw [act]
    split
    · exact hr
    · exact hcreate r _ hr
  | assign label key w =>
    show Q (r.assign label key w).registry
    unfold assign
    split
    · exact hr
    split
    · exact hcreate r _ hr
    · exact hset r _ _ w hr
  | flush => exact hflush rfl

theorem actAll_append (r : Registry) (before after : List Action) :
    r.actAll (before ++ after) = (r.actAll before).actAll after :=
  List.foldl_append

theorem transcript_append (r : Registry) (before after : List Action) :
    r.transcript (before ++ after) = r.transcript before ++ (r.actAll before).transcript after := by
  induction before generalizing r with
  | nil => rfl
  | cons action before ih =>
    rw [List.cons_append, transcript, ih, transcript]
    rfl

theorem ReadsUnseen.actAll (h : r.ReadsUnseen) (actions : List Action) : (r.actAll actions).ReadsUnseen :=
  List.foldlRecOn (motive := ReadsUnseen) actions _ h fun _ hr action _ =>
    act_induction action hr (fun _ => .empty) (fun _ l h => h.create l) fun _ l k w h => h.set l k w

/-- Without a flush, labels and keys stay where they are, and what is new comes behind them. -/
theorem extends_actAll (r : Registry) {actions : List Action} (h : .flush ∉ actions) : r.Extends (r.actAll actions) :=
  List.foldlRecOn (motive := r.Extends) actions _ (.refl r) fun _ hr action haction =>
    act_induction action hr (fun hflush => absurd (hflush ▸ haction) h) (fun _ l h => h.create l)
      fun _ l k w h => h.set l k w

/-- The rows that a flush hands out are the stored weights, by label and then by key, both in the order in which
they came; at a label and a key there is one row if a weight is stored and none otherwise, and there are as many
as weights are stored. A reading before the flush is what the rows tell, and an unseen weight where there is no
row. After the flush everything comes back as from a new model. -/
theorem flush_snapshot (actions : List Action) :
    let r := Registry.empty.actAll actions
    r.flush.1 = (r.labels.flatMap fun label => (r.keysOf label).map fun key =>
        (⟨label.datum, key.datum, r.weight label key⟩ : Row)) ∧
      (∀ before after, actions = before ++ after → .flush ∉ after → (Registry.empty.actAll before).Extends r) ∧
      (∀ label key : Key, (r.flush.1.filter (·.isAt label key)).map Row.weight = (r.stored? label key).toList) ∧
      r.flush.1.length = r.weightCount ∧
      (∀ label key : Key, r.weightOf label.datum key.datum = .ok (Row.weightIn r.flush.1 label key)) ∧
      ∀ more, Registry.empty.transcript (actions ++ .flush :: more) =
        Registry.empty.transcript actions ++ .flushed r.flush.1 :: Registry.empty.transcript more := by
  intro r
  have hreads : r.ReadsUnseen := ReadsUnseen.empty.actAll actions
  refine ⟨?_, ?_, filter_rows r, length_rows r, weightOf_eq_weightIn hreads, fun more => transcript_append _ _ _⟩
  · show r.rows = _
    rw [rows_eq, places, List.map_flatMap]
    simp only [List.map_map]
    rfl
  · intro before after hsplit hflush
    show (Registry.empty.actAll before).Extends (Registry.empty.actAll actions)
    rw [hsplit, actAll_append]
    exact extends_actAll _ hflush

/-- The keys `1` and `1.0` are one, also with `True` under another label; a label alone has no row. -/
example : (Registry.empty.actAll [.assign (.text "A") (.int 1) ⟨2, 1⟩, .create (.text "B"),
    .assign (.text "C") (.bool true) ⟨3, 1⟩, .assign (.text "A") (.float 1 0) ⟨4, 1⟩]).flush.1.map (·.weight.mean) =
      [4, 3] := by
  decide +kernel

end Registry

end OnlineLearning
