import OnlineLearning.Proofs.Csv.Encoding
import OnlineLearning.Proofs.Csv.Reading
import OnlineLearning.Proofs.Decimal.Length
import OnlineLearning.Proofs.Model.Places
import OnlineLearning.Replay.Summary

/-!
# The table of weights

The table of weights can be written exactly if the labels and the keys of all weights have characters only
(`fault?_modelTable_iff`), and it is then read as its header and a record for each weight. The texts of numbers are
short, so it is the labels and the keys again that decide whether all fields are within the limit of a reader
(`within_modelTable_iff`).
-/

namespace OnlineLearning

namespace Registry

/-- The label and the key of a place as they are displayed. -/
def shown (p : Key × Key) : List CodePoints := [p.1.datum.display, p.2.datum.display]

/-- Whether the labels and the keys of all weights have characters only. -/
def Plain (r : Registry) : Prop := ∀ p ∈ r.places, ∀ s ∈ shown p, s.Plain

instance (r : Registry) : Decidable r.Plain := inferInstanceAs (Decidable (∀ p ∈ r.places, ∀ s ∈ shown p, s.Plain))

/-- Whether the labels and the keys of all weights are displayed within a limit. -/
def Within (limit : Nat) (r : Registry) : Prop := ∀ p ∈ r.places, ∀ s ∈ shown p, s.length ≤ limit

instance (limit : Nat) (r : Registry) : Decidable (r.Within limit) :=
  inferInstanceAs (Decidable (∀ p ∈ r.places, ∀ s ∈ shown p, s.length ≤ limit))

end Registry

namespace Replay

theorem cell_eq {d : Datum} (h : d.isNull = false) : modelRecord.cell d = d.display := by
  rw [modelRecord.cell, h]
  rfl

theorem plain_cell_iff (d : Datum) : (modelRecord.cell d).Plain ↔ d.display.Plain := by
  cases d with
  | null => exact iff_of_true (CodePoints.plain_ofChars []) (CodePoints.plain_ofChars "None".toList)
  | _ => rfl

theorem plain_modelHeader : ∀ s ∈ modelHeader, s.Plain := by
  decide

theorem plain_modelRecord_iff {r : Registry} {p : Key × Key} :
    (∀ s ∈ modelRecord (r.rowAt p), s.Plain) ↔ ∀ s ∈ Registry.shown p, s.Plain := by
  simp only [modelRecord, Registry.rowAt, Registry.shown, List.forall_mem_cons, plain_cell_iff,
    CodePoints.plain_ofChars, true_and]

theorem fault?_modelTable_iff {r : Registry} : (modelTable r.rows).2 = none ↔ r.Plain := by
  rw [modelTable, Csv.fault?_fileText_iff, List.forall_mem_cons, Registry.rows_eq, List.forall_mem_map,
    List.forall_mem_map, and_iff_right plain_modelHeader]
  exact forall₂_congr fun p _ => plain_modelRecord_iff

theorem records_modelTable {rows : List Row} (h : (modelTable rows).2 = none) :
    Csv.records (modelTable rows).1 = modelHeader :: rows.map modelRecord := by
  rw [modelTable, Csv.fileText_eq h, Csv.records_table]

/-! ### Long fields -/

theorem length_text_le_fieldLimit (x : Double) : (CodePoints.ofChars x.text).length ≤ Csv.fieldLimit := by
  rw [CodePoints.ofChars, List.length_map]
  exact Nat.le_trans x.length_text_le (by decide)

theorem within_modelTable_iff {r : Registry}
    (hnull : ∀ p ∈ r.places, p.1.datum.isNull = false ∧ p.2.datum.isNull = false) :
    Csv.Within Csv.fieldLimit (modelHeader :: r.rows.map modelRecord) ↔ r.Within Csv.fieldLimit := by
  have hheader : ∀ s ∈ modelHeader, s.length ≤ Csv.fieldLimit := by decide
  rw [Csv.Within, List.forall_mem_cons, Registry.rows_eq, List.forall_mem_map, List.forall_mem_map,
    and_iff_right hheader]
  refine forall₂_congr fun p hp => ?_
  obtain ⟨hlabel, hkey⟩ := hnull p hp
  simp only [modelRecord, Registry.rowAt, cell_eq hlabel, cell_eq hkey, Registry.shown, List.forall_mem_cons,
    length_text_le_fieldLimit, true_and]

end Replay

end OnlineLearning
