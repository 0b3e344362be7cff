import OnlineLearning.Proofs.FileTree.Shape
import OnlineLearning.Proofs.Replay.Standing
import OnlineLearning.Replay.Run

/-!
# The course of a run that ends well

A run ends well exactly if each of its steps does: the directory is made, the learner and the trace
are loaded, nothing ends the replay, the table of weights can be encoded, and both results are
written. `Course` names what the steps leave behind, and a run has a result if and only if it has a
course (`exists_course_iff`).
-/

namespace OnlineLearning

namespace FileTree
variable {t u : FileTree} {path : String}

/-- Whether any text can be written to the file at a path. -/
def Writable (t : FileTree) (path : String) : Prop := ∀ content, ∃ u, t.write path content = .ok u

/-- A file can still be written after another one was. -/
theorem Writable.of_write {path' content' : String} (h : t.Writable path)
    (hwrite : t.write path' content' = .ok u) : u.Writable path := by
  intro content
  obtain ⟨v, hv⟩ := h content
  obtain ⟨place, hplace, hstroke, hnode, -⟩ := write_eq_ok_iff.mp hv
  obtain ⟨place', -, -, hnode', rfl⟩ := write_eq_ok_iff.mp hwrite
  have hnil : place' ≠ [] := fun e => hnode' (by rw [e]; rfl)
  refine ⟨_, write_eq_ok_iff.mpr ⟨place, locate_put hnode' _ hplace, hstroke, ?_, rfl⟩⟩
  rw [node?_put t hnil]
  split
  · simp
  · exact hnode

end FileTree

namespace Replay
variable {s : Settings} {quantile : Double → Double} {files : FileTree} {start finish : Double}

theorem load_eq_ok_iff {algorithm trace text : String} {learner : Learner} :
    s.load algorithm files quantile = .ok (learner, trace, text) ↔
      Learner.ofName algorithm (parameter s.phi?) (parameter s.eta?) quantile = .ok learner ∧
        s.trace = .value trace ∧ files.read trace = .ok text := by
  constructor
  · intro h
    unfold Settings.load at h
    obtain ⟨learner', hlearner, h⟩ := exists_of_bind_eq_ok h
    obtain ⟨trace', htrace, h⟩ := exists_of_bind_eq_ok h
    obtain ⟨text', htext, h⟩ := exists_of_bind_eq_ok h
    cases h
    exact ⟨hlearner, Given.orFault_eq_ok_iff.mp htrace, htext⟩
  · rintro ⟨hlearner, htrace, htext⟩
    unfold Settings.load
    rw [hlearner, htrace]
    show files.read trace >>= _ = _
    rw [htext]
    rfl

/-- Where the table of weights of a run goes. -/
def modelPath (directory : String) : String := Path.join directory "model.csv"

/-- Where the summary of a run goes. -/
def summaryPath (directory : String) : String := Path.join directory "summary.txt"

theorem place_modelPath_ne (place : List String) (directory : String) :
    Path.place place (modelPath directory) ≠ Path.place place (summaryPath directory) := by
  rw [modelPath, summaryPath, Path.place_join place (by decide) (by decide) (by decide) (by decide),
    Path.place_join place (by decide) (by decide) (by decide) (by decide)]
  intro h
  exact absurd (List.append_cancel_left h) (by decide)

/-- What the steps of a run that ends well leave behind: a finished replay of the text of the trace,
and the trees after the directory was made, after the weights and after the summary. -/
structure Course (s : Settings) (quantile : Double → Double) (wall : Double) (files : FileTree) (f : Finished)
    (text : String) (made tabled done : FileTree) : Prop where
  destination : s.destination = .ok (f.directory, f.algorithm)
  making : files.makeFromEnd f.directory = (made, none)
  load : s.load f.algorithm made quantile = .ok (f.learner, f.trace, text)
  progress : Progress.ofTrace f.learner s.skipInvalid text = f.progress
  sound : f.progress.fault? = none
  encodes : (modelTable f.progress.registry.rows).2 = none
  model : made.write (modelPath f.directory) (modelTable f.progress.registry.rows).1 = .ok tabled
  summary : tabled.write (summaryPath f.directory) (f.summary wall).text = .ok done

namespace Course
variable {f : Finished} {text : String} {made tabled done : FileTree}

theorem run_eq (h : Course s quantile (finish - start) files f text made tabled done) :
    (run s start finish files quantile).result = .ok (f.summary (finish - start)) ∧
      (run s start finish files quantile).files = done := by
  have hreplay : (s.replay files quantile).result = .ok f ∧ (s.replay files quantile).files = made := by
    unfold Settings.replay
    rw [h.destination]
    dsimp only
    rw [h.making]
    dsimp only
    rw [h.load]
    dsimp only
    rw [h.progress, h.sound]
    exact ⟨rfl, rfl⟩
  have hmodel := h.model
  have hsummary := h.summary
  unfold modelPath at hmodel
  unfold summaryPath at hsummary
  unfold run conclude
  rw [hreplay.1, hreplay.2]
  dsimp only
  rw [Finished.write, hmodel, h.encodes]
  dsimp only
  rw [hsummary]
  exact ⟨rfl, rfl⟩

theorem read_model (h : Course s quantile (finish - start) files f text made tabled done) :
    done.read (modelPath f.directory) = .ok (modelTable f.progress.registry.rows).1 :=
  FileTree.read_write_of_ne h.summary (place_modelPath_ne _ _) (FileTree.read_write h.model)

end Course

theorem exists_finished_of_replay {f : Finished} (h : (s.replay files quantile).result = .ok f) :
    ∃ text, s.destination = .ok (f.directory, f.algorithm) ∧
      files.makeFromEnd f.directory = ((s.replay files quantile).files, none) ∧
      s.load f.algorithm (s.replay files quantile).files quantile = .ok (f.learner, f.trace, text) ∧
      Progress.ofTrace f.learner s.skipInvalid text = f.progress ∧ f.progress.fault? = none := by
  unfold Settings.replay at h ⊢
  split at h
  · cases h
  rename_i directory algorithm hdestination
  split at h
  · cases h
  rename_i made hmade
  split at h
  · cases h
  rename_i learner trace text hload
  dsimp only at h ⊢
  split at h
  · cases h
  rename_i hfault
  cases h
  exact ⟨text, hdestination, hmade, hload, rfl, hfault⟩

/-- A run has a result exactly if it has a course. -/
theorem exists_course_iff {summary : Summary} : (run s start finish files quantile).result = .ok summary ↔
    ∃ f text made tabled done, Course s quantile (finish - start) files f text made tabled done ∧
      f.summary (finish - start) = summary := by
  constructor
  · intro h
    unfold run conclude at h
    split at h
    · cases h
    rename_i f hf
    obtain ⟨text, hdestination, hmaking, hload, hprogress, hsound⟩ := exists_finished_of_replay hf
    dsimp only [Finished.write] at h
    split at h
    · cases h
    rename_i tabled hmodel
    split at h
    · cases h
    rename_i hencodes
    split at h
    · cases h
    rename_i done hsummary
    exact ⟨f, text, _, tabled, done,
      ⟨hdestination, hmaking, hload, hprogress, hsound, hencodes, hmodel, hsummary⟩, Except.ok.inj h⟩
  · rintro ⟨f, text, made, tabled, done, hcourse, rfl⟩
    exact hcourse.run_eq.1

end Replay

end OnlineLearning
