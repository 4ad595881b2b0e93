import Mathlib.Data.List.Forall2
import TrafficRelay.Proofs.FileOpening

/-!
# Opening the files of a tree

Inputs are only looked up.  Opening the outputs creates those that are absent and
leaves everything else alone, so the tree afterwards differs from the one before
in empty files only, and each output is found under its path from then on.  As
no directory comes or goes by this, a tree is a steady file system.
-/

namespace TrafficRelay

namespace FileTree

theorem run_openForAppending (tree : FileTree) (path : String) :
    (FileTree.system.openForAppending path).run tree =
      match tree.openForAppending path with
      | .ok (location, opened) => (.ok location, opened)
      | .error cause => (.error cause, tree) := rfl

theorem openForAppending_of_system {tree created : FileTree} {path : String}
    {location : Location}
    (opened : (FileTree.system.openForAppending path).run tree = (.ok location, created)) :
    tree.openForAppending path = .ok (location, created) := by
  rw [run_openForAppending] at opened
  split at opened
  · rename_i found
    cases opened
    exact found
  · cases opened

theorem system_opensAsUsual : FileTree.system.OpensAsUsual id where
  reading {_ tree _ _} opened := by
    obtain ⟨-, rfl⟩ := Prod.mk.inj opened
    exact tree.creates_nil
  appending opened := (creates_of_openForAppending (openForAppending_of_system opened)).2
  failing {path tree cause next} failed := by
    rw [run_openForAppending] at failed
    split at failed
    · cases failed
    · cases failed
      exact tree.creates_nil

/-- What can be opened for appending is what can be located. -/
theorem canOpen_append_iff {tree : FileTree} {path : String} :
    FileRelay.CanOpen FileTree.system.openForAppending tree path ↔
      ∃ location, tree.locateFile path = .ok location := by
  constructor
  · rintro ⟨location, created, opened⟩
    exact ⟨location, (creates_of_openForAppending (openForAppending_of_system opened)).1⟩
  · rintro ⟨location, located⟩
    refine ⟨location, ?_⟩
    cases found : tree.entry? location with
    | none =>
        have opened : tree.openForAppending path =
            .ok (location, tree.set location (.file [])) :=
          bind_eq_ok.mpr ⟨location, located, by simp only [found]⟩
        exact ⟨_, by rw [run_openForAppending, opened]⟩
    | some entry =>
        have opened : tree.openForAppending path = .ok (location, tree) :=
          bind_eq_ok.mpr ⟨location, located, by simp only [found]⟩
        exact ⟨_, by rw [run_openForAppending, opened]⟩

/-- A tree with more empty files in it has the same paths. -/
theorem system_steady : FileTree.system.Steady where
  inputs _ _ _ := Iff.rfl
  outputsAfterInputs _ _ _ := Iff.rfl
  outputs path earlier tree := by
    rw [canOpen_append_iff, canOpen_append_iff]
    rcases opened : (FileTree.system.openForAppending earlier).run tree with
      ⟨cause | location, next⟩
    · have creates : tree.Creates [] next := system_opensAsUsual.failing opened
      simp only [creates.locateFile_iff]
    · have creates : tree.Creates [location] next := system_opensAsUsual.appending opened
      simp only [creates.locateFile_iff]

end FileTree

namespace FileRelay

/-- These files can be opened for appending; where their paths lead, and the tree once
all of them are open. -/
structure OpensInOrder (tree : FileTree) (files : List FileSettings)
    (locations : List Location) (after : FileTree) : Prop where
  located : List.Forall₂
    (fun (file : FileSettings) location => tree.locateFile file.path = .ok location)
    files locations
  creates : tree.Creates locations after

theorem opensInOrder_nil (tree : FileTree) : OpensInOrder tree [] [] tree :=
  ⟨.nil, tree.creates_nil⟩

namespace OpensInOrder

variable {tree next after : FileTree} {files : List FileSettings} {locations : List Location}

theorem cons {file : FileSettings} {location : Location}
    (first : tree.openForAppending file.path = .ok (location, next))
    (others : OpensInOrder next files locations after) :
    OpensInOrder tree (file :: files) (location :: locations) after := by
  obtain ⟨located, creates⟩ := FileTree.creates_of_openForAppending first
  refine ⟨.cons located (others.located.imp ?_), creates.trans others.creates⟩
  intro _ _ later
  exact creates.locateFile_iff.mp later

theorem contents (opens : OpensInOrder tree files locations after) {location : Location}
    (member : location ∈ locations) :
    after.contentAt location = .ok (tree.contentOrEmpty location) := by
  obtain ⟨index, range, found⟩ := List.getElem_of_mem member
  have located := List.Forall₂.get opens.located
    (by rw [opens.located.length_eq]; exact range) range
  simp only [List.get_eq_getElem, found] at located
  exact opens.creates.contentAt member (FileTree.locateFile_eq_ok located).1

/-- Every output is found under its path, however the files have grown since. -/
theorem openExisting {last : FileTree} (opens : OpensInOrder tree files locations after)
    (keeps : after.KeepsDirectories last) {output : Nat} {file : FileSettings}
    {location : Location} (named : files[output]? = some file)
    (opened : locations[output]? = some location) {content : Bytes}
    (present : last.contentAt location = .ok content) :
    last.openExisting file.path = .ok location := by
  obtain ⟨fileRange, fileAt⟩ := List.getElem?_eq_some_iff.mp named
  obtain ⟨locationRange, locationAt⟩ := List.getElem?_eq_some_iff.mp opened
  have located := List.Forall₂.get opens.located fileRange locationRange
  simp only [List.get_eq_getElem, fileAt, locationAt] at located
  exact (opens.creates.keepsDirectories.trans keeps).openExisting located present

end OpensInOrder

/-- In a tree, files are found where they are, and nothing happens to it. -/
theorem OpensInTurn.found {tree last : FileTree} {files : List FileSettings}
    {locations : List Location}
    (opens : OpensInTurn FileTree.system.openForReading tree files locations last) :
    List.Forall₂
        (fun (file : FileSettings) location => tree.openExisting file.path = .ok location)
        files locations ∧ last = tree := by
  induction opens with
  | nil => exact ⟨.nil, rfl⟩
  | cons first others induction =>
      obtain ⟨found, rfl⟩ := Prod.mk.inj first
      exact ⟨.cons found induction.1, induction.2⟩

theorem OpensInTurn.opensInOrder {tree after : FileTree} {files : List FileSettings}
    {locations : List Location}
    (opens : OpensInTurn FileTree.system.openForAppending tree files locations after) :
    OpensInOrder tree files locations after := by
  induction opens with
  | nil => exact opensInOrder_nil _
  | cons first others induction =>
      exact induction.cons (FileTree.openForAppending_of_system first)

/-- The paths of the inputs have been looked up, and the outputs opened. -/
theorem build_eq_ok {relay : FileRelay} {tree created : FileTree} {now : Instant}
    {opened : OpenedRelay} (built : relay.build tree now = (.ok opened, created)) :
    List.Forall₂
        (fun (file : FileSettings) location => tree.openExisting file.path = .ok location)
        relay.settings.inputs opened.inputs ∧
      OpensInOrder tree relay.settings.outputs opened.outputs created ∧
      opened.assembly = relay.assembly now := by
  obtain ⟨outputs, ends⟩ := exists_buildEnds FileTree.system relay now tree
  rw [← build, built] at ends
  obtain ⟨assembled, between, reads, opens⟩ := ends.in_order
  obtain ⟨found, rfl⟩ := reads.found
  exact ⟨found, opens.opensInOrder, assembled⟩

/-- With a single input, what is read of it is the file under its path. -/
theorem build_input {relay : FileRelay} {tree created : FileTree} {now : Instant}
    {opened : OpenedRelay} {file : FileSettings} {content : Bytes}
    (built : relay.build tree now = (.ok opened, created))
    (single : relay.settings.inputs = [file])
    (read : tree.read file.path = .ok content) :
    ∃ location, opened.inputs = [location] ∧
      tree.contentAt location = .ok content := by
  obtain ⟨found, -, -⟩ := build_eq_ok built
  obtain ⟨location, existing, present⟩ := bind_eq_ok.mp read
  refine ⟨location, ?_, present⟩
  rw [single] at found
  obtain ⟨there, rest, first, none, same⟩ := List.forall₂_cons_left_iff.mp found
  rw [existing] at first
  rw [same, List.forall₂_nil_left_iff.mp none, Except.ok.inj first]

end FileRelay

end TrafficRelay
