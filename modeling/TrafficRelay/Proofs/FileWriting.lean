import TrafficRelay.Proofs.FileRoundTrip
import TrafficRelay.Proofs.SessionRest

/-!
# Appending what is offered

Whatever a session offers to an output is appended to its file.  Where the files
of the outputs differ from each other and from the file that is read, nothing
else ever changes: each output holds what it held before and then the frames
that it has been offered, in order, and the file that is read stays as it was.
-/

namespace TrafficRelay

namespace OpenFiles

theorem write_opened {files : OpenFiles} {output : Nat} {location : Location}
    {content : Bytes} (opened : files.outputs[output]? = some location)
    (present : files.tree.contentAt location = .ok content) (frame : Bytes) :
    ∃ tree, files.write output frame = (none, { files with tree }) ∧
      files.tree.HoldsFile location (content ++ RecordFile.stored frame) tree := by
  have holds : files.tree.HoldsFile location content files.tree :=
    ⟨present, fun _ _ => rfl, rfl⟩
  obtain ⟨tree, appended, holdsMore⟩ := holds.appendAt (RecordFile.stored frame)
  refine ⟨tree, ?_, holdsMore⟩
  simp only [write, opened, appended]

theorem write_unopened {files : OpenFiles} {output : Nat}
    (unopened : files.outputs[output]? = none) (frame : Bytes) :
    files.write output frame = (some .notFound, files) := by
  simp only [write, unopened]

theorem supply_files (files : OpenFiles) (input : Nat) :
    (files.supply input).2.tree = files.tree ∧
      (files.supply input).2.outputs = files.outputs := by
  unfold supply
  split <;> exact ⟨rfl, rfl⟩

end OpenFiles

/-- The frames that are offered to an output, in order. -/
def Occurrence.offers (output : Nat) (past : List Occurrence) : List Bytes :=
  (past.filterMap (Occurrence.offer? output)).map Prod.snd

theorem Occurrence.offers_append (output : Nat) (past later : List Occurrence) :
    offers output (past ++ later) = offers output past ++ offers output later := by
  simp [offers]

theorem Occurrence.offers_of_not_write {relay : Relay} {event : Event}
    (notWrite : ∀ reader output refusal, event ≠ .write reader output refusal)
    (output : Nat) : offers output (relay.occurrences event) = [] := by
  apply List.map_eq_nil_iff.mpr
  apply List.filterMap_eq_nil_iff.mpr
  intro occurrence member
  rcases Relay.occurrences_cases member with
    ⟨_, item, rfl, rfl⟩ | ⟨reader, target, refusal, _, rfl, rfl⟩ | ⟨_, _, rfl, rfl⟩
  · cases item <;> rfl
  · exact (notWrite reader target refusal rfl).elim
  · rfl

namespace OpenFiles

/-- How the files stand after what has happened, compared with the tree in which
they were opened. -/
structure Stores (input : Location) (content : Bytes) (outputs : List Location)
    (created : FileTree) (past : List Occurrence) (files : OpenFiles) : Prop where
  opened : files.outputs = outputs
  directories : created.KeepsDirectories files.tree
  present : files.tree.contentAt input = .ok content
  appended : ∀ output location, outputs[output]? = some location →
    files.tree.contentAt location =
      .ok (created.contentOrEmpty location ++
        (Occurrence.offers output past).flatMap RecordFile.stored)

section

variable {input : Location} {content : Bytes} {outputs : List Location}
  {created : FileTree} {past : List Occurrence} {files next : OpenFiles}

/-- Files that stay as they are store what is not offered. -/
theorem Stores.of_noOffer {later : List Occurrence}
    (stores : files.Stores input content outputs created past)
    (tree : next.tree = files.tree) (opened : next.outputs = files.outputs)
    (noOffer : ∀ output location, outputs[output]? = some location →
      Occurrence.offers output later = []) :
    next.Stores input content outputs created (past ++ later) where
  opened := opened.trans stores.opened
  directories := by
    rw [tree]
    exact stores.directories
  present := by
    rw [tree]
    exact stores.present
  appended output location found := by
    rw [tree, Occurrence.offers_append, noOffer output location found, List.append_nil]
    exact stores.appended output location found

theorem Stores.write (stores : files.Stores input content outputs created past)
    (distinct : (input :: outputs).Nodup) (reader target : Nat) (frame : Bytes) :
    (files.write target frame).2.Stores input content outputs created
      (past ++ [.offered reader target frame (files.write target frame).1]) := by
  obtain ⟨notInput, differ⟩ := List.nodup_cons.mp distinct
  cases found : outputs[target]? with
  | none =>
      rw [write_unopened (by rw [stores.opened, found])]
      apply stores.of_noOffer rfl rfl
      intro output location opened
      have other : target ≠ output := by
        rintro rfl
        rw [found] at opened
        cases opened
      simp [Occurrence.offers, Occurrence.offer?, other]
  | some there =>
      have present := stores.appended target there found
      obtain ⟨tree, written, holds⟩ :=
        write_opened (by rw [stores.opened, found]) present frame
      have elsewhere : input ≠ there := by
        rintro rfl
        exact notInput (List.mem_of_getElem? found)
      have file := FileTree.entry?_eq_of_contentAt present
      rw [written]
      refine ⟨stores.opened, ?_, ?_, ?_⟩
      · exact stores.directories.trans (holds.keepsDirectories (by simp [file]))
      · rw [FileTree.contentAt_congr (holds.others input elsewhere)]
        exact stores.present
      · intro output location opened
        rw [Occurrence.offers_append]
        by_cases same : output = target
        · subst output
          obtain rfl := Option.some.inj (found.symm.trans opened)
          rw [holds.content]
          simp [Occurrence.offers, Occurrence.offer?]
        · have different : location ≠ there := by
            rintro rfl
            exact same ((List.getElem?_inj (List.getElem?_eq_some_iff.mp opened).1 differ).mp
              (opened.trans found.symm))
          rw [FileTree.contentAt_congr (holds.others location different),
            stores.appended output location opened]
          simp [Occurrence.offers, Occurrence.offer?, Ne.symm same]

end

end OpenFiles

/-- A step of a session stores what it offers. -/
theorem Session.Step.stores {input : Location} {content : Bytes} {outputs : List Location}
    {created : FileTree} {past : List Occurrence} {session next : Session OpenFiles}
    {event : Event} (step : Step OpenFiles.endpoints session event next)
    (distinct : (input :: outputs).Nodup)
    (stores : session.outside.Stores input content outputs created past) :
    next.outside.Stores input content outputs created
      (past ++ session.relay.occurrences event) := by
  cases step with
  | own inner step =>
      apply stores.of_noOffer rfl rfl
      intro output location found
      apply Occurrence.offers_of_not_write
      rintro reader target refusal rfl
      cases inner
  | @supply input supply outside reader relay found idle pending lowered supplies answer
      step =>
      have kept := OpenFiles.supply_files session.outside input
      have answered : session.outside.supply input = (supply, outside) := answer
      rw [answered] at kept
      apply stores.of_noOffer kept.1 kept.2
      intro output location found
      apply Occurrence.offers_of_not_write
      intro reader target refusal
      cases supply <;> exact nofun
  | @write index target refusal outside reader frame writes relay found phase ready answer
      step =>
      have happened : session.relay.occurrences (.write index target refusal) =
          [.offered index target frame refusal] := by
        simp [Relay.occurrences, found, phase]
      have answered : session.outside.write target frame = (refusal, outside) := answer
      have written := stores.write distinct index target frame
      rw [answered] at written
      rw [happened]
      exact written

end TrafficRelay
