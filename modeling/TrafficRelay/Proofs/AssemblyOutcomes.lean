import TrafficRelay.Proofs.OpenedFiles

/-!
# How assembling a relay ends

Settings that do not go together are refused before any file is looked for.  Otherwise
the inputs are opened and then the outputs, and the first file that cannot be opened ends
it, for whatever cause.  The outputs before that one are open by then, so those that were
absent have been created, empty; nothing else has changed.
-/

namespace TrafficRelay

/-! ## Refused files -/

section

variable {σ : Type}

/-- Open files, but for those under paths for which a cause is given. -/
def FileRelay.refuse (refused : String → Option IoError)
    (openFile : String → StateM σ (Except IoError Location)) (path : String) :
    StateM σ (Except IoError Location) :=
  match refused path with
  | some cause => return .error cause
  | none => openFile path

/-- The same files, where opening some of them is refused, for want of permission or for
any other cause. -/
def FileSystem.guarded (system : FileSystem (StateM σ) Location Location)
    (unreadable unwritable : String → Option IoError) :
    FileSystem (StateM σ) Location Location where
  openForReading := FileRelay.refuse unreadable system.openForReading
  openForAppending := FileRelay.refuse unwritable system.openForAppending

theorem FileRelay.run_refuse (refused : String → Option IoError)
    (openFile : String → StateM σ (Except IoError Location)) (path : String) (state : σ) :
    (refuse refused openFile path).run state =
      match refused path with
      | some cause => (.error cause, state)
      | none => (openFile path).run state := by
  unfold refuse
  cases refused path with
  | some cause => rfl
  | none => rfl

theorem FileRelay.canOpen_refuse_iff {refused : String → Option IoError}
    {openFile : String → StateM σ (Except IoError Location)} {path : String} {state : σ} :
    CanOpen (refuse refused openFile) state path ↔
      refused path = none ∧ CanOpen openFile state path := by
  unfold CanOpen
  rw [run_refuse]
  cases refused path with
  | some cause =>
      refine iff_of_false ?_ fun unrefused => nomatch unrefused.1
      rintro ⟨location, next, opened⟩
      cases opened
  | none => simp

/-- What has been refused has changed nothing, and is refused at any time. -/
theorem FileRelay.Undisturbed.refuse
    {openFile other : String → StateM σ (Except IoError Location)}
    (undisturbed : Undisturbed openFile other) (refused otherRefused : String → Option IoError) :
    Undisturbed (refuse refused openFile) (FileRelay.refuse otherRefused other) := by
  intro path earlier state
  rw [canOpen_refuse_iff, canOpen_refuse_iff, run_refuse]
  cases otherRefused earlier with
  | some cause => exact Iff.rfl
  | none => exact and_congr_right fun _ => undisturbed path earlier state

variable {system : FileSystem (StateM σ) Location Location} {files : σ → FileTree}

theorem FileSystem.OpensAsUsual.guarded (usual : system.OpensAsUsual files)
    (unreadable unwritable : String → Option IoError) :
    (system.guarded unreadable unwritable).OpensAsUsual files where
  reading {path state result next} opened := by
    rw [FileSystem.guarded, FileRelay.run_refuse] at opened
    split at opened
    · cases opened
      exact FileTree.creates_nil _
    · exact usual.reading opened
  appending {path state location next} opened := by
    rw [FileSystem.guarded, FileRelay.run_refuse] at opened
    split at opened
    · cases opened
    · exact usual.appending opened
  failing {path state cause next} failed := by
    rw [FileSystem.guarded, FileRelay.run_refuse] at failed
    split at failed
    · cases failed
      exact FileTree.creates_nil _
    · exact usual.failing failed

theorem FileSystem.Steady.guarded (steady : system.Steady)
    (unreadable unwritable : String → Option IoError) :
    (system.guarded unreadable unwritable).Steady where
  inputs := steady.inputs.refuse unreadable unreadable
  outputsAfterInputs := steady.outputsAfterInputs.refuse unwritable unreadable
  outputs := steady.outputs.refuse unwritable unwritable

end

namespace Settings

variable {σ : Type} {system : FileSystem (StateM σ) Location Location} {settings : Settings}

theorem assemble_of_refused {failure : Failure}
    (refused : settings.relay.validate = .error failure) (now : Instant) (state : σ) :
    (settings.assemble system now).run state = (.error (.settings failure), state) := by
  simp only [assemble, FileRelay.ofSettings, refused]
  rfl

theorem assemble_of_accepted {policy : Policy}
    (accepted : settings.relay.validate = .ok policy) (now : Instant) (state : σ) :
    (settings.assemble system now).run state =
      (FileRelay.buildIn system ⟨settings, policy⟩ now).run state := by
  simp only [assemble, FileRelay.ofSettings, accepted]

theorem exists_buildEnds {policy : Policy} (accepted : settings.relay.validate = .ok policy)
    (system : FileSystem (StateM σ) Location Location) (now : Instant) (state : σ) :
    ∃ outputs, FileRelay.BuildEnds system ⟨settings, policy⟩ now state outputs
      ((settings.assemble system now).run state) := by
  rw [assemble_of_accepted accepted]
  exact FileRelay.exists_buildEnds system ⟨settings, policy⟩ now state

/-- Settings that do not go together end the assembly in any file system, without a file
being looked for.  Others succeed exactly if every input and then every output can be opened
when its turn comes, which in a steady file system is to say that each can be opened at the
start.  `FileRelay.BuildEnds` has the first file for which this fails, inputs before outputs,
and what opening it came to.  However it ends, no file is changed, and those that are new are
empty and are outputs that were opened. -/
theorem assemble_fails_at_first {files : σ → FileTree} (usual : system.OpensAsUsual files)
    (settings : Settings) (now : Instant) (state : σ) :
    let result := (settings.assemble system now).run state
    (∀ failure, settings.relay.validate = .error failure →
      result = (.error (.settings failure), state)) ∧
    (∀ policy, settings.relay.validate = .ok policy →
      ((∃ opened last, result = (.ok opened, last)) ↔
        ∃ inputs between outputs last,
          FileRelay.OpensInTurn system.openForReading state settings.inputs inputs between ∧
          FileRelay.OpensInTurn system.openForAppending between settings.outputs outputs
            last) ∧
      (system.Steady →
        ((∃ opened last, result = (.ok opened, last)) ↔
          (∀ file ∈ settings.inputs,
            FileRelay.CanOpen system.openForReading state file.path) ∧
          ∀ file ∈ settings.outputs,
            FileRelay.CanOpen system.openForAppending state file.path)) ∧
      (∀ opened last, result = (.ok opened, last) →
        opened.assembly.inputs.map Prod.fst = settings.inputs.map (·.name) ∧
          opened.assembly.outputs = settings.outputs.map (·.name) ∧
          ∃ between,
            FileRelay.OpensInTurn system.openForReading state settings.inputs opened.inputs
              between ∧
            FileRelay.OpensInTurn system.openForAppending between settings.outputs
              opened.outputs last) ∧
      ∃ outputs,
        FileRelay.BuildEnds system ⟨settings, policy⟩ now state outputs result ∧
          (files state).Creates outputs (files result.2)) ∧
    ∀ location content, FileTree.entry? (files state) location = some (.file content) →
      FileTree.entry? (files result.2) location = some (.file content) := by
  intro result
  refine ⟨fun _ refused => assemble_of_refused refused now state, ?_, ?_⟩
  · intro policy accepted
    obtain ⟨outputs, ends⟩ := exists_buildEnds accepted system now state
    refine ⟨ends.opens_iff, ends.opens_iff_of_steady, ?_, outputs, ends, ends.creates usual⟩
    intro opened last succeeded
    have ended : (settings.assemble system now).run state = (.ok opened, last) := succeeded
    rw [ended] at ends
    obtain ⟨assembled, inTurn⟩ := ends.in_order
    rw [assembled]
    exact ⟨List.map_map, rfl, inTurn⟩
  · intro location content found
    cases checked : settings.relay.validate with
    | error failure =>
        have ended : result = (.error (.settings failure), state) :=
          assemble_of_refused checked now state
        rw [ended]
        exact found
    | ok policy =>
        obtain ⟨outputs, ends⟩ := exists_buildEnds checked system now state
        exact (ends.creates usual).entry?_of_some found

/-- The first output is created before it shows that the second one, which is there, is not
to be written to. -/
theorem assemble_fails_at_first_through_output :
    let settings : Settings := ⟨[⟨"i", "in"⟩], [⟨"a", "f"⟩, ⟨"b", "g"⟩], .default⟩
    let denied : IoError := ⟨.permissionDenied, "Permission denied (os error 13)"⟩
    let system := FileTree.system.guarded (fun _ => none)
      fun path => if path = "g" then some denied else none
    let tree := (FileTree.empty.set ["work", "in"] (.file [1])).set ["work", "g"] (.file [2])
    let result := (settings.assemble system 0).run tree
    system.OpensAsUsual id ∧ system.Steady ∧ settings.relay.validate = .ok .broadcast ∧
      result.1 = .error (.cannotOpen "b" denied) ∧
      FileTree.entry? result.2 ["work", "f"] = some (.file []) ∧
      FileTree.entry? result.2 ["work", "g"] = some (.file [2]) ∧
      ¬∃ opened last, result = (.ok opened, last) := by
  intro settings denied system tree result
  have usual : system.OpensAsUsual id := FileTree.system_opensAsUsual.guarded _ _
  have steady : system.Steady := FileTree.system_steady.guarded _ _
  have accepted : settings.relay.validate = .ok .broadcast := by rfl
  obtain ⟨-, built, keeps⟩ := assemble_fails_at_first usual settings 0 tree
  have failed : result.1 = .error (.cannotOpen "b" denied) := by rfl
  have created : FileTree.entry? result.2 ["work", "f"] = some (.file []) := by rfl
  refine ⟨usual, steady, accepted, failed, created, keeps _ _ (by rfl), ?_⟩
  rw [(built .broadcast accepted).2.1 steady]
  rintro ⟨-, writable⟩
  have unrefused := (FileRelay.canOpen_refuse_iff.mp (writable ⟨"b", "g"⟩ (by decide))).1
  cases unrefused

end Settings

end TrafficRelay
