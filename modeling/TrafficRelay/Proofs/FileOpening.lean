import TrafficRelay.FileRelay
import TrafficRelay.Proofs.TreeFiles

/-!
# Opening files in turn

Whatever opens the files of a list, they are opened to the end of the list or up to the first
one that cannot be opened when its turn has come.  What this does to the files that there are
follows from what opening a single file does, which is `FileSystem.OpensAsUsual`: nothing, but
that opening an absent file for appending creates it.  In a `FileSystem.Steady` system no file
depends for its turn on those that were opened before it.
-/

namespace TrafficRelay

/-- What comes after an action starts from the state that the action has left. -/
theorem run_bind_of_run {σ α β : Type} {action : StateM σ α} {next : α → StateM σ β}
    {state reached : σ} {value : α} (ran : action.run state = (value, reached)) :
    (action >>= next).run state = (next value).run reached := by
  rw [StateT.run_bind, ran]
  rfl

namespace FileRelay

variable {σ : Type} {openFile : String → StateM σ (Except IoError Location)}

/-- These files are opened one after another, at these locations. -/
inductive OpensInTurn (openFile : String → StateM σ (Except IoError Location)) :
    σ → List FileSettings → List Location → σ → Prop where
  | nil {state : σ} : OpensInTurn openFile state [] [] state
  | cons {state next last : σ} {file : FileSettings} {files : List FileSettings}
      {location : Location} {locations : List Location} :
      (openFile file.path).run state = (.ok location, next) →
      OpensInTurn openFile next files locations last →
      OpensInTurn openFile state (file :: files) (location :: locations) last

theorem openAll_cons_of_ok {state next : σ} {file : FileSettings} {location : Location}
    (opened : (openFile file.path).run state = (.ok location, next))
    (files : List FileSettings) :
    (openAll openFile (file :: files)).run state =
      ((openAll openFile files).run next).map (Except.map (location :: ·)) id := by
  rw [openAll, run_bind_of_run opened]
  rcases others : (openAll openFile files).run next with ⟨error | locations, last⟩
  · exact run_bind_of_run others
  · exact run_bind_of_run others

theorem openAll_cons_of_error {state next : σ} {file : FileSettings} {cause : IoError}
    (failed : (openFile file.path).run state = (.error cause, next))
    (files : List FileSettings) :
    (openAll openFile (file :: files)).run state =
      (.error (.cannotOpen file.name cause), next) := by
  rw [openAll, run_bind_of_run failed]
  rfl

/-- Behind files that have been opened, opening goes on from the state that was reached. -/
theorem OpensInTurn.openAll_append {state reached : σ} {files : List FileSettings}
    {locations : List Location} (opens : OpensInTurn openFile state files locations reached)
    (rest : List FileSettings) :
    (openAll openFile (files ++ rest)).run state =
      ((openAll openFile rest).run reached).map (Except.map (locations ++ ·)) id := by
  induction opens with
  | @nil state =>
      rw [List.nil_append]
      rcases (openAll openFile rest).run state with ⟨error | others, last⟩
      · rfl
      · rfl
  | @cons state next reached file files location locations first others induction =>
      rw [List.cons_append, openAll_cons_of_ok first, induction]
      rcases (openAll openFile rest).run reached with ⟨error | others, last⟩
      · rfl
      · rfl

theorem OpensInTurn.openAll {state last : σ} {files : List FileSettings}
    {locations : List Location} (opens : OpensInTurn openFile state files locations last) :
    (openAll openFile files).run state = (.ok locations, last) := by
  have all := opens.openAll_append []
  rw [List.append_nil] at all
  rw [all]
  exact congrArg (fun all => (Except.ok all, last)) (List.append_nil locations)

theorem OpensInTurn.openAll_of_error {state reached last : σ} {before : List FileSettings}
    {locations : List Location} (opens : OpensInTurn openFile state before locations reached)
    {file : FileSettings} {cause : IoError}
    (failed : (openFile file.path).run reached = (.error cause, last))
    (rest : List FileSettings) :
    (FileRelay.openAll openFile (before ++ file :: rest)).run state =
      (.error (.cannotOpen file.name cause), last) := by
  rw [opens.openAll_append, openAll_cons_of_error failed]
  rfl

/-- Either all files are opened, or those before the first that cannot be. -/
theorem openAll_cases (openFile : String → StateM σ (Except IoError Location))
    (files : List FileSettings) (state : σ) :
    (∃ locations last, OpensInTurn openFile state files locations last) ∨
    ∃ before file rest locations reached cause last,
      files = before ++ file :: rest ∧ OpensInTurn openFile state before locations reached ∧
        (openFile file.path).run reached = (.error cause, last) := by
  induction files generalizing state with
  | nil => exact Or.inl ⟨[], state, .nil⟩
  | cons file files induction =>
      rcases first : (openFile file.path).run state with ⟨cause | location, next⟩
      · exact Or.inr ⟨[], file, files, [], state, cause, next, rfl, .nil, first⟩
      · rcases induction next with ⟨locations, last, opens⟩ |
          ⟨before, failing, rest, locations, reached, cause, last, rfl, opens, failed⟩
        · exact Or.inl ⟨location :: locations, last, .cons first opens⟩
        · exact Or.inr ⟨file :: before, failing, rest, location :: locations, reached, cause,
            last, rfl, .cons first opens, failed⟩

/-- A file under this path can be opened as things are. -/
def CanOpen (openFile : String → StateM σ (Except IoError Location)) (state : σ)
    (path : String) : Prop :=
  ∃ location next, (openFile path).run state = (.ok location, next)

/-- Opening files in the one way, with success or without, neither helps nor hinders opening
one in the other way. -/
def Undisturbed (openFile other : String → StateM σ (Except IoError Location)) : Prop :=
  ∀ path earlier state,
    CanOpen openFile ((other earlier).run state).2 path ↔ CanOpen openFile state path

theorem OpensInTurn.canOpen_iff {other : String → StateM σ (Except IoError Location)}
    {state last : σ} {files : List FileSettings} {locations : List Location}
    (opens : OpensInTurn other state files locations last)
    (undisturbed : Undisturbed openFile other) {path : String} :
    CanOpen openFile last path ↔ CanOpen openFile state path := by
  induction opens with
  | nil => exact Iff.rfl
  | @cons state next last file files location locations first others induction =>
      have before := undisturbed path file.path state
      rw [first] at before
      exact induction.trans before

/-- Where opening files does not disturb opening others, all of them can be opened if each
can. -/
theorem exists_opensInTurn_iff (undisturbed : Undisturbed openFile openFile)
    {files : List FileSettings} {state : σ} :
    (∃ locations last, OpensInTurn openFile state files locations last) ↔
      ∀ file ∈ files, CanOpen openFile state file.path := by
  constructor
  · rintro ⟨locations, last, opens⟩
    induction opens with
    | nil => exact fun file member => absurd member List.not_mem_nil
    | @cons state next last file files location locations first others induction =>
        have step : OpensInTurn openFile state [file] [location] next := .cons first .nil
        refine List.forall_mem_cons.mpr ⟨⟨location, next, first⟩, ?_⟩
        exact fun later member => (step.canOpen_iff undisturbed).mp (induction later member)
  · intro each
    rcases openAll_cases openFile files state with all |
      ⟨before, file, rest, locations, reached, cause, last, rfl, opens, failed⟩
    · exact all
    · -- The one that fails could be opened at the start, and still can be.
      have here := each file List.mem_append_cons_self
      obtain ⟨location, next, opened⟩ := (opens.canOpen_iff undisturbed).mpr here
      rw [failed] at opened
      cases opened

end FileRelay

namespace FileSystem

variable {σ : Type}

/-- How opening is commonly understood, where `files` are those that there are.  To open a
file for reading changes none of them.  To open one for appending creates it, empty, if it is
absent, and does nothing else to any of them; if it fails, it changes none. -/
structure OpensAsUsual (system : FileSystem (StateM σ) Location Location)
    (files : σ → FileTree) : Prop where
  reading : ∀ {path state result next},
    (system.openForReading path).run state = (result, next) →
    (files state).Creates [] (files next)
  appending : ∀ {path state location next},
    (system.openForAppending path).run state = (.ok location, next) →
    (files state).Creates [location] (files next)
  failing : ∀ {path state cause next},
    (system.openForAppending path).run state = (.error cause, next) →
    (files state).Creates [] (files next)

/-- Whether a file can be opened does not depend on what has been opened before: neither
on the files that were created, nor on how many there were. -/
structure Steady (system : FileSystem (StateM σ) Location Location) : Prop where
  inputs : FileRelay.Undisturbed system.openForReading system.openForReading
  outputsAfterInputs : FileRelay.Undisturbed system.openForAppending system.openForReading
  outputs : FileRelay.Undisturbed system.openForAppending system.openForAppending

variable {system : FileSystem (StateM σ) Location Location} {files : σ → FileTree}

theorem OpensAsUsual.creates_of_reads (usual : system.OpensAsUsual files) {state last : σ}
    {inputs : List FileSettings} {locations : List Location}
    (opens : FileRelay.OpensInTurn system.openForReading state inputs locations last) :
    (files state).Creates [] (files last) := by
  induction opens with
  | nil => exact FileTree.creates_nil _
  | cons first others induction => exact (usual.reading first).trans induction

theorem OpensAsUsual.creates (usual : system.OpensAsUsual files) {state last : σ}
    {outputs : List FileSettings} {locations : List Location}
    (opens : FileRelay.OpensInTurn system.openForAppending state outputs locations last) :
    (files state).Creates locations (files last) := by
  induction opens with
  | nil => exact FileTree.creates_nil _
  | cons first others induction => exact (usual.appending first).trans induction

end FileSystem

/-! ## Building a relay -/

namespace FileRelay

variable {σ : Type} {system : FileSystem (StateM σ) Location Location} {relay : FileRelay}
  {now : Instant} {state : σ}

/-- The ways in which building a relay ends: the outputs that have been opened, what is
returned, and the state by then. -/
inductive BuildEnds (system : FileSystem (StateM σ) Location Location) (relay : FileRelay)
    (now : Instant) (state : σ) : List Location → Except StartError OpenedRelay × σ → Prop where
  | inputFails {before rest : List FileSettings} {file : FileSettings}
      {locations : List Location} {reached last : σ} {cause : IoError} :
      relay.settings.inputs = before ++ file :: rest →
      OpensInTurn system.openForReading state before locations reached →
      (system.openForReading file.path).run reached = (.error cause, last) →
      BuildEnds system relay now state [] (.error (.cannotOpen file.name cause), last)
  | outputFails {before rest : List FileSettings} {file : FileSettings}
      {inputs outputs : List Location} {between reached last : σ} {cause : IoError} :
      OpensInTurn system.openForReading state relay.settings.inputs inputs between →
      relay.settings.outputs = before ++ file :: rest →
      OpensInTurn system.openForAppending between before outputs reached →
      (system.openForAppending file.path).run reached = (.error cause, last) →
      BuildEnds system relay now state outputs (.error (.cannotOpen file.name cause), last)
  | opens {inputs outputs : List Location} {between last : σ} :
      OpensInTurn system.openForReading state relay.settings.inputs inputs between →
      OpensInTurn system.openForAppending between relay.settings.outputs outputs last →
      BuildEnds system relay now state outputs
        (.ok ⟨relay.assembly now, inputs, outputs⟩, last)

theorem BuildEnds.buildIn {outputs : List Location}
    {result : Except StartError OpenedRelay × σ}
    (ends : BuildEnds system relay now state outputs result) :
    (relay.buildIn system now).run state = result := by
  cases ends with
  | @inputFails before rest file locations reached last cause split reads failed =>
      have ended := reads.openAll_of_error failed rest
      rw [← split] at ended
      have stopped : (relay.openFiles system).run state =
          (.error (.cannotOpen file.name cause), last) := run_bind_of_run ended
      exact run_bind_of_run stopped
  | @outputFails before rest file inputs outputs between reached last cause reads split opens
      failed =>
      have ended := opens.openAll_of_error failed rest
      rw [← split] at ended
      have stopped : (relay.openFiles system).run state =
          (.error (.cannotOpen file.name cause), last) :=
        (run_bind_of_run reads.openAll).trans (run_bind_of_run ended)
      exact run_bind_of_run stopped
  | @opens inputs outputs between last reads opens =>
      have opened : (relay.openFiles system).run state = (.ok (inputs, outputs), last) :=
        (run_bind_of_run reads.openAll).trans (run_bind_of_run opens.openAll)
      exact run_bind_of_run opened

theorem exists_buildEnds (system : FileSystem (StateM σ) Location Location)
    (relay : FileRelay) (now : Instant) (state : σ) :
    ∃ outputs, BuildEnds system relay now state outputs
      ((relay.buildIn system now).run state) := by
  -- Any way in which it ends determines the result, so it is enough to find one.
  suffices ends : ∃ outputs result, BuildEnds system relay now state outputs result by
    obtain ⟨outputs, result, ends⟩ := ends
    exact ⟨outputs, ends.buildIn ▸ ends⟩
  rcases openAll_cases system.openForReading relay.settings.inputs state with
    ⟨inputs, between, reads⟩ |
    ⟨before, file, rest, inputs, reached, cause, last, split, reads, failed⟩
  · rcases openAll_cases system.openForAppending relay.settings.outputs between with
      ⟨outputs, last, opens⟩ |
      ⟨before, file, rest, outputs, reached, cause, last, split, opens, failed⟩
    · exact ⟨outputs, _, .opens reads opens⟩
    · exact ⟨outputs, _, .outputFails reads split opens failed⟩
  · exact ⟨[], _, .inputFails split reads failed⟩

namespace BuildEnds

variable {outputs : List Location} {result : Except StartError OpenedRelay × σ}

/-- Only outputs that have been opened are new, and nothing else has changed. -/
theorem creates (ends : BuildEnds system relay now state outputs result)
    {files : σ → FileTree} (usual : system.OpensAsUsual files) :
    (files state).Creates outputs (files result.2) := by
  cases ends with
  | inputFails _ reads failed =>
      exact (usual.creates_of_reads reads).trans (usual.reading failed)
  | outputFails reads _ opens failed =>
      have opened := (usual.creates_of_reads reads).trans (usual.creates opens)
      simpa using opened.trans (usual.failing failed)
  | opens reads opens => exact (usual.creates_of_reads reads).trans (usual.creates opens)

theorem opens_iff (ends : BuildEnds system relay now state outputs result) :
    (∃ opened last, result = (.ok opened, last)) ↔
      ∃ inputs between outputs last,
        OpensInTurn system.openForReading state relay.settings.inputs inputs between ∧
        OpensInTurn system.openForAppending between relay.settings.outputs outputs last := by
  constructor
  · rintro ⟨opened, last, rfl⟩
    cases ends with
    | opens reads opens => exact ⟨_, _, _, _, reads, opens⟩
  · rintro ⟨inputs, between, outputs, last, reads, opens⟩
    have all := ends.buildIn.symm.trans (BuildEnds.opens reads opens).buildIn
    exact ⟨_, last, all⟩

/-- In a steady system it takes no more than that every file can be opened at the start. -/
theorem opens_iff_of_steady (ends : BuildEnds system relay now state outputs result)
    (steady : system.Steady) :
    (∃ opened last, result = (.ok opened, last)) ↔
      (∀ file ∈ relay.settings.inputs, CanOpen system.openForReading state file.path) ∧
        ∀ file ∈ relay.settings.outputs, CanOpen system.openForAppending state file.path := by
  rw [ends.opens_iff, ← exists_opensInTurn_iff steady.inputs]
  constructor
  · rintro ⟨inputs, between, outputs, last, reads, opens⟩
    have each := (exists_opensInTurn_iff steady.outputs).mp ⟨outputs, last, opens⟩
    refine ⟨⟨inputs, between, reads⟩, fun file member => ?_⟩
    exact (reads.canOpen_iff steady.outputsAfterInputs).mp (each file member)
  · rintro ⟨⟨inputs, between, reads⟩, each⟩
    obtain ⟨outputs, last, opens⟩ := (exists_opensInTurn_iff steady.outputs).mpr
      fun file member => (reads.canOpen_iff steady.outputsAfterInputs).mpr (each file member)
    exact ⟨inputs, between, outputs, last, reads, opens⟩

/-- Inputs and outputs come in the order of the settings. -/
theorem in_order {opened : OpenedRelay} {last : σ}
    (ends : BuildEnds system relay now state outputs (.ok opened, last)) :
    opened.assembly = relay.assembly now ∧
      ∃ between,
        OpensInTurn system.openForReading state relay.settings.inputs opened.inputs between ∧
        OpensInTurn system.openForAppending between relay.settings.outputs opened.outputs
          last := by
  cases ends with
  | opens reads opens => exact ⟨rfl, _, reads, opens⟩

end BuildEnds

end FileRelay

end TrafficRelay
