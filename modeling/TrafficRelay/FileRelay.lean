import TrafficRelay.OpenFiles
import TrafficRelay.Settings.Json

/-!
# File relays

A file relay reads records from files and appends them to files.  All inputs
are opened before any output, in the order of the settings, and the first one
that cannot be opened is named in the error; outputs that were opened before
it have been created by then.
-/

namespace TrafficRelay

/-- Settings that go together, and the policy they amount to. -/
structure FileRelay where
  settings : Settings
  policy : Policy
  deriving DecidableEq, Repr

/-- An assembled relay and the files that its inputs read and its outputs append
to. -/
structure OpenedRelay where
  assembly : Assembly
  inputs : List Location
  outputs : List Location
  deriving DecidableEq, Repr

/-- The files of a relay before anything has been read. -/
def OpenedRelay.files (opened : OpenedRelay) (tree : FileTree) : OpenFiles where
  tree := tree
  inputs := opened.inputs.map FileCursor.start
  outputs := opened.outputs

namespace FileRelay

/-- Where the settings are looked for unless another place is named. -/
def defaultPath : String := "/etc/openrelay/relay.json"

def ofSettings (settings : Settings) : Except StartError FileRelay :=
  match settings.relay.validate with
  | .ok policy => .ok ⟨settings, policy⟩
  | .error failure => .error (.settings failure)

section

variable {m : Type → Type} [Monad m] {β ρ α : Type}

/-- Open files one after another, up to the first that cannot be opened. -/
def openAll (openFile : String → m (Except IoError β)) :
    List FileSettings → m (Except StartError (List β))
  | [] => return .ok []
  | file :: files => do
      match ← openFile file.path with
      | .error cause => return .error (.cannotOpen file.name cause)
      | .ok opened =>
          match ← openAll openFile files with
          | .error error => return .error error
          | .ok others => return .ok (opened :: others)

/-- Open all inputs and then all outputs. -/
def openFiles (system : FileSystem m ρ α) (relay : FileRelay) :
    m (Except StartError (List ρ × List α)) := do
  match ← openAll system.openForReading relay.settings.inputs with
  | .error error => return .error error
  | .ok inputs =>
      match ← openAll system.openForAppending relay.settings.outputs with
      | .error error => return .error error
      | .ok outputs => return .ok (inputs, outputs)

end

/-- The relay between the named inputs and outputs. -/
def assembly (relay : FileRelay) (now : Instant) : Assembly where
  stages := ⟨relay.settings.relay.newFilter now, .ofPolicy relay.policy⟩
  inputs := relay.settings.inputs.map fun file => (file.name, .new)
  outputs := relay.settings.outputs.map (·.name)
  listening := false

/-- Open everything and assemble the relay. -/
def buildIn {m : Type → Type} [Monad m] (system : FileSystem m Location Location)
    (relay : FileRelay) (now : Instant) : m (Except StartError OpenedRelay) := do
  match ← relay.openFiles system with
  | .error error => return .error error
  | .ok (inputs, outputs) => return .ok ⟨relay.assembly now, inputs, outputs⟩

/-- Open the files of a tree and assemble the relay.  The tree comes back in any
case, with the files that have been created. -/
def build (relay : FileRelay) (tree : FileTree) (now : Instant) :
    Except StartError OpenedRelay × FileTree :=
  (relay.buildIn FileTree.system now).run tree

/-- How a run ended: its tally, and whether it was over before the signal was
raised. -/
structure Outcome where
  tally : Tally
  finishedEarly : Bool
  deriving DecidableEq, Repr

/-- Build the relay, let it come to rest, then raise the signal and let it come
to rest again. -/
def run (relay : FileRelay) (tree : FileTree) (signal : Signal) (now : Instant) :
    Except StartError Outcome × FileTree :=
  match relay.build tree now with
  | (.error error, tree) => (.error error, tree)
  | (.ok opened, tree) =>
      let launched := opened.assembly.launch signal now
      let rested := (Session.start launched (opened.files tree)).runToIdle OpenFiles.endpoints
      let ended := (rested.apply (.setSignal true)).runToIdle OpenFiles.endpoints
      (.ok ⟨ended.relay.tally, rested.relay.lifecycle = .stopped⟩, ended.outside.tree)

end FileRelay

namespace Settings

/-- Check the settings, then open all files that they name. -/
def assemble {m : Type → Type} [Monad m] (system : FileSystem m Location Location)
    (settings : Settings) (now : Instant) : m (Except StartError OpenedRelay) :=
  match FileRelay.ofSettings settings with
  | .error error => return .error error
  | .ok relay => relay.buildIn system now

/-- Read settings from a file. -/
def load (tree : FileTree) (path : String) : Except IoError Settings := do
  decode (← tree.read path)

/-- Write settings to a file. -/
def save (settings : Settings) (tree : FileTree) (path : String) :
    Except IoError FileTree :=
  tree.write path settings.encode

end Settings

end TrafficRelay
