import TrafficRelay.FileRelay

/-!
# The command

The command reads its settings from the file that the environment names, relays
every record of the input files, and waits until its standard input ends.
Settings that cannot be read are replaced by the defaults; settings that are
wrong end the command.
-/

namespace TrafficRelay

namespace Command

/-- The failure that a failed operation of the operating system stands for. -/
def ioError (error : IO.Error) : IoError :=
  match error with
  | .noFileOrDirectory _ _ _ => .notFound
  | error => ⟨.other, toString error⟩

def attempt {α : Type} (action : IO α) : IO (Except IoError α) := do
  match ← action.toBaseIO with
  | .ok value => return .ok value
  | .error error => return .error (ioError error)

/-- The settings in a file, or the defaults if the file cannot be read. -/
def loadSettings (path : String) : IO (Except IoError Settings) := do
  match ← attempt (IO.FS.readBinFile path) with
  | .ok content => return Settings.decode content.data.toList
  | .error _ => return .ok .default

/-- The location of an existing file, the same for all paths that lead to it. -/
def locate (path : String) : IO Location := do
  return [toString (← IO.FS.realPath path)]

/-- The files of the operating system.  An input is read as it is opened; what
opens but cannot be read is a directory. -/
def system : FileSystem IO (Location × FileEntry) (Location × IO.FS.Handle) where
  openForReading path := do
    match ← attempt (IO.FS.Handle.mk path .read) with
    | .error cause => return .error cause
    | .ok handle =>
        let location ← locate path
        match ← attempt handle.readBinToEnd with
        | .ok content => return .ok (location, .file content.data.toList)
        | .error _ => return .ok (location, .directory)
  openForAppending path := do
    match ← attempt (IO.FS.Handle.mk path .append) with
    | .error cause => return .error cause
    | .ok handle => return .ok (← locate path, handle)

/-- What has been appended to a file. -/
def appended (before after : FileTree) (location : Location) : Bytes :=
  match before.contentAt location, after.contentAt location with
  | .ok old, .ok new => new.drop old.length
  | _, _ => []

/-- Relay every record, and append what was written to the files of the
outputs. -/
def relayFiles (relay : FileRelay) : IO (Except StartError Tally) := do
  match ← relay.openFiles system with
  | .error error => return .error error
  | .ok (inputs, outputs) =>
      let now ← IO.monoNanosNow
      let opened : OpenedRelay :=
        ⟨relay.assembly now, inputs.map (·.1), outputs.map (·.1)⟩
      let created := outputs.map fun (location, _) => (location, FileEntry.file [])
      let tree : FileTree := ⟨inputs ++ created, []⟩
      let launched := opened.assembly.launch .lowered now
      let ended := (Session.start launched (opened.files tree)).runToIdle
        OpenFiles.endpoints
      for location in opened.outputs.eraseDups do
        if let some handle := outputs.lookup location then
          handle.write ⟨(appended tree ended.outside.tree location).toArray⟩
          handle.flush
      return .ok ended.relay.tally

/-- Read standard input to its end. -/
partial def awaitEnd (input : IO.FS.Stream) : IO Unit := do
  let line ← input.getLine
  if line.isEmpty then return else awaitEnd input

def run : IO UInt32 := do
  let path := (← IO.getEnv "CONFIG_PATH").getD FileRelay.defaultPath
  match ← loadSettings path with
  | .error error =>
      IO.eprintln error.message
      return 1
  | .ok settings =>
      match FileRelay.ofSettings settings with
      | .error error =>
          IO.eprintln error.message
          return 1
      | .ok relay =>
          match ← relayFiles relay with
          | .error error =>
              IO.eprintln error.message
              return 1
          | .ok _ =>
              awaitEnd (← IO.getStdin)
              return 0

end Command

end TrafficRelay

def main : IO UInt32 := TrafficRelay.Command.run
