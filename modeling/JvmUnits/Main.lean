import JvmUnits.CommandLine.Run
import JvmUnits.CommandLine.Usage

/-!
# The command

Loads the folders that the command line names, runs it on them, and writes the files that the run has left in the output
folder.
-/

namespace JvmUnits

namespace Command

/-- Reads a file, or a folder with all that is below it. -/
partial def loadTree (path : String) : IO FileTree := do
  let target := (← IO.currentDir) / path
  if ← target.isDir then
    let entries ← target.readDir
    return .folder (← entries.toList.mapM fun entry => do
      return (entry.fileName, ← loadTree (Path.join path entry.fileName)))
  else return .file (← IO.FS.readBinFile target).toList

/-- The absolute path of a chain of names. -/
def absolute (place : List String) : String := "/" ++ Path.ofParts place

/-- Brings what is at a path, or the folders above it as far as they exist, to a disk. -/
def mount (disk : Disk) (path : String) : IO Disk := do
  let place := (Path.parts path).foldl Path.step (disk.origin path)
  let mut loaded := disk
  for size in List.range place.length do
    let above := place.take size
    let target := (← IO.currentDir) / absolute above
    if (loaded.tree.get? above).isNone && (← target.pathExists) then
      loaded := loaded.put above (if ← target.isDir then .folder [] else .file [])
  let target := (← IO.currentDir) / absolute place
  if ← target.pathExists then
    loaded := loaded.put place (← loadTree (absolute place))
  return loaded

/-- The disk with all that a command line is about. -/
def mountAll (options : Options) : IO Disk := do
  let workingFolder := (Path.parts (toString (← IO.currentDir))).foldl Path.step []
  let disk : Disk := Disk.put ⟨.folder [], workingFolder⟩ workingFolder (.folder [])
  let runtime := options.runtimeJs.toList.map (Path.join · "classes")
  (options.config.classPath ++ runtime ++ [options.output]).foldlM mount disk

/-- Writes the files of a folder that differ from what was there. -/
def save (before after : Disk) (folder : String) : IO Unit := do
  if after.isFolder folder then IO.FS.createDirAll folder
  let known := before.filesBelow folder
  for (names, data) in after.filesBelow folder do
    if known.lookup names != some data then
      let path := Path.join folder (Path.ofParts names)
      let above := Path.parent path
      unless above.isEmpty do IO.FS.createDirAll above
      IO.FS.writeBinFile path ⟨data.toArray⟩

/-- Shows the news of a run. -/
def tell (news : Array Progress) : IO Unit :=
  news.forM fun
    | .message text => IO.eprintln text
    | _ => pure ()

/-- Shows how long a run took and what it produced. -/
def tellTiming (milliseconds : Nat) (state : BuildState) : IO Unit :=
  IO.eprintln ("timing: total_ms=" ++ toString milliseconds ++ " compiled=" ++ toString state.compiled.length ++
    " natives=" ++ toString state.natives.length ++ " builtins=" ++ toString state.builtinsUsed.size)

/-- Runs what a command line asks for, and gives the exit code. -/
def execute (options : Options) : IO UInt32 := do
  let started ← IO.monoMsNow
  let disk ← mountAll options
  let (result, run) := options.run disk
  save disk run.storage options.output
  unless options.quiet do tell run.news
  match result with
  | .error failure =>
    IO.eprintln failure.report
    return 1
  | .ok _ =>
    if options.timing && !options.quiet then tellTiming ((← IO.monoMsNow) - started) run.state
    return 0

/-- Reads the words of a command line and runs it. -/
def start (words : List String) : IO UInt32 := do
  match Options.parse words with
  | .ok options => execute options
  | .error .help =>
    IO.print helpText
    return 0
  | .error .version =>
    IO.print versionText
    return 0
  | .error stop =>
    IO.eprintln ("error: " ++ stop.message)
    return 2

end Command

end JvmUnits

/-- The command. -/
def main (words : List String) : IO UInt32 := JvmUnits.Command.start words
