import JvmUnits.Compiler.Manifest
import JvmUnits.Compiler.WorkList
import JvmUnits.Unit.Render

/-!
# Compiler sessions

A session compiles from the folders of a class path on a disk into an output folder on the same disk. What a step has done
stays when a later step, or the rest of the same step, fails.
-/

namespace JvmUnits

/-- What is compiled, and where to: the roots of the class path, the output folder, the patterns of the classes to start from,
and how classes are named. -/
structure CompilerConfig where
  classPath : List String
  output : String
  mainClass : Option String
  classes : List String
  naming : Naming

namespace CompilerConfig

/-- The patterns of the classes to start from, as they are written. -/
def patternTexts (config : CompilerConfig) : List String := config.mainClass.toList ++ config.classes

/-- The patterns of the classes to start from. -/
def patterns (config : CompilerConfig) : List ClassPattern := config.patternTexts.map ClassPattern.ofString

/-- The path of the manifest. -/
def manifestPath (config : CompilerConfig) : String := Path.join config.output "manifest.json"

end CompilerConfig

/-- The classes that are needed as soon as there are services. -/
def serviceSupport : List String := ["java/lang/Iterable", "java/lang/Iterator"]

/-- The classes to start from: those that a pattern selects and those that implement a service. -/
def ClassIndex.seeds (index : ClassIndex) (patterns : List ClassPattern) : List String :=
  index.matchingClasses patterns ++
    if index.serviceClasses.isEmpty then [] else serviceSupport ++ index.serviceClasses

/-- Stores an artifact in an output folder: the unit, then the file with the native methods beside it. -/
def Artifact.save (naming : Naming) (output : String) (artifact : Artifact) : ExceptT Error (StateM Disk) Unit := do
  let target := Path.join output artifact.path
  let folder := Path.parent target
  (DiskAction.createFolders folder).adapt (Error.file folder)
  (DiskAction.write target (Utf8.encode (artifact.unit.render naming))).adapt (Error.file target)
  match artifact.native, artifact.nativePath with
  | some source, some inner => (DiskAction.copy source (Path.join output inner)).adapt (Error.file (Path.join output inner))
  | _, _ => pure ()

/-- Artifacts are stored in an output folder on a disk. -/
def Store.onDisk (naming : Naming) (output : String) : Store Disk := fun artifact disk =>
  let (result, after) := (artifact.save naming output).run disk
  (after, result)

/-- A compiler with the run that it is engaged in. -/
structure Session where
  config : CompilerConfig
  environment : Environment
  run : Run Disk

/-- A step of a session. -/
abbrev SessionStep (α : Type) := ExceptT Failure (StateM Session) α

namespace Session

/-- The news with which a session starts. -/
def openingNews : Array Progress := #[.indeterminate, .message "Scanning classpath contents"]

/-- Starts a session. Class files are read as they are on the disk now: no step writes to a class file. -/
def start (config : CompilerConfig) (builtins : Builtins) (disk : Disk) : Except Failure Session :=
  match ClassIndex.scan (config.classPath.map disk.classRoot) with
  | .error cause => .error (.scan cause)
  | .ok index => .ok ⟨config, ⟨config.naming, builtins, index, disk.read, .standard⟩, ⟨{}, disk, openingNews⟩⟩

/-- The manifest of what has been compiled so far. -/
def manifest (session : Session) : Json := session.run.state.manifest session.config.naming

/-- Does something on the disk of the session. -/
def onDisk {α : Type} (action : DiskAction α) (failure : OsError → Failure) : SessionStep α := do
  let session ← get
  let (result, disk) := action.run session.run.storage
  set { session with run := { session.run with storage := disk } }
  match result with
  | .ok value => pure value
  | .error cause => throw (failure cause)

/-- Creates the output folder. -/
def createOutput : SessionStep Unit := do
  let output := (← get).config.output
  onDisk (DiskAction.createFolders output) (Failure.outputFolder output)

/-- The first pattern that is too large for the engine of the session. -/
def oversized? (session : Session) : Option String :=
  session.config.patternTexts.find? fun text => session.environment.engine.refuses (ClassPattern.ofString text)

/-- Compiles the classes to start from and all that they refer to. Nothing is begun when a pattern is too large. -/
def compile : SessionStep Unit := do
  let session ← get
  match session.oversized? with
  | some pattern => throw (.patternTooLarge pattern session.environment.engine.sizeLimit)
  | none => pure ()
  let seeds := session.environment.index.seeds session.config.patterns
  let (run, result) := session.run.compile session.environment (.onDisk session.config.naming session.config.output) seeds
  set { session with run }
  match result with
  | .ok () => pure ()
  | .error failure => throw failure

/-- Writes the manifest into the output folder, and gives its path. -/
def writeManifest : SessionStep String := do
  let session ← get
  let path := session.config.manifestPath
  onDisk (DiskAction.write path (Utf8.encode (session.manifest.pretty 0))) (Failure.manifest path)
  pure path

end Session

end JvmUnits
