import JvmUnits.Builtins
import JvmUnits.Compiler.Stage
import JvmUnits.Unit.Basic

/-!
# Artifacts

An artifact is what the compilation of one class yields: its unit, and the file with its native methods if there is one. It
says where both are to be stored.
-/

namespace JvmUnits

/-- A compiled class: the name under which its class file was looked up, the number of the root that has it, its runtime name,
its unit, and the path of the file that implements its native methods. -/
structure Artifact where
  physical : String
  root : Nat
  runtimeName : String
  unit : ClassUnit
  native : Option String
  deriving DecidableEq, Repr

namespace Artifact

/-- The path of the unit inside the output folder. -/
def path (artifact : Artifact) : String := "classpath" ++ toString artifact.root ++ "/" ++ artifact.runtimeName ++ ".js"

/-- The path inside the output folder of the file with the native methods: it keeps its name, and stands beside the unit. -/
def nativePath (artifact : Artifact) : Option String :=
  artifact.native.map fun source =>
    Path.ofParts ((Path.parts artifact.path).dropLast ++ [Path.fileName source])

end Artifact

/-- All that a compilation depends on: how classes are named, which are built in, where class files are, the bytes of the file
at a path, and the engine for the patterns that select classes. -/
structure Environment where
  naming : Naming
  builtins : Builtins
  index : ClassIndex
  contents : String → Except OsError Bytes
  engine : PatternEngine := .standard

namespace Environment

/-- The class is built in. -/
def isBuiltin (env : Environment) (name : String) : Bool := env.builtins.contains (env.naming.strip name)

/-- Reads a file. -/
def readFile (env : Environment) (path : String) : Except Error Bytes :=
  match env.contents path with
  | .ok data => .ok data
  | .error cause => .error (.file path cause)

/-- Compiles the class whose file an entry of the index leads to, with a record. -/
def artifactAtIn (ω : Type) [Record ω] (env : Environment) (physical runtimeName : String) (entry : IndexEntry) :
    Recording ω Error Artifact := do
  let data ← .stage (.ofClass physical .read) (env.readFile entry.path)
  let file ← .stage (.ofClass physical .parse) (ClassFile.parse data)
  let unit ← .stage (.ofClass physical .translate) (file.translate env.naming)
  pure ⟨physical, entry.root, runtimeName, unit, (env.index.resolve (physical ++ nativeEnding)).map IndexEntry.path⟩

/-- Compiles the class that is looked up under a physical name and has a runtime name, with a record. -/
def artifactIn (ω : Type) [Record ω] (env : Environment) (physical runtimeName : String) : Recording ω Error Artifact :=
  match env.index.resolve (ClassIndex.classFilePath physical) with
  | none => .fail (.classNotFound physical)
  | some entry => env.artifactAtIn ω physical runtimeName entry

/-- Compiles the class whose file an entry of the index leads to. -/
def artifactAt (env : Environment) (physical runtimeName : String) (entry : IndexEntry) : Except Error Artifact :=
  (env.artifactAtIn Unit physical runtimeName entry).outcome

/-- Compiles the class that is looked up under a physical name and has a runtime name. -/
def artifact (env : Environment) (physical runtimeName : String) : Except Error Artifact :=
  (env.artifactIn Unit physical runtimeName).outcome

variable {ω : Type} [Record ω] {env : Environment} {physical runtimeName : String}

/-- Each stage goes on with what the one before it has given. -/
theorem outcome_artifactAtIn (entry : IndexEntry) :
    (env.artifactAtIn ω physical runtimeName entry).outcome = (do
      let data ← env.readFile entry.path
      let file ← ClassFile.parse data
      let unit ← file.translate env.naming
      pure ⟨physical, entry.root, runtimeName, unit,
        (env.index.resolve (physical ++ nativeEnding)).map IndexEntry.path⟩) := by
  unfold artifactAtIn
  simp only [Recording.outcome_bind]
  rfl

/-- A class is missing if there is no entry of its physical name. -/
theorem artifact_of_missing (missing : env.index.resolve (ClassIndex.classFilePath physical) = none) :
    env.artifact physical runtimeName = .error (.classNotFound physical) := by
  rw [artifact, artifactIn, missing]
  rfl

/-- A class is compiled from the entry of its physical name. -/
theorem artifact_of_entry {entry : IndexEntry}
    (found : env.index.resolve (ClassIndex.classFilePath physical) = some entry) :
    env.artifact physical runtimeName = env.artifactAt physical runtimeName entry := by
  rw [artifact, artifactIn, found]
  rfl

/-- What is kept of the stages does not matter for the artifact. -/
theorem outcome_artifactIn : (env.artifactIn ω physical runtimeName).outcome = env.artifact physical runtimeName := by
  cases found : env.index.resolve (ClassIndex.classFilePath physical) with
  | none =>
    rw [artifact_of_missing found, artifactIn, found]
    rfl
  | some entry =>
    rw [artifact_of_entry found, artifactAt, artifactIn, found, outcome_artifactAtIn, outcome_artifactAtIn]

end Environment

end JvmUnits
