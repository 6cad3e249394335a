import JvmUnits.CommandLine.Options
import JvmUnits.Compiler.Session

/-!
# Running a command line

The project and all other roots have to be folders. Then the class path is scanned, the output folder created, the program
compiled, and the manifest written.
-/

namespace JvmUnits

namespace Options

/-- What is compiled, and where to. Replacements of platform classes come before the project, other roots after it. -/
def config (options : Options) : CompilerConfig where
  classPath := options.runtimeJava.toList ++ [options.project] ++ options.classPath
  output := options.output
  mainClass := options.mainClass
  classes := options.classes
  naming := options.naming

/-- The built-in classes: those of the runtime and those that are named, with dots or slashes. -/
def allBuiltins (options : Options) (disk : Disk) : Builtins :=
  let scanned := match options.runtimeJs with
    | none => ∅
    | some runtime => Builtins.scan disk runtime
  Builtins.addAll scanned (options.builtins.map slashed)

/-- The first root that is not a folder; the project is looked at first. -/
def missingRoot (options : Options) (disk : Disk) : Option Failure :=
  if !disk.isFolder options.project then some (.projectMissing options.project)
  else ((options.runtimeJava.toList ++ options.classPath).find? fun path => !disk.isFolder path).map
    Failure.classPathEntryMissing

/-- The steps of a session. -/
def steps : SessionStep String := do
  Session.createOutput
  Session.compile
  Session.writeManifest

/-- Runs a command line: the path of the manifest or the failure, and the run so far. -/
def run (options : Options) (disk : Disk) : Except Failure String × Run Disk :=
  match options.missingRoot disk with
  | some failure => (.error failure, ⟨{}, disk, #[]⟩)
  | none =>
    match Session.start options.config (options.allBuiltins disk) disk with
    | .error failure => (.error failure, ⟨{}, disk, Session.openingNews⟩)
    | .ok session =>
      let (result, after) := (steps.run).run session
      (result, after.run)

end Options

end JvmUnits
