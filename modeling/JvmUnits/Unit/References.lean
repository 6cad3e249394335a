import JvmUnits.Naming

/-!
# References

The references of a class are the classes that it mentions, each once, without the class itself. Two spellings with the same
runtime name are the same class; the one mentioned first is kept.
-/

namespace JvmUnits

/-- The names whose runtime name has not been seen, neither at the start nor for an earlier name. -/
def firstMentions (naming : Naming) (seen : List String) : List String → List String
  | [] => []
  | name :: rest =>
    let runtimeName := naming.strip name
    if runtimeName ∈ seen then firstMentions naming seen rest
    else name :: firstMentions naming (runtimeName :: seen) rest

/-- The references of a class, as they are spelled, from all that it mentions. -/
def collectReferences (naming : Naming) (owner : String) (mentions : List String) : List String :=
  firstMentions naming [naming.strip owner] mentions

end JvmUnits
