/-!
# Access flags

The flag words of fields, methods and parameters, and their decomposition into named flags. The same bit has different names
at different sites, so each site has a table of its own.
-/

namespace JvmUnits

/-- A named access flag. -/
inductive AccessFlag where
  | isPublic | isPrivate | isProtected | isStatic | isFinal | isSynchronized | isVolatile | isBridge | isTransient
  | isVarargs | isNative | isAbstract | isStrict | isSynthetic | isEnum | isMandated
  deriving DecidableEq, Repr

namespace AccessFlag

/-- The position of the flag's bit in the word. -/
def position : AccessFlag → Nat
  | isPublic => 0
  | isPrivate => 1
  | isProtected => 2
  | isStatic => 3
  | isFinal => 4
  | isSynchronized => 5
  | isVolatile => 6
  | isBridge => 6
  | isTransient => 7
  | isVarargs => 7
  | isNative => 8
  | isAbstract => 10
  | isStrict => 11
  | isSynthetic => 12
  | isEnum => 14
  | isMandated => 15

/-- The flag's bit as a number. -/
def bits (flag : AccessFlag) : Nat := 1 <<< flag.position

/-- The flag's name in a unit. -/
def name : AccessFlag → String
  | isPublic => "PUBLIC"
  | isPrivate => "PRIVATE"
  | isProtected => "PROTECTED"
  | isStatic => "STATIC"
  | isFinal => "FINAL"
  | isSynchronized => "SYNCHRONIZED"
  | isVolatile => "VOLATILE"
  | isBridge => "BRIDGE"
  | isTransient => "TRANSIENT"
  | isVarargs => "VARARGS"
  | isNative => "NATIVE"
  | isAbstract => "ABSTRACT"
  | isStrict => "STRICT"
  | isSynthetic => "SYNTHETIC"
  | isEnum => "ENUM"
  | isMandated => "MANDATED"

end AccessFlag

/-- Where a flag word stands. -/
inductive AccessSite where
  | field | method | parameter
  deriving DecidableEq, Repr

namespace AccessSite

/-- The site's name in messages. -/
def label : AccessSite → String
  | field => "field"
  | method => "method"
  | parameter => "parameter"

/-- The flags of the site, in the order in which they are listed. -/
def table : AccessSite → List AccessFlag
  | field =>
    [.isPublic, .isPrivate, .isProtected, .isStatic, .isFinal, .isVolatile, .isTransient, .isSynthetic, .isEnum]
  | method =>
    [.isPublic, .isPrivate, .isProtected, .isStatic, .isFinal, .isSynchronized, .isBridge, .isVarargs, .isNative,
      .isAbstract, .isStrict, .isSynthetic]
  | parameter => [.isFinal, .isSynthetic, .isMandated]

/-- The flags of the site that a word holds. -/
def present (site : AccessSite) (word : Nat) : List AccessFlag :=
  site.table.filter fun flag => word.testBit flag.position

/-- What a word holds besides the flags of the site. -/
def leftover (site : AccessSite) (word : Nat) : Nat :=
  (site.present word).foldl (fun rest flag => rest - flag.bits) word

end AccessSite

/-- The word has the flag of native methods. -/
def isNativeWord (word : Nat) : Bool := word.testBit AccessFlag.isNative.position

end JvmUnits
