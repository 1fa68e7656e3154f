import JvmSignature.Dictionary
import JvmSignature.Registry
import JvmSignature.Settings
import JvmSignature.Signature.Comment
import JvmSignature.Signature.LogLine
import JvmSignature.Signature.TypeList

/-!
# Resolving signatures

From the text of a signature to the method that it means. A lookup reads the parts, makes sure that
the class is registered, resolves the types and asks the registry, first for equal types and then,
where the settings allow it, for assignable ones.

The class is loaded before the types are resolved, so it stays registered also when a type is not
known. Apart from that a lookup changes nothing.
-/

namespace JvmSignature

/-- What lookups work with. -/
structure Resolver where
  types : TypeSystem
  loader : ClassLoader
  settings : ResolverSettings := {}

/-- A signature whose types are resolved. -/
structure TypedParts where
  className : Text
  memberName : Text
  modifier : AccessFlags
  params : List Descriptor
  returnType : Descriptor
  typeVariables : TypeVariables
  isVarargs : Bool
  deriving DecidableEq

/-- The query for the member that a signature means. -/
def TypedParts.query (s : TypedParts) : MethodQuery :=
  ⟨s.className, s.memberName, s.params, s.returnType⟩

namespace Resolver

/-! ## Types -/

/-- A declared type, with its type variable replaced by what it stands for. -/
def resolveErased (r : Resolver) (vars : TypeVariables) (type : Text) :
    Except SignatureError Descriptor :=
  r.types.resolveName (vars.substitute type)

/-- The parts with all types resolved, the parameters before the return type. -/
def resolveParts (r : Resolver) (p : Parts) : Except SignatureError TypedParts := do
  let params ← p.paramTypes.mapM (r.resolveErased p.typeVariables)
  let returnType ← r.resolveErased p.typeVariables p.returnType
  return ⟨p.className, p.memberName, p.modifier, params, returnType, p.typeVariables, p.isVarargs⟩

/--
Whether a member takes arguments of the given types: equal types, or else assignable ones where the
settings allow it.
-/
def memberAccepts (r : Resolver) (m : Member) (actuals : List Descriptor) :
    Except SignatureError Bool := do
  let declared ← m.paramTypes.mapM r.types.resolveName
  return r.types.matchesParams m.isVarargs declared actuals .exact ||
    (r.settings.assignableFallback &&
      r.types.matchesParams m.isVarargs declared actuals .assignable)

/-! ## Members -/

/-- The method that answers to a query with equal types, or else with assignable ones. -/
def findMethod? (r : Resolver) (reg : Registry) (q : MethodQuery) : Option Method :=
  match reg.find? r.types .exact q with
  | some m => some m
  | none => if r.settings.assignableFallback then reg.find? r.types .assignable q else none

/-- The method that parts mean, if their class can be loaded, and the registry after that. -/
def findParts (r : Resolver) (reg : Registry) (p : Parts) :
    Except SignatureError (Option Method) × Registry :=
  match reg.load r.loader p.className with
  | .error _ => (.ok none, reg)
  | .ok reg => ((r.resolveParts p).map fun s => r.findMethod? reg s.query, reg)

/-- The method of parts that may be faulty; a fault leaves the registry as it is. -/
def findRead (r : Resolver) (reg : Registry) (p : Except SignatureError Parts) :
    Except SignatureError (Option Method) × Registry :=
  match p with
  | .error e => (.error e, reg)
  | .ok p => r.findParts reg p

/-- The method that a line of a compilation log means. -/
def findLogLine (r : Resolver) (reg : Registry) (line : Text) :
    Except SignatureError (Option Method) × Registry :=
  r.findRead reg (Parts.ofLogLine line)

/--
The reference of a comment without what stands before it. A reference to a member of the class that
is disassembled leaves the class out; it is put back where the name before the colon has no dot.
-/
def commentReference (r : Resolver) (currentClass? : Option Text) (comment : Text) : Text :=
  let reference := r.settings.stripPrefix comment
  match currentClass? with
  | none => reference
  | some current =>
    if (reference.takeWhile (· != ':')).contains '.' then reference
    else current.slashed ++ '.' :: reference

/-- The method that a comment of a disassembler means, in the class that is disassembled. -/
def findComment (r : Resolver) (reg : Registry) (currentClass? : Option Text) (comment : Text) :
    Except SignatureError (Option Method) × Registry :=
  r.findRead reg (Parts.ofComment (r.commentReference currentClass? comment))

/-- The method that an id of a dictionary means. A type that is not known means no method. -/
def findDictionaryId (r : Resolver) (reg : Registry) (d : Dictionary) (id : Text) :
    Option Method × Registry :=
  match d.method? id with
  | none => (none, reg)
  | some s =>
    match r.findParts reg (Parts.ofTexts s.className s.memberName s.paramTypes s.returnType) with
    | (.ok found, reg) => (found, reg)
    | (.error _, reg) => (none, reg)

end Resolver

end JvmSignature
