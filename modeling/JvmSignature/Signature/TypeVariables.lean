import JvmSignature.ClassTable.Subtyping
import JvmSignature.Signature.TypeText
import JvmSignature.Table
import JvmSignature.Text.TopLevel

/-!
# Type variables

A generic declaration names its type variables, each with bounds or without. The virtual machine
knows only the erasure: a variable stands for its first bound without type arguments, and for
`java.lang.Object` when it has none.
-/

namespace JvmSignature

/-- The type variables of a declaration and what each stands for. -/
abbrev TypeVariables := Table Text Text

namespace TypeVariables

/-- One variable and what it stands for. A variable without a name is dropped. -/
def ofParameter? (param : Text) : Option (Text × Text) :=
  let (name, bound) :=
    match Text.cut? " extends ".toList param with
    | none => (param.trim, objectName)
    | some (name, bounds) =>
      match Text.splitTopLevel '&' bounds with
      | [] => (name.trim, objectName)
      | first :: _ => (name.trim, TypeText.withoutArguments first)
  if name = [] then none else some (name, bound)

/-- The variables of a list such as `<T extends java.lang.Comparable<? super T>, U>`. -/
def ofDeclaration (decl : Text) : TypeVariables :=
  let inner := (Text.between? '<' '>' decl).getD decl
  Table.ofList ((Text.splitTopLevel ',' inner).filterMap ofParameter?)

/--
The type with its variable replaced by what it stands for, its brackets kept; nothing when the type
is no variable.
-/
def substitute? (vars : TypeVariables) (type : Text) : Option Text :=
  (vars.find? (TypeText.beforeBrackets type)).map (· ++ TypeText.fromBrackets type)

/-- The type with its variable replaced, if it is one. -/
def substitute (vars : TypeVariables) (type : Text) : Text := (vars.substitute? type).getD type

/--
Whether a declared type is the one known under its erased name, after at most one replacement of a
variable.
-/
def agree (vars : TypeVariables) (known declared : Text) : Bool :=
  known = declared || vars.substitute? declared = some known

end TypeVariables

end JvmSignature
