import JvmSignature.TypeSystem

/-!
# Matching parameters

Whether a declared list of parameters takes a list of arguments. Without varargs each parameter
takes the argument in its place. The last parameter of a varargs method takes an array as it is, or
any number of arguments of the type of its components, none included.

An argument that the last parameter takes as it is counts as the array, also where it might as well
be a component.
-/

namespace JvmSignature

/-- How an argument has to fit a parameter. -/
inductive MatchMode where
  /-- The types are equal. -/
  | exact
  /-- The type of the argument is assignable to that of the parameter. -/
  | assignable
  deriving DecidableEq, Repr

namespace TypeSystem

/-- Whether a parameter takes an argument. -/
def accepts (ts : TypeSystem) (mode : MatchMode) (declared actual : Descriptor) : Bool :=
  match mode with
  | .exact => declared = actual
  | .assignable => ts.isAssignable actual declared

/-- Whether each parameter takes the argument in its place, and no argument is left. -/
def acceptsAll (ts : TypeSystem) (mode : MatchMode) : List Descriptor → List Descriptor → Bool
  | [], [] => true
  | declared :: ds, actual :: as => ts.accepts mode declared actual && ts.acceptsAll mode ds as
  | _, _ => false

/-- Whether an argument is one of the components of an array parameter. -/
def acceptsComponent (ts : TypeSystem) (mode : MatchMode) (declared actual : Descriptor) : Bool :=
  (ts.component? declared).any fun component => ts.accepts mode component actual

/-- Whether fixed parameters and an array parameter behind them take the arguments. -/
def acceptsVarargs (ts : TypeSystem) (mode : MatchMode) (fixed : List Descriptor)
    (last : Descriptor) (actuals : List Descriptor) : Bool :=
  match actuals.getLast? with
  | none => fixed.isEmpty
  | some actual =>
    if ts.accepts mode last actual then ts.acceptsAll mode fixed actuals.dropLast
    else
      ts.acceptsAll mode fixed (actuals.take fixed.length) &&
        (actuals.drop fixed.length).all (ts.acceptsComponent mode last)

/-- Whether declared parameters take the arguments. -/
def matchesParams (ts : TypeSystem) (isVarargs : Bool) (declared actuals : List Descriptor)
    (mode : MatchMode) : Bool :=
  match isVarargs, declared.getLast? with
  | true, some last => ts.acceptsVarargs mode declared.dropLast last actuals
  | _, _ => ts.acceptsAll mode declared actuals

end TypeSystem

end JvmSignature
