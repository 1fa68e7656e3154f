import JvmSignature.Signature.Error
import JvmSignature.Signature.Parts
import JvmSignature.Text.Entity

/-!
# Declarations

A disassembler lists the members of a class by their declarations, such as
`public static <T extends java.lang.Object> T[] copyOf(T[], int);`: modifiers, type variables, a
return type unless the member is a constructor, the name, and the parameters up to the last `)`.
What follows them is ignored. The class is not part of the line.
-/

namespace JvmSignature

namespace Declaration

/-- The modifiers at the start of a list of words, and the words after them. -/
def takeModifiers : List Text → AccessFlags × List Text
  | [] => (0, [])
  | word :: words =>
    match AccessFlags.ofKeyword? word with
    | some bit =>
      let (flags, rest) := takeModifiers words
      (bit ||| flags, rest)
    | none => if word = "default".toList then takeModifiers words else (0, word :: words)

/-- The type variables at the start of a list of words, and the words after them. -/
def takeTypeVariables : List Text → TypeVariables × List Text
  | [] => (Table.empty, [])
  | word :: words =>
    if word.head? = some '<' then (TypeVariables.ofDeclaration word, words)
    else (Table.empty, word :: words)

/-- The return type and the name that end the words before the parameters. -/
def returnAndName? : List Text → Option (Text × Text)
  | [returnType, name] => some (TypeText.withoutArguments returnType, name)
  | [name] => some ("void".toList, name)
  | _ => none

/-- What follows the last dot of a name. -/
def simpleName (name : Text) : Text :=
  match name.cutAtLast? '.' with
  | some (_, simple) => simple
  | none => name

/--
The name of a declared member, which may be written with that of its class before it. The name of
the class alone is that of a constructor.
-/
def memberName (className name : Text) : Text :=
  if name = className then className else simpleName name

/-- A declaration without the semicolons and the blanks at its end. -/
def withoutTerminator (s : Text) : Text :=
  Text.trimEnd (s.trim.reverse.dropWhile (· == ';')).reverse

/-- What stands before the parameters of a declaration, and the parameters. -/
def headAndParams? (s : Text) : Option (Text × Text) :=
  match s.cutAt? '(' with
  | none => none
  | some (head, rest) => (rest.cutAtLast? ')').map fun (params, _) => (head, params)

/-- The parts of a declaration in a class. -/
def parts? (className line : Text) : Option Parts :=
  match headAndParams? (withoutTerminator line.unescapeAngles) with
  | none => none
  | some (head, params) =>
    let (modifier, words) := takeModifiers (Text.splitTopLevel ' ' head)
    let (typeVariables, words) := takeTypeVariables words
    match returnAndName? words with
    | none => none
    | some (returnType, name) =>
      let paramTypes := (Text.splitTopLevel ',' params).map TypeText.withoutArguments
      some { Parts.ofTexts className (memberName className name) paramTypes returnType with
        modifier := modifier
        typeVariables := typeVariables }

end Declaration

/-- The parts of a declaration in a class. -/
def Parts.ofDeclaration (className line : Text) : Except SignatureError Parts :=
  match Declaration.parts? className line with
  | some parts => .ok parts
  | none => .error (.malformed line)

end JvmSignature
