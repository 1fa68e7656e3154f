import JvmSignature.Text.Blank

/-!
# Settings

What a configuration sets: how members are looked up, and what is logged where. Every setting has a
default.
-/

namespace JvmSignature

/-- How members are looked up. -/
structure ResolverSettings where
  /-- Whether a lookup without an exact match is tried again with assignable types. -/
  assignableFallback : Bool := true
  /-- What may stand before the member in a comment of a disassembler. -/
  commentPrefixes : List Text := ["Method ".toList, "InterfaceMethod ".toList]
  deriving DecidableEq, Repr

/-- What is logged where. -/
structure LoggingSettings where
  /-- A level, or a list of directives. -/
  level : Text := "info".toList
  /-- Whether messages are written as JSON. -/
  json : Bool := false
  /-- A file that messages are appended to. -/
  file? : Option Text := none
  deriving DecidableEq, Repr

/-- A whole configuration. -/
structure Settings where
  resolver : ResolverSettings := {}
  logging : LoggingSettings := {}
  deriving DecidableEq, Repr

/-- The target under which each step of matching parameters is logged. -/
def matchTarget : Text := "jitsig::sig_match".toList

/-- The comment without the first of the prefixes that it starts with. -/
def ResolverSettings.stripPrefix (s : ResolverSettings) (comment : Text) : Text :=
  let comment := comment.trim
  Text.trimStart
    ((s.commentPrefixes.findSome? fun start => start.isPrefixOf? comment).getD comment)

end JvmSignature
