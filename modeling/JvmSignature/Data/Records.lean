import JvmSignature.ClassStub
import JvmSignature.Data.Decode
import JvmSignature.Dictionary
import JvmSignature.Member
import JvmSignature.Settings

/-!
# Records

How documents write class stubs, members, kinds of dictionary entries and settings. Settings refuse
fields that they do not know, the other records pass over them.
-/

namespace JvmSignature

open Decoder

/-! ## Classes and members -/

def MethodStub.decoder : Decoder MethodStub :=
  RecordType.decoder
    { name := "MethodStub"
      fields := [field "name" text, field "descriptor" text, field "access_flags" flags]
      allowsUnknown := true }
    fun v => do
      let name ← v.required "name" text
      let descriptor ← v.required "descriptor" text
      let accessFlags ← v.optional "access_flags" flags 0
      return ⟨name, descriptor, accessFlags⟩

def ClassStub.decoder : Decoder ClassStub :=
  RecordType.decoder
    { name := "ClassStub"
      fields :=
        [field "binary_name" text, field "access_flags" flags,
         field "super_binary_name" (option text), field "interfaces" (list text),
         field "methods" (list MethodStub.decoder)]
      allowsUnknown := true }
    fun v => do
      let binaryName ← v.required "binary_name" text
      let accessFlags ← v.optional "access_flags" flags 0
      let superName? ← v.optional "super_binary_name" (option text) none
      let interfaces ← v.optional "interfaces" (list text) []
      let methods ← v.optional "methods" (list MethodStub.decoder) []
      return ⟨binaryName, accessFlags, superName?, interfaces, methods⟩

def Member.decoder : Decoder Member :=
  RecordType.decoder
    { name := "CandidateMember"
      fields :=
        [field "class_name" text, field "name" text, field "modifier" flags,
         field "param_types" (list text), field "return_type" text, field "is_varargs" bool]
      allowsUnknown := true }
    fun v => do
      let className ← v.required "class_name" text
      let name ← v.required "name" text
      let modifier ← v.required "modifier" flags
      let paramTypes ← v.required "param_types" (list text)
      let returnType ← v.required "return_type" text
      let isVarargs ← v.required "is_varargs" bool
      return ⟨className, name, modifier, paramTypes, returnType, isVarargs⟩

def EntryKind.decoder : Decoder EntryKind :=
  variant [("method".toList, .method), ("klass".toList, .klass), ("type".toList, .type)]

/-! ## Settings -/

def ResolverSettings.decoder : Decoder ResolverSettings :=
  RecordType.decoder
    { name := "ResolverConfig"
      fields := [field "assignable_fallback" bool, field "comment_member_prefixes" (list text)]
      allowsUnknown := false }
    fun v => do
      let default : ResolverSettings := {}
      let assignableFallback ← v.optional "assignable_fallback" bool default.assignableFallback
      let commentPrefixes ←
        v.optional "comment_member_prefixes" (list text) default.commentPrefixes
      return ⟨assignableFallback, commentPrefixes⟩

def LoggingSettings.decoder : Decoder LoggingSettings :=
  RecordType.decoder
    { name := "LoggingConfig"
      fields :=
        [field "level" text, field "json" bool, field "file" (option (textCalled "path string"))]
      allowsUnknown := false }
    fun v => do
      let default : LoggingSettings := {}
      let level ← v.optional "level" text default.level
      let json ← v.optional "json" bool default.json
      let file? ← v.optional "file" (option (textCalled "path string")) default.file?
      return ⟨level, json, file?⟩

def Settings.decoder : Decoder Settings :=
  RecordType.decoder
    { name := "Settings"
      fields := [field "resolver" ResolverSettings.decoder, field "logging" LoggingSettings.decoder]
      allowsUnknown := false }
    fun v => do
      let resolver ← v.optional "resolver" ResolverSettings.decoder {}
      let logging ← v.optional "logging" LoggingSettings.decoder {}
      return ⟨resolver, logging⟩

end JvmSignature
