import JvmSignature.ClassTable.Subtyping

/-!
# Platform classes

A small part of the class library of the platform, enough to resolve the types that almost every
signature mentions.
-/

namespace JvmSignature

namespace Platform

open AccessFlags

/-- A public class below `java.lang.Object`. -/
def publicClass (name : String) (interfaces : List String) (methods : List MethodStub) :
    ClassStub :=
  ⟨name.toList, publicFlag, some objectName, interfaces.map String.toList, methods⟩

/-- A public interface without methods. -/
def publicInterface (name : String) (interfaces : List String) : ClassStub :=
  ⟨name.toList, publicFlag ||| interfaceFlag ||| abstractFlag, none,
    interfaces.map String.toList, []⟩

/-- A method, by its name, its descriptor and its flags. -/
def method (name descriptor : String) (flags : AccessFlags) : MethodStub :=
  ⟨name.toList, descriptor.toList, flags⟩

def object : ClassStub :=
  { publicClass "java.lang.Object" []
      [method "<init>" "()V" publicFlag,
       method "hashCode" "()I" publicFlag,
       method "equals" "(Ljava/lang/Object;)Z" publicFlag,
       method "toString" "()Ljava/lang/String;" publicFlag] with
    superName? := none }

def string : ClassStub :=
  publicClass "java.lang.String"
    ["java.io.Serializable", "java.lang.Comparable", "java.lang.CharSequence"]
    [method "<init>" "([C)V" publicFlag,
     method "length" "()I" publicFlag,
     method "charAt" "(I)C" publicFlag,
     method "valueOf" "(I)Ljava/lang/String;" (publicFlag ||| staticFlag),
     method "valueOf" "(Ljava/lang/Object;)Ljava/lang/String;" (publicFlag ||| staticFlag),
     method "format" "(Ljava/lang/String;[Ljava/lang/Object;)Ljava/lang/String;"
       (publicFlag ||| staticFlag ||| varargsFlag)]

def integer : ClassStub :=
  { publicClass "java.lang.Integer" ["java.lang.Comparable"]
      [method "valueOf" "(I)Ljava/lang/Integer;" (publicFlag ||| staticFlag),
       method "parseInt" "(Ljava/lang/String;)I" (publicFlag ||| staticFlag),
       method "intValue" "()I" publicFlag] with
    superName? := some "java.lang.Number".toList }

def arrayList : ClassStub :=
  { publicClass "java.util.ArrayList"
      ["java.util.List", "java.lang.Cloneable", "java.io.Serializable"]
      [method "<init>" "()V" publicFlag,
       method "<init>" "(I)V" publicFlag,
       method "add" "(Ljava/lang/Object;)Z" publicFlag,
       method "add" "(ILjava/lang/Object;)V" publicFlag,
       method "size" "()I" publicFlag] with
    superName? := some "java.util.AbstractList".toList }

def arrays : ClassStub :=
  publicClass "java.util.Arrays" []
    [method "copyOf" "([Ljava/lang/Object;ILjava/lang/Class;)[Ljava/lang/Object;"
       (publicFlag ||| staticFlag),
     method "copyOf" "([II)[I" (publicFlag ||| staticFlag),
     method "asList" "([Ljava/lang/Object;)Ljava/util/List;"
       (publicFlag ||| staticFlag ||| varargsFlag)]

/-- The platform classes. -/
def classes : List ClassStub :=
  [object,
   publicInterface "java.lang.Cloneable" [],
   publicInterface "java.io.Serializable" [],
   publicInterface "java.lang.CharSequence" [],
   publicInterface "java.lang.Comparable" [],
   string,
   publicClass "java.lang.Number" ["java.io.Serializable"] [],
   integer,
   publicClass "java.lang.Class" [] [],
   publicInterface "java.util.Collection" [],
   publicInterface "java.util.List" ["java.util.Collection"],
   publicClass "java.util.AbstractList" ["java.util.List"] [],
   arrayList,
   arrays]

end Platform

/-- The table of the platform classes. -/
def ClassTable.platform : ClassTable := ⟨Platform.classes⟩

end JvmSignature
