import JvmSignature.Proofs.Descriptor.Naming
import JvmSignature.Proofs.Signature.Declaration
import JvmSignature.Proofs.Signature.Ranking

/-!
# Erased members and their generic declarations

A class file knows the parameters and the result of a method by their erasures: a type variable
stands for its first bound, or for `java.lang.Object`, type arguments are dropped, and dots are one
more array dimension. A disassembler lists the same method with its variables, arguments and dots.

Every type of the declaration agrees with its erasure (`agree_erasure`), so the erased member has the
highest score in its generic declaration, and is found among any lines that hold it.
-/

namespace JvmSignature

/-! ## Generic types -/

/-- The element of a type in a generic declaration. -/
inductive GenericElement where
  | primitive (p : Primitive)
  /-- A class with its type arguments, if there are any. -/
  | reference (name arguments : Text)
  /-- A type variable, by its declaration. -/
  | typeVariable (p : TypeParameter)

namespace GenericElement

def name : GenericElement → Text
  | primitive p => p.name
  | reference n _ => n
  | typeVariable p => p.name

def arguments : GenericElement → Text
  | primitive _ => []
  | reference _ arguments => arguments
  | typeVariable _ => []

/-- The name without variables and arguments. -/
def erasure : GenericElement → Text
  | primitive p => p.name
  | reference n _ => n
  | typeVariable p => p.erasure

/-- Whether the name and the arguments have the shape of such, where the variables of a list are
declared. -/
def IsShaped (ps : List TypeParameter) : GenericElement → Prop
  | primitive _ => True
  | reference n arguments => IsQualifiedName n ∧ IsTypeArguments arguments
  | typeVariable p => p ∈ ps

/-- An array of the element, as it is written. -/
def written (e : GenericElement) (depth : Nat) : WrittenType := ⟨e.name, e.arguments, depth⟩

variable {e : GenericElement} {ps : List TypeParameter}

theorem IsShaped.written (h : e.IsShaped ps) (hps : ∀ p ∈ ps, p.IsShaped)
    (depth : Nat) : (e.written depth).IsShaped := by
  cases e with
  | primitive p => exact ⟨p.isIdentifier_name.isQualifiedName, Or.inl rfl⟩
  | reference n arguments => exact ⟨h.1, h.2⟩
  | typeVariable p => exact ⟨(hps p h).name.isQualifiedName, Or.inl rfl⟩

/-- **A type agrees with its erasure**, under any number of brackets. -/
theorem IsShaped.agree_erasure (h : e.IsShaped ps) (hps : ∀ p ∈ ps, p.IsShaped)
    (hnodup : (ps.map TypeParameter.name).Nodup) (depth : Nat) :
    (TypeParameter.erasures ps).agree (e.erasure ++ Descriptor.brackets depth)
      (e.name ++ Descriptor.brackets depth) = true := by
  cases e with
  | primitive p => simp [TypeVariables.agree, erasure, name]
  | reference n arguments => simp [TypeVariables.agree, erasure, name]
  | typeVariable p =>
    have hp := TypeParameter.substitute?_erasures hps hnodup h depth
    simp [TypeVariables.agree, erasure, name, hp]

end GenericElement

/-- A type in a generic declaration. -/
structure GenericType where
  element : GenericElement
  depth : Nat

/-- A parameter in a generic declaration. -/
structure GenericParam where
  element : GenericElement
  depth : Nat
  /-- Whether dots stand at the end. -/
  dots : Bool

def GenericType.written (t : GenericType) : WrittenType := t.element.written t.depth

/-- The erased type, by its name. -/
def GenericType.erasure (t : GenericType) : Text := t.element.erasure ++ Descriptor.brackets t.depth

def GenericParam.written (p : GenericParam) : WrittenParam := ⟨p.element.written p.depth, p.dots⟩

/-- The erased type of a parameter, by its name. -/
def GenericParam.erasure (p : GenericParam) : Text :=
  p.element.erasure ++ Descriptor.brackets (p.depth + p.dots.toNat)

/-! ## Generic declarations -/

/-- The declaration of a method with type variables. -/
structure GenericDeclaration where
  modifiers : List Text
  typeParameters : List TypeParameter
  /-- The return type; constructors have none. -/
  returnType? : Option GenericType
  name : Text
  params : List GenericParam
  /-- What follows the parameters, such as a semicolon. -/
  rest : Text

namespace GenericDeclaration

/-- The declaration as it is written. -/
def written (d : GenericDeclaration) : WrittenDeclaration where
  modifiers := d.modifiers
  typeParameters := d.typeParameters
  returnType? := d.returnType?.map GenericType.written
  name := d.name
  params := d.params.map GenericParam.written
  rest := d.rest

/-- The member that a class file has for a declaration. -/
def member (d : GenericDeclaration) (className : Text) (isVarargs : Bool) : Member where
  className := className
  name := d.name
  modifier := Declaration.bits d.modifiers
  paramTypes := d.params.map GenericParam.erasure
  returnType := (d.returnType?.map GenericType.erasure).getD "void".toList
  isVarargs := isVarargs

/-- Whether the parts of a declaration in a class have the shape of such, and it mentions only the
variables that it declares. -/
structure IsShaped (className : Text) (d : GenericDeclaration) : Prop where
  modifiers : ∀ w ∈ d.modifiers, Declaration.IsModifier w
  typeParameters : ∀ p ∈ d.typeParameters, p.IsShaped
  nodup : (d.typeParameters.map TypeParameter.name).Nodup
  returnType : ∀ t, d.returnType? = some t →
    t.element.IsShaped d.typeParameters ∧ ¬ Declaration.IsModifier t.element.name
  /-- A method has a simple name, a constructor that of its class. -/
  name : IsIdentifier d.name ∨ d.name = className ∧ IsQualifiedName className
  constructor : d.returnType? = none → ¬ Declaration.IsModifier d.name
  params : ∀ p ∈ d.params, p.element.IsShaped d.typeParameters
  rest : ')' ∉ d.rest

variable {d : GenericDeclaration} {className : Text}

theorem IsShaped.isQualifiedName (h : d.IsShaped className) : IsQualifiedName d.name := by
  rcases h.name with hname | ⟨hname, hclass⟩
  · exact hname.isQualifiedName
  · rw [hname]
    exact hclass

theorem IsShaped.written (h : d.IsShaped className) : d.written.IsShaped where
  modifiers := h.modifiers
  typeParameters := h.typeParameters
  returnType t ht := by
    obtain ⟨t, hr, rfl⟩ := Option.map_eq_some_iff.mp ht
    obtain ⟨htype, hmodifier⟩ := h.returnType t hr
    exact ⟨htype.written h.typeParameters t.depth, hmodifier⟩
  name := h.isQualifiedName
  constructor hr := h.constructor (Option.map_eq_none_iff.mp hr)
  params p hp := by
    obtain ⟨p, hm, rfl⟩ := List.mem_map.mp hp
    exact (h.params p hm).written h.typeParameters p.depth
  rest := h.rest

/-- A declaration is read with the name of its member. -/
theorem IsShaped.memberName (h : d.IsShaped className) :
    declaredName className (Declaration.memberName className d.name) = d.name :=
  Declaration.declaredName_memberName h.name

/-- The return type agrees with its erasure. -/
theorem IsShaped.agree_returnType (h : d.IsShaped className) (isVarargs : Bool) :
    (d.written.parts className).typeVariables.agree (d.member className isVarargs).returnType
      (d.written.parts className).returnType = true := by
  unfold member WrittenDeclaration.parts GenericDeclaration.written
  cases hr : d.returnType? with
  | none => simp [TypeVariables.agree]
  | some t =>
    exact (h.returnType t hr).1.agree_erasure h.typeParameters h.nodup t.depth

/-- Each parameter agrees with its erasure. -/
theorem IsShaped.agree_params (h : d.IsShaped className) (isVarargs : Bool) :
    List.Forall₂
      (fun known declared => (d.written.parts className).typeVariables.agree known declared = true)
      (d.member className isVarargs).paramTypes (d.written.parts className).paramTypes := by
  have hread : (d.written.parts className).paramTypes =
      d.params.map fun p => p.written.read := List.map_map
  rw [hread, member, List.forall₂_map_left_iff, List.forall₂_map_right_iff, List.forall₂_same]
  intro p hp
  exact (h.params p hp).agree_erasure h.typeParameters h.nodup (p.depth + p.dots.toNat)

/-- **The erased member has the highest score in its generic declaration.** -/
theorem IsShaped.lineScore_member (h : d.IsShaped className) (isVarargs : Bool)
    (hplain : d.written.text.IsUnescaped) {line : Text}
    (hline : Text.IsEscapeOf line d.written.text) :
    (d.member className isVarargs).lineScore line = d.params.length + 1 := by
  have hname : d.name <:+: line := by
    refine hline.occurs d.written.name_infix_text ?_ ?_
    · exact h.isQualifiedName.not_mem (by decide)
    · exact h.isQualifiedName.not_mem (by decide)
  have hlength : (d.member className isVarargs).paramTypes.length = d.params.length :=
    List.length_map _
  rw [← hlength]
  exact Member.lineScore_of_agree hname (h.written.parts?_text className hplain hline)
    h.memberName rfl
    (h.agree_params isVarargs) (h.agree_returnType isVarargs)

/--
**The erased member finds its generic declaration.** Among any lines that hold the declaration, with
its angle brackets escaped or not, the member gets the highest score there is. The line that wins has
this score and is the first to have it, so it does not stand behind the declaration.
-/
theorem IsShaped.bestLine_member (h : d.IsShaped className) (isVarargs : Bool)
    (hplain : d.written.text.IsUnescaped) {line : Text}
    (hline : Text.IsEscapeOf line d.written.text) {lines : List Text} (hm : line ∈ lines) :
    let m := d.member className isVarargs
    (m.bestLine lines).score = d.params.length + 1 ∧ m.lineScore line = d.params.length + 1 ∧
      (∃ first, lines[(m.bestLine lines).index]? = some first ∧
        m.lineScore first = d.params.length + 1) ∧
      ∀ i l, lines[i]? = some l → m.lineScore l = d.params.length + 1 →
        (m.bestLine lines).index ≤ i := by
  intro m
  have hlength : m.paramTypes.length = d.params.length := List.length_map _
  have hfull : m.lineScore line = d.params.length + 1 := h.lineScore_member isVarargs hplain hline
  rw [← hlength] at hfull ⊢
  obtain ⟨hscore, hfirst, hindex⟩ := Member.bestLine_of_full hm hfull
  exact ⟨hscore, hfull, hfirst, hindex⟩

/-- A method with nested bounds and arguments, and an escaped line. -/
theorem IsShaped.bestLine_member_comparing :
    let k : TypeParameter := ⟨"K".toList, [⟨"java.lang.Comparable".toList, "<? super K>".toList, 0⟩,
      ⟨"java.io.Serializable".toList, [], 0⟩]⟩
    let v : TypeParameter := ⟨"V".toList, []⟩
    let d : GenericDeclaration :=
      { modifiers := ["public".toList, "static".toList]
        typeParameters := [k, v]
        returnType? := some ⟨.reference "java.util.Comparator".toList
          "<java.util.Map$Entry<K, V>>".toList, 0⟩
        name := "comparing".toList
        params := [⟨.typeVariable k, 1, false⟩,
          ⟨.reference "java.util.List".toList "<? extends V>".toList, 0, false⟩,
          ⟨.typeVariable v, 0, true⟩]
        rest := [';'] }
    let line := "public static &lt;K extends java.lang.Comparable&lt;? super K&gt; & ".toList ++
      "java.io.Serializable, V&gt; java.util.Comparator&lt;java.util.Map$Entry&lt;K, ".toList ++
      "V&gt;&gt; comparing(K[], java.util.List&lt;? extends V&gt;, V...);".toList
    let m : Member := ⟨"a.B".toList, "comparing".toList, 0x0009,
      ["java.lang.Comparable[]".toList, "java.util.List".toList, "java.lang.Object[]".toList],
      "java.util.Comparator".toList, true⟩
    d.IsShaped "a.B".toList ∧ d.written.text.IsUnescaped ∧ Text.IsEscapeOf line d.written.text ∧
      d.member "a.B".toList true = m ∧
      (m.bestLine ["public void comparing();".toList, line]).score = 4 ∧
      (m.bestLine ["public void comparing();".toList, line]).index ≤ 1 := by
  intro k v d line m
  have flat : ∀ s : Text, (s.all fun c => decide (c ∉ "<>(".toList)) = true → IsNested s :=
    fun s hs => isNested_of_forall (forall_mem_of_all hs)
  have hd : d.IsShaped "a.B".toList := by
    refine ⟨by decide, ?_, by decide, ?_, Or.inl (by decide +kernel), by decide, ?_, by decide⟩
    · intro p hp
      rcases List.mem_pair.mp hp with rfl | rfl
      · refine ⟨by decide +kernel, fun b hb => ?_⟩
        rcases List.mem_pair.mp hb with rfl | rfl
        · exact ⟨by decide +kernel, Or.inr ⟨"? super K".toList, by decide, flat _ (by decide)⟩⟩
        · exact ⟨by decide +kernel, Or.inl rfl⟩
      · exact ⟨by decide +kernel, fun b hb => by cases hb⟩
    · intro t ht
      obtain rfl := Option.some.inj ht
      have hentry := (flat "java.util.Map$Entry".toList (by decide)).append
        (flat "K, V".toList (by decide)).group
      exact ⟨⟨by decide +kernel, Or.inr ⟨_, by decide, hentry⟩⟩, by decide⟩
    · intro p hp
      rcases List.mem_cons.mp hp with rfl | hp
      · exact List.mem_cons_self
      rcases List.mem_pair.mp hp with rfl | rfl
      · exact ⟨by decide +kernel, Or.inr ⟨"? extends V".toList, by decide, flat _ (by decide)⟩⟩
      · exact List.mem_cons_of_mem _ List.mem_cons_self
  have hplain : d.written.text.IsUnescaped := by decide +kernel
  have hline : Text.IsEscapeOf line d.written.text := by
    have hescaped : line = Text.escapeAngles d.written.text := by decide +kernel
    rw [hescaped]
    exact Text.isEscapeOf_escapeAngles _
  have hm : d.member "a.B".toList true = m := by decide
  have hmem : line ∈ ["public void comparing();".toList, line] := by simp
  obtain ⟨hscore, hfull, -, hindex⟩ := IsShaped.bestLine_member hd true hplain hline hmem
  rw [hm] at hscore hfull hindex
  exact ⟨hd, hplain, hline, hm, hscore, hindex 1 line rfl hfull⟩

end GenericDeclaration

end JvmSignature
