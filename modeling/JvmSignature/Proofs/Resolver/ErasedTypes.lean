import JvmSignature.ClassTable.Platform
import JvmSignature.Proofs.Registry.Effect
import JvmSignature.Proofs.Resolver.SelfLookup
import JvmSignature.Proofs.Signature.Declaration
import Mathlib.Data.Fintype.EquivFin
import Mathlib.Data.Fintype.Sets
import Mathlib.Logic.Relation

/-!
# Erased types

The erasure of a type variable is that of its first bound, which may be a variable again; a variable
without bounds erases to `java.lang.Object`, and any other type to itself (`ErasesTo`). Before the
types of a declaration are resolved, each variable is replaced once, by its first bound as it is
written.

So the erasures come out where no type of the declaration is a variable that is bounded by another
one, and nowhere else (`IsMemberOf.resolveParts_erasure_iff`). Otherwise the bound is asked for, a
variable that the declaration itself declares.
-/

namespace JvmSignature

open Descriptor (brackets)

/-! ## Lists that are related item by item -/

section Lists

variable {α β : Type} {R S : α → β → Prop} {P : α → Prop} {as : List α} {bs : List β}

theorem exists_forall₂ (h : ∀ a ∈ as, ∃ b, R a b) : ∃ bs, List.Forall₂ R as bs := by
  induction as with
  | nil => exact ⟨[], .nil⟩
  | cons a as ih =>
    obtain ⟨⟨b, hb⟩, hrest⟩ := List.forall_mem_cons.mp h
    obtain ⟨bs, hbs⟩ := ih hrest
    exact ⟨b :: bs, .cons hb hbs⟩

theorem exists_of_forall₂ (h : List.Forall₂ R as bs) {a : α} (ha : a ∈ as) : ∃ b ∈ bs, R a b := by
  induction h with
  | nil => cases ha
  | cons hab _ ih =>
    rcases List.mem_cons.mp ha with rfl | ha
    · exact ⟨_, List.mem_cons_self, hab⟩
    · obtain ⟨b, hb, hR⟩ := ih ha
      exact ⟨b, List.mem_cons_of_mem _ hb, hR⟩

/-- Where a relation is a question about its first argument, it is one about the first list. -/
theorem forall₂_iff_forall (h : List.Forall₂ R as bs) (hR : ∀ a b, R a b → (S a b ↔ P a)) :
    List.Forall₂ S as bs ↔ ∀ a ∈ as, P a := by
  induction h with
  | nil => simp
  | cons hab _ ih => rw [List.forall₂_cons, List.forall_mem_cons, hR _ _ hab, ih]

end Lists

/-! ## The erasure of a type -/

namespace TypeParameter

/-- What the name of a type erases to, where the variables of a list are declared. -/
inductive ErasesTo (ps : List TypeParameter) : Text → Element → Prop
  /-- A primitive type or a class, which bears the name of no variable. -/
  | element {e : Element} : e.IsNamed → e.name ∉ ps.map name → ErasesTo ps e.name e
  | unbounded {p : TypeParameter} : p ∈ ps → p.bounds = [] →
      ErasesTo ps p.name (.reference objectName)
  | bounded {p : TypeParameter} {b : WrittenType} {bs : List WrittenType} {e : Element} :
      p ∈ ps → p.bounds = b :: bs → ErasesTo ps b.name e → ErasesTo ps p.name e

/-- Whether a name is that of the first bound of a variable. -/
def IsFirstBound (ps : List TypeParameter) (boundName variableName : Text) : Prop :=
  ∃ p ∈ ps, ∃ b bs, p.name = variableName ∧ p.bounds = b :: bs ∧ b.name = boundName

/-- Whether a name is that of a variable whose first bound is a variable of the same list. -/
def IsChained (ps : List TypeParameter) (n : Text) : Prop :=
  ∃ q ∈ ps, IsFirstBound ps q.name n

/-- Whether a variable is not called like a primitive type, and its first bound is no array. -/
structure IsPlain (p : TypeParameter) : Prop where
  name : Primitive.ofName? p.name = none
  bound : ∀ b, p.bounds.head? = some b → b.depth = 0

/-- Whether a list declares distinct variables with bounds. -/
structure IsVariableList (ps : List TypeParameter) : Prop where
  shaped : ∀ p ∈ ps, p.IsShaped
  plain : ∀ p ∈ ps, p.IsPlain
  nodup : (ps.map name).Nodup

variable {ps : List TypeParameter} {n : Text} {e : Element}

theorem isClassName_objectName : IsClassName objectName := by decide +kernel

/-- A variable could be a class by its name. -/
theorem IsVariableList.isClassName (hps : IsVariableList ps) {p : TypeParameter} (hp : p ∈ ps) :
    IsClassName p.name :=
  ⟨(hps.shaped p hp).name.isQualifiedName, (hps.plain p hp).name⟩

theorem ErasesTo.isNamed (h : ErasesTo ps n e) : e.IsNamed := by
  induction h with
  | element he _ => exact he
  | unbounded _ _ => exact isClassName_objectName
  | bounded _ _ _ ih => exact ih

/-- **No type erases to a variable.** -/
theorem ErasesTo.name_notMem (hps : IsVariableList ps) (h : ErasesTo ps n e) :
    e.name ∉ ps.map TypeParameter.name := by
  induction h with
  | element _ he => exact he
  | unbounded _ _ =>
    intro hm
    obtain ⟨p, hp, hname⟩ := List.mem_map.mp hm
    have hdot : '.' ∈ p.name := by
      rw [hname]
      decide
    exact (hps.shaped p hp).name.not_mem (by decide) hdot
  | bounded _ _ _ ih => exact ih

/-- A type that is no variable erases to itself. -/
theorem ErasesTo.name_eq (h : ErasesTo ps n e) (hn : n ∉ ps.map TypeParameter.name) :
    e.name = n := by
  cases h with
  | element _ _ => rfl
  | unbounded hp _ => exact absurd (List.mem_map_of_mem hp) hn
  | bounded hp _ _ => exact absurd (List.mem_map_of_mem hp) hn

/-- In a list without cycles the variables can be gone through from the bounds up. -/
theorem wellFounded_isFirstBound (h : ∀ n, ¬ Relation.TransGen (IsFirstBound ps) n n) :
    WellFounded fun n m : {n // n ∈ ps.map name} => IsFirstBound ps n m := by
  have hwf : WellFounded fun n m : {n // n ∈ ps.map name} =>
      Relation.TransGen (IsFirstBound ps) n m := by
    have : IsTrans {n // n ∈ ps.map name} fun n m => Relation.TransGen (IsFirstBound ps) n m :=
      ⟨fun _ _ _ => Relation.TransGen.trans⟩
    have : Std.Irrefl fun n m : {n // n ∈ ps.map name} =>
        Relation.TransGen (IsFirstBound ps) n m := ⟨fun n => h n⟩
    exact Finite.wellFounded_of_trans_of_irrefl _
  exact Subrelation.wf Relation.TransGen.single hwf

/-- A list has no cycles where each variable has a higher rank than its first bound. -/
theorem not_transGen_of_rank (rank : Text → Nat)
    (h : ∀ n m, IsFirstBound ps n m → rank n < rank m) (n : Text) :
    ¬ Relation.TransGen (IsFirstBound ps) n n := by
  intro hn
  have hrank : Relation.TransGen (· < ·) (rank n) (rank n) := hn.lift rank h
  rw [Relation.transGen_eq_self] at hrank
  exact lt_irrefl _ hrank

/-- **In a list without cycles every variable has an erasure**, a class that is a bound or
`java.lang.Object`. -/
theorem exists_erasesTo (known : Text → Prop)
    (hobject : (∃ p ∈ ps, p.bounds = []) → known objectName)
    (hacyclic : ∀ n, ¬ Relation.TransGen (IsFirstBound ps) n n)
    (hbounds : ∀ n m, IsFirstBound ps n m → n ∈ ps.map name ∨ IsClassName n ∧ known n)
    (hn : n ∈ ps.map name) : ∃ c, ErasesTo ps n (.reference c) ∧ known c := by
  suffices hall : ∀ m : {n // n ∈ ps.map name}, ∃ c, ErasesTo ps m (.reference c) ∧ known c from
    hall ⟨n, hn⟩
  intro m
  induction m using (wellFounded_isFirstBound hacyclic).induction with
  | _ m ih =>
    obtain ⟨p, hp, hname⟩ := List.mem_map.mp m.2
    rw [← hname]
    cases hb : p.bounds with
    | nil => exact ⟨objectName, .unbounded hp hb, hobject ⟨p, hp, hb⟩⟩
    | cons b bs =>
      have hfirst : IsFirstBound ps b.name m := ⟨p, hp, b, bs, hname, hb, rfl⟩
      by_cases hvariable : b.name ∈ ps.map name
      · obtain ⟨c, hc, hknown⟩ := ih ⟨b.name, hvariable⟩ hfirst
        exact ⟨c, .bounded hp hb hc, hknown⟩
      · obtain ⟨hclass, hknown⟩ := (hbounds _ _ hfirst).resolve_left hvariable
        have hitself : ErasesTo ps b.name (.reference b.name) :=
          .element (e := .reference b.name) hclass hvariable
        exact ⟨b.name, .bounded hp hb hitself, hknown⟩

/-! ## One replacement -/

/-- A type that is no variable is not replaced. -/
theorem IsVariableList.substitute_of_notMem (hps : IsVariableList ps) (hn : n ∉ ps.map name)
    (hbracket : '[' ∉ n) (depth : Nat) :
    (erasures ps).substitute (n ++ brackets depth) = n ++ brackets depth := by
  have hfind : (erasures ps).find? n = none := by
    rw [← Option.not_isSome_iff_eq_none, Table.find?_isSome_iff, Table.keys,
      entries_erasures hps.nodup, List.map_map]
    exact hn
  rw [TypeVariables.substitute, TypeVariables.substitute?, TypeText.beforeBrackets_append hbracket,
    hfind]
  rfl

/-- A variable is replaced by its first bound. -/
theorem IsVariableList.substitute_name (hps : IsVariableList ps) {p : TypeParameter} (hp : p ∈ ps)
    (depth : Nat) :
    (erasures ps).substitute (p.name ++ brackets depth) = p.erasure ++ brackets depth := by
  rw [TypeVariables.substitute, substitute?_erasures hps.shaped hps.nodup hp]
  rfl

theorem IsPlain.erasure_eq {p : TypeParameter} (h : p.IsPlain) {b : WrittenType}
    {bs : List WrittenType} (hb : p.bounds = b :: bs) : p.erasure = b.name := by
  have hdepth : b.depth = 0 := h.bound b (by rw [hb]; rfl)
  simp [erasure, hb, WrittenType.read, hdepth, brackets]

/-- **One replacement gives the erasure** of a type that is not chained. -/
theorem ErasesTo.substitute (hps : IsVariableList ps) (h : ErasesTo ps n e)
    (hn : ¬ IsChained ps n) (depth : Nat) :
    (erasures ps).substitute (n ++ brackets depth) = e.name ++ brackets depth := by
  cases h with
  | element he hnot =>
    have hbracket : '[' ∉ e.name := (Element.isQualifiedName_name he).not_mem (by decide)
    exact hps.substitute_of_notMem hnot hbracket depth
  | unbounded hp hb =>
    rw [hps.substitute_name hp, erasure, hb]
    rfl
  | @bounded p b bs _ hp hb hbound =>
    have hnot : b.name ∉ ps.map TypeParameter.name := by
      intro hm
      obtain ⟨q, hq, hname⟩ := List.mem_map.mp hm
      exact hn ⟨q, hq, p, hp, b, bs, rfl, hb, hname.symm⟩
    rw [hps.substitute_name hp, (hps.plain p hp).erasure_eq hb, hbound.name_eq hnot]

/-- **One replacement gives a variable** for a type that is chained. -/
theorem IsChained.substitute (hps : IsVariableList ps) (h : IsChained ps n) :
    ∃ q ∈ ps, ∀ depth,
      (erasures ps).substitute (n ++ brackets depth) = q.name ++ brackets depth := by
  obtain ⟨q, hq, p, hp, b, bs, rfl, hb, hname⟩ := h
  refine ⟨q, hq, fun depth => ?_⟩
  rw [hps.substitute_name hp, (hps.plain p hp).erasure_eq hb, hname]

end TypeParameter

/-! ## Resolving a type -/

open TypeParameter (ErasesTo IsChained IsVariableList erasures)

namespace ClassTable

variable {t : ClassTable} {ps : List TypeParameter} {w : WrittenType}

/-- Whether a written type erases to a type that a table knows, its brackets kept. -/
structure Erases (t : ClassTable) (ps : List TypeParameter) (w : WrittenType) (d : Descriptor) :
    Prop where
  element : ErasesTo ps w.name d.element
  depth : w.depth = d.depth
  knows : t.knows d = true

theorem eq_of_answer_eq_ok {d d' : Descriptor} (h : t.answer d = .ok d') : d = d' := by
  unfold answer at h
  split at h
  · exact Except.ok.inj h
  · cases h

/-- A type that is chained is asked for by the name of a variable. -/
theorem resolveErased_of_isChained (t : ClassTable) (settings : ResolverSettings)
    (hps : IsVariableList ps) (hw : IsChained ps w.name) :
    ∃ q ∈ ps, (t.resolver settings).resolveErased (erasures ps) w.read =
      t.answer ⟨.reference q.name, w.depth⟩ := by
  obtain ⟨q, hq, hsubstitute⟩ := hw.substitute hps
  refine ⟨q, hq, ?_⟩
  have hnamed : Descriptor.IsNamed ⟨.reference q.name, w.depth⟩ := hps.isClassName hq
  have htypes : (t.resolver settings).types = t.typeSystem := rfl
  have hname : q.name ++ brackets w.depth = Descriptor.name ⟨.reference q.name, w.depth⟩ := rfl
  rw [Resolver.resolveErased, WrittenType.read, hsubstitute, htypes, hname]
  exact resolveName_eq_answer hnamed (Or.inr Element.noConfusion)

/-- **A type is resolved as its erasure exactly when it is not chained.** -/
theorem Erases.resolveErased_eq_ok_iff (settings : ResolverSettings) (hps : IsVariableList ps)
    {d : Descriptor} (h : t.Erases ps w d) :
    (t.resolver settings).resolveErased (erasures ps) w.read = .ok d ↔
      ¬ IsChained ps w.name := by
  constructor
  · intro hok hw
    obtain ⟨q, hq, hanswer⟩ := resolveErased_of_isChained t settings hps hw
    rw [hanswer] at hok
    have hvariable : d.element.name = q.name := by rw [← eq_of_answer_eq_ok hok, Element.name]
    exact h.element.name_notMem hps (hvariable ▸ List.mem_map_of_mem hq)
  · intro hw
    rw [Resolver.resolveErased, WrittenType.read, h.element.substitute hps hw, h.depth]
    exact resolveName_name h.element.isNamed h.knows

end ClassTable

/-! ## Resolving a signature -/

/-- **A signature is resolved exactly when each of its types is.** -/
theorem Resolver.exists_resolveParts_iff {r : Resolver} {p : Parts} {returnType : Descriptor}
    {params : List Descriptor} :
    (∃ s, r.resolveParts p = .ok s ∧ s.params = params ∧ s.returnType = returnType) ↔
      List.Forall₂ (fun type d => r.resolveErased p.typeVariables type = .ok d)
        (p.returnType :: p.paramTypes) (returnType :: params) := by
  rw [List.forall₂_cons, ← mapM_eq_ok_iff]
  constructor
  · rintro ⟨s, hs, rfl, rfl⟩
    obtain ⟨params, returnType, hparams, hreturn, rfl⟩ := resolveParts_eq_ok_iff.mp hs
    exact ⟨hreturn, hparams⟩
  · rintro ⟨hreturn, hparams⟩
    exact ⟨_, resolveParts_eq_ok_iff.mpr ⟨_, _, hparams, hreturn, rfl⟩, rfl, rfl⟩

/-! ## Resolving a declaration -/

/-- The type of a parameter as it is read, with brackets for its dots. -/
def WrittenParam.readType (p : WrittenParam) : WrittenType :=
  ⟨p.type.name, [], p.type.depth + p.dots.toNat⟩

namespace WrittenDeclaration

/-- The return type, which is `void` for a constructor. -/
def result (d : WrittenDeclaration) : WrittenType := d.returnType?.getD ⟨"void".toList, [], 0⟩

/-- The types that a declaration mentions. -/
def types (d : WrittenDeclaration) : List WrittenType :=
  d.result :: d.params.map WrittenParam.readType

variable {t : ClassTable} {d : WrittenDeclaration} {className : Text}

theorem types_parts (d : WrittenDeclaration) (className : Text) :
    (d.parts className).returnType :: (d.parts className).paramTypes =
      d.types.map WrittenType.read := by
  have hreturn : (d.parts className).returnType = d.result.read := by
    rw [parts, result]
    cases d.returnType? with
    | none => rfl
    | some t => rfl
  have hparams : (d.parts className).paramTypes =
      (d.params.map WrittenParam.readType).map WrittenType.read := by
    rw [List.map_map]
    rfl
  rw [hreturn, hparams, types, List.map_cons]

/-- Whether the types of a declaration are primitive types, variables of a list without cycles, and
classes that a table holds. -/
structure IsErasable (t : ClassTable) (d : WrittenDeclaration) : Prop where
  plain : ∀ p ∈ d.typeParameters, p.IsPlain
  acyclic : ∀ n, ¬ Relation.TransGen (TypeParameter.IsFirstBound d.typeParameters) n n
  bounds : ∀ n m, TypeParameter.IsFirstBound d.typeParameters n m →
    n ∈ d.typeParameters.map TypeParameter.name ∨ IsClassName n ∧ t.contains n = true
  object : (∃ p ∈ d.typeParameters, p.bounds = []) → t.contains objectName = true
  types : ∀ w ∈ d.types, w.name ∈ d.typeParameters.map TypeParameter.name ∨
    ∃ e : Element, e.IsNamed ∧ e.name = w.name ∧ t.knows ⟨e, w.depth⟩ = true

theorem IsMemberOf.isVariableList (h : d.IsMemberOf className) (ht : d.IsErasable t) :
    IsVariableList d.typeParameters :=
  ⟨h.typeParameters, ht.plain, h.nodup⟩

/-- Each type of such a declaration has an erasure. -/
theorem IsErasable.exists_erases (h : d.IsErasable t) {w : WrittenType} (hw : w ∈ d.types) :
    ∃ x, t.Erases d.typeParameters w x := by
  by_cases hvariable : w.name ∈ d.typeParameters.map TypeParameter.name
  · obtain ⟨c, hc, hknown⟩ := TypeParameter.exists_erasesTo (fun c => t.contains c = true)
      h.object h.acyclic h.bounds hvariable
    exact ⟨⟨.reference c, w.depth⟩, hc, rfl, hknown⟩
  · obtain ⟨e, he, hname, hknown⟩ := (h.types w hw).resolve_left hvariable
    refine ⟨⟨e, w.depth⟩, ?_, rfl, hknown⟩
    rw [← hname] at hvariable ⊢
    exact .element he hvariable

/-- **The types of a declaration are resolved as their erasures exactly when none is chained.** -/
theorem resolveParts_eq_erasure_iff (settings : ResolverSettings)
    (hps : IsVariableList d.typeParameters) {returnType : Descriptor} {params : List Descriptor}
    (h : List.Forall₂ (t.Erases d.typeParameters) d.types (returnType :: params)) :
    (∃ s, (t.resolver settings).resolveParts (d.parts className) = .ok s ∧ s.params = params ∧
      s.returnType = returnType) ↔ ∀ w ∈ d.types, ¬ IsChained d.typeParameters w.name := by
  have hvariables : (d.parts className).typeVariables = erasures d.typeParameters := rfl
  rw [Resolver.exists_resolveParts_iff, types_parts, hvariables, List.forall₂_map_left_iff]
  exact forall₂_iff_forall h fun w x hx => hx.resolveErased_eq_ok_iff settings hps

/-- A declaration with a type that is chained is not resolved, unless a class is called like a
variable: a variable is the type that is not known. -/
theorem resolveParts_eq_error_of_isChained (settings : ResolverSettings)
    (hps : IsVariableList d.typeParameters)
    (herases : ∀ w ∈ d.types, ∃ x, t.Erases d.typeParameters w x)
    (hclasses : ∀ p ∈ d.typeParameters, t.contains p.name = false)
    (hchained : ∃ w ∈ d.types, IsChained d.typeParameters w.name) :
    ∃ p ∈ d.typeParameters, ∃ depth,
      (t.resolver settings).resolveParts (d.parts className) =
        .error (.unknownType (p.name ++ brackets depth)) := by
  have hvariables : (d.parts className).typeVariables = erasures d.typeParameters := rfl
  have hfault : ∀ w ∈ d.types, IsChained d.typeParameters w.name → ∃ p ∈ d.typeParameters,
      (t.resolver settings).resolveErased (erasures d.typeParameters) w.read =
        .error (.unknownType (p.name ++ brackets w.depth)) := by
    intro w hw hchain
    obtain ⟨q, hq, hanswer⟩ := t.resolveErased_of_isChained settings hps hchain
    have hknows : t.knows ⟨.reference q.name, w.depth⟩ = false := hclasses q hq
    exact ⟨q, hq, hanswer.trans (ClassTable.answer_of_not_knows hknows)⟩
  cases hresolve : (t.resolver settings).resolveParts (d.parts className) with
  | ok s =>
    -- Then all types are resolved, and the chained one is not.
    obtain ⟨w, hw, hchain⟩ := hchained
    obtain ⟨q, -, hq⟩ := hfault w hw hchain
    have hall := Resolver.exists_resolveParts_iff.mp ⟨s, hresolve, rfl, rfl⟩
    rw [types_parts, hvariables, List.forall₂_map_left_iff] at hall
    obtain ⟨x, -, hx⟩ := exists_of_forall₂ hall hw
    cases hq.symm.trans hx
  | error e =>
    -- The fault is that of one type, and a type that is not chained has none.
    obtain ⟨type, htype, hread⟩ := Resolver.exists_error_of_resolveParts hresolve
    rw [types_parts] at htype
    obtain ⟨w, hw, rfl⟩ := List.mem_map.mp htype
    by_cases hchain : IsChained d.typeParameters w.name
    · obtain ⟨q, hq, hfaulty⟩ := hfault w hw hchain
      exact ⟨q, hq, w.depth, congrArg _ (Except.error.inj (hread.symm.trans hfaulty))⟩
    · obtain ⟨x, hx⟩ := herases w hw
      cases hread.symm.trans ((hx.resolveErased_eq_ok_iff settings hps).mpr hchain)

/--
**Erasing by one replacement.** Where variables do not go round in a circle and a table knows the
other types, every type of a declaration has an erasure, with its brackets kept. Then:

1. All types are resolved as their erasures exactly if none is a variable that is bounded by another
   variable.
2. If one is, and no class is called like a variable, the declaration is not resolved at all. The
   type that is reported as not known is a variable which the declaration itself declares.
-/
theorem IsMemberOf.resolveParts_erasure_iff (settings : ResolverSettings)
    (h : d.IsMemberOf className) (ht : d.IsErasable t) (hplain : d.text.IsUnescaped) {line : Text}
    (hline : Text.IsEscapeOf line d.text) :
    ∃ p, Parts.ofDeclaration className line = .ok p ∧
      (∃ returnType params,
        List.Forall₂ (t.Erases d.typeParameters) d.types (returnType :: params)) ∧
      (∀ returnType params,
        List.Forall₂ (t.Erases d.typeParameters) d.types (returnType :: params) →
        ((∃ s, (t.resolver settings).resolveParts p = .ok s ∧ s.params = params ∧
          s.returnType = returnType) ↔ ∀ w ∈ d.types, ¬ IsChained d.typeParameters w.name)) ∧
      ((∃ w ∈ d.types, IsChained d.typeParameters w.name) →
        (∀ v ∈ d.typeParameters, t.contains v.name = false) →
        ∃ v ∈ d.typeParameters, ∃ depth, (t.resolver settings).resolveParts p =
          .error (.unknownType (v.name ++ brackets depth))) := by
  have hps : IsVariableList d.typeParameters := h.isVariableList ht
  have herases : ∀ w ∈ d.types, ∃ x, t.Erases d.typeParameters w x := fun w => ht.exists_erases
  refine ⟨d.parts className, ?_, ?_, ?_, ?_⟩
  · rw [Parts.ofDeclaration, h.toIsShaped.parts?_text className hplain hline]
  · obtain ⟨xs, hxs⟩ := exists_forall₂ herases
    cases xs with
    | nil => cases hxs
    | cons returnType params => exact ⟨returnType, params, hxs⟩
  · exact fun returnType params hxs => resolveParts_eq_erasure_iff settings hps hxs
  · exact fun hchained hclasses =>
      resolveParts_eq_error_of_isChained settings hps herases hclasses hchained

/-- A variable `U` that is bounded by a variable `T` erases to the bound of `T`, but a variable is
looked up for it, and not found. -/
theorem IsMemberOf.resolveParts_erasure_iff_chain :
    let t : TypeParameter := ⟨['T'], [⟨"java.lang.Object".toList, [], 0⟩]⟩
    let u : TypeParameter := ⟨['U'], [⟨['T'], [], 0⟩]⟩
    let d : WrittenDeclaration :=
      { modifiers := []
        typeParameters := [t, u]
        returnType? := some ⟨"void".toList, [], 0⟩
        name := ['f']
        params := [⟨⟨['U'], [], 0⟩, false⟩]
        rest := [] }
    let line := "<T extends java.lang.Object, U extends T> void f(U)".toList
    d.IsMemberOf ['F'] ∧ d.IsErasable .platform ∧ Text.IsEscapeOf line d.text ∧
    List.Forall₂ (ClassTable.platform.Erases [t, u]) d.types
      [.primitive .void, .reference objectName] ∧
    ∃ p, Parts.ofDeclaration ['F'] line = .ok p ∧
      (¬ ∃ s, (ClassTable.platform.resolver {}).resolveParts p = .ok s ∧
        s.params = [.reference objectName] ∧ s.returnType = .primitive .void) ∧
      ∃ v ∈ [t, u], ∃ depth, (ClassTable.platform.resolver {}).resolveParts p =
        .error (.unknownType (v.name ++ brackets depth)) := by
  intro t u d line
  have hnone : ∀ n : Text, IsQualifiedName n → WrittenType.IsShaped ⟨n, [], 0⟩ :=
    fun n hn => ⟨hn, Or.inl rfl⟩
  have hd : d.IsMemberOf ['F'] :=
    { modifiers := by simp [d]
      typeParameters := by
        intro p hp
        rcases List.mem_pair.mp hp with rfl | rfl
        · exact ⟨by decide +kernel, by simpa [t] using hnone _ (by decide +kernel)⟩
        · exact ⟨by decide +kernel, by simpa [u] using hnone _ (by decide +kernel)⟩
      returnType := by
        intro w hw
        obtain rfl := Option.some.inj hw
        exact ⟨hnone _ (by decide +kernel), by decide⟩
      name := by decide +kernel
      constructor := by decide
      params := by
        intro p hp
        rw [List.mem_singleton.mp hp]
        exact hnone _ (by decide +kernel)
      rest := by decide
      nodup := by decide
      member := Or.inl (by decide +kernel) }
  have hbound : ∀ n m, TypeParameter.IsFirstBound d.typeParameters n m →
      n = "java.lang.Object".toList ∧ m = ['T'] ∨ n = ['T'] ∧ m = ['U'] := by
    rintro n m ⟨p, hp, b, bs, rfl, hb, rfl⟩
    rcases List.mem_pair.mp hp with rfl | rfl
    · obtain ⟨rfl, -⟩ := List.cons.inj hb
      exact Or.inl ⟨rfl, rfl⟩
    · obtain ⟨rfl, -⟩ := List.cons.inj hb
      exact Or.inr ⟨rfl, rfl⟩
  have ht : d.IsErasable .platform :=
    { plain := by
        intro p hp
        rcases List.mem_pair.mp hp with rfl | rfl
        · exact ⟨by decide, by simp [t]⟩
        · exact ⟨by decide, by simp [u]⟩
      acyclic := TypeParameter.not_transGen_of_rank (fun n => if n = ['U'] then 2 else
        if n = ['T'] then 1 else 0) fun n m h => by
          rcases hbound n m h with ⟨rfl, rfl⟩ | ⟨rfl, rfl⟩ <;> decide
      bounds := by
        intro n m h
        rcases hbound n m h with ⟨rfl, rfl⟩ | ⟨rfl, rfl⟩
        · exact Or.inr ⟨by decide +kernel, by decide +kernel⟩
        · exact Or.inl (by decide)
      object := fun _ => by decide +kernel
      types := by
        intro w hw
        rcases List.mem_pair.mp hw with rfl | rfl
        · exact Or.inr ⟨.primitive .void, trivial, by decide, by decide⟩
        · exact Or.inl (by decide) }
  have hline : Text.IsEscapeOf line d.text := by
    have hsame : line = d.text := by decide +kernel
    rw [hsame]
    exact Text.isEscapeOf_self _
  have hu : ErasesTo [t, u] ['U'] (.reference objectName) :=
    .bounded (p := u) (by simp) rfl (.bounded (p := t) (by simp) rfl
      (.element (e := .reference objectName) TypeParameter.isClassName_objectName (by decide)))
  have herased : List.Forall₂ (ClassTable.platform.Erases [t, u]) d.types
      [.primitive .void, .reference objectName] :=
    .cons ⟨.element (e := .primitive .void) trivial (by decide), rfl, by decide⟩
      (.cons ⟨hu, rfl, by decide +kernel⟩ .nil)
  have hchained : ∃ w ∈ d.types, IsChained [t, u] w.name :=
    ⟨⟨['U'], [], 0⟩, by simp [d, types, WrittenParam.readType],
      t, by simp, u, by simp, ⟨['T'], [], 0⟩, [], rfl, rfl, rfl⟩
  obtain ⟨p, hp, -, hiff, hfault⟩ :=
    hd.resolveParts_erasure_iff {} ht (by decide +kernel) hline
  refine ⟨hd, ht, hline, herased, p, hp, fun hresolved => ?_,
    hfault hchained (by decide +kernel)⟩
  obtain ⟨w, hw, hchain⟩ := hchained
  exact (hiff _ _ herased).mp hresolved w hw hchain

end WrittenDeclaration

end JvmSignature
