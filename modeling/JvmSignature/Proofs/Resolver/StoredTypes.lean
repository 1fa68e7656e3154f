import JvmSignature.Proofs.Resolver.Constructors
import JvmSignature.Proofs.Signature.TypeList

/-!
# Matching by names and by stored types

A registry keeps the types of a method, and hands out a member that keeps their names. To match a
member its types are resolved again, each from its name; the registry matches the types that it has.
For well-formed class names the two agree (`memberAccepts_registered`), except that a name is only
resolved where the class is known. The registry asks for no class: it has the types already.
-/

namespace JvmSignature

/-! ## The types that are stored -/

/-- The parameters of a declared method are field types: none is `void` or made of it. -/
theorem ClassStub.Declares.isField {c : ClassStub} {s : MethodStub} {m : Method}
    (h : c.Declares s m) {d : Descriptor} (hd : d ∈ m.params) : d.IsField := by
  obtain ⟨-, type, htype, rfl⟩ := MethodStub.method?_eq_some_iff.mp h.2
  exact (MethodDescriptor.ofText_eq_ok_iff.mp htype).2.params d hd

/-- Every method of a registry is declared by the stub that the class has. -/
theorem Step.exists_declares {r : Resolver} {history : List Step} {name : Text} {m : Method}
    (h : m ∈ (after r history).methods name) :
    ∃ c s, stub? r history name = some c ∧ c.Declares s m := by
  unfold Registry.methods at h
  cases hfind : (after r history).classes.find? name with
  | none =>
    rw [hfind] at h
    cases h
  | some methods =>
    have hcontains : (after r history).contains name = true := by
      rw [Registry.contains_eq, hfind]
      rfl
    have hafter := (find?_after hcontains).symm.trans hfind
    obtain ⟨c, hstub, rfl⟩ := Option.map_eq_some_iff.mp hafter
    rw [hfind] at h
    obtain ⟨s, hs⟩ := ClassStub.mem_declared_iff.mp h
    exact ⟨c, s, hstub, hs⟩

/-! ## Resolving the names again -/

namespace ClassTable

variable {t : ClassTable} {ds : List Descriptor}

/-- Either all types of a list are known, or the first that is not is the fault. -/
theorem answers_cases (h : ∀ d ∈ ds, d.element ≠ .primitive .void) :
    (∀ d ∈ ds, t.HoldsClass d) ∧ ds.mapM t.answer = .ok ds ∨
      ∃ before d after, ds = before ++ d :: after ∧ (∀ e ∈ before, t.HoldsClass e) ∧
        ¬ t.HoldsClass d ∧ ds.mapM t.answer = .error (.unknownType d.name) := by
  rcases holdsClass_or_first (t := t) h with hall | ⟨before, d, after, rfl, hbefore, hd⟩
  · refine Or.inl ⟨hall, answers_of_knows fun d hd => ?_⟩
    exact (knows_iff_holdsClass (h d hd)).mpr (hall d hd)
  · refine Or.inr ⟨before, d, after, rfl, hbefore, hd, answers_of_first (fun e he => ?_) ?_⟩
    · exact (knows_iff_holdsClass (h e (List.mem_append_left _ he))).mpr (hbefore e he)
    · rw [← knows_iff_holdsClass (h d (List.mem_append_right _ List.mem_cons_self))] at hd
      exact Bool.eq_false_iff.mpr hd

end ClassTable

namespace Resolver

/-- **A member is matched by the types that its names are resolved to**, and those are asked for as
the stored types themselves. -/
theorem memberAccepts_member (t : ClassTable) (loader : ClassLoader) (settings : ResolverSettings)
    {m : Method} (h : ∀ d ∈ m.params, d.IsNamed ∧ d.element ≠ .primitive .void)
    (actuals : List Descriptor) :
    let r : Resolver := ⟨t.typeSystem, loader, settings⟩
    r.memberAccepts m.member actuals = (m.params.mapM t.answer).map fun declared =>
      t.typeSystem.matchesParams m.isVarargs declared actuals .exact ||
        (settings.assignableFallback &&
          t.typeSystem.matchesParams m.isVarargs declared actuals .assignable) := by
  intro r
  have hnames : m.member.paramTypes.mapM r.types.resolveName = m.params.mapM t.answer :=
    ClassTable.resolveNames_eq_answers fun d hd => ⟨(h d hd).1, Or.inr (h d hd).2⟩
  rw [memberAccepts, hnames]
  cases m.params.mapM t.answer <;> rfl

end Resolver

/-! ## Registered methods -/

namespace Step

variable {r₀ : Resolver} {history : List Step} {name : Text} {m : Method}

/-- The stored types of a method are never made of `void`. -/
theorem not_void_of_mem_methods (h : m ∈ (after r₀ history).methods name) {d : Descriptor}
    (hd : d ∈ m.params) : d.element ≠ .primitive .void := by
  obtain ⟨c, s, -, hs⟩ := exists_declares h
  exact (hs.isField hd).not_void

/-- A registered method does not get lost: some method of its name and its return type takes its
types, whatever classes are known. -/
theorem exists_find?_of_mem_methods (h : m ∈ (after r₀ history).methods name) (ts : TypeSystem) :
    ∃ m', (after r₀ history).find? ts .exact ⟨name, m.name, m.params, m.returnType⟩ = some m' ∧
      m'.name = m.name ∧ m'.returnType = m.returnType := by
  have hanswers : m.answers ts .exact ⟨name, m.name, m.params, m.returnType⟩ = true :=
    Method.answers_exact_iff.mpr ⟨rfl, rfl, Or.inl rfl⟩
  cases hfind : (after r₀ history).find? ts .exact ⟨name, m.name, m.params, m.returnType⟩ with
  | none =>
    rw [Registry.find?, List.find?_eq_none] at hfind
    exact absurd hanswers (hfind m h)
  | some m' =>
    obtain ⟨hname, hreturn, -⟩ := Method.answers_exact_iff.mp (List.find?_some hfind)
    exact ⟨m', rfl, hname, hreturn⟩

/--
**Matching by names agrees with matching by the stored types.** Of a method that is registered after
any history, with well-formed class names in its parameters, the member is matched as follows, by
any class table and with the fallback to assignable types switched on or off:

1. If the classes of all parameters are known, there is no fault, and the member takes what the
   stored types take: equal types, or assignable ones with the fallback.
2. Otherwise the fault names the first parameter whose class is not known.

A member is matched without the registry, which is therefore left as it is; and the registry asks for
no class, so that in both cases it goes on finding a method by the stored types.
-/
theorem memberAccepts_registered (t : ClassTable) (loader : ClassLoader)
    (settings : ResolverSettings) (hm : m ∈ (after r₀ history).methods name)
    (hnamed : ∀ d ∈ m.params, d.IsNamed) (actuals : List Descriptor) :
    let r : Resolver := ⟨t.typeSystem, loader, settings⟩
    let takes := fun mode => t.typeSystem.matchesParams m.isVarargs m.params actuals mode = true
    ((∀ d ∈ m.params, t.HoldsClass d) ∧ (∃ b, r.memberAccepts m.member actuals = .ok b ∧
        (b = true ↔ takes .exact ∨ settings.assignableFallback = true ∧ takes .assignable)) ∨
      ∃ before d after, m.params = before ++ d :: after ∧ (∀ e ∈ before, t.HoldsClass e) ∧
        ¬ t.HoldsClass d ∧ r.memberAccepts m.member actuals = .error (.unknownType d.name)) ∧
    ∃ m', (after r₀ history).find? r.types .exact ⟨name, m.name, m.params, m.returnType⟩ = some m' ∧
      m'.name = m.name ∧ m'.returnType = m.returnType := by
  intro r takes
  have hparams : ∀ d ∈ m.params, d.IsNamed ∧ d.element ≠ .primitive .void := fun d hd =>
    ⟨hnamed d hd, not_void_of_mem_methods hm hd⟩
  have hmember := Resolver.memberAccepts_member t loader settings hparams actuals
  refine ⟨?_, exists_find?_of_mem_methods hm r.types⟩
  rcases ClassTable.answers_cases (t := t) fun d hd => (hparams d hd).2 with
    ⟨hall, hanswers⟩ | ⟨before, d, rest, hsplit, hbefore, hd, hanswers⟩
  · rw [hanswers] at hmember
    refine Or.inl ⟨hall, _, hmember, ?_⟩
    rw [Bool.or_eq_true, Bool.and_eq_true]
  · rw [hanswers] at hmember
    exact Or.inr ⟨before, d, rest, hsplit, hbefore, hd, hmember⟩

/-- A varargs method takes assignable types, and one with two missing classes is refused for the
first of them. -/
theorem memberAccepts_registered_platform :
    let type := fun name : String => Descriptor.reference name.toList
    let r : Resolver := ⟨ClassTable.platform.typeSystem, ClassTable.platform.loader, {}⟩
    let known : Method := ⟨"a.B".toList, ['f'], 1,
      [.primitive .int, (type "java.lang.Object").array 1], .primitive .void, true⟩
    let missing : Method := ⟨"a.B".toList, ['g'], 1,
      [type "a.Missing", (type "a.Gone").array 2], .primitive .void, false⟩
    let reg := after r [.register ⟨"a/B".toList, 1, none, [],
      [⟨['f'], "(I[Ljava/lang/Object;)V".toList, 0x81⟩,
       ⟨['g'], "(La/Missing;[[La/Gone;)V".toList, 1⟩]⟩]
    (known ∈ reg.methods "a.B".toList ∧ r.memberAccepts known.member
      [.primitive .int, type "java.lang.String", type "java.lang.Integer"] = .ok true) ∧
    missing ∈ reg.methods "a.B".toList ∧
      r.memberAccepts missing.member [] = .error (.unknownType "a.Missing".toList) := by
  intro type r known missing reg
  have hknown : known ∈ reg.methods "a.B".toList := by decide +kernel
  have hmissing : missing ∈ reg.methods "a.B".toList := by decide +kernel
  have hheld : ∀ d ∈ known.params, ClassTable.platform.HoldsClass d := by
    rintro d hd name he
    rcases List.mem_pair.mp hd with rfl | rfl
    · cases he
    · cases he
      decide +kernel
  have hgone : ¬ ClassTable.platform.HoldsClass (type "a.Missing") := fun h =>
    absurd (h _ rfl) (by decide +kernel)
  refine ⟨⟨hknown, ?_⟩, hmissing, ?_⟩
  · obtain ⟨⟨-, b, hb, htakes⟩ | ⟨before, d, rest, hsplit, -, hd, -⟩, -⟩ :=
      memberAccepts_registered ClassTable.platform ClassTable.platform.loader {} hknown
        (by decide +kernel)
        [.primitive .int, type "java.lang.String", type "java.lang.Integer"]
    · rw [hb, htakes.mpr (Or.inr ⟨rfl, by decide +kernel⟩)]
    · exact absurd (hheld d (hsplit ▸ List.mem_append_right _ List.mem_cons_self)) hd
  · obtain ⟨⟨hall, -⟩ | ⟨before, d, rest, hsplit, hbefore, -, hfault⟩, -⟩ :=
      memberAccepts_registered ClassTable.platform ClassTable.platform.loader {} hmissing
        (by decide +kernel) []
    · exact absurd (hall _ List.mem_cons_self) hgone
    · cases before with
      | nil =>
        obtain rfl : type "a.Missing" = d := (List.cons.inj hsplit).1
        exact hfault
      | cons e before =>
        obtain rfl : type "a.Missing" = e := (List.cons.inj hsplit).1
        exact absurd (hbefore _ List.mem_cons_self) hgone

end Step

end JvmSignature
