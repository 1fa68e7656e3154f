import JvmSignature.Proofs.ClassTable.Resolution
import JvmSignature.Proofs.Registry.History
import JvmSignature.Proofs.Signature.Matching
import JvmSignature.Proofs.Signature.Reference

/-!
# Looking a method up by its own signature

A class table knows the types and has the classes. A log line that names a class of it, a method and
the descriptor of that method always finds a method; this file says which one.

It is not always the method itself. Exact matching takes what a varargs parameter absorbs, and the
first method that matches is taken. So an overload with varargs that is declared before the method
*shadows* it. Such overloads are the only exception (`findLogLine_self`).
-/

namespace JvmSignature

/-! ## Well-formed tables -/

/-- Whether a class and its methods have well-formed names. -/
structure ClassStub.IsNamed (c : ClassStub) : Prop where
  binaryName : IsClassName c.binaryName
  methods : ∀ s ∈ c.methods, IsMemberName s.name ∨ s.name = initializerName
  /-- Only constructors are called like the class. -/
  constructors : ∀ s ∈ c.methods, s.name ≠ c.binaryName

/-- Whether all classes that a table has have well-formed names. -/
def ClassTable.IsNamed (t : ClassTable) : Prop := ∀ name c, t.stub? name = some c → c.IsNamed

/-- Lookups that take the types and the classes from one table. -/
def ClassTable.resolver (t : ClassTable) (settings : ResolverSettings) : Resolver :=
  ⟨t.typeSystem, t.loader, settings⟩

/-- The types that a well-formed table knows have well-formed names. -/
theorem ClassTable.IsNamed.of_knows {t : ClassTable} (h : t.IsNamed) {d : Descriptor}
    (hk : t.knows d = true) : d.IsNamed := by
  unfold Descriptor.IsNamed
  unfold ClassTable.knows at hk
  split at hk
  · next he =>
    rw [he]
    trivial
  · next he =>
    rw [he]
    trivial
  · next name he =>
    obtain ⟨c, hc⟩ := Option.isSome_iff_exists.mp hk
    have hname := (h name c hc).binaryName
    rw [ClassTable.binaryName_of_stub? hc] at hname
    rw [he]
    exact hname

/-! ## Methods of a stub -/

/-- What a stub declares, if a signature can name it. -/
theorem MethodStub.method?_eq_some_iff {className : Text} {s : MethodStub} {m : Method} :
    s.method? className = some m ↔
      s.name ≠ initializerName ∧ ∃ d, MethodDescriptor.ofText s.descriptor = .ok d ∧
        m =
          { className := className
            name := declaredName className s.name
            modifier := s.accessFlags &&& AccessFlags.modifiers
            params := d.params
            returnType := d.returnType
            isVarargs := s.accessFlags.has .varargsFlag } := by
  unfold MethodStub.method?
  by_cases hi : s.name = initializerName
  · simp [hi]
  · rw [if_neg hi]
    cases MethodDescriptor.ofText s.descriptor with
    | error e => simp
    | ok d =>
      simp only [Option.some.injEq, ne_eq, hi, not_false_eq_true, true_and, Except.ok.injEq,
        exists_eq_left']
      exact eq_comm

/-- Whether a method takes the types of another by absorbing them, and has its name and its return
type. -/
def Method.Shadows (ts : TypeSystem) (m own : Method) : Prop :=
  m.name = own.name ∧ m.returnType = own.returnType ∧ m.isVarargs = true ∧
    ts.Absorbs m.params own.params

/-- No method shadows itself. -/
theorem Method.Shadows.ne {ts : TypeSystem} {m own : Method} (h : m.Shadows ts own) : m ≠ own := by
  rintro rfl
  exact h.2.2.2.ne rfl

theorem Method.answers_exact_iff {ts : TypeSystem} {q : MethodQuery} {m : Method} :
    m.answers ts .exact q = true ↔
      m.name = q.memberName ∧ m.returnType = q.returnType ∧
        (m.params = q.params ∨ m.isVarargs = true ∧ ts.Absorbs m.params q.params) := by
  rw [Method.answers, Bool.and_eq_true, Bool.and_eq_true, decide_eq_true_eq, decide_eq_true_eq,
    TypeSystem.matchesParams_exact_iff, and_assoc]

/-- Of the methods with other types, those that answer to the query for a method shadow it. -/
theorem Method.answers_own_iff {ts : TypeSystem} {m own : Method} {className : Text}
    (h : m.name = own.name → m.returnType = own.returnType → m.params ≠ own.params) :
    m.answers ts .exact ⟨className, own.name, own.params, own.returnType⟩ = true ↔
      m.Shadows ts own := by
  rw [Method.answers_exact_iff]
  constructor
  · rintro ⟨hname, hreturn, hparams | habsorbs⟩
    · exact absurd hparams (h hname hreturn)
    · exact ⟨hname, hreturn, habsorbs⟩
  · rintro ⟨hname, hreturn, habsorbs⟩
    exact ⟨hname, hreturn, Or.inr habsorbs⟩

/-- Two names are declared under one name if they are the same, or one is that of constructors and
the other that of the class. -/
theorem declaredName_eq_iff {className a b : Text} :
    declaredName className a = declaredName className b ↔
      a = b ∨ (a = constructorName ∧ b = className) ∨ (a = className ∧ b = constructorName) := by
  rw [declaredName, declaredName]
  by_cases ha : a = constructorName
  · by_cases hb : b = constructorName
    · simp [ha, hb]
    · rw [if_pos ha, if_neg hb]
      constructor
      · exact fun h => Or.inr (Or.inl ⟨ha, h.symm⟩)
      · rintro (rfl | ⟨-, h⟩ | ⟨-, h⟩)
        · exact absurd ha hb
        · exact h.symm
        · exact absurd h hb
  · by_cases hb : b = constructorName
    · rw [if_neg ha, if_pos hb]
      constructor
      · exact fun h => Or.inr (Or.inr ⟨h, hb⟩)
      · rintro (rfl | ⟨h, -⟩ | ⟨h, -⟩)
        · exact absurd hb ha
        · exact absurd h ha
        · exact h
    · simp [ha, hb]

/-- Two stubs that declare the same name have the same name, if only constructors are called like
the class. -/
theorem MethodStub.name_eq_of_declaredName {className : Text} {a b : MethodStub}
    (ha : a.name ≠ className) (hb : b.name ≠ className)
    (h : declaredName className a.name = declaredName className b.name) : a.name = b.name := by
  rcases declaredName_eq_iff.mp h with hname | ⟨-, hclass⟩ | ⟨hclass, -⟩
  · exact hname
  · exact absurd hclass hb
  · exact absurd hclass ha

/-! ## The lookup -/

theorem Resolver.resolveErased_empty (r : Resolver) :
    r.resolveErased Table.empty = r.types.resolveName := by
  funext type
  rw [resolveErased, TypeVariables.substitute, TypeVariables.substitute?, Table.find?_empty]
  rfl

/-- The known types of a reference are resolved. -/
theorem ClassTable.resolveParts_eq {t : ClassTable} (ht : t.IsNamed) (settings : ResolverSettings)
    {ref : MemberReference} (h : ref.IsNamed) (hparams : ∀ d ∈ ref.type.params, t.knows d = true)
    (hreturn : t.knows ref.type.returnType = true) :
    ∃ s, (t.resolver settings).resolveParts ref.parts = .ok s ∧
      s.query = ⟨ref.className, declaredName ref.className ref.memberName, ref.type.params,
        ref.type.returnType⟩ := by
  have hps : (ref.type.params.map Descriptor.name).mapM t.typeSystem.resolveName =
      .ok ref.type.params :=
    resolveNames_names (fun d hd => ht.of_knows (hparams d hd)) hparams
  have hret : t.typeSystem.resolveName ref.type.returnType.name = .ok ref.type.returnType :=
    resolveName_name (ht.of_knows hreturn) hreturn
  refine ⟨⟨ref.className, declaredName ref.className ref.memberName, 0, ref.type.params,
    ref.type.returnType, Table.empty, false⟩, ?_, rfl⟩
  have htypes : (t.resolver settings).types = t.typeSystem := rfl
  rw [Resolver.resolveParts, MemberReference.parts_eq h]
  simp only [Resolver.resolveErased_empty]
  rw [htypes, hps, hret]
  rfl

/-- The method of a table that a reference to one of its methods finds. -/
theorem Resolver.select?_eq {r : Resolver} {before after : List Method} {own : Method}
    {q : MethodQuery} (hq : own.answers r.types .exact q = true) :
    r.select? (before ++ own :: after) q =
      some ((before.find? (Method.answers r.types .exact q)).getD own) := by
  have hfind : (before ++ own :: after).find? (Method.answers r.types .exact q) =
      some ((before.find? (Method.answers r.types .exact q)).getD own) := by
    rw [List.find?_append, List.find?_cons_of_pos hq]
    cases before.find? (Method.answers r.types .exact q) <;> rfl
  rw [select?, hfind]

/-- A log line that is read as a reference to known types asks the class for them. -/
theorem ClassTable.findLogLine_eq {t : ClassTable} (ht : t.IsNamed) (settings : ResolverSettings)
    {reg : Registry} {line : Text} {ref : MemberReference} {methods : List Method}
    (hline : Parts.ofLogLine line = .ok ref.parts) (h : ref.IsNamed)
    (hparams : ∀ d ∈ ref.type.params, t.knows d = true)
    (hreturn : t.knows ref.type.returnType = true)
    (hclass : reg.available? t.loader ref.className = some methods) :
    ((t.resolver settings).findLogLine reg line).1 =
      .ok ((t.resolver settings).select? methods
        ⟨ref.className, declaredName ref.className ref.memberName, ref.type.params,
          ref.type.returnType⟩) := by
  obtain ⟨s, hs, hq⟩ := resolveParts_eq ht settings h hparams hreturn
  have hanswer : (t.resolver settings).answerParts (reg.available? t.loader) ref.parts =
      .ok ((t.resolver settings).select? methods s.query) := by
    have hname : ref.parts.className = ref.className := rfl
    rw [Resolver.answerParts, hname, hclass, hs]
    rfl
  rw [Resolver.findLogLine, Resolver.findRead_eq, hline, ← hq, ← hanswer]
  rfl

/-- The methods of a class are those before one of its stubs, the method of the stub, and those
after it. -/
theorem ClassStub.declared_eq {c : ClassStub} (hslash : '/' ∉ c.binaryName)
    {before after : List MethodStub} {s : MethodStub} (hs : c.methods = before ++ s :: after)
    {own : Method} (hown : s.method? c.binaryName = some own) :
    c.declared = before.filterMap (MethodStub.method? c.binaryName) ++
      own :: after.filterMap (MethodStub.method? c.binaryName) := by
  have hname : c.className = c.binaryName := Text.dotted_eq_self hslash
  rw [declared, hname, hs, List.filterMap_append, List.filterMap_cons_some hown]

/-- In a well-formed table a class refers to its own methods by well-formed names. -/
theorem ClassTable.IsNamed.reference {t : ClassTable} (ht : t.IsNamed) {c : ClassStub}
    (hc : c.IsNamed) {s : MethodStub} (hs : s ∈ c.methods) (hinit : s.name ≠ initializerName)
    {d : MethodDescriptor} (hd : d.IsReadable) (hparams : ∀ p ∈ d.params, t.knows p = true)
    (hreturn : t.knows d.returnType = true) :
    (⟨c.binaryName, s.name, d⟩ : MemberReference).IsNamed where
  className := hc.binaryName.1
  memberName := (hc.methods s hs).resolve_right hinit
  type :=
    { params := fun p hp => ⟨ht.of_knows (hparams p hp), hd.params p hp⟩
      returnType := ⟨ht.of_knows hreturn, hd.returnType⟩ }

/-- Of the methods of other stubs, those that answer to the query for a method shadow it. -/
theorem MethodStub.answers_own_iff {ts : TypeSystem} {className : Text} {s s' : MethodStub}
    {own m : Method} (hown : s.method? className = some own) (hm : s'.method? className = some m)
    (hs : s.name ≠ className) (hs' : s'.name ≠ className)
    (hdiff : s'.name = s.name →
      MethodDescriptor.ofText s'.descriptor ≠ MethodDescriptor.ofText s.descriptor) :
    m.answers ts .exact ⟨className, own.name, own.params, own.returnType⟩ = true ↔
      m.Shadows ts own := by
  obtain ⟨-, d, hd, rfl⟩ := method?_eq_some_iff.mp hown
  obtain ⟨-, d', hd', rfl⟩ := method?_eq_some_iff.mp hm
  refine Method.answers_own_iff fun hname hreturn hparams => ?_
  have hsame : d' = d := by
    obtain ⟨params, returnType⟩ := d
    obtain ⟨params', returnType'⟩ := d'
    obtain rfl : params' = params := hparams
    obtain rfl : returnType' = returnType := hreturn
    rfl
  exact hdiff (name_eq_of_declaredName hs' hs hname) (by rw [hd', hd, hsame])

/-- Where the methods that are accepted are those that shadow a method, the first of them is taken,
and the method itself if there are none. -/
theorem Method.first_shadow {ts : TypeSystem} {own : Method} {accept : Method → Bool}
    {methods : List Method} (h : ∀ m ∈ methods, accept m = true ↔ m.Shadows ts own) :
    ((methods.find? accept).getD own = own ∨
        (methods.find? accept).getD own ∈ methods ∧
          ((methods.find? accept).getD own).Shadows ts own) ∧
      ((methods.find? accept).getD own = own ↔ ∀ m ∈ methods, ¬ m.Shadows ts own) := by
  cases hfind : methods.find? accept with
  | none =>
    rw [Option.getD_none]
    refine ⟨Or.inl rfl, fun _ m hm hshadows => ?_, fun _ => rfl⟩
    exact List.find?_eq_none.mp hfind m hm ((h m hm).mpr hshadows)
  | some m =>
    have hm := List.mem_of_find?_eq_some hfind
    have hshadows := (h m hm).mp (List.find?_some hfind)
    rw [Option.getD_some]
    exact ⟨Or.inr ⟨hm, hshadows⟩, fun he => absurd he hshadows.ne,
      fun hnone => absurd hshadows (hnone m hm)⟩

/--
**A method is found by its own signature, unless it is shadowed.** In a well-formed table, after any
history that did not register the class, the log line of a method answers a method: the method
itself, or one that is declared before it and shadows it. It is the method itself exactly when no
method before it shadows it.

The method is the first of its name and its types, which may be written with slashes or dots.
-/
theorem ClassTable.findLogLine_self {t : ClassTable} (ht : t.IsNamed) (settings : ResolverSettings)
    {history : List Step} {c : ClassStub} (hc : t.stub? c.binaryName = some c)
    (hhistory : Step.lastRegistered? history c.binaryName = none)
    {before after : List MethodStub} {s : MethodStub} (hs : c.methods = before ++ s :: after)
    {own : Method} (hown : s.method? c.binaryName = some own)
    (hfirst : ∀ s' ∈ before, s'.name = s.name →
      MethodDescriptor.ofText s'.descriptor ≠ MethodDescriptor.ofText s.descriptor)
    {types : Text} (htypes : MethodDescriptor.ofText types = MethodDescriptor.ofText s.descriptor)
    (hparams : ∀ d ∈ own.params, t.knows d = true) (hreturn : t.knows own.returnType = true) :
    ∃ m,
      ((t.resolver settings).findLogLine (Step.after (t.resolver settings) history)
        (c.binaryName ++ ' ' :: (s.name ++ ' ' :: types))).1 = .ok (some m) ∧
      (m = own ∨ ∃ s' ∈ before, s'.method? c.binaryName = some m ∧ m.Shadows t.typeSystem own) ∧
      (m = own ↔ ∀ s' ∈ before, ∀ m', s'.method? c.binaryName = some m' →
        ¬ m'.Shadows t.typeSystem own) := by
  have hcn := ht _ c hc
  have hmem : s ∈ c.methods := by
    rw [hs]
    exact List.mem_append_right _ List.mem_cons_self
  obtain ⟨hinit, d, hd, howneq⟩ := MethodStub.method?_eq_some_iff.mp hown
  obtain ⟨hdot, hread⟩ := MethodDescriptor.ofText_eq_ok_iff.mp (htypes.trans hd)
  have hquery : (⟨c.binaryName, own.name, own.params, own.returnType⟩ : MethodQuery) =
      ⟨c.binaryName, declaredName c.binaryName s.name, d.params, d.returnType⟩ := by rw [howneq]
  rw [howneq] at hparams hreturn
  -- The line is read as the reference to the method.
  have href := ht.reference hcn hmem hinit hread hparams hreturn
  have hslash : '/' ∉ c.binaryName := hcn.binaryName.1.isTypeText.not_mem (by decide)
  have hline : Parts.ofLogLine (c.binaryName ++ ' ' :: (s.name ++ ' ' :: types)) =
      .ok (MemberReference.parts ⟨c.binaryName, s.name, d⟩) :=
    MemberReference.ofLogLine_eq_of_isWritten href
      (MethodDescriptor.isWritten_encode href.type) (Text.dotted_eq_self hslash) (Or.inl rfl) hdot
  -- The class has the methods that the table declares, and the method is among them.
  have hclass : (Step.after (t.resolver settings) history).available? t.loader c.binaryName =
      some c.declared := by
    have havailable := Step.available?_after (r := t.resolver settings) hhistory
    have hloader : (t.resolver settings).loader c.binaryName = some c := hc
    rw [hloader, Option.map_some] at havailable
    exact havailable
  rw [ClassStub.declared_eq hslash hs hown] at hclass
  have hanswer := ClassTable.findLogLine_eq ht settings hline href hparams hreturn hclass
  rw [← hquery, Resolver.select?_eq (Method.answers_exact_iff.mpr ⟨rfl, rfl, Or.inl rfl⟩)]
    at hanswer
  -- Of the methods before it, those that answer to the query are those that shadow it.
  have hshadows : ∀ m ∈ before.filterMap (MethodStub.method? c.binaryName),
      (m.answers t.typeSystem .exact ⟨c.binaryName, own.name, own.params, own.returnType⟩ = true ↔
        m.Shadows t.typeSystem own) := by
    intro m hm
    obtain ⟨s', hs', hm'⟩ := List.mem_filterMap.mp hm
    have hmem' : s' ∈ c.methods := by
      rw [hs]
      exact List.mem_append_left _ hs'
    exact MethodStub.answers_own_iff hown hm' (hcn.constructors s hmem) (hcn.constructors s' hmem')
      (hfirst s' hs')
  obtain ⟨hcases, hiff⟩ := Method.first_shadow hshadows
  refine ⟨_, hanswer, ?_, ?_⟩
  · rcases hcases with he | ⟨hm, hsh⟩
    · exact Or.inl he
    · obtain ⟨s', hs', hm'⟩ := List.mem_filterMap.mp hm
      exact Or.inr ⟨s', hs', hm', hsh⟩
  · refine hiff.trans ⟨fun h s' hs' m' hm' => ?_, fun h m hm => ?_⟩
    · exact h m' (List.mem_filterMap.mpr ⟨s', hs', hm'⟩)
    · obtain ⟨s', hs', hm'⟩ := List.mem_filterMap.mp hm
      exact h s' hs' m hm'

/-- A method that is shadowed: the lookup by its own signature finds the method before it. -/
theorem ClassTable.findLogLine_self_shadowed :
    let rival : MethodStub := ⟨['f'], "([I)V".toList, 0x0081⟩
    let s : MethodStub := ⟨['f'], "(I)V".toList, 0x0001⟩
    let c : ClassStub := ⟨"a.B".toList, 0x0001, none, [], [rival, s]⟩
    let t : ClassTable := ⟨[c]⟩
    let own : Method := ⟨"a.B".toList, ['f'], 1, [.primitive .int], .primitive .void, false⟩
    let history := [Step.lookup (.loadClass "a.B".toList)]
    t.IsNamed ∧ t.stub? c.binaryName = some c ∧
      Step.lastRegistered? history c.binaryName = none ∧ c.methods = [rival] ++ s :: [] ∧
      s.method? c.binaryName = some own ∧
      (∀ s' ∈ [rival], s'.name = s.name →
        MethodDescriptor.ofText s'.descriptor ≠ MethodDescriptor.ofText s.descriptor) ∧
      (∀ d ∈ own.params, t.knows d = true) ∧ t.knows own.returnType = true ∧
      ∃ m, ((t.resolver {}).findLogLine (Step.after (t.resolver {}) history)
          "a.B f (I)V".toList).1 = .ok (some m) ∧
        rival.method? c.binaryName = some m ∧ m ≠ own := by
  intro rival s c t own history
  have hnamed : t.IsNamed := by
    intro name c' hc'
    obtain rfl := List.mem_singleton.mp (List.mem_of_find?_eq_some hc')
    exact ⟨by decide +kernel, by decide +kernel, by decide⟩
  have hint : MethodDescriptor.ofText s.descriptor = .ok ⟨[.primitive .int], .primitive .void⟩ :=
    MethodDescriptor.ofText_eq_ok_iff.mpr ⟨by decide, by decide, by decide, by decide⟩
  have harray : MethodDescriptor.ofText rival.descriptor =
      .ok ⟨[⟨.primitive .int, 1⟩], .primitive .void⟩ :=
    MethodDescriptor.ofText_eq_ok_iff.mpr ⟨by decide, by decide, by decide, by decide⟩
  have hown : s.method? c.binaryName = some own :=
    MethodStub.method?_eq_some_iff.mpr ⟨by decide, _, hint, by decide⟩
  have hfirst : ∀ s' ∈ [rival], s'.name = s.name →
      MethodDescriptor.ofText s'.descriptor ≠ MethodDescriptor.ofText s.descriptor := by
    intro s' hs' _ he
    rw [List.mem_singleton.mp hs', harray, hint] at he
    exact absurd (Except.ok.inj he) (by decide)
  have hknown : ∀ d ∈ own.params, t.knows d = true := by decide
  have hhistory : Step.lastRegistered? history c.binaryName = none := rfl
  have hmethods : c.methods = [rival] ++ s :: [] := rfl
  obtain ⟨m, hm, hcases, hiff⟩ := ClassTable.findLogLine_self hnamed {} rfl hhistory hmethods hown
    hfirst rfl hknown rfl
  have hrival : rival.method? c.binaryName =
      some ⟨"a.B".toList, ['f'], 1, [⟨.primitive .int, 1⟩], .primitive .void, true⟩ :=
    MethodStub.method?_eq_some_iff.mpr ⟨by decide, _, harray, by decide⟩
  have hne : m ≠ own := by
    intro he
    refine hiff.mp he rival List.mem_cons_self _ hrival ⟨rfl, rfl, rfl, ?_⟩
    exact ⟨[], ⟨.primitive .int, 1⟩, [.primitive .int], rfl, rfl, by decide, by decide⟩
  obtain ⟨s', hs', hm', -⟩ := hcases.resolve_left hne
  rw [List.mem_singleton.mp hs'] at hm'
  exact ⟨hnamed, rfl, hhistory, hmethods, hown, hfirst, hknown, rfl, m, hm, hm', hne⟩

end JvmSignature
