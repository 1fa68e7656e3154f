import JvmSignature.Proofs.Resolver.Priority

/-!
# Methods and constructors

Class files name every constructor `<init>`, a class declares it under the name of the class, and a
lookup that asks for `<init>` asks for that name. So two names become one in each class
(`declaredName_eq_iff`), and which of the two a declared method was built from is not kept.

The name of a class in a package has a dot, and no name of a method has one. There nothing but
constructors is declared under the name of the class. In the default package a method that is named
like its class passes for a constructor and is found where a constructor is asked for, or the other
way round (`constructors_after`).
-/

namespace JvmSignature

/-! ## Declared methods and the stubs they are built from -/

/-- Whether a class declares a method that is built from the given stub. -/
def ClassStub.Declares (c : ClassStub) (s : MethodStub) (m : Method) : Prop :=
  s ∈ c.methods ∧ s.method? c.className = some m

/-- Whether the methods of a class that pass for constructors are those that are. -/
def ClassStub.TellsConstructors (c : ClassStub) : Prop :=
  ∀ s m, c.Declares s m → (m.member.isConstructor = true ↔ s.name = constructorName)

namespace ClassStub

variable {c : ClassStub} {s : MethodStub} {m : Method}

theorem mem_declared_iff : m ∈ c.declared ↔ ∃ s, c.Declares s m := List.mem_filterMap

/-- The name under which a class declares the method of a stub. -/
theorem Declares.name_eq (h : c.Declares s m) :
    m.className = c.className ∧ m.name = declaredName c.className s.name := by
  obtain ⟨-, d, -, rfl⟩ := MethodStub.method?_eq_some_iff.mp h.2
  exact ⟨rfl, rfl⟩

/-- A method passes for a constructor if it is one or is named like the class. -/
theorem Declares.isConstructor_iff (h : c.Declares s m) :
    m.member.isConstructor = true ↔ s.name = constructorName ∨ s.name = c.className := by
  have hmember : m.member.isConstructor = decide (m.name = m.className) := rfl
  rw [hmember, decide_eq_true_eq, h.name_eq.1, h.name_eq.2, declaredName]
  by_cases hs : s.name = constructorName
  · simp [hs]
  · simp [hs]

/-- **Constructors are told from methods exactly where no method is named like the class.** -/
theorem tellsConstructors_iff :
    c.TellsConstructors ↔
      ∀ s m, c.Declares s m → s.name = c.className → s.name = constructorName := by
  constructor
  · exact fun h s m hs hname => (h s m hs).mp (hs.isConstructor_iff.mpr (Or.inr hname))
  · intro h s m hs
    rw [hs.isConstructor_iff]
    exact ⟨fun hname => hname.elim id (h s m hs), Or.inl⟩

/-- In a package no method is named like the class. -/
theorem tellsConstructors_of_dot (hdot : '.' ∈ c.className)
    (hnames : ∀ s ∈ c.methods, '.' ∉ s.name) : c.TellsConstructors := by
  rw [tellsConstructors_iff]
  intro s m hs hname
  exact absurd (hname ▸ hdot) (hnames s hs.1)

end ClassStub

/-! ## The member that a lookup names -/

/-- The member that a comment names, without its quotes. -/
def Parts.commentToken? (comment : Text) : Option Text :=
  (comment.trim.cutAt? ':').bind fun (reference, _) =>
    ((Text.trim reference).cutAtLast? '.').map fun (_, name) => Text.unquoted name

namespace Lookup

/-- The member that a lookup names, as it is spelled. -/
def token? (r : Resolver) : Lookup → Option Text
  | logLine line =>
    (LogLine.ofLine line.trim.dotted).toOption.map fun pieces => pieces.memberName.trim
  | comment currentClass? text => Parts.commentToken? (r.commentReference currentClass? text)
  | dictionaryId dictionary id => (dictionary.method? id).map DictionaryMethod.memberName
  | loadClass _ => none

variable {r : Resolver} {l : Lookup}

/-- **Every lookup of a method asks for the name under which a class declares what is named.** -/
theorem memberName_of_parts? {p : Parts} (h : l.parts? r = some p) :
    ∃ token, l.token? r = some token ∧ p.memberName = declaredName p.className token := by
  cases l with
  | logLine line =>
    have hread := eq_ok_of_toOption h
    unfold Parts.ofLogLine at hread
    split at hread
    · next pieces hpieces =>
      cases hread
      exact ⟨pieces.memberName.trim, by rw [token?, hpieces]; rfl, rfl⟩
    · cases hread
  | comment currentClass? text =>
    have hread := eq_ok_of_toOption h
    unfold Parts.ofComment at hread
    split at hread
    · cases hread
    · next reference descriptor hcut =>
      split at hread
      · cases hread
      · next owner name hlast =>
        split at hread
        · cases hread
        · cases hread
          refine ⟨Text.unquoted name, ?_, rfl⟩
          rw [token?, Parts.commentToken?, hcut]
          simp only [Option.bind_some, hlast, Option.map_some]
  | dictionaryId dictionary id =>
    obtain ⟨s, hs, rfl⟩ := Option.map_eq_some_iff.mp h
    exact ⟨s.memberName, by rw [token?, hs]; rfl, rfl⟩
  | loadClass name => cases h

theorem isOfMethod_of_answer {available? : Text → Option (List Method)}
    {found : Except SignatureError (Option Method)} (h : l.answer r available? = .method found) :
    l.IsOfMethod := by
  cases l with
  | loadClass name => cases h
  | _ => trivial

variable {t : ClassTable} {types types₀ : TypeSystem} {settings settings₀ : ResolverSettings}
  {history : List Step}

/-- What is found was built from a stub of the name that was asked for, or else one of the two names
is that of constructors and the other that of the class. -/
theorem declares_of_found {m : Method}
    (h : (l.run ⟨types, t.loader, settings⟩
      (Step.after ⟨types₀, t.loader, settings₀⟩ history)).1 = .method (.ok (some m))) :
    ∃ p token c, l.parts? ⟨types, t.loader, settings⟩ = some p ∧
      l.token? ⟨types, t.loader, settings⟩ = some token ∧
      Step.stub? ⟨types₀, t.loader, settings₀⟩ history p.className = some c ∧
      c.className = p.className ∧ (∃ s, c.Declares s m) ∧
      ∀ s, c.Declares s m → s.name = token ∨
        (s.name = constructorName ∧ token = c.className) ∨
        (s.name = c.className ∧ token = constructorName) := by
  rw [run_eq] at h
  have hl := isOfMethod_of_answer h
  obtain ⟨p, hp, hfound⟩ := exists_parts_of_answer h
  obtain ⟨⟨methods, hclass, hm⟩, hname, -⟩ :=
    Resolver.mem_of_answerParts (typeVariables_of_parts? hp) hfound
  obtain ⟨token, htoken, hmember⟩ := memberName_of_parts? hp
  have havailable := Step.available?_after_eq ⟨types₀, t.loader, settings₀⟩ history p.className
  obtain ⟨c, hc, rfl⟩ := Option.map_eq_some_iff.mp (havailable.symm.trans hclass)
  have hcalled : c.className = p.className :=
    (Step.className_of_stub? hc).trans (Text.dotted_eq_self (slash_not_mem_of_parts? hl hp))
  refine ⟨p, token, c, hp, htoken, hc, hcalled, ClassStub.mem_declared_iff.mp hm, fun s hs => ?_⟩
  rw [← declaredName_eq_iff, ← hs.name_eq.2, hname, hmember, hcalled]

/--
**Where methods and constructors are told apart.** After any history of registrations and lookups:

1. Every class that is registered has the methods of its stub, and those that pass for constructors
   are the constructors exactly if no method is named like the class.
2. A method that is found was built, by the stub of the class that was asked for, from a stub method
   of the name that was asked for; or else one of these two names is `<init>` and the other is that
   of the class.
3. Neither exception is there in a package, where the name of the class has a dot and the names of
   methods have none.
-/
theorem constructors_after (t : ClassTable) (types types₀ : TypeSystem)
    (settings settings₀ : ResolverSettings) (history : List Step) :
    let r : Resolver := ⟨types, t.loader, settings⟩
    let r₀ : Resolver := ⟨types₀, t.loader, settings₀⟩
    let reg := Step.after r₀ history
    (∀ name methods, reg.classes.find? name = some methods →
      ∃ c, Step.stub? r₀ history name = some c ∧ c.className = name.dotted ∧
        (∀ m, m ∈ methods ↔ ∃ s, c.Declares s m) ∧
        (c.TellsConstructors ↔
          ∀ s m, c.Declares s m → s.name = c.className → s.name = constructorName)) ∧
    (∀ (l : Lookup) m, (l.run r reg).1 = .method (.ok (some m)) →
      ∃ p token c, l.parts? r = some p ∧ l.token? r = some token ∧
        Step.stub? r₀ history p.className = some c ∧ c.className = p.className ∧
        (∃ s, c.Declares s m) ∧
        ∀ s, c.Declares s m → s.name = token ∨
          (s.name = constructorName ∧ token = c.className) ∨
          (s.name = c.className ∧ token = constructorName)) ∧
    (∀ name c, Step.stub? r₀ history name = some c → '.' ∈ c.className →
      (∀ s ∈ c.methods, '.' ∉ s.name) →
      c.TellsConstructors ∧
        ∀ (l : Lookup) m p token, (l.run r reg).1 = .method (.ok (some m)) →
          l.parts? r = some p → p.className = name → l.token? r = some token → '.' ∉ token →
          ∀ s, c.Declares s m → s.name = token) := by
  intro r r₀ reg
  refine ⟨?_, fun l m h => declares_of_found h, ?_⟩
  · intro name methods hfind
    have hc : reg.contains name = true := by
      rw [Registry.contains_eq, hfind]
      rfl
    have hafter := (Step.find?_after hc).symm.trans hfind
    obtain ⟨c, hstub, rfl⟩ := Option.map_eq_some_iff.mp hafter
    exact ⟨c, hstub, Step.className_of_stub? hstub, fun m => ClassStub.mem_declared_iff,
      ClassStub.tellsConstructors_iff⟩
  · intro name c hstub hdot hnames
    refine ⟨ClassStub.tellsConstructors_of_dot hdot hnames, ?_⟩
    rintro l m p token hrun hp rfl htoken hnodot s hs
    obtain ⟨p', token', c', hp', htoken', hstub', -, -, hfound⟩ := declares_of_found hrun
    obtain rfl := Option.some.inj (hp.symm.trans hp')
    obtain rfl := Option.some.inj (htoken.symm.trans htoken')
    obtain rfl := Option.some.inj (hstub.symm.trans hstub')
    rcases hfound s hs with hname | ⟨-, hclass⟩ | ⟨hclass, -⟩
    · exact hname
    · exact absurd (hclass ▸ hdot) hnodot
    · exact absurd (hclass ▸ hdot) (hnames s hs.1)

/-- In the default package a method `B` of a class `B` passes for a constructor and is found instead
of the constructor; without it, the constructor is found where a method `B` is asked for. -/
theorem constructors_after_default_package :
    let method : MethodStub := ⟨['B'], "()V".toList, 1⟩
    let constructor : MethodStub := ⟨constructorName, "()V".toList, 2⟩
    let both : ClassStub := ⟨['B'], 1, none, [], [method, constructor]⟩
    let one : ClassStub := ⟨['B'], 1, none, [], [constructor]⟩
    let t := ClassTable.platform
    let r : Resolver := ⟨t.typeSystem, t.loader, {}⟩
    let ofConstructor : Lookup := .logLine "B <init> ()V".toList
    let ofMethod : Lookup := .logLine "B B ()V".toList
    ¬ both.TellsConstructors ∧
    (∃ m, (ofConstructor.run r (Step.after r [.register both])).1 = .method (.ok (some m)) ∧
      ofConstructor.token? r = some constructorName ∧ both.Declares method m ∧
      ¬ both.Declares constructor m ∧ m.member.isConstructor = true) ∧
    ∃ m, (ofMethod.run r (Step.after r [.register one])).1 = .method (.ok (some m)) ∧
      ofMethod.token? r = some ['B'] ∧ one.Declares constructor m := by
  intro method constructor both one t r ofConstructor ofMethod
  refine ⟨?_, ?_, ?_⟩
  · obtain ⟨hclasses, -, -⟩ :=
      constructors_after t t.typeSystem t.typeSystem {} {} [.register both]
    obtain ⟨c, hc, -, -, htells⟩ := hclasses ['B'] both.declared rfl
    obtain rfl : both = c := Option.some.inj hc
    obtain ⟨m, hm⟩ : ∃ m, method.method? both.className = some m :=
      Option.isSome_iff_exists.mp (by decide +kernel)
    intro h
    exact absurd (htells.mp h method m ⟨List.mem_cons_self, hm⟩ rfl) (by decide)
  · have hfound : (ofConstructor.run r (Step.after r [.register both])).1.found? =
        method.method? both.className := by decide +kernel
    obtain ⟨m, hm⟩ : ∃ m, method.method? both.className = some m :=
      Option.isSome_iff_exists.mp (by decide +kernel)
    have hmethod : both.Declares method m := ⟨List.mem_cons_self, hm⟩
    refine ⟨m, Answer.eq_of_found? (hfound.trans hm), by decide +kernel, hmethod, ?_,
      hmethod.isConstructor_iff.mpr (Or.inr rfl)⟩
    rintro ⟨-, hconstructor⟩
    exact absurd (hm.trans hconstructor.symm) (by decide +kernel)
  · have hsome : ((ofMethod.run r (Step.after r [.register one])).1.found?).isSome = true := by
      decide +kernel
    obtain ⟨m, hfound⟩ := Option.isSome_iff_exists.mp hsome
    have hrun := Answer.eq_of_found? hfound
    obtain ⟨-, hlookups, -⟩ := constructors_after t t.typeSystem t.typeSystem {} {} [.register one]
    obtain ⟨p, token, c, hp, -, hc, -, ⟨s, hs, hdeclared⟩, -⟩ := hlookups ofMethod m hrun
    have hclass : (ofMethod.parts? r).map Parts.className = some ['B'] := by decide +kernel
    rw [hp] at hclass
    rw [Option.some.inj hclass] at hc
    obtain rfl : one = c := Option.some.inj hc
    obtain rfl := List.mem_singleton.mp hs
    exact ⟨m, hrun, by decide +kernel, List.mem_cons_self, hdeclared⟩

end Lookup

end JvmSignature
