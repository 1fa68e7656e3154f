import JvmSignature.ClassTable.Platform
import JvmSignature.Proofs.Registry.Lookup

/-!
# The effect of a lookup of a method

A lookup of a method has many ways to end: its text has no shape of a signature, an id is in no
dictionary, its class is nowhere, a type is not known, no method answers, or one does. Only one
thing decides what becomes of the registry, and it is decided before the types are looked at:
whether the parts could be read, and their class is new to the registry and known to the loader
(`Loads`). If so, the registry gains that class (`Registry.Gains`), and otherwise it stays as it is.

A fault shows how far a lookup came. Behind the loading of the class the only one left is that of a
type that is not known (`unknownType_of_resolveParts`), so any other means that nothing was changed.
-/

namespace JvmSignature

/-! ## One class more -/

namespace Registry

/-- Whether the second registry is the first with one class more, which was loaded from a stub. -/
structure Gains (reg reg' : Registry) (name : Text) (stub : ClassStub) : Prop where
  keys : reg'.classes.keys = reg.classes.keys ++ [name]
  find?_self : reg'.classes.find? name = some stub.declared
  find?_other : ∀ k, k ≠ name → reg'.classes.find? k = reg.classes.find? k
  size : reg'.size = reg.size + 1
  loads : reg'.loads = reg.loads + 1

variable {reg : Registry} {name : Text}

theorem not_mem_keys_iff : name ∉ reg.classes.keys ↔ reg.contains name = false := by
  rw [← Table.contains_iff, Bool.not_eq_true]
  rfl

/-- **A class that is loaded is gained.** -/
theorem gains_demand {loader : ClassLoader} {stub : ClassStub} (hnew : name ∉ reg.classes.keys)
    (hl : loader name = some stub) : reg.Gains (reg.demand loader name) name stub := by
  have hc := not_mem_keys_iff.mp hnew
  rw [demand_of_loader_some hc hl]
  constructor
  · rw [Table.keys_insert, if_neg hnew]
  · rw [Table.find?_insert, if_pos rfl]
  · intro k hk
    rw [Table.find?_insert, if_neg hk]
  · have hsize := Table.size_insert reg.classes name stub.declared
    rwa [if_neg fun hin => hnew (Table.contains_iff.mp hin)] at hsize
  · rfl

end Registry

/-! ## Faults after a class was loaded -/

namespace Resolver

variable {r : Resolver}

/-- Where some of a list cannot be read, the fault is that of one of them. -/
theorem exists_error_of_mapM {α : Type} {read : α → Except SignatureError Descriptor}
    {as : List α} {e : SignatureError} (h : as.mapM read = .error e) :
    ∃ a ∈ as, read a = .error e := by
  induction as with
  | nil => cases h
  | cons a as ih =>
    rw [List.mapM_cons] at h
    cases ha : read a with
    | error fault =>
      rw [ha] at h
      cases h
      exact ⟨a, List.mem_cons_self, ha⟩
    | ok d =>
      cases hrest : as.mapM read with
      | error fault =>
        rw [ha, hrest] at h
        cases h
        obtain ⟨b, hb, hread⟩ := ih hrest
        exact ⟨b, List.mem_cons_of_mem a hb, hread⟩
      | ok ds =>
        rw [ha, hrest] at h
        cases h

theorem unknownType_of_resolveErased {vars : TypeVariables} {type : Text} {e : SignatureError}
    (h : r.resolveErased vars type = .error e) : ∃ token, e = .unknownType token := by
  unfold resolveErased TypeSystem.resolveName at h
  split at h
  · cases h
  · cases h
    exact ⟨_, rfl⟩

/-- Where a signature cannot be resolved, the fault is that of one of its types. -/
theorem exists_error_of_resolveParts {p : Parts} {e : SignatureError}
    (h : r.resolveParts p = .error e) :
    ∃ type ∈ p.returnType :: p.paramTypes, r.resolveErased p.typeVariables type = .error e := by
  unfold resolveParts at h
  cases hp : p.paramTypes.mapM (r.resolveErased p.typeVariables) with
  | error fault =>
    rw [hp] at h
    cases h
    obtain ⟨type, hm, htype⟩ := exists_error_of_mapM hp
    exact ⟨type, List.mem_cons_of_mem _ hm, htype⟩
  | ok params =>
    cases hr : r.resolveErased p.typeVariables p.returnType with
    | error fault =>
      rw [hp, hr] at h
      cases h
      exact ⟨p.returnType, List.mem_cons_self, hr⟩
    | ok returnType =>
      rw [hp, hr] at h
      cases h

/-- **The types of a signature have one fault**, that one of them is not known. -/
theorem unknownType_of_resolveParts {p : Parts} {e : SignatureError}
    (h : r.resolveParts p = .error e) : ∃ token, e = .unknownType token := by
  obtain ⟨type, -, htype⟩ := exists_error_of_resolveParts h
  exact unknownType_of_resolveErased htype

theorem unknownType_of_answerParts {available? : Text → Option (List Method)} {p : Parts}
    {e : SignatureError} (h : r.answerParts available? p = .error e) :
    ∃ token, e = .unknownType token := by
  unfold answerParts at h
  split at h
  · cases h
  · cases hs : r.resolveParts p with
    | error fault =>
      rw [hs] at h
      cases h
      exact unknownType_of_resolveParts hs
    | ok s =>
      rw [hs] at h
      cases h

end Resolver

/-! ## Lookups of methods -/

namespace Lookup

/-- Whether a lookup is one of a method. -/
def IsOfMethod : Lookup → Prop
  | loadClass _ => False
  | _ => True

/-- The parts by which a method is looked up, when the text or the id can be read. -/
def parts? (r : Resolver) : Lookup → Option Parts
  | logLine line => (Parts.ofLogLine line).toOption
  | comment currentClass? text => (Parts.ofComment (r.commentReference currentClass? text)).toOption
  | dictionaryId dictionary id => (dictionary.method? id).map DictionaryMethod.parts
  | loadClass _ => none

/-- Whether a lookup of a method has to load its class, and the loader has it. -/
structure Loads (r : Resolver) (reg : Registry) (l : Lookup) (name : Text) (stub : ClassStub) :
    Prop where
  parts : ∃ p, l.parts? r = some p ∧ p.className = name
  isNew : name ∉ reg.classes.keys
  stub : r.loader name = some stub

variable {r : Resolver} {reg : Registry} {l : Lookup}

/-- A lookup of a method asks for the class of its parts. -/
theorem target?_eq_className (hm : l.IsOfMethod) :
    l.target? r = (l.parts? r).map Parts.className := by
  cases l with
  | logLine line => rfl
  | comment currentClass? text => rfl
  | dictionaryId dictionary id =>
    rw [target?, parts?, Option.map_map]
    rfl
  | loadClass name => exact hm.elim

/-- **A lookup of a method that loads its class gains it**, whatever it answers. -/
theorem gains_of_loads (hm : l.IsOfMethod) {name : Text} {stub : ClassStub}
    (h : l.Loads r reg name stub) : reg.Gains (l.run r reg).2 name stub := by
  obtain ⟨p, hp, rfl⟩ := h.parts
  rw [run_eq, target?_eq_className hm, hp]
  exact Registry.gains_demand h.isNew h.stub

/-- **Any other lookup of a method changes nothing.** -/
theorem unchanged_of_not_loads (hm : l.IsOfMethod) (h : ∀ name stub, ¬l.Loads r reg name stub) :
    (l.run r reg).2 = reg := by
  rw [run_eq, target?_eq_className hm]
  cases hp : l.parts? r with
  | none => rfl
  | some p =>
    rcases Registry.demand_cases reg r.loader p.className with
      ⟨-, hd⟩ | ⟨-, -, hd⟩ | ⟨stub, hc, hl, -⟩
    · exact hd
    · exact hd
    · exact absurd ⟨⟨p, hp, rfl⟩, Registry.not_mem_keys_iff.mpr hc, hl⟩ (h p.className stub)

theorem eq_ok_of_toOption {read : Except SignatureError Parts} {p : Parts}
    (h : read.toOption = some p) : read = .ok p := by
  cases read with
  | error e => cases h
  | ok q => exact congrArg _ (Option.some.inj h)

/-- What is answered is what the parts mean; an id of a dictionary keeps the fault back. -/
theorem answer_of_parts? {p : Parts} (hp : l.parts? r = some p)
    (available? : Text → Option (List Method)) :
    l.answer r available? = .method (r.answerParts available? p) ∨
      l.answer r available? = .method (.ok (r.answerParts available? p).toOption.join) := by
  cases l with
  | logLine line =>
    rw [parts?] at hp
    rw [answer, eq_ok_of_toOption hp]
    exact Or.inl rfl
  | comment currentClass? text =>
    rw [parts?] at hp
    rw [answer, eq_ok_of_toOption hp]
    exact Or.inl rfl
  | dictionaryId dictionary id =>
    obtain ⟨s, hs, rfl⟩ := Option.map_eq_some_iff.mp hp
    rw [answer, hs]
    exact Or.inr rfl
  | loadClass name => cases hp

/-- A lookup that read its parts has no fault but that of a type that is not known. -/
theorem unknownType_of_parts? {p : Parts} {e : SignatureError} (hp : l.parts? r = some p)
    (h : (l.run r reg).1 = .method (.error e)) : ∃ token, e = .unknownType token := by
  rw [run_eq] at h
  rcases answer_of_parts? hp (reg.available? r.loader) with ha | ha
  · exact Resolver.unknownType_of_answerParts (Answer.method.inj (ha.symm.trans h))
  · cases ha.symm.trans h

/-- A method whose class is nowhere is not found, and that is no fault. -/
theorem run_of_unloadable (hm : l.IsOfMethod) {p : Parts} (hp : l.parts? r = some p)
    (hnew : p.className ∉ reg.classes.keys) (hl : r.loader p.className = none) :
    l.run r reg = (.method (.ok none), reg) := by
  have havailable : reg.available? r.loader p.className = none := by
    rw [Registry.available?, Registry.contains_eq_false_iff.mp (Registry.not_mem_keys_iff.mp hnew),
      hl]
    rfl
  have hnothing : r.answerParts (reg.available? r.loader) p = .ok none := by
    rw [Resolver.answerParts, havailable]
  have hanswer : l.answer r (reg.available? r.loader) = .method (.ok none) := by
    rcases answer_of_parts? hp (reg.available? r.loader) with ha | ha
    · rw [ha, hnothing]
    · rw [ha, hnothing]
      rfl
  rw [run_eq, hanswer, target?_eq_className hm, hp]
  exact congrArg _ (Registry.demand_of_loader_none hl)

/--
**The exact effect of a lookup of a method on the registry.**

1. If it loads its class, the registry gains that class, whatever is answered.
2. If not, the registry stays as it is. So it does in particular
3. after any fault but that of a type that is not known,
4. where the dictionary does not explain an id, and
5. where the class is nowhere; both answer that there is no such method.
-/
theorem effect_of_run (r : Resolver) (reg : Registry) (hm : l.IsOfMethod) :
    (∀ name stub, l.Loads r reg name stub → reg.Gains (l.run r reg).2 name stub) ∧
    ((∀ name stub, ¬l.Loads r reg name stub) → (l.run r reg).2 = reg) ∧
    (∀ e, (l.run r reg).1 = .method (.error e) → (∀ token, e ≠ .unknownType token) →
      (l.run r reg).2 = reg) ∧
    (∀ dictionary id, l = .dictionaryId dictionary id → dictionary.method? id = none →
      l.run r reg = (.method (.ok none), reg)) ∧
    (∀ p, l.parts? r = some p → p.className ∉ reg.classes.keys → r.loader p.className = none →
      l.run r reg = (.method (.ok none), reg)) := by
  refine ⟨fun _ _ => gains_of_loads hm, unchanged_of_not_loads hm, ?_, ?_, ?_⟩
  · intro e he hknown
    refine unchanged_of_not_loads hm ?_
    rintro name stub ⟨⟨p, hp, -⟩, -, -⟩
    obtain ⟨token, rfl⟩ := unknownType_of_parts? hp he
    exact hknown token rfl
  · rintro dictionary id rfl hid
    rw [run_eq, answer, target?, hid]
    rfl
  · intro p hp hnew hl
    exact run_of_unloadable hm hp hnew hl

/-- A line with an unknown type loads its class all the same; a line of another shape, an id that is
not explained and a class that is nowhere leave the registry empty. -/
theorem effect_of_run_platform :
    let r : Resolver := ⟨ClassTable.platform.typeSystem, ClassTable.platform.loader, {}⟩
    let string := "java.lang.String".toList
    let unknown : Lookup := .logLine "java/lang/String valueOf (La/B;)V".toList
    let malformed : Lookup := .logLine "x".toList
    let unloadable : Lookup := .logLine "a/B f ()V".toList
    let unexplained : Lookup := .dictionaryId Table.empty "7".toList
    (∃ token, (unknown.run r Registry.empty).1 = .method (.error (.unknownType token))) ∧
      (∃ stub, unknown.Loads r Registry.empty string stub ∧
        Registry.empty.Gains (unknown.run r Registry.empty).2 string stub) ∧
      malformed.run r Registry.empty =
        (.method (.error (.malformed "x".toList)), Registry.empty) ∧
      unloadable.run r Registry.empty = (.method (.ok none), Registry.empty) ∧
      unexplained.run r Registry.empty = (.method (.ok none), Registry.empty) := by
  intro r string unknown malformed unloadable unexplained
  have hunknown : ∃ token,
      (unknown.run r Registry.empty).1 = .method (.error (.unknownType token)) := by
    have hkind : (match (unknown.run r Registry.empty).1 with
        | .method (.error (.unknownType _)) => true
        | _ => false) = true := by decide +kernel
    split at hkind
    · next token ha => exact ⟨token, ha⟩
    · cases hkind
  have hparts : (unknown.parts? r).map Parts.className = some string := by decide +kernel
  have hnowhere : (unloadable.parts? r).map Parts.className = some "a.B".toList := by
    decide +kernel
  obtain ⟨stub, hstub⟩ : ∃ stub, r.loader string = some stub :=
    Option.isSome_iff_exists.mp (by decide +kernel)
  have hloads : unknown.Loads r Registry.empty string stub :=
    ⟨Option.map_eq_some_iff.mp hparts, nofun, hstub⟩
  have hmalformed : (malformed.run r Registry.empty).1 =
      .method (.error (.malformed "x".toList)) := rfl
  obtain ⟨p, hp, hclass⟩ := Option.map_eq_some_iff.mp hnowhere
  obtain ⟨hgains, -⟩ := effect_of_run (l := unknown) r Registry.empty trivial
  obtain ⟨-, -, hfault, -⟩ := effect_of_run (l := malformed) r Registry.empty trivial
  obtain ⟨-, -, -, -, hunloadable⟩ := effect_of_run (l := unloadable) r Registry.empty trivial
  obtain ⟨-, -, -, hmissing, -⟩ := effect_of_run (l := unexplained) r Registry.empty trivial
  refine ⟨hunknown, ⟨stub, hloads, hgains _ _ hloads⟩,
    Prod.ext hmalformed (hfault _ hmalformed nofun), hunloadable p hp nofun ?_,
    hmissing _ _ rfl rfl⟩
  rw [hclass]
  decide +kernel

end Lookup

end JvmSignature
