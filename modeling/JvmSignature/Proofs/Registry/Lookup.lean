import JvmSignature.Resolver

/-!
# What a lookup does to a registry

A lookup asks for one class, or for none when its text cannot be read. What it answers depends on
the registry only through the classes that are *available*: those that are registered, and those
that the loader would put there. What it changes is that the class it asks for is registered.

`Lookup.run_eq` says both in one equation. Everything that is true of many lookups follows from it,
because asking for a class leaves the available classes as they are (`available?_demand`).
-/

namespace JvmSignature

/-! ## Asking for a class -/

namespace Registry

variable {reg : Registry} {loader : ClassLoader} {name : Text}

/-- The methods of a class that is registered, or else of the class that would be loaded. -/
def available? (reg : Registry) (loader : ClassLoader) (name : Text) : Option (List Method) :=
  (reg.classes.find? name).or ((loader name).map ClassStub.declared)

/-- The registry after a class was asked for. One that cannot be loaded leaves it as it is. -/
def demand (reg : Registry) (loader : ClassLoader) (name : Text) : Registry :=
  match reg.load loader name with
  | .ok reg' => reg'
  | .error _ => reg

theorem contains_eq (reg : Registry) (name : Text) :
    reg.contains name = (reg.classes.find? name).isSome := rfl

theorem contains_eq_false_iff : reg.contains name = false ↔ reg.classes.find? name = none := by
  rw [contains_eq, Option.isSome_eq_false_iff, Option.isNone_iff_eq_none]

theorem demand_of_contains (h : reg.contains name = true) : reg.demand loader name = reg := by
  rw [demand, load, if_pos h]

theorem demand_of_loader_none (h : loader name = none) : reg.demand loader name = reg := by
  unfold demand load
  by_cases hc : reg.contains name = true
  · rw [if_pos hc]
  · rw [if_neg hc, h]

theorem demand_of_loader_some {stub : ClassStub} (hc : reg.contains name = false)
    (h : loader name = some stub) :
    reg.demand loader name = ⟨reg.classes.insert name stub.declared, reg.loads + 1⟩ := by
  rw [demand, load, if_neg (by simp [hc]), h]

/-- The three ways in which a class is asked for: it is there, it is nowhere, it is loaded. -/
theorem demand_cases (reg : Registry) (loader : ClassLoader) (name : Text) :
    (reg.contains name = true ∧ reg.demand loader name = reg) ∨
    (reg.contains name = false ∧ loader name = none ∧ reg.demand loader name = reg) ∨
    (∃ stub, reg.contains name = false ∧ loader name = some stub ∧
      reg.demand loader name = ⟨reg.classes.insert name stub.declared, reg.loads + 1⟩) := by
  cases hc : reg.contains name with
  | true => exact Or.inl ⟨rfl, demand_of_contains hc⟩
  | false =>
    cases hl : loader name with
    | none => exact Or.inr (Or.inl ⟨rfl, rfl, demand_of_loader_none hl⟩)
    | some stub => exact Or.inr (Or.inr ⟨stub, rfl, rfl, demand_of_loader_some hc hl⟩)

/-- After it was asked for, a class is registered if it is available; no other class changes. -/
theorem find?_demand (reg : Registry) (loader : ClassLoader) (name k : Text) :
    (reg.demand loader name).classes.find? k =
      if k = name then reg.available? loader name else reg.classes.find? k := by
  rcases demand_cases reg loader name with ⟨hc, hd⟩ | ⟨hc, hl, hd⟩ | ⟨stub, hc, hl, hd⟩
  · rw [hd]
    split
    · next hk =>
      obtain ⟨methods, hm⟩ := Option.isSome_iff_exists.mp hc
      rw [hk, available?, hm, Option.some_or]
    · rfl
  · rw [hd]
    split
    · next hk => rw [hk, available?, hl, Option.map_none, Option.or_none]
    · rfl
  · rw [hd, Table.find?_insert, available?, contains_eq_false_iff.mp hc, hl]
    rfl

/-- **Asking for a class makes no other class available, and none unavailable.** -/
theorem available?_demand (reg : Registry) (loader : ClassLoader) (name : Text) :
    (reg.demand loader name).available? loader = reg.available? loader := by
  funext k
  rw [available?, find?_demand]
  split
  · next hk =>
    rw [hk, available?]
    cases reg.classes.find? name with
    | some methods => rfl
    | none => cases loader name <;> rfl
  · rfl

/-- A class that is available is loaded, any other is not found. -/
theorem load_eq (reg : Registry) (loader : ClassLoader) (name : Text) :
    reg.load loader name =
      match reg.available? loader name with
      | some _ => .ok (reg.demand loader name)
      | none => .error (.classNotFound name) := by
  rcases demand_cases reg loader name with ⟨hc, hd⟩ | ⟨hc, hl, -⟩ | ⟨stub, hc, hl, hd⟩
  · obtain ⟨methods, hm⟩ := Option.isSome_iff_exists.mp hc
    rw [available?, hm, Option.some_or, hd, load, if_pos hc]
  · rw [available?, contains_eq_false_iff.mp hc, load, if_neg (by simp [hc]), hl]
    rfl
  · rw [available?, contains_eq_false_iff.mp hc, load, if_neg (by simp [hc]), hl, hd]
    rfl

/-- After it was asked for, an available class has its methods at hand. -/
theorem methods_demand {methods : List Method} (h : reg.available? loader name = some methods) :
    (reg.demand loader name).methods name = methods := by
  rw [Registry.methods, find?_demand, if_pos rfl, h]
  rfl

/-- Asking for a class that is not available changes nothing. -/
theorem demand_of_available?_none (h : reg.available? loader name = none) :
    reg.demand loader name = reg := by
  have hl := (Option.or_eq_none_iff.mp h).2
  exact demand_of_loader_none (Option.map_eq_none_iff.mp hl)

/-- **A class that was asked for once need not be asked for again.** -/
theorem demand_demand (reg : Registry) (loader : ClassLoader) (name : Text) :
    (reg.demand loader name).demand loader name = reg.demand loader name := by
  rcases demand_cases reg loader name with ⟨-, hd⟩ | ⟨-, -, hd⟩ | ⟨stub, -, -, hd⟩
  · rw [hd, hd]
  · rw [hd, hd]
  · refine demand_of_contains ?_
    rw [hd, contains_eq, Table.find?_insert, if_pos rfl]
    rfl

/-- The registry after a class was asked for, if one was. -/
def demand? (reg : Registry) (loader : ClassLoader) (name? : Option Text) : Registry :=
  match name? with
  | some name => reg.demand loader name
  | none => reg

end Registry

/-! ## Parts of a signature -/

/-- The parts that a method of a dictionary has. -/
def DictionaryMethod.parts (s : DictionaryMethod) : Parts :=
  Parts.ofTexts s.className s.memberName s.paramTypes s.returnType

namespace Resolver

/-- The method of a class that answers to a query with equal types, or else with assignable ones. -/
def select? (r : Resolver) (methods : List Method) (q : MethodQuery) : Option Method :=
  match methods.find? (Method.answers r.types .exact q) with
  | some m => some m
  | none =>
    if r.settings.assignableFallback then methods.find? (Method.answers r.types .assignable q)
    else none

theorem findMethod?_eq (r : Resolver) (reg : Registry) (q : MethodQuery) :
    r.findMethod? reg q = r.select? (reg.methods q.className) q := rfl

/-- What parts mean, by the classes that are available. -/
def answerParts (r : Resolver) (available? : Text → Option (List Method)) (p : Parts) :
    Except SignatureError (Option Method) :=
  match available? p.className with
  | none => .ok none
  | some methods => (r.resolveParts p).map fun s => r.select? methods s.query

/-- **A signature is resolved where all its types are**, each by itself; the rest is kept. -/
theorem resolveParts_eq_ok_iff {r : Resolver} {p : Parts} {s : TypedParts} :
    r.resolveParts p = .ok s ↔
      ∃ params returnType, p.paramTypes.mapM (r.resolveErased p.typeVariables) = .ok params ∧
        r.resolveErased p.typeVariables p.returnType = .ok returnType ∧
        s = ⟨p.className, p.memberName, p.modifier, params, returnType, p.typeVariables,
          p.isVarargs⟩ := by
  unfold resolveParts
  cases hp : p.paramTypes.mapM (r.resolveErased p.typeVariables) with
  | error e => exact ⟨nofun, fun ⟨_, _, h, _⟩ => nomatch h⟩
  | ok params =>
    cases hr : r.resolveErased p.typeVariables p.returnType with
    | error e => exact ⟨nofun, fun ⟨_, _, _, h, _⟩ => nomatch h⟩
    | ok returnType =>
      constructor
      · intro h
        exact ⟨params, returnType, rfl, rfl, (Except.ok.inj h).symm⟩
      · rintro ⟨_, _, ⟨⟩, ⟨⟩, rfl⟩
        rfl

/-- Resolving the types of a signature leaves its class as it is. -/
theorem className_of_resolveParts {r : Resolver} {p : Parts} {s : TypedParts}
    (h : r.resolveParts p = .ok s) : s.className = p.className := by
  obtain ⟨params, returnType, -, -, rfl⟩ := resolveParts_eq_ok_iff.mp h
  rfl

theorem findParts_eq (r : Resolver) (reg : Registry) (p : Parts) :
    r.findParts reg p =
      (r.answerParts (reg.available? r.loader) p, reg.demand r.loader p.className) := by
  rw [findParts, Registry.load_eq, answerParts]
  cases ha : reg.available? r.loader p.className with
  | none => rw [Registry.demand_of_available?_none ha]
  | some methods =>
    have hm := Registry.methods_demand ha
    cases hs : r.resolveParts p with
    | error e => rfl
    | ok s =>
      have hq : s.query.className = p.className := className_of_resolveParts hs
      simp only [Except.map, findMethod?_eq, hq, hm]

theorem findRead_eq (r : Resolver) (reg : Registry) (p : Except SignatureError Parts) :
    r.findRead reg p =
      (p >>= r.answerParts (reg.available? r.loader),
        reg.demand? r.loader (p.toOption.map Parts.className)) := by
  cases p with
  | error e => rfl
  | ok p => exact findParts_eq r reg p

theorem findDictionaryId_eq (r : Resolver) (reg : Registry) (d : Dictionary) (id : Text) :
    r.findDictionaryId reg d id =
      ((d.method? id).bind fun s =>
          (r.answerParts (reg.available? r.loader) s.parts).toOption.join,
        reg.demand? r.loader ((d.method? id).map DictionaryMethod.className)) := by
  unfold findDictionaryId
  cases d.method? id with
  | none => rfl
  | some s =>
    simp only [Option.bind_some, Option.map_some]
    rw [← DictionaryMethod.parts, findParts_eq]
    cases r.answerParts (reg.available? r.loader) s.parts with
    | error e => rfl
    | ok found => rfl

end Resolver

/-! ## Lookups -/

/-- A lookup in a registry that registers no class by itself. -/
inductive Lookup where
  /-- The method that a line of a compilation log means. -/
  | logLine (line : Text)
  /-- The method that a comment of a disassembler means. -/
  | comment (currentClass? : Option Text) (comment : Text)
  /-- The method that an id of a dictionary means. -/
  | dictionaryId (dictionary : Dictionary) (id : Text)
  /-- The class of a name, which is loaded if it is not registered. -/
  | loadClass (name : Text)

/-- What a lookup answers. -/
inductive Answer where
  | method (found : Except SignatureError (Option Method))
  | loaded (className : Except RegistryError Text)

namespace Lookup

/-- The answer of a lookup, and the registry after it. -/
def run (r : Resolver) (reg : Registry) : Lookup → Answer × Registry
  | logLine line =>
    let (found, reg') := r.findLogLine reg line
    (.method found, reg')
  | comment currentClass? text =>
    let (found, reg') := r.findComment reg currentClass? text
    (.method found, reg')
  | dictionaryId dictionary id =>
    let (found, reg') := r.findDictionaryId reg dictionary id
    (.method (.ok found), reg')
  | loadClass name =>
    match reg.load r.loader name with
    | .ok reg' => (.loaded (.ok name), reg')
    | .error e => (.loaded (.error e), reg)

/-- The class that a lookup asks for, when its text or its id can be read. -/
def target? (r : Resolver) : Lookup → Option Text
  | logLine line => (Parts.ofLogLine line).toOption.map Parts.className
  | comment currentClass? text =>
    (Parts.ofComment (r.commentReference currentClass? text)).toOption.map Parts.className
  | dictionaryId dictionary id => (dictionary.method? id).map DictionaryMethod.className
  | loadClass name => some name

/-- What a lookup answers, by the classes that are available. -/
def answer (r : Resolver) (available? : Text → Option (List Method)) : Lookup → Answer
  | logLine line => .method (Parts.ofLogLine line >>= r.answerParts available?)
  | comment currentClass? text =>
    .method (Parts.ofComment (r.commentReference currentClass? text) >>= r.answerParts available?)
  | dictionaryId dictionary id =>
    .method (.ok ((dictionary.method? id).bind fun s =>
      (r.answerParts available? s.parts).toOption.join))
  | loadClass name =>
    .loaded (match available? name with
      | some _ => .ok name
      | none => .error (.classNotFound name))

/--
**The effect of a lookup.** It answers by the classes that are available, and it asks for one class
or for none.
-/
theorem run_eq (r : Resolver) (reg : Registry) (l : Lookup) :
    l.run r reg = (l.answer r (reg.available? r.loader), reg.demand? r.loader (l.target? r)) := by
  cases l with
  | logLine line =>
    rw [run, Resolver.findLogLine, Resolver.findRead_eq]
    rfl
  | comment currentClass? text =>
    rw [run, Resolver.findComment, Resolver.findRead_eq]
    rfl
  | dictionaryId dictionary id =>
    rw [run, Resolver.findDictionaryId_eq]
    rfl
  | loadClass name =>
    rw [run, Registry.load_eq, answer, target?]
    cases h : reg.available? r.loader name with
    | some methods => rfl
    | none => rw [Registry.demand?, Registry.demand_of_available?_none h]

end Lookup

end JvmSignature
