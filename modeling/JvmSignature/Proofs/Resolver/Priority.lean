import JvmSignature.Proofs.Registry.Effect
import JvmSignature.Proofs.Resolver.ClassNames

/-!
# Which method a lookup finds

Of the methods of a class that have the name and the return type that are asked for, the first that
takes equal types is found, wherever it is declared. Only where there is none, and the settings
allow it, the first that takes assignable types is (`Resolver.Selects`).

So switching the fallback on changes no method that is found without it, and no fault: it can only
find a method where there was none (`run_withFallback`). And whatever is found belongs to the class
that was asked for (`className_of_found`).
-/

namespace JvmSignature

/-! ## Selecting from the methods of a class -/

/-- Whether a method has the name and the return type of a query, and takes its types. -/
structure Method.Fits (ts : TypeSystem) (mode : MatchMode) (q : MethodQuery) (m : Method) :
    Prop where
  name : m.name = q.memberName
  returnType : m.returnType = q.returnType
  params : ts.matchesParams m.isVarargs m.params q.params mode = true

theorem Method.answers_iff_fits {ts : TypeSystem} {mode : MatchMode} {q : MethodQuery}
    {m : Method} : m.answers ts mode q = true ↔ m.Fits ts mode q := by
  rw [answers, Bool.and_eq_true, Bool.and_eq_true, decide_eq_true_eq, decide_eq_true_eq]
  constructor
  · rintro ⟨⟨hname, hreturn⟩, hparams⟩
    exact ⟨hname, hreturn, hparams⟩
  · rintro ⟨hname, hreturn, hparams⟩
    exact ⟨⟨hname, hreturn⟩, hparams⟩

/-- Whether a method is the first in the order of declaration of which something holds. -/
def Method.IsFirst (p : Method → Prop) (methods : List Method) (m : Method) : Prop :=
  ∃ before after, methods = before ++ m :: after ∧ p m ∧ ∀ m' ∈ before, ¬ p m'

theorem Method.IsFirst.mem {p : Method → Prop} {methods : List Method} {m : Method}
    (h : IsFirst p methods m) : m ∈ methods := by
  obtain ⟨before, after, rfl, -, -⟩ := h
  exact List.mem_append_right _ List.mem_cons_self

theorem Method.IsFirst.holds {p : Method → Prop} {methods : List Method} {m : Method}
    (h : IsFirst p methods m) : p m := by
  obtain ⟨before, after, -, hm, -⟩ := h
  exact hm

/-- The first method that answers to a query is the first that fits it. -/
theorem Method.find?_answers_eq_some_iff {ts : TypeSystem} {mode : MatchMode} {q : MethodQuery}
    {methods : List Method} {m : Method} :
    methods.find? (Method.answers ts mode q) = some m ↔
      IsFirst (Method.Fits ts mode q) methods m := by
  rw [List.find?_eq_some_iff_append]
  constructor
  · rintro ⟨hm, before, after, he, hbefore⟩
    refine ⟨before, after, he, answers_iff_fits.mp hm, fun m' hm' hfits => ?_⟩
    have hnot := hbefore m' hm'
    rw [answers_iff_fits.mpr hfits] at hnot
    cases hnot
  · rintro ⟨before, after, he, hm, hbefore⟩
    refine ⟨answers_iff_fits.mpr hm, before, after, he, fun m' hm' => ?_⟩
    rw [Bool.not_eq_true', ← Bool.not_eq_true, answers_iff_fits]
    exact hbefore m' hm'

theorem Method.find?_answers_eq_none_iff {ts : TypeSystem} {mode : MatchMode} {q : MethodQuery}
    {methods : List Method} :
    methods.find? (Method.answers ts mode q) = none ↔ ∀ m ∈ methods, ¬ m.Fits ts mode q := by
  rw [List.find?_eq_none]
  simp only [answers_iff_fits]

namespace Resolver

/-- What is selected from the methods of a class: the first that takes equal types; where none does,
and only if the settings allow it, the first that takes assignable ones. -/
inductive Selects (r : Resolver) (methods : List Method) (q : MethodQuery) : Option Method → Prop
  | equal {m : Method} : Method.IsFirst (Method.Fits r.types .exact q) methods m →
      r.Selects methods q (some m)
  | assignable {m : Method} : (∀ m' ∈ methods, ¬ m'.Fits r.types .exact q) →
      r.settings.assignableFallback = true →
      Method.IsFirst (Method.Fits r.types .assignable q) methods m → r.Selects methods q (some m)
  | nothing : (∀ m ∈ methods, ¬ m.Fits r.types .exact q) →
      (r.settings.assignableFallback = true → ∀ m ∈ methods, ¬ m.Fits r.types .assignable q) →
      r.Selects methods q none

theorem selects_select? (r : Resolver) (methods : List Method) (q : MethodQuery) :
    r.Selects methods q (r.select? methods q) := by
  unfold select?
  split
  · next m hm => exact .equal (Method.find?_answers_eq_some_iff.mp hm)
  · next hnone =>
    rw [Method.find?_answers_eq_none_iff] at hnone
    split
    · next hfallback =>
      cases hassignable : methods.find? (Method.answers r.types .assignable q) with
      | some m =>
        exact .assignable hnone hfallback (Method.find?_answers_eq_some_iff.mp hassignable)
      | none => exact .nothing hnone fun _ => Method.find?_answers_eq_none_iff.mp hassignable
    · next hfallback => exact .nothing hnone fun h => absurd h hfallback

/-- What is selected is a method of the class that has the name and the return type. -/
theorem Selects.mem {r : Resolver} {methods : List Method} {q : MethodQuery} {m : Method}
    (h : r.Selects methods q (some m)) :
    m ∈ methods ∧ m.name = q.memberName ∧ m.returnType = q.returnType := by
  cases h with
  | equal hm => exact ⟨hm.mem, hm.holds.name, hm.holds.returnType⟩
  | assignable _ _ hm => exact ⟨hm.mem, hm.holds.name, hm.holds.returnType⟩

/-! ## With and without the fallback -/

/-- The resolver with the fallback to assignable types switched on or off. -/
def withFallback (r : Resolver) (on : Bool) : Resolver :=
  { r with settings := { r.settings with assignableFallback := on } }

/-- Without the fallback the first method that takes equal types is selected, or none. -/
theorem select?_withFallback_false (r : Resolver) (methods : List Method) (q : MethodQuery) :
    (r.withFallback false).select? methods q = methods.find? (Method.answers r.types .exact q) := by
  have htypes : (r.withFallback false).types = r.types := rfl
  rw [select?, htypes]
  cases methods.find? (Method.answers r.types .exact q) <;> rfl

/-- **The fallback selects only where nothing else is selected.** -/
theorem select?_withFallback (r : Resolver) (methods : List Method) (q : MethodQuery) :
    (r.withFallback true).select? methods q = (r.withFallback false).select? methods q ∨
      (r.withFallback false).select? methods q = none ∧
        ∃ m, (r.withFallback true).select? methods q = some m := by
  rw [select?_withFallback_false]
  cases hequal : methods.find? (Method.answers r.types .exact q) with
  | some m =>
    refine Or.inl ?_
    have htypes : (r.withFallback true).types = r.types := rfl
    rw [select?, htypes, hequal]
  | none =>
    cases hselect : (r.withFallback true).select? methods q with
    | some m => exact Or.inr ⟨rfl, m, rfl⟩
    | none => exact Or.inl rfl

theorem answerParts_withFallback (r : Resolver) (available? : Text → Option (List Method))
    (p : Parts) :
    (r.withFallback true).answerParts available? p =
        (r.withFallback false).answerParts available? p ∨
      (r.withFallback false).answerParts available? p = .ok none ∧
        ∃ m, (r.withFallback true).answerParts available? p = .ok (some m) := by
  have hparts : ∀ on, (r.withFallback on).resolveParts p = r.resolveParts p := fun _ => rfl
  unfold answerParts
  cases available? p.className with
  | none => exact Or.inl rfl
  | some methods =>
    simp only [hparts]
    cases r.resolveParts p with
    | error e => exact Or.inl rfl
    | ok s =>
      rcases r.select?_withFallback methods s.query with hsame | ⟨hoff, m, hon⟩
      · exact Or.inl (congrArg Except.ok hsame)
      · exact Or.inr ⟨congrArg Except.ok hoff, m, congrArg Except.ok hon⟩

/-! ## Signatures without type variables -/

theorem resolveParts_of_resolveName {r : Resolver} {p : Parts}
    (hvars : p.typeVariables = Table.empty) {params : List Descriptor} {returnType : Descriptor}
    (hparams : p.paramTypes.mapM r.types.resolveName = .ok params)
    (hreturn : r.types.resolveName p.returnType = .ok returnType) :
    ∃ s, r.resolveParts p = .ok s ∧ s.query = ⟨p.className, p.memberName, params, returnType⟩ := by
  refine ⟨_, resolveParts_eq_ok_iff.mpr ⟨params, returnType, ?_, ?_, rfl⟩, rfl⟩
  · rw [hvars, resolveErased_empty, hparams]
  · rw [hvars, resolveErased_empty, hreturn]

/-- What is found for parts is a method of their class, with their name and their return type. -/
theorem mem_of_answerParts {r : Resolver} {available? : Text → Option (List Method)} {p : Parts}
    (hvars : p.typeVariables = Table.empty) {m : Method}
    (h : r.answerParts available? p = .ok (some m)) :
    (∃ methods, available? p.className = some methods ∧ m ∈ methods) ∧ m.name = p.memberName ∧
      r.types.resolveName p.returnType = .ok m.returnType := by
  unfold answerParts at h
  cases hclass : available? p.className with
  | none =>
    rw [hclass] at h
    cases h
  | some methods =>
    cases hs : r.resolveParts p with
    | error e =>
      rw [hclass, hs] at h
      cases h
    | ok s =>
      rw [hclass, hs] at h
      have hselect : r.select? methods s.query = some m := Except.ok.inj h
      have hselects := r.selects_select? methods s.query
      rw [hselect] at hselects
      obtain ⟨hm, hname, hreturn⟩ := hselects.mem
      obtain ⟨params, returnType, -, hresolved, rfl⟩ := resolveParts_eq_ok_iff.mp hs
      rw [hvars, resolveErased_empty] at hresolved
      exact ⟨⟨methods, rfl, hm⟩, hname, hreturn ▸ hresolved⟩

end Resolver

/-- The method that was found. -/
def Answer.found? : Answer → Option Method
  | method (.ok found) => found
  | _ => none

theorem Answer.eq_of_found? {a : Answer} {m : Method} (h : a.found? = some m) :
    a = .method (.ok (some m)) := by
  unfold found? at h
  split at h
  · rw [h]
  · cases h

namespace Lookup

variable {r : Resolver} {reg : Registry} {l : Lookup}

/-- No signature that is looked up has type variables. -/
theorem typeVariables_of_parts? {p : Parts} (h : l.parts? r = some p) :
    p.typeVariables = Table.empty := by
  cases l with
  | logLine line =>
    have hread := eq_ok_of_toOption h
    unfold Parts.ofLogLine at hread
    split at hread
    · cases hread
      rfl
    · cases hread
  | comment currentClass? text =>
    have hread := eq_ok_of_toOption h
    unfold Parts.ofComment at hread
    split at hread
    · cases hread
    · split at hread
      · cases hread
      · split at hread
        · cases hread
        · cases hread
          rfl
  | dictionaryId dictionary id =>
    obtain ⟨s, -, rfl⟩ := Option.map_eq_some_iff.mp h
    rfl
  | loadClass name => cases h

/-- The class of a signature that is looked up is written with dots. -/
theorem slash_not_mem_of_parts? {p : Parts} (hm : l.IsOfMethod) (h : l.parts? r = some p) :
    '/' ∉ p.className := by
  intro hslash
  have htarget : l.target? r = some p.className := by
    rw [target?_eq_className hm, h]
    rfl
  rw [eq_loadClass_of_target? htarget hslash] at hm
  exact hm

/-- A method that is found was looked up by parts that could be read. -/
theorem exists_parts_of_answer {available? : Text → Option (List Method)} {m : Method}
    (h : l.answer r available? = .method (.ok (some m))) :
    ∃ p, l.parts? r = some p ∧ r.answerParts available? p = .ok (some m) := by
  have hread : ∀ read : Except SignatureError Parts,
      (read >>= r.answerParts available?) = .ok (some m) →
        ∃ p, read.toOption = some p ∧ r.answerParts available? p = .ok (some m) := by
    intro read hfound
    cases read with
    | error e => cases hfound
    | ok p => exact ⟨p, rfl, hfound⟩
  cases l with
  | logLine line => exact hread _ (Answer.method.inj h)
  | comment currentClass? text => exact hread _ (Answer.method.inj h)
  | dictionaryId dictionary id =>
    have hfound := Except.ok.inj (Answer.method.inj h)
    obtain ⟨s, hs, hjoin⟩ := Option.bind_eq_some_iff.mp hfound
    refine ⟨s.parts, by rw [parts?, hs]; rfl, ?_⟩
    cases ha : r.answerParts available? s.parts with
    | error e =>
      rw [ha] at hjoin
      cases hjoin
    | ok found =>
      rw [ha] at hjoin
      obtain rfl : found = some m := hjoin
      rfl
  | loadClass name => cases h

/-! ## Lookups -/

/-- **A lookup whose class is available and whose types are known selects from the methods of the
class.** -/
theorem selects_of_run (hm : l.IsOfMethod) {p : Parts} (hp : l.parts? r = some p)
    {methods : List Method} (hclass : reg.available? r.loader p.className = some methods)
    {params : List Descriptor} {returnType : Descriptor}
    (hparams : p.paramTypes.mapM r.types.resolveName = .ok params)
    (hreturn : r.types.resolveName p.returnType = .ok returnType) :
    ∃ found, (l.run r reg).1 = .method (.ok found) ∧
      r.Selects ((l.run r reg).2.methods p.className)
        ⟨p.className, p.memberName, params, returnType⟩ found := by
  obtain ⟨s, hs, hquery⟩ :=
    Resolver.resolveParts_of_resolveName (typeVariables_of_parts? hp) hparams hreturn
  have hanswer : r.answerParts (reg.available? r.loader) p =
      .ok (r.select? methods ⟨p.className, p.memberName, params, returnType⟩) := by
    rw [Resolver.answerParts, hclass, hs, ← hquery]
    rfl
  have hmethods : (reg.demand? r.loader (l.target? r)).methods p.className = methods := by
    rw [target?_eq_className hm, hp]
    exact Registry.methods_demand hclass
  rw [run_eq]
  refine ⟨r.select? methods ⟨p.className, p.memberName, params, returnType⟩, ?_, ?_⟩
  · rcases answer_of_parts? hp (reg.available? r.loader) with ha | ha
    · rw [ha, hanswer]
    · rw [ha, hanswer]
      rfl
  · simp only [hmethods]
    exact r.selects_select? methods _

theorem answer_withFallback (r : Resolver) (available? : Text → Option (List Method)) (l : Lookup) :
    l.answer (r.withFallback true) available? = l.answer (r.withFallback false) available? ∨
      l.answer (r.withFallback false) available? = .method (.ok none) ∧
        ∃ m, l.answer (r.withFallback true) available? = .method (.ok (some m)) := by
  have hread : ∀ read : Except SignatureError Parts,
      (read >>= (r.withFallback true).answerParts available?) =
          (read >>= (r.withFallback false).answerParts available?) ∨
        (read >>= (r.withFallback false).answerParts available?) = .ok none ∧
          ∃ m, (read >>= (r.withFallback true).answerParts available?) = .ok (some m) := by
    intro read
    cases read with
    | error e => exact Or.inl rfl
    | ok p => exact r.answerParts_withFallback available? p
  cases l with
  | logLine line =>
    rcases hread (Parts.ofLogLine line) with hsame | ⟨hoff, m, hon⟩
    · exact Or.inl (congrArg Answer.method hsame)
    · exact Or.inr ⟨congrArg Answer.method hoff, m, congrArg Answer.method hon⟩
  | comment currentClass? text =>
    rcases hread (Parts.ofComment (r.commentReference currentClass? text)) with
      hsame | ⟨hoff, m, hon⟩
    · exact Or.inl (congrArg Answer.method hsame)
    · exact Or.inr ⟨congrArg Answer.method hoff, m, congrArg Answer.method hon⟩
  | dictionaryId dictionary id =>
    simp only [answer]
    cases dictionary.method? id with
    | none => exact Or.inl rfl
    | some s =>
      simp only [Option.bind_some]
      rcases r.answerParts_withFallback available? s.parts with hsame | ⟨hoff, m, hon⟩
      · exact Or.inl (by rw [hsame])
      · exact Or.inr ⟨by rw [hoff]; rfl, m, by rw [hon]; rfl⟩
  | loadClass name => exact Or.inl rfl

/-- **The fallback only adds answers**: it changes neither a method that is found without it nor a
fault, and what becomes of the registry does not depend on it. -/
theorem run_withFallback (r : Resolver) (reg : Registry) (l : Lookup) :
    (l.run (r.withFallback true) reg).2 = (l.run (r.withFallback false) reg).2 ∧
      ((l.run (r.withFallback true) reg).1 = (l.run (r.withFallback false) reg).1 ∨
        (l.run (r.withFallback false) reg).1 = .method (.ok none) ∧
          ∃ m, (l.run (r.withFallback true) reg).1 = .method (.ok (some m))) := by
  have htarget : l.target? (r.withFallback true) = l.target? (r.withFallback false) := by
    cases l <;> rfl
  rw [run_eq, run_eq, htarget]
  exact ⟨rfl, answer_withFallback r (reg.available? r.loader) l⟩

variable {t : ClassTable} {types types₀ : TypeSystem} {settings settings₀ : ResolverSettings}
  {history : List Step}

/-- The methods that are available under a name belong to the class of that name. -/
theorem className_of_available {name : Text} {methods : List Method}
    (h : (Step.after ⟨types₀, t.loader, settings₀⟩ history).available? t.loader name = some methods)
    {m : Method} (hm : m ∈ methods) : m.className = name.dotted := by
  have heq := Step.available?_after_eq ⟨types₀, t.loader, settings₀⟩ history name
  obtain ⟨c, hstub, rfl⟩ := Option.map_eq_some_iff.mp (heq.symm.trans h)
  rw [ClassStub.className_of_mem_declared hm, Step.className_of_stub? hstub]

/-- **What is found belongs to the class that was asked for**, and has the name and the return type
that were asked for. -/
theorem className_of_found (hl : l.IsOfMethod) {m : Method}
    (h : (l.run ⟨types, t.loader, settings⟩
      (Step.after ⟨types₀, t.loader, settings₀⟩ history)).1 = .method (.ok (some m))) :
    ∃ p, l.parts? ⟨types, t.loader, settings⟩ = some p ∧
      m ∈ (l.run ⟨types, t.loader, settings⟩
        (Step.after ⟨types₀, t.loader, settings₀⟩ history)).2.methods p.className ∧
      m.className = p.className ∧ m.name = p.memberName ∧
      types.resolveName p.returnType = .ok m.returnType := by
  rw [run_eq] at h ⊢
  obtain ⟨p, hp, hfound⟩ := exists_parts_of_answer h
  obtain ⟨⟨methods, hclass, hm⟩, hname, hreturn⟩ :=
    Resolver.mem_of_answerParts (typeVariables_of_parts? hp) hfound
  refine ⟨p, hp, ?_, ?_, hname, hreturn⟩
  · rw [target?_eq_className hl, hp]
    simp only [Option.map_some, Registry.demand?]
    rw [Registry.methods_demand hclass]
    exact hm
  · rw [className_of_available hclass hm]
    exact Text.dotted_eq_self (slash_not_mem_of_parts? hl hp)

/--
**Equal types come before assignable ones, and the fallback only adds answers.** For every registry
that any history of registrations and lookups leaves behind, and every lookup of a method:

1. Where its class is there or can be loaded and its types are known, it answers the first declared
   method of the class with the name, the return type and equal parameters; only where there is
   none, and the settings allow it, the first with assignable parameters; and otherwise that there
   is none.
2. What becomes of the registry does not depend on the fallback, and neither does the answer, unless
   there is none without the fallback: then a method may be found with it.
3. A method that is found belongs to the class that was asked for, and has the name and the return
   type that were asked for.
-/
theorem equal_before_assignable (t : ClassTable) (types types₀ : TypeSystem)
    (settings settings₀ : ResolverSettings) (history : List Step) (hl : l.IsOfMethod) :
    let r : Resolver := ⟨types, t.loader, settings⟩
    let reg := Step.after ⟨types₀, t.loader, settings₀⟩ history
    (∀ p params returnType, l.parts? r = some p →
      (p.className ∈ reg.classes.keys ∨ t.contains p.className = true) →
      p.paramTypes.mapM types.resolveName = .ok params →
      types.resolveName p.returnType = .ok returnType →
      ∃ found, (l.run r reg).1 = .method (.ok found) ∧
        r.Selects ((l.run r reg).2.methods p.className)
          ⟨p.className, p.memberName, params, returnType⟩ found) ∧
    ((l.run (r.withFallback true) reg).2 = (l.run (r.withFallback false) reg).2 ∧
      ((l.run (r.withFallback true) reg).1 = (l.run (r.withFallback false) reg).1 ∨
        (l.run (r.withFallback false) reg).1 = .method (.ok none) ∧
          ∃ m, (l.run (r.withFallback true) reg).1 = .method (.ok (some m)))) ∧
    (∀ m, (l.run r reg).1 = .method (.ok (some m)) →
      ∃ p, l.parts? r = some p ∧ m ∈ (l.run r reg).2.methods p.className ∧
        m.className = p.className ∧ m.name = p.memberName ∧
        types.resolveName p.returnType = .ok m.returnType) := by
  intro r reg
  refine ⟨?_, run_withFallback r reg l, fun m hm => className_of_found hl hm⟩
  intro p params returnType hp hclass hparams hreturn
  obtain ⟨methods, hmethods⟩ : ∃ methods, reg.available? r.loader p.className = some methods := by
    rw [← Option.isSome_iff_exists, Registry.available?, Option.isSome_or, Option.isSome_map,
      Bool.or_eq_true, Table.find?_isSome_iff]
    exact hclass
  exact selects_of_run hl hp hmethods hparams hreturn

/-- Of two overloads the one with equal types is found, though the other is declared before it and
would do; where neither has equal types, the other is found, but only with the fallback. -/
theorem equal_before_assignable_overloads :
    let object : MethodStub := ⟨['f'], "(Ljava/lang/Object;)V".toList, 1⟩
    let string : MethodStub := ⟨['f'], "(Ljava/lang/String;)V".toList, 1⟩
    let t := ClassTable.platform.add ⟨"a.B".toList, 1, none, [], [object, string]⟩
    let r : Resolver := ⟨t.typeSystem, t.loader, {}⟩
    let ofString : Lookup := .logLine "a/B f (Ljava/lang/String;)V".toList
    let ofInteger : Lookup := .logLine "a/B f (Ljava/lang/Integer;)V".toList
    let stringType : Descriptor := ⟨.reference "java.lang.String".toList, 0⟩
    let objectType : Descriptor := ⟨.reference "java.lang.Object".toList, 0⟩
    (∃ m, (ofString.run r Registry.empty).1 = .method (.ok (some m)) ∧ m.params = [stringType] ∧
      m.className = "a.B".toList ∧
      r.Selects ((ofString.run r Registry.empty).2.methods "a.B".toList)
        ⟨"a.B".toList, ['f'], [stringType], .primitive .void⟩ (some m)) ∧
    (ofInteger.run (r.withFallback false) Registry.empty).1 = .method (.ok none) ∧
    ∃ m, (ofInteger.run (r.withFallback true) Registry.empty).1 = .method (.ok (some m)) ∧
      m.params = [objectType] := by
  intro object string t r ofString ofInteger stringType objectType
  have hparts : ofString.parts? r = some ⟨"a.B".toList, ['f'], 0, ["java.lang.String".toList],
      "void".toList, Table.empty, false⟩ := by decide +kernel
  have hparams : ["java.lang.String".toList].mapM r.types.resolveName = .ok [stringType] := by
    decide +kernel
  have hreturn : r.types.resolveName "void".toList = .ok (.primitive .void) := by decide +kernel
  have hstring : ((ofString.run r Registry.empty).1.found?).map Method.params =
      some [stringType] := by decide +kernel
  have hinteger : ((ofInteger.run (r.withFallback true) Registry.empty).1.found?).map
      Method.params = some [objectType] := by decide +kernel
  have hstrict : (ofInteger.run (r.withFallback false) Registry.empty).1.found? = none := by
    decide +kernel
  obtain ⟨m, hfound, hm⟩ := Option.map_eq_some_iff.mp hstring
  have hrun := Answer.eq_of_found? hfound
  obtain ⟨hselects, -, hclass⟩ :=
    equal_before_assignable t t.typeSystem t.typeSystem {} {} [] (l := ofString) trivial
  obtain ⟨found, hsame, hselected⟩ := hselects _ _ _ hparts (Or.inr rfl) hparams hreturn
  obtain rfl : some m = found := Except.ok.inj (Answer.method.inj (hrun.symm.trans hsame))
  obtain ⟨p, hp, -, hname, -⟩ := hclass m hrun
  obtain rfl := Option.some.inj (hparts.symm.trans hp)
  refine ⟨⟨m, hrun, hm, hname, hselected⟩, ?_⟩
  obtain ⟨-, ⟨-, hadds⟩, -⟩ :=
    equal_before_assignable t t.typeSystem t.typeSystem {} {} [] (l := ofInteger) trivial
  rcases hadds with hequal | ⟨hoff, m', hon⟩
  · have hboth : (ofInteger.run (r.withFallback true) Registry.empty).1.found? = none :=
      (congrArg Answer.found? hequal).trans hstrict
    rw [hboth] at hinteger
    cases hinteger
  · refine ⟨hoff, m', hon, ?_⟩
    have hfound' : (ofInteger.run (r.withFallback true) Registry.empty).1.found? = some m' :=
      congrArg Answer.found? hon
    rw [hfound'] at hinteger
    exact Option.some.inj hinteger

end Lookup

end JvmSignature
