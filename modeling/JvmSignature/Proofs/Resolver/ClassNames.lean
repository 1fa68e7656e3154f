import JvmSignature.Proofs.Resolver.SelfLookup
import JvmSignature.Proofs.Signature.Splitting

/-!
# The names of registered classes

A registration writes the name of its class with dots, and so do the signatures that lookups read.
Only a class that is loaded by its name is registered under the name as it was asked for. A table
that has a class under a name with slashes loads it under that name, so the class can be there twice.

This is the only way in which a name with slashes comes into a registry (`classNames_after`). It
rests on what is there after a history: the classes that some step of it brings in.
-/

namespace JvmSignature

/-- Every method of a class bears the name of the class, with dots. -/
theorem ClassStub.className_of_mem_declared {stub : ClassStub} {m : Method}
    (h : m ∈ stub.declared) : m.className = stub.className := by
  obtain ⟨s, -, hs⟩ := List.mem_filterMap.mp h
  obtain ⟨-, d, -, rfl⟩ := MethodStub.method?_eq_some_iff.mp hs
  rfl

/-! ## The names that lookups ask for -/

theorem Text.mem_of_mem_trim {s : Text} {c : Char} (h : c ∈ s.trim) : c ∈ s :=
  (trimStart_isSuffix s).subset ((trimEnd_isPrefix _).subset h)

/-- A log line names its class with dots. -/
theorem Parts.slash_not_mem_of_ofLogLine {line : Text} {p : Parts}
    (h : Parts.ofLogLine line = .ok p) : '/' ∉ p.className := by
  unfold Parts.ofLogLine LogLine.ofLine at h
  cases hp : LogLine.pieces? line.trim.dotted.unescapeAngles with
  | none =>
    rw [hp] at h
    cases h
  | some l =>
    rw [hp] at h
    cases h
    intro hm
    have hclass : '/' ∈ l.className := Text.mem_of_mem_trim hm
    exact (LogLine.splits_of_pieces? hp).1.classChars '/' hclass (by decide)

/-- A comment is read with its class written with dots. -/
theorem Parts.slash_not_mem_of_ofComment {comment : Text} {p : Parts}
    (h : Parts.ofComment comment = .ok p) : '/' ∉ p.className := by
  unfold Parts.ofComment at h
  split at h
  · cases h
  · split at h
    · cases h
    · next owner name _ =>
      split at h
      · cases h
      · cases h
        exact Text.slash_not_mem_dotted owner

theorem Dictionary.slash_not_mem_of_method? {d : Dictionary} {id : Text} {s : DictionaryMethod}
    (h : d.method? id = some s) : '/' ∉ s.className := by
  simp only [method?, Option.bind_eq_bind, Option.bind_eq_some_iff] at h
  obtain ⟨_, _, _, _, _, _, owner, _, _, _, _, _, _, _, hs⟩ := h
  cases hs
  exact Text.slash_not_mem_dotted owner

/-- **Only a class that is loaded by its name is asked for by a name with slashes.** -/
theorem Lookup.eq_loadClass_of_target? {r : Resolver} {l : Lookup} {name : Text}
    (h : l.target? r = some name) (hs : '/' ∈ name) : l = .loadClass name := by
  have hread : ∀ read : Except SignatureError Parts, (∀ p, read = .ok p → '/' ∉ p.className) →
      read.toOption.map Parts.className ≠ some name := by
    intro read hdots hname
    cases read with
    | error e => cases hname
    | ok p =>
      cases hname
      exact hdots p rfl hs
  cases l with
  | logLine line => exact absurd h (hread _ fun p => Parts.slash_not_mem_of_ofLogLine)
  | comment currentClass? text => exact absurd h (hread _ fun p => Parts.slash_not_mem_of_ofComment)
  | dictionaryId dictionary id =>
    obtain ⟨s, hm, rfl⟩ := Option.map_eq_some_iff.mp h
    exact absurd hs (Dictionary.slash_not_mem_of_method? hm)
  | loadClass asked =>
    cases h
    rfl

namespace Step

variable {r : Resolver} {name : Text}

/-! ## The classes that a history brings in -/

/-- Whether a step sees to it that a class is registered under a name: it registers the class, or
asks for it where it can be loaded. -/
def Brings (r : Resolver) (name : Text) : Step → Prop
  | register stub => stub.className = name
  | lookup l => l.target? r = some name ∧ (r.loader name).isSome = true

/-- After a step a class is there that was there before or that the step brings in. -/
theorem contains_run_iff (r : Resolver) (reg : Registry) (s : Step) (name : Text) :
    (s.run r reg).contains name = true ↔ reg.contains name = true ∨ s.Brings r name := by
  cases s with
  | register stub =>
    rw [run, Registry.contains_eq, find?_register, Registry.contains_eq, Brings]
    by_cases hn : name = stub.className
    · simp [hn]
    · simp [hn, Ne.symm hn]
  | lookup l =>
    rw [run, Brings, Lookup.run_eq]
    cases ht : l.target? r with
    | none => simp [Registry.demand?]
    | some asked =>
      rw [Registry.demand?, Registry.contains_eq, Registry.find?_demand, Registry.contains_eq]
      by_cases hn : name = asked
      · subst hn
        simp [Registry.available?, Option.isSome_or]
      · simp [hn, Ne.symm hn]

/-- **What is there after a history is what its steps bring in.** -/
theorem contains_after_iff {history : List Step} :
    (after r history).contains name = true ↔ ∃ s ∈ history, s.Brings r name := by
  induction history using List.reverseRecOn with
  | nil => simp [after, Registry.empty, Registry.contains, Table.contains]
  | append_singleton history s ih =>
    rw [after_concat, contains_run_iff, ih]
    constructor
    · rintro (⟨s', hs', hb⟩ | hb)
      · exact ⟨s', List.mem_append_left _ hs', hb⟩
      · exact ⟨s, by simp, hb⟩
    · rintro ⟨s', hs', hb⟩
      rcases List.mem_append.mp hs' with hm | hm
      · exact Or.inl ⟨s', hm, hb⟩
      · rw [List.mem_singleton.mp hm] at hb
        exact Or.inr hb

/-- The stub that was registered last under a name has that name. -/
theorem className_of_lastRegistered? {history : List Step} {stub : ClassStub}
    (h : lastRegistered? history name = some stub) : stub.className = name := by
  have hm := List.mem_of_getLast? h
  simpa using (List.mem_filter.mp hm).2

/-! ## Names with slashes -/

/-- Whether a class is loaded by a name with slashes that the table has. -/
def LoadsSlashed (t : ClassTable) (history : List Step) : Prop :=
  ∃ name, lookup (.loadClass name) ∈ history ∧ '/' ∈ name ∧ t.contains name = true

variable {t : ClassTable} {types : TypeSystem} {settings : ResolverSettings}
  {history : List Step}

/-- The class that a name has after a history is called by that name, with dots. -/
theorem className_of_stub? {c : ClassStub}
    (h : stub? ⟨types, t.loader, settings⟩ history name = some c) : c.className = name.dotted := by
  unfold stub? at h
  cases hlast : lastRegistered? history name with
  | some last =>
    -- A registered name has no slash left, so dots change nothing.
    rw [hlast, Option.some_or] at h
    cases h
    have hname := className_of_lastRegistered? hlast
    have hdots : '/' ∉ name := hname ▸ Text.slash_not_mem_dotted c.binaryName
    rw [hname, Text.dotted_eq_self hdots]
  | none =>
    rw [hlast, Option.none_or] at h
    rw [ClassStub.className, ClassTable.binaryName_of_stub? h]

/-- The methods under a name belong to the class of that name, which is written with dots. -/
theorem className_of_mem_methods {m : Method}
    (h : m ∈ (after ⟨types, t.loader, settings⟩ history).methods name) :
    m.className = name.dotted := by
  unfold Registry.methods at h
  cases hfind : (after ⟨types, t.loader, settings⟩ history).classes.find? name with
  | none =>
    rw [hfind] at h
    cases h
  | some methods =>
    have hc : (after ⟨types, t.loader, settings⟩ history).contains name = true := by
      rw [Registry.contains_eq, hfind]
      rfl
    have hfound := find?_after hc
    rw [hfind] at h hfound
    obtain ⟨c, hstub, rfl⟩ := Option.map_eq_some_iff.mp hfound.symm
    rw [ClassStub.className_of_mem_declared h, className_of_stub? hstub]

/-- A name with slashes is there when its class was loaded by it. -/
theorem slashed_mem_keys_iff (hs : '/' ∈ name) :
    name ∈ (after ⟨types, t.loader, settings⟩ history).classes.keys ↔
      lookup (.loadClass name) ∈ history ∧ t.contains name = true := by
  rw [← Table.contains_iff]
  refine Iff.trans contains_after_iff ?_
  constructor
  · rintro ⟨s, hm, hb⟩
    cases s with
    | register stub =>
      have hdots := Text.slash_not_mem_dotted stub.binaryName
      exact absurd hs (hb ▸ hdots)
    | lookup l =>
      obtain ⟨htarget, hload⟩ := hb
      rw [Lookup.eq_loadClass_of_target? htarget hs] at hm
      exact ⟨hm, hload⟩
  · rintro ⟨hm, hload⟩
    exact ⟨_, hm, rfl, hload⟩

theorem no_slashed_key_iff :
    (∀ name ∈ (after ⟨types, t.loader, settings⟩ history).classes.keys, '/' ∉ name) ↔
      ¬ LoadsSlashed t history := by
  constructor
  · rintro h ⟨name, hm, hs, hload⟩
    exact h name ((slashed_mem_keys_iff hs).mpr ⟨hm, hload⟩) hs
  · intro h name hn hs
    obtain ⟨hm, hload⟩ := (slashed_mem_keys_iff hs).mp hn
    exact h ⟨name, hm, hs, hload⟩

/--
**The names under which classes are registered, after any history.**

1. The methods under a name are those of the class that has this name with dots.
2. A name with slashes is there exactly when a class was loaded by such a name, which the table has.
3. If none was, every method bears the name under which it is found, no class is there under two
   names, and the size counts each class once, however its name was spelled.
4. Nothing of the kind can be loaded from a table whose classes are named with dots.
-/
theorem classNames_after (t : ClassTable) (types : TypeSystem) (settings : ResolverSettings)
    (history : List Step) :
    let reg := after ⟨types, t.loader, settings⟩ history
    (∀ name, ∀ m ∈ reg.methods name, m.className = name.dotted) ∧
    ((∀ name ∈ reg.classes.keys, '/' ∉ name) ↔ ¬ LoadsSlashed t history) ∧
    (¬ LoadsSlashed t history →
      (∀ name, ∀ m ∈ reg.methods name, m.className = name) ∧
      (∀ a ∈ reg.classes.keys, ∀ b ∈ reg.classes.keys, a.dotted = b.dotted → a = b) ∧
      reg.size = (reg.classes.keys.map Text.dotted).toFinset.card) ∧
    ((∀ stub ∈ t.stubs, '/' ∉ stub.binaryName) → ¬ LoadsSlashed t history) := by
  intro reg
  have hclass : ∀ name, ∀ m ∈ reg.methods name, m.className = name.dotted :=
    fun name m hm => className_of_mem_methods hm
  refine ⟨hclass, no_slashed_key_iff, ?_, ?_⟩
  · intro hno
    have hdots : ∀ name ∈ reg.classes.keys, name.dotted = name := fun name hn =>
      Text.dotted_eq_self (no_slashed_key_iff.mpr hno name hn)
    have hkeys : reg.classes.keys.map Text.dotted = reg.classes.keys :=
      (List.map_congr_left hdots).trans (List.map_id _)
    refine ⟨?_, ?_, ?_⟩
    · intro name m hm
      have hn : name ∈ reg.classes.keys := by
        rw [← Table.find?_isSome_iff]
        unfold Registry.methods at hm
        cases hfind : reg.classes.find? name with
        | none =>
          rw [hfind] at hm
          cases hm
        | some methods => rfl
      rw [hclass name m hm, hdots name hn]
    · intro a ha b hb hab
      rwa [hdots a ha, hdots b hb] at hab
    · rw [hkeys]
      exact (loads_le_size _ history).2
  · rintro hnames ⟨name, -, hs, hload⟩
    obtain ⟨stub, hstub⟩ := Option.isSome_iff_exists.mp hload
    have hname := ClassTable.binaryName_of_stub? hstub
    exact hnames stub (List.mem_of_find?_eq_some hstub) (hname ▸ hs)

/-- One class of a table that writes names with slashes: a log line finds it where it is registered,
but loading it by its name puts it there a second time. -/
theorem classNames_after_slashes :
    let stub : ClassStub := ⟨"a/B".toList, 1, none, [], [⟨['f'], "()V".toList, 1⟩]⟩
    let t : ClassTable := ⟨[stub]⟩
    let found := [register stub, lookup (.logLine "a/B f ()V".toList)]
    let loaded := [register stub, lookup (.loadClass "a/B".toList)]
    let keys := fun history => (after ⟨t.typeSystem, t.loader, {}⟩ history).classes.keys
    (¬ LoadsSlashed t found ∧ keys found = ["a.B".toList] ∧
      ∀ m ∈ (after ⟨t.typeSystem, t.loader, {}⟩ found).methods "a.B".toList,
        m.className = "a.B".toList) ∧
    (LoadsSlashed t loaded ∧ keys loaded = ["a.B".toList, "a/B".toList] ∧
      ¬ ∀ name ∈ keys loaded, '/' ∉ name) := by
  intro stub t found loaded keys
  have hno : ¬ LoadsSlashed t found := by
    rintro ⟨name, hm, -⟩
    simp [found] at hm
  have hloads : LoadsSlashed t loaded := ⟨"a/B".toList, by simp [loaded], by decide, by decide⟩
  have hfound := (classNames_after t t.typeSystem {} found).2.2.1 hno
  have hloaded := (classNames_after t t.typeSystem {} loaded).2.1
  exact ⟨⟨hno, by decide +kernel, hfound.1 _⟩, hloads, by decide +kernel,
    fun h => hloaded.mp h hloads⟩

end Step

end JvmSignature
