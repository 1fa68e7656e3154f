import JvmSignature.ClassTable.Platform
import JvmSignature.Proofs.Registry.Lookup
import Mathlib.Data.Finset.Card
import Mathlib.Data.Finset.Insert
import Mathlib.Data.List.Basic

/-!
# Histories of a registry

A registry has two writers: a registration puts a class in the place of any earlier one, a lookup
adds a class only where none is. Of every registry that comes from the empty one by any history of
both this file says what it holds and what it counts, in terms of the history alone
(`after_history`).

The step lemma is `Lookup.registry_cases`: a lookup changes nothing or adds one class that the
loader has. The induction is on the history from its end, because the last registration of a name
is the one that counts.
-/

namespace JvmSignature

/-- One use of a registry. -/
inductive Step where
  | register (stub : ClassStub)
  | lookup (l : Lookup)

/-- A lookup changes nothing, or it adds a class that was not there, as the loader has it. -/
theorem Lookup.registry_cases (r : Resolver) (reg : Registry) (l : Lookup) :
    (l.run r reg).2 = reg ∨
      ∃ name stub, reg.contains name = false ∧ r.loader name = some stub ∧
        (l.run r reg).2 = ⟨reg.classes.insert name stub.declared, reg.loads + 1⟩ := by
  rw [Lookup.run_eq]
  cases l.target? r with
  | none => exact Or.inl rfl
  | some name =>
    rcases Registry.demand_cases reg r.loader name with ⟨-, hd⟩ | ⟨-, -, hd⟩ | ⟨stub, hc, hl, hd⟩
    · exact Or.inl hd
    · exact Or.inl hd
    · exact Or.inr ⟨name, stub, hc, hl, hd⟩

namespace Step

/-- The registry after one use of it. -/
def run (r : Resolver) (reg : Registry) : Step → Registry
  | register stub => reg.register stub
  | lookup l => (l.run r reg).2

/-- The stub that a step registers. -/
def registered? : Step → Option ClassStub
  | register stub => some stub
  | lookup _ => none

/-- The registry after a history that starts without classes. -/
def after (r : Resolver) (history : List Step) : Registry :=
  history.foldl (run r) Registry.empty

/-- The stubs that a history registers, in their order. -/
def registrations (history : List Step) : List ClassStub := history.filterMap registered?

/-- The stub that was registered last under a name. -/
def lastRegistered? (history : List Step) (name : Text) : Option ClassStub :=
  ((registrations history).filter fun stub => stub.className = name).getLast?

/-- Whether a class first came into the registry because a lookup loaded it. -/
def EnteredByLoad (r : Resolver) (history : List Step) (name : Text) : Prop :=
  ∃ before l rest, history = before ++ lookup l :: rest ∧
    (after r before).contains name = false ∧ (after r (before ++ [lookup l])).contains name = true

/-! ## One more step -/

variable {r : Resolver} {history : List Step}

theorem after_concat (r : Resolver) (history : List Step) (s : Step) :
    after r (history ++ [s]) = s.run r (after r history) := by
  rw [after, List.foldl_append]
  rfl

theorem registrations_register (history : List Step) (stub : ClassStub) :
    registrations (history ++ [register stub]) = registrations history ++ [stub] := by
  rw [registrations, List.filterMap_append]
  rfl

theorem registrations_lookup (history : List Step) (l : Lookup) :
    registrations (history ++ [lookup l]) = registrations history := by
  rw [registrations, List.filterMap_append]
  exact List.append_nil _

theorem lastRegistered?_register (history : List Step) (stub : ClassStub) (name : Text) :
    lastRegistered? (history ++ [register stub]) name =
      if stub.className = name then some stub else lastRegistered? history name := by
  rw [lastRegistered?, registrations_register, List.filter_append]
  by_cases h : stub.className = name
  · simp [h]
  · simp [h, lastRegistered?]

theorem lastRegistered?_lookup (history : List Step) (l : Lookup) (name : Text) :
    lastRegistered? (history ++ [lookup l]) name = lastRegistered? history name := by
  rw [lastRegistered?, registrations_lookup, lastRegistered?]

/-- What a registry holds under a name after one more registration. -/
theorem find?_register (reg : Registry) (stub : ClassStub) (name : Text) :
    (reg.register stub).classes.find? name =
      if name = stub.className then some stub.declared else reg.classes.find? name := by
  rw [Registry.register, Table.find?_insert]

/-- A step takes no class away. -/
theorem contains_run (s : Step) {reg : Registry} {name : Text} (h : reg.contains name = true) :
    (s.run r reg).contains name = true := by
  cases s with
  | register stub =>
    rw [run, Registry.contains_eq, find?_register]
    split
    · rfl
    · exact h
  | lookup l =>
    rw [run]
    rcases l.registry_cases r reg with hl | ⟨new, stub, -, -, hl⟩
    · rw [hl]; exact h
    · rw [hl, Registry.contains_eq, Table.find?_insert]
      split
      · rfl
      · exact h

/-- **No history takes a class away.** -/
theorem contains_after_append (history more : List Step) {name : Text}
    (h : (after r history).contains name = true) :
    (after r (history ++ more)).contains name = true := by
  induction more using List.reverseRecOn with
  | nil => rwa [List.append_nil]
  | append_singleton more s ih =>
    rw [← List.append_assoc, after_concat]
    exact contains_run s ih

/-- **A lookup leaves every class as it is that is there already.** -/
theorem find?_lookup_of_contains (l : Lookup) {reg : Registry} {name : Text}
    (h : reg.contains name = true) :
    (l.run r reg).2.classes.find? name = reg.classes.find? name := by
  rcases l.registry_cases r reg with hl | ⟨new, stub, hc, -, hl⟩
  · rw [hl]
  · have hne : name ≠ new := by
      rintro rfl
      rw [h] at hc
      cases hc
    rw [hl, Table.find?_insert, if_neg hne]

/-- The classes that entered by a load are those of before, and what the last step loaded. -/
theorem enteredByLoad_concat (s : Step) (name : Text) :
    EnteredByLoad r (history ++ [s]) name ↔
      EnteredByLoad r history name ∨
        ∃ l, s = lookup l ∧ (after r history).contains name = false ∧
          (after r (history ++ [s])).contains name = true := by
  constructor
  · rintro ⟨before, l, rest, he, hb, ha⟩
    rcases List.eq_nil_or_concat rest with rfl | ⟨rest', s', rfl⟩
    · obtain ⟨rfl, hs⟩ := List.append_inj' he rfl
      obtain rfl : s = lookup l := by simpa using hs
      exact Or.inr ⟨l, rfl, hb, ha⟩
    · rw [List.concat_eq_append, ← List.cons_append, ← List.append_assoc] at he
      obtain ⟨rfl, -⟩ := List.append_inj' he rfl
      exact Or.inl ⟨before, l, rest', rfl, hb, ha⟩
  · rintro (⟨before, l, rest, rfl, hb, ha⟩ | ⟨l, rfl, hb, ha⟩)
    · exact ⟨before, l, rest ++ [s], by simp, hb, ha⟩
    · exact ⟨history, l, [], rfl, hb, ha⟩

/-- A class that entered by a load is there for good. -/
theorem contains_of_enteredByLoad {name : Text} (h : EnteredByLoad r history name) :
    (after r history).contains name = true := by
  obtain ⟨before, l, rest, rfl, -, ha⟩ := h
  have := contains_after_append (before ++ [lookup l]) rest ha
  rwa [List.append_assoc] at this

/-! ## What a history leaves behind -/

/-- Every class that was registered is there. -/
theorem contains_of_lastRegistered? {name : Text} {stub : ClassStub}
    (h : lastRegistered? history name = some stub) :
    (after r history).contains name = true := by
  induction history using List.reverseRecOn generalizing stub with
  | nil => cases h
  | append_singleton history s ih =>
    rw [after_concat]
    cases s with
    | register new =>
      rw [lastRegistered?_register] at h
      by_cases hn : new.className = name
      · rw [run, Registry.contains_eq, find?_register, if_pos hn.symm]
        rfl
      · rw [if_neg hn] at h
        exact contains_run _ (ih h)
    | lookup l =>
      rw [lastRegistered?_lookup] at h
      exact contains_run _ (ih h)

/-- A class is there as it was registered last, or else as the loader has it. -/
theorem find?_after {name : Text} (h : (after r history).contains name = true) :
    (after r history).classes.find? name =
      ((lastRegistered? history name).or (r.loader name)).map ClassStub.declared := by
  induction history using List.reverseRecOn with
  | nil => cases h
  | append_singleton history s ih =>
    rw [after_concat] at h ⊢
    cases s with
    | register new =>
      rw [run, find?_register, lastRegistered?_register]
      by_cases hn : new.className = name
      · rw [if_pos hn.symm, if_pos hn, Option.some_or, Option.map_some]
      · rw [if_neg (Ne.symm hn), if_neg hn]
        refine ih ?_
        rwa [run, Registry.contains_eq, find?_register, if_neg (Ne.symm hn)] at h
    | lookup l =>
      rw [run, lastRegistered?_lookup]
      by_cases hb : (after r history).contains name = true
      · rw [find?_lookup_of_contains l hb, ih hb]
      · -- The lookup has loaded the class, so it was not registered before.
        rcases l.registry_cases r (after r history) with hl | ⟨new, stub, hc, hload, hl⟩
        · rw [run, hl] at h
          exact absurd h hb
        · have hn : name = new := by
            by_contra hne
            rw [run, hl, Registry.contains_eq, Table.find?_insert, if_neg hne] at h
            exact hb h
          have hnone : lastRegistered? history name = none := by
            cases hr : lastRegistered? history name with
            | none => rfl
            | some stub' => exact absurd (contains_of_lastRegistered? hr) hb
          rw [hl, Table.find?_insert, if_pos hn, hnone, Option.none_or, hn, hload, Option.map_some]

/-- The stub that a class has after a history: the one that was registered last, or else that of the
loader. -/
def stub? (r : Resolver) (history : List Step) (name : Text) : Option ClassStub :=
  (lastRegistered? history name).or (r.loader name)

/-- **The methods that are available after a history are those of the stubs.** -/
theorem available?_after_eq (r : Resolver) (history : List Step) (name : Text) :
    (after r history).available? r.loader name = (stub? r history name).map ClassStub.declared := by
  unfold Registry.available? stub?
  cases hc : (after r history).contains name with
  | true =>
    rw [find?_after hc]
    cases lastRegistered? history name with
    | some stub => rfl
    | none => cases r.loader name <;> rfl
  | false =>
    have hnone : lastRegistered? history name = none := by
      cases hr : lastRegistered? history name with
      | none => rfl
      | some stub =>
        rw [contains_of_lastRegistered? hr] at hc
        cases hc
    rw [Registry.contains_eq_false_iff.mp hc, hnone, Option.none_or, Option.none_or]

/-- A class that was never registered is available as the loader has it. -/
theorem available?_after {name : Text} (h : lastRegistered? history name = none) :
    (after r history).available? r.loader name = (r.loader name).map ClassStub.declared := by
  rw [available?_after_eq, stub?, h, Option.none_or]

/-- The classes that a load brought in first are as many as were counted. -/
theorem exists_loaded_finset (r : Resolver) (history : List Step) :
    ∃ loaded : Finset Text, (∀ name, name ∈ loaded ↔ EnteredByLoad r history name) ∧
      (after r history).loads = loaded.card := by
  induction history using List.reverseRecOn with
  | nil =>
    refine ⟨∅, fun name => ?_, rfl⟩
    simp [EnteredByLoad]
  | append_singleton history s ih =>
    obtain ⟨loaded, hmem, hcard⟩ := ih
    cases s with
    | register stub =>
      refine ⟨loaded, fun name => ?_, ?_⟩
      · rw [hmem, enteredByLoad_concat]
        simp
      · rw [after_concat, run, Registry.register]
        exact hcard
    | lookup l =>
      rcases l.registry_cases r (after r history) with hl | ⟨new, stub, hc, -, hl⟩
      · refine ⟨loaded, fun name => ?_, ?_⟩
        · rw [hmem, enteredByLoad_concat, after_concat, run, hl]
          constructor
          · exact Or.inl
          · rintro (h | ⟨-, -, hb, ha⟩)
            · exact h
            · rw [hb] at ha
              cases ha
        · rw [after_concat, run, hl, hcard]
      · have hnew : new ∉ loaded := by
          intro h
          rw [contains_of_enteredByLoad ((hmem new).mp h)] at hc
          cases hc
        refine ⟨insert new loaded, fun name => ?_, ?_⟩
        · rw [Finset.mem_insert, hmem, enteredByLoad_concat, after_concat, run, hl]
          constructor
          · rintro (rfl | h)
            · exact Or.inr ⟨l, rfl, hc, by
              simp [Registry.contains_eq, Table.find?_insert]⟩
            · exact Or.inl h
          · rintro (h | ⟨-, -, hb, ha⟩)
            · exact Or.inr h
            · rw [Registry.contains_eq, Table.find?_insert] at ha
              by_cases hn : name = new
              · exact Or.inl hn
              · rw [if_neg hn] at ha
                rw [Registry.contains_eq, ha] at hb
                cases hb
        · rw [after_concat, run, hl, Finset.card_insert_of_notMem hnew, hcard]

/-- The loaded classes are among those that are there. -/
theorem loads_le_size (r : Resolver) (history : List Step) :
    (after r history).loads ≤ (after r history).size ∧
      (after r history).size = (after r history).classes.keys.toFinset.card := by
  obtain ⟨loaded, hmem, hcard⟩ := exists_loaded_finset r history
  have hsize : (after r history).classes.keys.toFinset.card = (after r history).size := by
    rw [List.toFinset_card_of_nodup (after r history).classes.nodup_keys, Table.length_keys]
    rfl
  have hsub : loaded ⊆ (after r history).classes.keys.toFinset := by
    intro name hn
    rw [List.mem_toFinset, ← Table.contains_iff]
    exact contains_of_enteredByLoad ((hmem name).mp hn)
  exact ⟨by rw [hcard, ← hsize]; exact Finset.card_le_card hsub, hsize.symm⟩

/--
**What a registry holds and counts, after any history.**

1. Its names only grow in number.
2. Under a name that was registered it holds the methods of the stub that was registered last.
3. Under any other of its names it holds the methods that the loader has for it.
4. A lookup never replaces what is there.
5. The number of loads is the number of the classes that a load brought in first.
6. It is at most the number of classes, which is the number of different names.
-/
theorem after_history (r : Resolver) (history : List Step) :
    (∀ more, ∀ name ∈ (after r history).classes.keys,
      name ∈ (after r (history ++ more)).classes.keys) ∧
    (∀ name stub, lastRegistered? history name = some stub →
      (after r history).classes.find? name = some stub.declared) ∧
    (∀ name ∈ (after r history).classes.keys, lastRegistered? history name = none →
      ∃ stub, r.loader name = some stub ∧
        (after r history).classes.find? name = some stub.declared) ∧
    (∀ l, ∀ name ∈ (after r history).classes.keys,
      (after r (history ++ [lookup l])).classes.find? name =
        (after r history).classes.find? name) ∧
    (∃ loaded : Finset Text, (∀ name, name ∈ loaded ↔ EnteredByLoad r history name) ∧
      (after r history).loads = loaded.card) ∧
    (after r history).loads ≤ (after r history).size ∧
    (after r history).size = (after r history).classes.keys.toFinset.card := by
  refine ⟨?_, ?_, ?_, ?_, exists_loaded_finset r history, loads_le_size r history⟩
  · intro more name hn
    exact Table.contains_iff.mp (contains_after_append history more (Table.contains_iff.mpr hn))
  · intro name stub hs
    rw [find?_after (contains_of_lastRegistered? hs), hs, Option.some_or, Option.map_some]
  · intro name hn hs
    have hfind := find?_after (r := r) (Table.contains_iff.mpr hn)
    rw [hs, Option.none_or] at hfind
    cases hl : r.loader name with
    | none =>
      -- A name without a value is no name of the table.
      rw [hl, Option.map_none] at hfind
      have hsome := Table.find?_isSome_iff.mpr hn
      rw [hfind] at hsome
      cases hsome
    | some stub => exact ⟨stub, rfl, by rw [hfind, hl, Option.map_some]⟩
  · intro l name hn
    rw [after_concat]
    exact find?_lookup_of_contains l (Table.contains_iff.mpr hn)

/-- A platform class is loaded and then registered without methods; another is only loaded. -/
theorem after_history_platform :
    let r : Resolver := ⟨ClassTable.platform.typeSystem, ClassTable.platform.loader, {}⟩
    let stub : ClassStub := ⟨"java/lang/String".toList, 1, none, [], []⟩
    let list : Text := "java.util.List".toList
    let history := [lookup (.loadClass "java.lang.String".toList), register stub,
      lookup (.loadClass list)]
    (lastRegistered? history "java.lang.String".toList = some stub ∧
      (after r history).classes.find? "java.lang.String".toList = some stub.declared) ∧
    (list ∈ (after r history).classes.keys ∧ lastRegistered? history list = none ∧
      list ∈ (after r (history ++ [register stub])).classes.keys ∧
      (∃ stub, r.loader list = some stub ∧
        (after r history).classes.find? list = some stub.declared) ∧
      (after r (history ++ [lookup (.loadClass list)])).classes.find? list =
        (after r history).classes.find? list) := by
  intro r stub list history
  obtain ⟨hgrow, hlast, hloaded, hkept, -⟩ := after_history r history
  have hstub : lastRegistered? history "java.lang.String".toList = some stub := by decide
  have hlist : list ∈ (after r history).classes.keys := by decide
  have hnone : lastRegistered? history list = none := by decide
  exact ⟨⟨hstub, hlast _ _ hstub⟩, hlist, hnone, hgrow _ _ hlist, hloaded _ hlist hnone,
    hkept _ _ hlist⟩

end Step

end JvmSignature
