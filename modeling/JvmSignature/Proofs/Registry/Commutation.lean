import JvmSignature.Proofs.Registry.Lookup
import JvmSignature.ClassTable.Platform

/-!
# Lookups commute

Lookups register classes on the way, each before it knows whether it will find anything. None of
that is seen by another lookup: a list of lookups answers what each of them answers alone
(`answers_runAll`), and what it leaves behind is settled by which lookups are among them
(`find?_runAll`).

Registries are compared by what can be asked of them. The order in which their classes came in is
not among that.
-/

namespace JvmSignature

namespace Table

variable {κ α : Type} [DecidableEq κ]

omit [DecidableEq κ] in
/-- Tables with the same keys have the same number of them. -/
theorem size_eq_of_mem_keys_iff {s t : Table κ α} (h : ∀ k, k ∈ s.keys ↔ k ∈ t.keys) :
    s.size = t.size := by
  have hp : s.keys.Perm t.keys := (List.perm_ext_iff_of_nodup s.nodup_keys t.nodup_keys).mpr h
  rw [← length_keys, ← length_keys, hp.length_eq]

theorem mem_keys_iff_of_find?_eq {s t : Table κ α} {k : κ} (h : s.find? k = t.find? k) :
    k ∈ s.keys ↔ k ∈ t.keys := by
  rw [← find?_isSome_iff, ← find?_isSome_iff, h]

end Table

namespace Registry

/-- Whether two registries have the same classes, with the same methods, and the same counts. -/
structure Same (a b : Registry) : Prop where
  find? : ∀ name, a.classes.find? name = b.classes.find? name
  size : a.size = b.size
  loads : a.loads = b.loads

/-- A class that was asked for adds as much to the number of loads as to the number of classes. -/
theorem loads_add_size_demand (reg : Registry) (loader : ClassLoader) (name : Text) :
    (reg.demand loader name).loads + reg.size = reg.loads + (reg.demand loader name).size := by
  rcases demand_cases reg loader name with ⟨-, hd⟩ | ⟨-, -, hd⟩ | ⟨stub, hc, -, hd⟩
  · rw [hd]
  · rw [hd]
  · have hs : (reg.classes.insert name stub.declared).size = reg.classes.size + 1 := by
      rw [Table.size_insert, if_neg (by rw [contains] at hc; simp [hc])]
    rw [hd]
    simp only [size, hs]
    omega

end Registry

namespace Lookup

variable {r : Resolver} {reg : Registry}

/-! ## One lookup -/

theorem snd_run (r : Resolver) (reg : Registry) (l : Lookup) :
    (l.run r reg).2 = reg.demand? r.loader (l.target? r) := by rw [run_eq]

/-- No lookup changes which classes are available. -/
theorem available?_run (r : Resolver) (reg : Registry) (l : Lookup) :
    (l.run r reg).2.available? r.loader = reg.available? r.loader := by
  rw [snd_run]
  cases l.target? r with
  | none => rfl
  | some name => exact Registry.available?_demand reg r.loader name

/-- **A lookup that is made again answers the same and changes nothing.** -/
theorem run_run (r : Resolver) (reg : Registry) (l : Lookup) :
    l.run r (l.run r reg).2 = l.run r reg := by
  rw [run_eq r (l.run r reg).2 l, available?_run, snd_run, run_eq r reg l]
  cases l.target? r with
  | none => rfl
  | some name => rw [Registry.demand?, Registry.demand?, Registry.demand_demand]

/-! ## Many lookups -/

/-- The answers of lookups that are made one after the other, and the registry after them. -/
def runAll (r : Resolver) : Registry → List Lookup → List Answer × Registry
  | reg, [] => ([], reg)
  | reg, l :: ls =>
    let (answer, reg') := l.run r reg
    let (answers, reg'') := runAll r reg' ls
    (answer :: answers, reg'')

theorem runAll_cons (r : Resolver) (reg : Registry) (l : Lookup) (ls : List Lookup) :
    runAll r reg (l :: ls) =
      ((l.run r reg).1 :: (runAll r (l.run r reg).2 ls).1, (runAll r (l.run r reg).2 ls).2) := rfl

/-- **Each of many lookups answers what it answers alone.** -/
theorem answers_runAll (r : Resolver) (reg : Registry) (ls : List Lookup) :
    (runAll r reg ls).1 = ls.map fun l => (l.run r reg).1 := by
  induction ls generalizing reg with
  | nil => rfl
  | cons l ls ih =>
    have halone : ∀ l' : Lookup, (l'.run r (l.run r reg).2).1 = (l'.run r reg).1 := by
      intro l'
      rw [run_eq r _ l', run_eq r reg l', available?_run]
    rw [runAll_cons, ih, List.map_cons]
    simp only [halone]

/-- After many lookups, the classes that any of them asked for are there if they are available. -/
theorem find?_runAll (r : Resolver) (reg : Registry) (ls : List Lookup) (k : Text) :
    (runAll r reg ls).2.classes.find? k =
      if k ∈ ls.filterMap (target? r) then reg.available? r.loader k
      else reg.classes.find? k := by
  induction ls generalizing reg with
  | nil => rfl
  | cons l ls ih =>
    have hfind : (l.run r reg).2.classes.find? k =
        if l.target? r = some k then reg.available? r.loader k else reg.classes.find? k := by
      rw [snd_run]
      cases l.target? r with
      | none => rfl
      | some name =>
        rw [Registry.demand?, Registry.find?_demand]
        by_cases hk : k = name
        · rw [if_pos hk, if_pos (by rw [hk]), hk]
        · rw [if_neg hk, if_neg (by simp [Ne.symm hk])]
    have hmem : k ∈ (l :: ls).filterMap (target? r) ↔
        l.target? r = some k ∨ k ∈ ls.filterMap (target? r) := by
      simp [List.mem_filterMap]
    rw [runAll_cons, ih, available?_run, hfind]
    by_cases hl : l.target? r = some k
    · rw [if_pos hl, if_pos (hmem.mpr (Or.inl hl)), ite_self]
    · rw [if_neg hl]
      by_cases hls : k ∈ ls.filterMap (target? r)
      · rw [if_pos hls, if_pos (hmem.mpr (Or.inr hls))]
      · rw [if_neg hls, if_neg fun h => hls ((hmem.mp h).resolve_left hl)]

/-- Many lookups add as much to the number of loads as to the number of classes. -/
theorem loads_add_size_runAll (r : Resolver) (reg : Registry) (ls : List Lookup) :
    (runAll r reg ls).2.loads + reg.size = reg.loads + (runAll r reg ls).2.size := by
  induction ls generalizing reg with
  | nil => rfl
  | cons l ls ih =>
    have hl : (l.run r reg).2.loads + reg.size = reg.loads + (l.run r reg).2.size := by
      rw [snd_run]
      cases l.target? r with
      | none => rfl
      | some name => exact Registry.loads_add_size_demand reg r.loader name
    have hls := ih (l.run r reg).2
    rw [runAll_cons]
    simp only
    omega

/-- What lookups leave behind is settled by which lookups they are. -/
theorem same_runAll {ls ls' : List Lookup} (h : ∀ l, l ∈ ls ↔ l ∈ ls') :
    (runAll r reg ls).2.Same (runAll r reg ls').2 := by
  have htargets : ∀ k, k ∈ ls.filterMap (target? r) ↔ k ∈ ls'.filterMap (target? r) := by
    intro k
    simp only [List.mem_filterMap, h]
  have hfind : ∀ k, (runAll r reg ls).2.classes.find? k =
      (runAll r reg ls').2.classes.find? k := by
    intro k
    simp only [find?_runAll, htargets k]
  have hsize : (runAll r reg ls).2.size = (runAll r reg ls').2.size :=
    Table.size_eq_of_mem_keys_iff fun k => Table.mem_keys_iff_of_find?_eq (hfind k)
  refine ⟨hfind, hsize, ?_⟩
  have h1 := loads_add_size_runAll r reg ls
  have h2 := loads_add_size_runAll r reg ls'
  omega

/--
**Lookups commute and are idempotent.** In any order and with any repetitions each of them answers
what it answers alone; the classes and the counts after them depend only on which lookups were
made; and a lookup that is made again changes nothing at all.
-/
theorem runAll_independent_of_order (r : Resolver) (reg : Registry) (ls : List Lookup) :
    (runAll r reg ls).1 = ls.map (fun l => (l.run r reg).1) ∧
      (∀ ls', (∀ l, l ∈ ls ↔ l ∈ ls') → (runAll r reg ls).2.Same (runAll r reg ls').2) ∧
      ∀ l : Lookup, l.run r (l.run r reg).2 = l.run r reg :=
  ⟨answers_runAll r reg ls, fun _ h => same_runAll h, run_run r reg⟩

/-- Two lookups of platform classes, the other way round and one of them twice. -/
theorem runAll_swap_platform :
    let r : Resolver := ⟨ClassTable.platform.typeSystem, ClassTable.platform.loader, {}⟩
    let line := logLine "java/lang/String length ()I".toList
    let list := loadClass "java.util.List".toList
    (∀ l, l ∈ [line, list] ↔ l ∈ [list, line, list]) ∧
      (runAll r Registry.empty [line, list]).2.Same
        (runAll r Registry.empty [list, line, list]).2 := by
  intro r line list
  have h : ∀ l, l ∈ [line, list] ↔ l ∈ [list, line, list] := by
    intro l
    simp only [List.mem_cons, List.not_mem_nil, or_false]
    exact ⟨fun h => Or.inr h, fun h => h.elim Or.inr id⟩
  exact ⟨h, (runAll_independent_of_order r Registry.empty [line, list]).2.1 _ h⟩

end Lookup

end JvmSignature
