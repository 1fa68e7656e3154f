import JvmSignature.Proofs.Signature.WrittenType
import JvmSignature.Signature.TypeVariables
import Mathlib.Data.List.Basic
import Mathlib.Data.List.Induction

/-!
# Written type variables

A generic declaration lists its type variables in angle brackets, each with its bounds. The bounds
are separated by ampersands, and their type arguments may hold commas, ampersands and angle brackets
of their own; none of these ends a bound or a variable. Each variable is read with its erasure
(`ofDeclaration_listText`).
-/

namespace JvmSignature

namespace Table

variable {κ α : Type} [DecidableEq κ] {l : List (κ × α)} {k : κ} {v : α}

theorem putEntry_eq_concat (h : k ∉ l.map Prod.fst) : putEntry k v l = l ++ [(k, v)] := by
  induction l with
  | nil => rfl
  | cons e l ih =>
    rw [List.map_cons, List.mem_cons, not_or] at h
    rw [putEntry, if_neg (Ne.symm h.1), ih h.2, List.cons_append]

/-- A table that is made of entries with distinct keys has these entries, in their order. -/
theorem entries_ofList (h : (l.map Prod.fst).Nodup) : (ofList l).entries = l := by
  induction l using List.reverseRecOn with
  | nil => rfl
  | append_singleton l e ih =>
    have hlast : ofList (l ++ [e]) = (ofList l).insert e.1 e.2 := by
      rw [ofList, List.foldl_append]
      rfl
    rw [List.map_append, List.nodup_append] at h
    obtain ⟨hl, -, hne⟩ := h
    have hnew : e.1 ∉ l.map Prod.fst := fun hm => hne e.1 hm e.1 (by simp) rfl
    have hinsert : ((ofList l).insert e.1 e.2).entries = putEntry e.1 e.2 (ofList l).entries := rfl
    rw [hlast, hinsert, ih hl, putEntry_eq_concat hnew]

theorem valueOf?_of_mem (h : (l.map Prod.fst).Nodup) (hm : (k, v) ∈ l) :
    valueOf? k l = some v := by
  induction l with
  | nil => cases hm
  | cons e l ih =>
    rw [List.map_cons, List.nodup_cons] at h
    rcases List.mem_cons.mp hm with rfl | hm
    · rw [valueOf?, if_pos rfl]
    · have hk : e.1 ≠ k := by
        rintro rfl
        exact h.1 (List.mem_map.mpr ⟨(e.1, v), hm, rfl⟩)
      rw [valueOf?, if_neg hk, ih h.2 hm]

/-- A table finds each of its entries. -/
theorem find?_of_mem_entries {t : Table κ α} (hm : (k, v) ∈ t.entries) : t.find? k = some v :=
  valueOf?_of_mem t.nodup hm

end Table

/-- A type variable as a declaration lists it. -/
structure TypeParameter where
  name : Text
  bounds : List WrittenType

namespace TypeParameter

/-- What stands behind the name of a variable. -/
def boundsText : List WrittenType → Text
  | [] => []
  | bound :: bounds =>
    " extends ".toList ++ " & ".toList.intercalate ((bound :: bounds).map WrittenType.text)

theorem boundsText_nil : boundsText [] = [] := rfl

theorem boundsText_cons (bound : WrittenType) (bounds : List WrittenType) :
    boundsText (bound :: bounds) =
      " extends ".toList ++ " & ".toList.intercalate ((bound :: bounds).map WrittenType.text) := rfl

/-- The variable as it is written. -/
def text (p : TypeParameter) : Text := p.name ++ boundsText p.bounds

/-- What the variable stands for: its first bound without type arguments. -/
def erasure (p : TypeParameter) : Text :=
  match p.bounds with
  | [] => objectName
  | bound :: _ => bound.read

/-- Whether the names of the variable and of its bounds have the shape of such. -/
structure IsShaped (p : TypeParameter) : Prop where
  name : IsIdentifier p.name
  bounds : ∀ b ∈ p.bounds, b.IsShaped

variable {p : TypeParameter}

theorem isNested_boundsText {bounds : List WrittenType} (h : ∀ b ∈ bounds, b.IsShaped) :
    IsNested (boundsText bounds) := by
  cases bounds with
  | nil => exact isNested_nil
  | cons bound bounds =>
    have hextends : IsNested " extends ".toList :=
      isNested_of_forall (forall_mem_of_all (by decide))
    have hglue : IsNested " & ".toList := isNested_of_forall (forall_mem_of_all (by decide))
    rw [boundsText_cons]
    refine hextends.append (isNested_intercalate hglue fun i hi => ?_)
    obtain ⟨b, hb, rfl⟩ := List.mem_map.mp hi
    exact (h b hb).isNested_text

theorem IsShaped.isNested_text (h : p.IsShaped) : IsNested p.text :=
  h.name.isQualifiedName.isNested.append (isNested_boundsText h.bounds)

theorem IsShaped.isItem (h : p.IsShaped) : Text.IsItem ',' p.text := by
  have hname : Text.IsItem ',' p.name := h.name.isQualifiedName.isItem (by decide)
  rw [text]
  cases hb : p.bounds with
  | nil =>
    rw [boundsText_nil, List.append_nil]
    exact hname
  | cons bound bounds =>
    have hextends : Text.IsPiece ',' " extends ".toList :=
      Text.isPiece_of_forall (forall_mem_of_all (by decide))
    have hglue : Text.IsPiece ',' " & ".toList :=
      Text.isPiece_of_forall (forall_mem_of_all (by decide))
    rw [boundsText_cons]
    refine hname.append_item hextends (Text.isItem_intercalate (by simp) hglue fun i hi => ?_)
    obtain ⟨b, hm, rfl⟩ := List.mem_map.mp hi
    exact (h.bounds b (hb ▸ hm)).isItem (by decide)

/-- **A variable is read with its erasure**, however its bounds nest. -/
theorem IsShaped.ofParameter?_text (h : p.IsShaped) :
    TypeVariables.ofParameter? p.text = some (p.name, p.erasure) := by
  have hitem : Text.IsItem ',' p.name := h.name.isQualifiedName.isItem (by decide)
  have hspace : ' ' ∉ p.name := h.name.not_mem (by decide)
  have hextends : " extends ".toList = ' ' :: "extends ".toList := rfl
  unfold TypeVariables.ofParameter? text erasure
  cases hb : p.bounds with
  | nil =>
    rw [boundsText_nil, List.append_nil, hextends, Text.cut?_eq_none_of_notMem hspace]
    simp only [hitem.trim, if_neg h.name.1]
  | cons bound bounds =>
    have hbounds : ∀ b ∈ bound :: bounds, b.IsShaped := hb ▸ h.bounds
    have hsplit : Text.splitTopLevel '&'
        (" & ".toList.intercalate ((bound :: bounds).map WrittenType.text)) =
          bound.text :: bounds.map WrittenType.text := by
      refine Text.splitTopLevel_ampersands fun i hi => ?_
      obtain ⟨b, hm, rfl⟩ := List.mem_map.mp hi
      exact (hbounds b hm).isItem (by decide)
    rw [boundsText_cons, hextends, Text.cut?_append_of_notMem hspace]
    simp only [hsplit, hitem.trim, if_neg h.name.1,
      (hbounds bound List.mem_cons_self).isSpelled.withoutArguments_text]

/-! ## Lists -/

/-- The list of type variables, in angle brackets. -/
def listText (ps : List TypeParameter) : Text :=
  '<' :: (", ".toList.intercalate (ps.map text) ++ ['>'])

theorem head?_listText (ps : List TypeParameter) : (listText ps).head? = some '<' := rfl

/-- What the variables of a list stand for. -/
def erasures (ps : List TypeParameter) : TypeVariables :=
  Table.ofList (ps.map fun p => (p.name, p.erasure))

variable {ps : List TypeParameter}

theorem isNested_inner (h : ∀ p ∈ ps, p.IsShaped) :
    IsNested (", ".toList.intercalate (ps.map text)) := by
  refine isNested_intercalate (isNested_of_forall (forall_mem_of_all (by decide))) fun i hi => ?_
  obtain ⟨p, hp, rfl⟩ := List.mem_map.mp hi
  exact (h p hp).isNested_text

/-- **The variables of a list are read with their erasures.** -/
theorem ofDeclaration_listText (h : ∀ p ∈ ps, p.IsShaped) :
    TypeVariables.ofDeclaration (listText ps) = erasures ps := by
  have hsplit : Text.splitTopLevel ',' (", ".toList.intercalate (ps.map text)) = ps.map text := by
    refine Text.splitTopLevel_commas fun i hi => ?_
    obtain ⟨p, hp, rfl⟩ := List.mem_map.mp hi
    exact (h p hp).isItem
  have hread : (ps.map text).filterMap TypeVariables.ofParameter? =
      ps.map fun p => (p.name, p.erasure) := by
    rw [List.filterMap_map, ← List.filterMap_eq_map]
    exact List.filterMap_congr fun p hp => (h p hp).ofParameter?_text
  have hinner : Text.between? '<' '>' (listText ps) =
      some (", ".toList.intercalate (ps.map text)) := Text.between?_eq_some_iff.mpr rfl
  rw [TypeVariables.ofDeclaration, hinner]
  simp only [Option.getD_some, hsplit, hread, erasures]

/-- Distinct variables are listed with their erasures, in their order. -/
theorem entries_erasures (h : (ps.map name).Nodup) :
    (erasures ps).entries = ps.map fun p => (p.name, p.erasure) := by
  refine Table.entries_ofList ?_
  rw [List.map_map]
  exact h

/-- **A variable under any brackets stands for its erasure under the same brackets.** -/
theorem substitute?_erasures (hps : ∀ p ∈ ps, p.IsShaped) (hnodup : (ps.map name).Nodup)
    (hp : p ∈ ps) (n : Nat) :
    (erasures ps).substitute? (p.name ++ Descriptor.brackets n) =
      some (p.erasure ++ Descriptor.brackets n) := by
  have hbracket : '[' ∉ p.name := (hps p hp).name.not_mem (by decide)
  have hfind : (erasures ps).find? p.name = some p.erasure := by
    refine Table.find?_of_mem_entries ?_
    rw [entries_erasures hnodup]
    exact List.mem_map_of_mem (f := fun p => (p.name, p.erasure)) hp
  rw [TypeVariables.substitute?, TypeText.beforeBrackets_append hbracket,
    TypeText.fromBrackets_append hbracket, hfind]
  rfl

end TypeParameter

end JvmSignature
