import JvmSignature.ClassTable.Basic
import JvmSignature.Descriptor.Basic

/-!
# Subtypes

A class is below its superclass and its interfaces, those it inherits included. Hierarchies come
from logs and need not be sound: they may be cyclic or name classes that no table holds. The search
upwards therefore keeps the names that it has taken up.

It ends because each step takes up a class of the table that it had not taken up, or shortens the
list of names that wait.
-/

namespace JvmSignature

/-- The class that every class and every array is assignable to. -/
def objectName : Text := "java.lang.Object".toList

/-- The interfaces that every array implements. -/
def arrayInterfaces : List Text :=
  ["java.lang.Cloneable".toList, "java.io.Serializable".toList]

namespace ClassTable

/-- The number of classes that a search has not taken up yet. -/
def remaining (t : ClassTable) (seen : List Text) : Nat :=
  t.stubs.countP fun stub => stub.binaryName ∉ seen

theorem remaining_cons_lt {t : ClassTable} {seen : List Text} {name : Text} {stub : ClassStub}
    (h : t.stub? name = some stub) (hs : name ∉ seen) :
    t.remaining (name :: seen) < t.remaining seen := by
  have hm : stub ∈ t.stubs := List.mem_of_find?_eq_some h
  have hn : stub.binaryName = name := binaryName_of_stub? h
  unfold remaining
  generalize t.stubs = stubs at hm
  induction stubs with
  | nil => simp at hm
  | cons s rest ih =>
    have mono : rest.countP (fun stub => decide (stub.binaryName ∉ name :: seen)) ≤
        rest.countP (fun stub => decide (stub.binaryName ∉ seen)) := by
      refine List.countP_mono_left fun x _ hx => ?_
      simp only [decide_eq_true_eq, List.mem_cons, not_or] at hx ⊢
      exact hx.2
    rcases List.mem_cons.mp hm with rfl | hr
    · rw [List.countP_cons_of_neg (by simp [hn]), List.countP_cons_of_pos (by simp [hn, hs])]
      omega
    · have := ih hr
      by_cases h1 : s.binaryName ∈ seen
      · rw [List.countP_cons_of_neg (by simp [h1]), List.countP_cons_of_neg (by simp [h1])]
        exact this
      · rw [List.countP_cons_of_pos (a := s) (p := fun stub => decide (stub.binaryName ∉ seen))
          (by simp [h1])]
        by_cases h2 : s.binaryName = name
        · rw [List.countP_cons_of_neg (by simp [h2])]
          omega
        · rw [List.countP_cons_of_pos (by simp [h1, h2])]
          omega

/--
Whether `target` is one of the pending names or a supertype of one, at any distance, going up from
no name in `seen`.
-/
def reaches (t : ClassTable) (target : Text) (pending seen : List Text) : Bool :=
  match pending with
  | [] => false
  | name :: pending =>
    if name = target then true
    else if name ∈ seen then t.reaches target pending seen
    else
      match _h : t.stub? name with
      | none => t.reaches target pending seen
      | some stub => t.reaches target (stub.supertypes ++ pending) (name :: seen)
termination_by (t.remaining seen, pending.length)
decreasing_by
  -- A name that was taken up before, or that no class has, only leaves the list.
  · exact Prod.Lex.right _ (Nat.lt_succ_self _)
  · exact Prod.Lex.right _ (Nat.lt_succ_self _)
  -- The supertypes make the list longer, but one class less remains.
  · exact Prod.Lex.left _ _ (remaining_cons_lt _h ‹_›)

/-- Whether the class `name` is `target` or has it among its supertypes. -/
def isBelow (t : ClassTable) (name target : Text) : Bool := t.reaches target [name] []

/-- Assignability between an element under `m` and an element under `n` array dimensions. -/
def assigns (t : ClassTable) (e f : Element) : (m n : Nat) → Bool
  | 0, 0 =>
    match e, f with
    | .reference a, .reference b => b = objectName || t.isBelow a b
    | e, f => e = f
  | _ + 1, 0 =>
    match f with
    | .reference b => b = objectName || arrayInterfaces.contains b
    | .primitive _ => false
  | 0, _ + 1 => false
  | m + 1, n + 1 => t.assigns e f m n

/--
Whether a value of the type `d` may stand where a value of the type `e` is wanted. A primitive type
is assignable to itself only, an array to `java.lang.Object`, to the interfaces of arrays and to
arrays of what its components are assignable to, a class to its supertypes.
-/
def isAssignable (t : ClassTable) (d e : Descriptor) : Bool :=
  t.assigns d.element e.element d.depth e.depth

end ClassTable

end JvmSignature
