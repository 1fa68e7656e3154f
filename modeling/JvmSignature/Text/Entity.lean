import JvmSignature.Text.Basic

/-!
# Escaped angle brackets

Log files write the angle brackets of generic types and of `<init>` as `&lt;` and `&gt;`, the only
entities they use. Reading undoes first the one and then the other, each from left to right, so
`&lt;` may not come out of what `&gt;` leaves behind.
-/

namespace JvmSignature.Text

/-- Every `&lt;` as `<`. -/
def unescapeLess : Text → Text
  | '&' :: 'l' :: 't' :: ';' :: s => '<' :: unescapeLess s
  | c :: s => c :: unescapeLess s
  | [] => []

/-- Every `&gt;` as `>`. -/
def unescapeGreater : Text → Text
  | '&' :: 'g' :: 't' :: ';' :: s => '>' :: unescapeGreater s
  | c :: s => c :: unescapeGreater s
  | [] => []

/-- The text with its escaped angle brackets as such. -/
def unescapeAngles (s : Text) : Text := unescapeGreater (unescapeLess s)

/-- A text without `&` holds nothing to unescape. -/
theorem unescapeAngles_eq_self {s : Text} (h : '&' ∉ s) : unescapeAngles s = s := by
  have less : ∀ t : Text, '&' ∉ t → unescapeLess t = t := by
    intro t ht
    induction t with
    | nil => rfl
    | cons c t ih =>
      have hc : c ≠ '&' := fun he => ht (by simp [he])
      rw [unescapeLess, ih fun hm => ht (List.mem_cons_of_mem _ hm)]
      intro r he
      exact absurd he hc
  have greater : ∀ t : Text, '&' ∉ t → unescapeGreater t = t := by
    intro t ht
    induction t with
    | nil => rfl
    | cons c t ih =>
      have hc : c ≠ '&' := fun he => ht (by simp [he])
      rw [unescapeGreater, ih fun hm => ht (List.mem_cons_of_mem _ hm)]
      intro r he
      exact absurd he hc
  rw [unescapeAngles, less s h, greater s h]

end JvmSignature.Text
