import JvmSignature.ClassTable.Platform
import JvmSignature.Proofs.Registry.Lookup
import JvmSignature.Proofs.Signature.Reference
import Mathlib.Data.List.Forall2

/-!
# Spellings of a reference

A member is referred to by a log line with descriptors, by one with names, by a comment with its
class or without, and by an id of a dictionary. Five readers take these texts apart, each in its own
way. The file shows that they meet: whatever spells the reference, the parts that come out are
`MemberReference.parts`, so every lookup answers the same and leaves the same registry behind.

The one lemma for each reader is `ofLogLine_eq`, `ofComment_eq` and `method?_eq`.
-/

namespace JvmSignature

namespace MemberReference

variable {ref : MemberReference}

/-! ## Comments -/

/-- Whether a text is the name of a member as a disassembler writes it: plain, or in quotes. -/
def IsCommentedName (ref : MemberReference) (name : Text) : Prop :=
  name = ref.memberName ∨ name = '"' :: ref.memberName ++ ['"']

theorem unquoted_of_isCommentedName (h : ref.IsNamed) {name : Text}
    (hn : ref.IsCommentedName name) : Text.unquoted name = ref.memberName := by
  have hquote : '"' ∉ ref.memberName := h.memberName.not_mem (by decide)
  rcases hn with rfl | rfl
  · exact Text.unquoted_eq_self hquote
  · exact Text.unquoted_quotes hquote

theorem not_mem_of_isCommentedName (h : ref.IsNamed) {name : Text} (hn : ref.IsCommentedName name)
    {c : Char} (hc : c ∈ delimitersBut "<>\"".toList) : c ∉ name := by
  obtain ⟨hdelimiter, hkept⟩ := mem_delimitersBut_iff.mp hc
  have hquote : c ≠ '"' := fun he => hkept (by simp [he])
  have hplain : c ∉ ref.memberName := by
    refine h.memberName.not_mem (mem_delimitersBut_iff.mpr ⟨hdelimiter, fun hm => hkept ?_⟩)
    exact List.mem_append_left ['"'] hm
  rcases hn with rfl | rfl
  · exact hplain
  · simp [hplain, hquote]

theorem not_blank_of_isCommentedName (h : ref.IsNamed) {name : Text}
    (hn : ref.IsCommentedName name) {c : Char} (hc : c ∈ name) : isBlank c = false := by
  rcases hn with rfl | rfl
  · exact h.memberName.not_blank hc
  · rw [List.mem_append, List.mem_cons, List.mem_singleton] at hc
    rcases hc with (rfl | hc) | rfl
    · decide
    · exact h.memberName.not_blank hc
    · decide

/-- The types of a reference are read back from their encoding. -/
theorem ofText_eq (h : ref.type.IsNamed) {types : Text} (ht : types.dotted = ref.type.encode) :
    MethodDescriptor.ofText types = .ok ref.type := by
  refine MethodDescriptor.ofText_eq_ok_iff.mpr ⟨ht, ?_⟩
  exact ⟨fun d hd => (h.params d hd).2,
    fun d hd => (Descriptor.isTypeText_encode (h.params d hd).1).not_mem (by decide),
    h.returnType.2⟩

theorem not_blank_encode (h : ref.type.IsNamed) {c : Char} (hc : c ∈ ref.type.encode) :
    isBlank c = false := by
  rw [MethodDescriptor.encode, List.cons_append, List.mem_cons, List.mem_append, List.mem_cons] at hc
  rcases hc with rfl | hc | rfl | hc
  · decide
  · exact (Descriptor.isTypeText_encodings fun d hd => (h.params d hd).1).not_blank hc
  · decide
  · exact (Descriptor.isTypeText_encode h.returnType.1).not_blank hc

theorem not_blank_ownReference (h : ref.IsNamed) {name types : Text} (hn : ref.IsCommentedName name)
    (ht : types.dotted = ref.type.encode) : ∀ c ∈ name ++ ':' :: types, isBlank c = false := by
  intro c hc
  rw [List.mem_append, List.mem_cons] at hc
  rcases hc with hc | rfl | hc
  · exact not_blank_of_isCommentedName h hn hc
  · decide
  · refine Text.not_blank_of_dotted (fun x hx => ?_) hc
    rw [ht] at hx
    exact not_blank_encode h.type hx

theorem not_blank_reference (h : ref.IsNamed) {owner name types : Text}
    (ho : owner.dotted = ref.className) (hn : ref.IsCommentedName name)
    (ht : types.dotted = ref.type.encode) :
    ∀ c ∈ owner ++ '.' :: (name ++ ':' :: types), isBlank c = false := by
  intro c hc
  rw [List.mem_append, List.mem_cons] at hc
  rcases hc with hc | rfl | hc
  · refine Text.not_blank_of_dotted (fun x hx => ?_) hc
    rw [ho] at hx
    exact h.className.isTypeText.not_blank hx
  · decide
  · exact not_blank_ownReference h hn ht c hc

theorem colon_not_mem (h : ref.IsNamed) {owner name : Text} (ho : owner.dotted = ref.className)
    (hn : ref.IsCommentedName name) : ':' ∉ owner ++ '.' :: name := by
  rw [List.mem_append, List.mem_cons]
  rintro (hm | hm | hm)
  · have hd := (Text.mem_dotted_iff (by decide) (by decide)).mpr hm
    rw [ho] at hd
    exact h.className.isTypeText.not_mem (by decide) hd
  · exact absurd hm (by decide)
  · exact not_mem_of_isCommentedName h hn (by decide) hm

/-- **A comment is read as the reference that it spells.** -/
theorem ofComment_eq (h : ref.IsNamed) {owner name types : Text}
    (ho : owner.dotted = ref.className) (hn : ref.IsCommentedName name)
    (ht : types.dotted = ref.type.encode) :
    Parts.ofComment (owner ++ '.' :: (name ++ ':' :: types)) = .ok ref.parts := by
  have hdot : '.' ∉ name :=
    not_mem_of_isCommentedName h hn (by decide)
  have hsplit : owner ++ '.' :: (name ++ ':' :: types) = (owner ++ '.' :: name) ++ ':' :: types := by
    simp
  have hblank := not_blank_reference h ho hn ht
  rw [hsplit] at hblank ⊢
  have hreference : Text.trim (owner ++ '.' :: name) = owner ++ '.' :: name :=
    Text.trim_eq_self_of_forall fun c hc => hblank c (List.mem_append_left _ hc)
  have htypes : Text.trim types = types :=
    Text.trim_eq_self_of_forall fun c hc =>
      hblank c (List.mem_append_right _ (List.mem_cons_of_mem _ hc))
  rw [Parts.ofComment, Text.trim_eq_self_of_forall hblank,
    Text.cutAt?_eq_some_iff.mpr ⟨rfl, colon_not_mem h ho hn⟩]
  simp only
  rw [hreference, Text.cutAtLast?_eq_some_iff.mpr ⟨rfl, hdot⟩]
  simp only
  rw [htypes, ofText_eq h.type ht, ho, unquoted_of_isCommentedName h hn, parts_eq h]
  rfl

/-- A prefix of comments is stripped. -/
theorem stripPrefix_append {s : ResolverSettings}
    (hs : s.commentPrefixes = ["Method ".toList, "InterfaceMethod ".toList]) {start reference : Text}
    (hstart : start ∈ s.commentPrefixes) (hne : reference ≠ [])
    (hblank : ∀ c ∈ reference, isBlank c = false) :
    s.stripPrefix (start ++ reference) = reference := by
  have hfound : (s.commentPrefixes.findSome? fun start' =>
      start'.isPrefixOf? (start ++ reference)) = some reference := by
    rw [hs] at hstart ⊢
    simp only [List.mem_cons, List.not_mem_nil, or_false] at hstart
    rcases hstart with rfl | rfl
    · rw [List.findSome?_cons, Text.isPrefixOf?_eq_some_iff.mpr rfl]
    · have hother : "Method ".toList.isPrefixOf? ("InterfaceMethod ".toList ++ reference) = none :=
        rfl
      rw [List.findSome?_cons, hother, List.findSome?_cons, Text.isPrefixOf?_eq_some_iff.mpr rfl]
  have htrim : Text.trim (start ++ reference) = start ++ reference := by
    refine Text.trim_eq_self ?_ ?_
    · rw [hs] at hstart
      simp only [List.mem_cons, List.not_mem_nil, or_false] at hstart
      rcases hstart with rfl | rfl
      · rintro c ⟨⟩
        decide
      · rintro c ⟨⟩
        decide
    · intro c hc
      rw [List.getLast?_append, List.getLast?_eq_some_getLast hne, Option.some_or] at hc
      exact hblank c (Option.some.inj hc ▸ List.getLast_mem _)
  have hstartTrim : Text.trimStart reference = reference :=
    Text.trimStart_eq_self fun c hc => hblank c (List.mem_of_head? hc)
  simp only [ResolverSettings.stripPrefix]
  rw [htrim, hfound, Option.getD_some, hstartTrim]

theorem takeWhile_colon {a : Text} (h : ':' ∉ a) (b : Text) :
    (a ++ ':' :: b).takeWhile (· != ':') = a := by
  have hall : ∀ c ∈ a, (c != ':') = true := by
    intro c hc
    have hne : c ≠ ':' := fun he => h (he ▸ hc)
    simp [hne]
  rw [List.takeWhile_append_of_pos hall, List.takeWhile_cons_of_neg (by simp), List.append_nil]

variable {r : Resolver}

/-- A comment that names a class is read with that class, whatever class is disassembled. -/
theorem commentReference_eq
    (hs : r.settings.commentPrefixes = ["Method ".toList, "InterfaceMethod ".toList])
    (h : ref.IsNamed) (currentClass? : Option Text) {start owner name types : Text}
    (hstart : start ∈ r.settings.commentPrefixes) (ho : owner.dotted = ref.className)
    (hn : ref.IsCommentedName name) (ht : types.dotted = ref.type.encode) :
    r.commentReference currentClass? (start ++ (owner ++ '.' :: (name ++ ':' :: types))) =
      owner ++ '.' :: (name ++ ':' :: types) := by
  have hstrip := stripPrefix_append hs hstart (by simp) (not_blank_reference h ho hn ht)
  cases currentClass? with
  | none => exact hstrip
  | some current =>
    have hsplit : owner ++ '.' :: (name ++ ':' :: types) =
        (owner ++ '.' :: name) ++ ':' :: types := by
      simp
    have hdot : '.' ∈ owner ++ '.' :: name := by simp
    rw [Resolver.commentReference, hstrip, hsplit, takeWhile_colon (colon_not_mem h ho hn)]
    exact if_pos (List.contains_iff_mem.mpr hdot)

/-- A comment without a class is read with the class that is disassembled. -/
theorem commentReference_own
    (hs : r.settings.commentPrefixes = ["Method ".toList, "InterfaceMethod ".toList])
    (h : ref.IsNamed) {start current name types : Text}
    (hstart : start ∈ r.settings.commentPrefixes) (hn : ref.IsCommentedName name)
    (ht : types.dotted = ref.type.encode) :
    r.commentReference (some current) (start ++ (name ++ ':' :: types)) =
      current.slashed ++ '.' :: (name ++ ':' :: types) := by
  have hstrip := stripPrefix_append hs hstart (by simp) (not_blank_ownReference h hn ht)
  have hcolon : ':' ∉ name :=
    not_mem_of_isCommentedName h hn (by decide)
  have hdot : '.' ∉ name :=
    not_mem_of_isCommentedName h hn (by decide)
  rw [Resolver.commentReference, hstrip, takeWhile_colon hcolon]
  exact if_neg fun hm => hdot (List.contains_iff_mem.mp hm)

end MemberReference

/-! ## Dictionaries -/

namespace Dictionary

/-- Whether an id of a dictionary stands for a type, by its encoding or by its name. A type entry
counts before a class entry. -/
def NamesType (d : Dictionary) (id : Text) (type : Descriptor) : Prop :=
  ∃ kind text, (kind = .type ∨ kind = .klass ∧ d.contains (.type, id) = false) ∧
    d.attribute? kind id "name".toList = some text ∧
    (text.dotted = type.encode ∨ text.dotted = type.name)

/-- Whether an id of a dictionary stands for a reference. -/
structure NamesMethod (d : Dictionary) (id : Text) (ref : MemberReference) : Prop where
  entry : ∃ entry holder owner returnId, d.find? (.method, id) = some entry ∧
    entry.find? "name".toList = some ref.memberName ∧
    entry.find? "holder".toList = some holder ∧
    d.attribute? .klass holder "name".toList = some owner ∧ owner.dotted = ref.className ∧
    entry.find? "return".toList = some returnId ∧ d.NamesType returnId ref.type.returnType ∧
    List.Forall₂ d.NamesType (paramIds entry) ref.type.params

variable {d : Dictionary}

/-- **A type of a dictionary is named by its name.** -/
theorem typeName?_eq {id : Text} {type : Descriptor} (h : d.NamesType id type)
    (hnamed : type.IsNamed) (hdist : type.IsDistinct) : d.typeName? id = some type.name := by
  obtain ⟨kind, text, hkind, hattr, htext⟩ := h
  have hname : Descriptor.expand text.dotted = type.name := by
    rcases htext with ht | ht
    · rw [ht, Descriptor.expand_encode type]
    · rw [ht, Descriptor.expand_name hnamed hdist]
  have hchosen : (if d.contains (.type, id) then EntryKind.type else .klass) = kind := by
    rcases hkind with rfl | ⟨rfl, hnone⟩
    · obtain ⟨entry, hentry, -⟩ := Option.bind_eq_some_iff.mp hattr
      rw [if_pos]
      rw [Table.contains, hentry]
      rfl
    · rw [hnone]
      rfl
  simp only [typeName?]
  rw [hchosen, hattr, Option.map_some, hname]

theorem typeNames_eq {ids : List Text} {types : List Descriptor}
    (h : List.Forall₂ d.NamesType ids types) (hnamed : ∀ type ∈ types, type.IsNamed)
    (hdist : ∀ type ∈ types, type.IsDistinct) :
    ids.mapM d.typeName? = some (types.map Descriptor.name) := by
  induction h with
  | nil => rfl
  | cons hid _ ih =>
    have hfirst := typeName?_eq hid (hnamed _ List.mem_cons_self) (hdist _ List.mem_cons_self)
    have hrest := ih (fun type ht => hnamed type (List.mem_cons_of_mem _ ht))
      fun type ht => hdist type (List.mem_cons_of_mem _ ht)
    rw [List.mapM_cons, hfirst, hrest]
    rfl

/-- **A method of a dictionary has the parts of the reference that it stands for.** -/
theorem method?_eq {id : Text} {ref : MemberReference} (h : d.NamesMethod id ref)
    (hnamed : ref.IsNamed) (hdist : ref.type.IsDistinct) :
    ∃ s, d.method? id = some s ∧ s.parts = ref.parts := by
  obtain ⟨entry, holder, owner, returnId, hentry, hname, hholder, howner, hclass, hreturn, hret,
    hparams⟩ := h.entry
  have hparamNames := typeNames_eq hparams (fun type ht => (hnamed.type.params type ht).1)
    hdist.params
  have hretName := typeName?_eq hret hnamed.type.returnType.1 hdist.returnType
  refine ⟨⟨ref.className, ref.memberName, ref.type.returnType.name,
    ref.type.params.map Descriptor.name⟩, ?_, rfl⟩
  rw [method?, hentry]
  simp only [Option.bind_eq_bind, Option.bind_some, hname, hholder, howner, hreturn, hretName,
    hparamNames, hclass]
  rfl

end Dictionary

/-! ## Lookups -/

/-- Whether the text of a lookup spells a reference. -/
inductive MemberReference.IsSpelledBy (ref : MemberReference) : Lookup → Prop where
  /-- A log line: the class, the member, the types. -/
  | logLine {owner name types : Text} : owner.dotted = ref.className → ref.IsLoggedName name →
      ref.IsLoggedTypes types → IsSpelledBy ref (.logLine (owner ++ ' ' :: (name ++ ' ' :: types)))
  /-- A comment that names the class, in any class that is disassembled. -/
  | comment (currentClass? : Option Text) {start owner name types : Text} :
      start ∈ ({} : ResolverSettings).commentPrefixes → owner.dotted = ref.className →
      ref.IsCommentedName name → types.dotted = ref.type.encode →
      IsSpelledBy ref
        (.comment currentClass? (start ++ (owner ++ '.' :: (name ++ ':' :: types))))
  /-- A comment in the class itself, which leaves the class out. -/
  | ownComment {start current name types : Text} :
      start ∈ ({} : ResolverSettings).commentPrefixes → current.dotted = ref.className →
      ref.IsCommentedName name → types.dotted = ref.type.encode →
      IsSpelledBy ref (.comment (some current) (start ++ (name ++ ':' :: types)))

namespace MemberReference

variable {r : Resolver} {reg : Registry} {ref : MemberReference}

/-- What a reference means, and the registry after it was looked up. -/
theorem run_eq_of_isSpelledBy
    (hs : r.settings.commentPrefixes = ({} : ResolverSettings).commentPrefixes)
    (h : ref.IsNamed) (hdist : ref.type.IsDistinct) {l : Lookup} (hl : ref.IsSpelledBy l) :
    l.run r reg =
      (.method (r.answerParts (reg.available? r.loader) ref.parts),
        reg.demand r.loader ref.className) := by
  rw [Lookup.run_eq]
  cases hl with
  | logLine ho hn ht =>
    rw [Lookup.answer, Lookup.target?, ofLogLine_eq h hdist ho hn ht]
    rfl
  | comment currentClass? hstart ho hn ht =>
    rw [Lookup.answer, Lookup.target?,
      commentReference_eq hs h currentClass? (hs ▸ hstart) ho hn ht, ofComment_eq h ho hn ht]
    rfl
  | ownComment hstart hcurrent hn ht =>
    have ho := (Text.dotted_slashed _).trans hcurrent
    rw [Lookup.answer, Lookup.target?, commentReference_own hs h (hs ▸ hstart) hn ht,
      ofComment_eq h ho hn ht]
    rfl

theorem run_eq_of_namesMethod (h : ref.IsNamed) (hdist : ref.type.IsDistinct)
    {dictionary : Dictionary} {id : Text} (hd : dictionary.NamesMethod id ref) :
    (Lookup.dictionaryId dictionary id).run r reg =
      (.method (.ok (r.answerParts (reg.available? r.loader) ref.parts).toOption.join),
        reg.demand r.loader ref.className) := by
  obtain ⟨s, hs, hparts⟩ := Dictionary.method?_eq hd h hdist
  have hclass : s.className = ref.className := congrArg Parts.className hparts
  rw [Lookup.run_eq, Lookup.answer, Lookup.target?, hs, Option.bind_some, Option.map_some, hparts,
    hclass]
  rfl

/--
**All spellings of a reference find the same member.** Every log line and every comment that spells
it answers what the reference means among the available classes, fault or not, and leaves behind the
registry that was asked for its class. So does every id of a dictionary that stands for it, except
that a dictionary knows no faults: where the others answer a fault it answers that there is no
method.
-/
theorem run_eq_of_spelling (r : Resolver)
    (hs : r.settings.commentPrefixes = ({} : ResolverSettings).commentPrefixes) (reg : Registry)
    {ref : MemberReference} (h : ref.IsNamed) (hdist : ref.type.IsDistinct) :
    (∀ l, ref.IsSpelledBy l →
      l.run r reg =
        (.method (r.answerParts (reg.available? r.loader) ref.parts),
          reg.demand r.loader ref.className)) ∧
    ∀ dictionary id, dictionary.NamesMethod id ref →
      (Lookup.dictionaryId dictionary id).run r reg =
        (.method (.ok (r.answerParts (reg.available? r.loader) ref.parts).toOption.join),
          reg.demand r.loader ref.className) :=
  ⟨fun _ hl => run_eq_of_isSpelledBy hs h hdist hl, fun _ _ hd => run_eq_of_namesMethod h hdist hd⟩

/-- A constructor of a platform class is found by five spellings. -/
theorem run_eq_of_spelling_platform :
    let r : Resolver := ⟨ClassTable.platform.typeSystem, ClassTable.platform.loader, {}⟩
    let ref : MemberReference := ⟨"java.util.ArrayList".toList, constructorName,
      ⟨[.primitive .int], .primitive .void⟩⟩
    let dictionary : Dictionary := Table.ofList
      [((.klass, ['1']), Table.ofList [("name".toList, "java/util/ArrayList".toList)]),
       ((.type, ['2']), Table.ofList [("name".toList, "int".toList)]),
       ((.type, ['3']), Table.ofList [("name".toList, "void".toList)]),
       ((.method, ['4']), Table.ofList [("name".toList, constructorName),
         ("holder".toList, ['1']), ("return".toList, ['3']), ("arguments".toList, ['2'])])]
    r.settings.commentPrefixes = ({} : ResolverSettings).commentPrefixes ∧ ref.IsNamed ∧
      ref.type.IsDistinct ∧ ∃ found reg', found.toOption.join.isSome = true ∧
        (Lookup.logLine "java/util/ArrayList <init> (I)V".toList).run r Registry.empty =
          (.method found, reg') ∧
        (Lookup.logLine "java.util.ArrayList &lt;init&gt; (int)void".toList).run r Registry.empty =
          (.method found, reg') ∧
        (Lookup.comment none "Method java/util/ArrayList.\"<init>\":(I)V".toList).run r
          Registry.empty = (.method found, reg') ∧
        (Lookup.comment (some "java.util.ArrayList".toList) "Method <init>:(I)V".toList).run r
          Registry.empty = (.method found, reg') ∧
        (Lookup.dictionaryId dictionary ['4']).run r Registry.empty =
          (.method (.ok found.toOption.join), reg') := by
  intro r ref dictionary
  have hnamed : ref.IsNamed :=
    ⟨by decide +kernel, by decide +kernel, ⟨by decide +kernel, by decide +kernel⟩⟩
  have hdist : ref.type.IsDistinct := ⟨by decide, by decide⟩
  have hint : dictionary.NamesType ['2'] (.primitive .int) :=
    ⟨.type, "int".toList, Or.inl rfl, rfl, Or.inr rfl⟩
  have hvoid : dictionary.NamesType ['3'] (.primitive .void) :=
    ⟨.type, "void".toList, Or.inl rfl, rfl, Or.inr rfl⟩
  have hd : dictionary.NamesMethod ['4'] ref :=
    ⟨_, ['1'], "java/util/ArrayList".toList, ['3'], rfl, rfl, rfl, rfl, by decide, rfl, hvoid,
      List.Forall₂.cons hint List.Forall₂.nil⟩
  have hencoded : ref.IsSpelledBy (.logLine
      ("java/util/ArrayList".toList ++ ' ' :: (constructorName ++ ' ' :: "(I)V".toList))) :=
    .logLine (by decide) (Or.inl rfl) (Or.inl (by decide))
  have hnames : ref.IsSpelledBy (.logLine
      ("java.util.ArrayList".toList ++ ' ' :: ("&lt;init&gt;".toList ++ ' ' :: "(int)void".toList))) :=
    .logLine (by decide) (Or.inr (by decide)) (Or.inr (by decide))
  have hcomment : ref.IsSpelledBy (.comment none ("Method ".toList ++
      ("java/util/ArrayList".toList ++ '.' :: ("\"<init>\"".toList ++ ':' :: "(I)V".toList)))) :=
    .comment none (by decide) (by decide) (Or.inr (by decide)) (by decide)
  have hown : ref.IsSpelledBy (.comment (some "java.util.ArrayList".toList)
      ("Method ".toList ++ (constructorName ++ ':' :: "(I)V".toList))) :=
    .ownComment (by decide) (by decide) (Or.inl rfl) (by decide)
  obtain ⟨htext, hdict⟩ := run_eq_of_spelling r rfl Registry.empty hnamed hdist
  have hfound : (r.answerParts (Registry.empty.available? r.loader)
      ref.parts).toOption.join.isSome = true := by decide +kernel
  exact ⟨rfl, hnamed, hdist, _, _, hfound, htext _ hencoded, htext _ hnames, htext _ hcomment,
    htext _ hown, hdict _ _ hd⟩

end MemberReference

end JvmSignature
