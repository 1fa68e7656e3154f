import JvmSignature.Descriptor.Encoded
import JvmSignature.Descriptor.Expansion
import JvmSignature.Signature.Error
import JvmSignature.Signature.Parts
import JvmSignature.Text.Entity

/-!
# Lines of compilation logs

A compilation log names a member by a line `class member (parameters)return`, such as
`java.lang.String valueOf (I)Ljava.lang.String;`. The class holds none of `; [ / < >`, the member
none of `; [ /`, and the parameters and the return type end with the line.

Where a line can be cut in more than one way, the class is as long as it can be, then the member,
then the parameters: the longer name is tried first and the first that fits is taken. `pieces?_eq`
says that the pieces of a line, which are found in one pass, are those.
-/

namespace JvmSignature

/-- The pieces of a line. -/
structure LogLine where
  className : Text
  memberName : Text
  /-- The parameters with the parentheses around them. -/
  params : Text
  returnType : Text
  deriving DecidableEq, Repr

namespace LogLine

/-- Characters of a class name in a line. -/
def isClassChar (c : Char) : Bool := !";[/<>".toList.contains c

/-- Characters of a member name in a line. -/
def isMemberChar (c : Char) : Bool := !";[/".toList.contains c

variable {α : Type}

/--
The longest beginning of a text, of characters that pass a test, before a space behind which
`accept` finds something; and what it finds. The beginning may be empty.
-/
def longestCut (ok : Char → Bool) (accept : Text → Option α) : Text → Option (Text × α)
  | [] => none
  | c :: s =>
    -- The cuts further on come first: the longest beginning wins.
    match if ok c then longestCut ok accept s else none with
    | some (name, found) => some (c :: name, found)
    | none => if c = ' ' then (accept s).map fun found => ([], found) else none

/-- The longest such beginning that is not empty. -/
def longestName (ok : Char → Bool) (accept : Text → Option α) : Text → Option (Text × α)
  | [] => none
  | c :: s =>
    if ok c then (longestCut ok accept s).map fun (name, found) => (c :: name, found) else none

/-- The group in parentheses that starts a text and ends with the last `)` of the line; the rest. -/
def paramsAndReturn? : Text → Option (Text × Text)
  | '(' :: s =>
    (Text.cutAtLast? ')' (s.takeWhile (· != '\n'))).map fun (inner, rest) =>
      ('(' :: inner ++ [')'], rest)
  | _ => none

/-! ## One pass over a line

Read as it stands, the rule above tries every space again for every longer class, and the whole rest
of the line for each of them. The pass from the end takes each character once: it knows for the rest
of the text what could start there.
-/

/-- What starts a text. -/
structure Scan where
  /-- The rest of the line. -/
  line : Text
  /-- The rest of the line up to its last `)`, and what follows it. -/
  closing? : Option (Text × Text)
  params? : Option (Text × Text)
  memberCut? : Option (Text × Text × Text)
  member? : Option (Text × Text × Text)
  classCut? : Option (Text × Text × Text × Text)
  class? : Option (Text × Text × Text × Text)

namespace Scan

/-- Nothing starts the empty text. -/
def ofEmpty : Scan := ⟨[], none, none, none, none, none, none⟩

/-- The longest beginning at a character, from the longest behind it and what is found there. -/
def cut? (ok : Char → Bool) (c : Char) (later? : Option (Text × α)) (found? : Option α) :
    Option (Text × α) :=
  match if ok c then later? else none with
  | some (name, found) => some (c :: name, found)
  | none => if c = ' ' then found?.map fun found => ([], found) else none

/-- The longest name at a character, from the longest beginning behind it. -/
def name? (ok : Char → Bool) (c : Char) (later? : Option (Text × α)) : Option (Text × α) :=
  if ok c then later?.map fun (name, found) => (c :: name, found) else none

/-- What starts a text, from what starts its rest. -/
def step (c : Char) (after : Scan) : Scan where
  line := if c = '\n' then [] else c :: after.line
  closing? :=
    if c = '\n' then none
    else
      match after.closing? with
      | some (inner, rest) => some (c :: inner, rest)
      | none => if c = ')' then some ([c], after.line) else none
  params? :=
    if c = '(' then after.closing?.map fun (inner, rest) => (c :: inner, rest) else none
  memberCut? := cut? isMemberChar c after.memberCut? after.params?
  member? := name? isMemberChar c after.memberCut?
  classCut? := cut? isClassChar c after.classCut? after.member?
  class? := name? isClassChar c after.classCut?

/-- What starts a text. -/
def ofText (s : Text) : Scan := s.foldr step ofEmpty

end Scan

/-- The line up to its last `)`, and what follows it. -/
def throughClosing? (s : Text) : Option (Text × Text) :=
  (Text.cutAtLast? ')' (s.takeWhile (· != '\n'))).map fun (inner, rest) => (inner ++ [')'], rest)

theorem takeLine_cons {c : Char} (h : c ≠ '\n') (s : Text) :
    (c :: s).takeWhile (· != '\n') = c :: s.takeWhile (· != '\n') :=
  List.takeWhile_cons_of_pos (by simp [h])

theorem throughClosing?_cons {c : Char} (h : c ≠ '\n') (s : Text) :
    throughClosing? (c :: s) =
      match throughClosing? s with
      | some (inner, rest) => some (c :: inner, rest)
      | none => if c = ')' then some ([c], s.takeWhile (· != '\n')) else none := by
  rw [throughClosing?, throughClosing?, takeLine_cons h, Text.cutAtLast?_cons]
  cases Text.cutAtLast? ')' (s.takeWhile (· != '\n')) with
  | some found => rfl
  | none =>
    by_cases hc : c = ')'
    · simp [hc]
    · simp [hc]

theorem paramsAndReturn?_cons (c : Char) (s : Text) :
    paramsAndReturn? (c :: s) =
      if c = '(' then (throughClosing? s).map fun (inner, rest) => (c :: inner, rest)
      else none := by
  by_cases h : c = '('
  · rw [if_pos h, h, paramsAndReturn?, throughClosing?, Option.map_map]
    rfl
  · rw [if_neg h]
    exact paramsAndReturn?.eq_2 _ (by intro t ht; exact h (List.cons.inj ht).1)

/-- The pass finds what the rule says. -/
theorem Scan.ofText_eq (s : Text) :
    Scan.ofText s =
      { line := s.takeWhile (· != '\n')
        closing? := throughClosing? s
        params? := paramsAndReturn? s
        memberCut? := longestCut isMemberChar paramsAndReturn? s
        member? := longestName isMemberChar paramsAndReturn? s
        classCut? := longestCut isClassChar (longestName isMemberChar paramsAndReturn?) s
        class? := longestName isClassChar (longestName isMemberChar paramsAndReturn?) s } := by
  induction s with
  | nil => rfl
  | cons c s ih =>
    change step c (Scan.ofText s) = _
    rw [ih, step, paramsAndReturn?_cons]
    by_cases h : c = '\n'
    · subst h
      rfl
    · rw [takeLine_cons h, throughClosing?_cons h, if_neg h, if_neg h]
      rfl

/-- The pieces of a text whose angle brackets are not escaped. -/
def pieces? (s : Text) : Option LogLine :=
  (Scan.ofText s).class?.map fun (className, memberName, params, returnType) =>
    ⟨className, memberName, params, returnType⟩

/-- The pieces are those of the longest class, and for it the longest member. -/
theorem pieces?_eq (s : Text) :
    pieces? s =
      (longestName isClassChar (longestName isMemberChar paramsAndReturn?) s).map
        fun (className, memberName, params, returnType) =>
          ⟨className, memberName, params, returnType⟩ := by
  rw [pieces?, Scan.ofText_eq]

/-- The pieces of a line, whose angle brackets may be escaped. -/
def ofLine (line : Text) : Except SignatureError LogLine :=
  match pieces? line.unescapeAngles with
  | some pieces => .ok pieces
  | none => .error (.malformed line)

/-- The parameter types by name: a list of descriptors, or else names separated by commas. -/
def paramTypes (l : LogLine) : List Text :=
  match Descriptor.ofList l.params with
  | .ok types => types.map Descriptor.name
  | .error _ => Text.splitTopLevel ',' (Text.unparenthesized l.params)

/-- The parts that the pieces of a line name. -/
def parts (l : LogLine) : Parts :=
  Parts.ofTexts l.className.trim l.memberName.trim l.paramTypes
    (Descriptor.expand l.returnType.trim)

end LogLine

/-- The parts of a line of a compilation log, whose names may be written with slashes. -/
def Parts.ofLogLine (line : Text) : Except SignatureError Parts :=
  match LogLine.ofLine line.trim.dotted with
  | .ok pieces => .ok pieces.parts
  | .error _ => .error (.malformed line)

end JvmSignature
