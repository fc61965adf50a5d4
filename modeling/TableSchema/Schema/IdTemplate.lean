import TableSchema.Schema.Format
import TableSchema.Text.Blank
import TableSchema.Text.Utf8

/-!
# Identifier templates

A template is a text with placeholders, each a field between two pairs of braces, and blanks around
the field do not count. The fields are `.Name`, which stands for the name of the document, and
`.Format`, which stands for the name of its format.

A placeholder starts at the leftmost pair of opening braces and ends at the next pair of closing
braces, whatever lies between. What is put in the place of one is not looked at again.
-/

namespace TableSchema.Schema

/-- Why a template cannot be expanded. -/
inductive TemplateError where
  /-- a placeholder holds no known field -/
  | unknownField (field template : String)
  /-- a placeholder is not closed; `offset` is the number of bytes before it -/
  | unterminated (offset : Nat) (template : String)
  deriving DecidableEq, Repr

/-- The error in words. -/
def TemplateError.message : TemplateError → String
  | unknownField field template =>
    s!"Unknown template field '{field}' in {Text.quoted template}"
  | unterminated offset template =>
    s!"Unterminated placeholder at offset {offset} in {Text.quoted template}"

namespace IdTemplate

/-- The text before the leftmost occurrence of two equal characters in a row, and the text after
them. -/
def splitAtPair (mark : Char) : List Char → Option (List Char × List Char)
  | a :: b :: cs =>
    if a == mark && b == mark then some ([], cs)
    else (splitAtPair mark (b :: cs)).map fun (before, after) => (a :: before, after)
  | _ => none

theorem length_of_splitAtPair {mark : Char} {cs before after : List Char}
    (h : splitAtPair mark cs = some (before, after)) :
    before.length + 2 + after.length = cs.length := by
  fun_induction splitAtPair mark cs generalizing before with
  | case1 a b cs hab =>
    obtain ⟨rfl, rfl⟩ := Prod.mk.inj (Option.some.inj h)
    simp
    omega
  | case2 a b cs hab ih =>
    obtain ⟨⟨before', after'⟩, hs, heq⟩ := Option.map_eq_some_iff.1 h
    obtain ⟨rfl, rfl⟩ := Prod.mk.inj heq
    have := ih hs
    simp only [List.length_cons] at this ⊢
    omega
  | case3 => cases h

/-- A part of a template: text that stands for itself, or a field. -/
inductive Piece where
  | literal (text : List Char)
  | name
  | format
  deriving DecidableEq, Repr

/-- Why the parts of a template cannot be told. -/
inductive Fault where
  /-- a placeholder holds no known field -/
  | unknownField (field : List Char)
  /-- a placeholder is not closed; `offset` is the number of bytes before it -/
  | unterminated (offset : Nat)
  deriving DecidableEq, Repr

/-- The part that the text between the braces of a placeholder stands for. -/
def placeholder (body : List Char) : Except Fault Piece :=
  let field := Text.trim body
  if field = ".Name".toList then .ok .name
  else if field = ".Format".toList then .ok .format
  else .error (.unknownField field)

/-- The parts of a template, or of the end of one that starts after `offset` bytes. -/
def pieces (offset : Nat) (cs : List Char) : Except Fault (List Piece) :=
  match _h : splitAtPair '\x7b' cs with
  | none => .ok [.literal cs]
  | some (before, inside) =>
    match _h' : splitAtPair '\x7d' inside with
    | none => .error (.unterminated (offset + Text.byteLength before))
    | some (body, after) => do
      let field ← placeholder body
      let more ← pieces (offset + Text.byteLength before + Text.byteLength body + 4) after
      return .literal before :: field :: more
termination_by cs.length
decreasing_by
  have h₁ := length_of_splitAtPair _h
  have h₂ := length_of_splitAtPair _h'
  omega

/-- What a part stands for in the identifier of a document. -/
def Piece.expand (name : String) (format : Format) : Piece → List Char
  | .literal text => text
  | .name => name.toList
  | .format => format.text.toList

end IdTemplate

open IdTemplate in
/-- The identifier that a template gives to a document. -/
def expandTemplate (template name : String) (format : Format) : Except TemplateError String :=
  match pieces 0 template.toList with
  | .ok ps => .ok (String.ofList (ps.flatMap (Piece.expand name format)))
  | .error (.unknownField field) => .error (.unknownField (String.ofList field) template)
  | .error (.unterminated offset) => .error (.unterminated offset template)

end TableSchema.Schema
