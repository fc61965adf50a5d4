/-!
# Splitting texts

The pieces of a text between the occurrences of a mark. There is one piece more than there are
marks, and a piece may be empty.
-/

namespace TableSchema.Text

/-- The pieces of a text between marks. -/
def split (mark : Char) : List Char → List (List Char)
  | [] => [[]]
  | c :: cs =>
    if c = mark then [] :: split mark cs
    else
      match split mark cs with
      | [] => [[c]]
      | piece :: pieces => (c :: piece) :: pieces

theorem split_ne_nil (mark : Char) (cs : List Char) : split mark cs ≠ [] := by
  cases cs with
  | nil => simp [split]
  | cons c cs =>
    simp only [split]
    split
    · simp
    · split <;> simp

@[simp] theorem split_cons_mark (mark : Char) (cs : List Char) :
    split mark (mark :: cs) = [] :: split mark cs := by
  simp [split]

theorem split_of_not_mem {mark : Char} {cs : List Char} (h : mark ∉ cs) :
    split mark cs = [cs] := by
  induction cs with
  | nil => rfl
  | cons c cs ih =>
    simp only [List.mem_cons, not_or] at h
    simp [split, Ne.symm h.1, ih h.2]

/-- A mark divides the pieces of a text. -/
theorem split_append_cons (mark : Char) (cs rest : List Char) :
    split mark (cs ++ mark :: rest) = split mark cs ++ split mark rest := by
  induction cs with
  | nil => rw [List.nil_append, split_cons_mark]; rfl
  | cons c cs ih =>
    rw [List.cons_append, split, split, ih]
    split
    · rfl
    · obtain ⟨piece, pieces, hpieces⟩ := List.exists_cons_of_ne_nil (split_ne_nil mark cs)
      rw [hpieces]
      rfl

/-- The pieces of a string between marks. -/
def splitString (mark : Char) (s : String) : List String :=
  (split mark s.toList).map String.ofList

end TableSchema.Text
