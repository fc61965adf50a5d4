import TableSchema.Text.Utf8

/-!
# Slices

Parts of a text by bytes. A slice goes from one byte up to another, and there is one only if the two
are in order and both stand between characters.
-/

namespace TableSchema.Ddl

open Text

/-- A text after its first bytes, if a character ends there. -/
def dropBytes? : Nat → List Char → Option (List Char)
  | 0, cs => some cs
  | _ + 1, [] => none
  | n + 1, c :: cs => if c.utf8Size ≤ n + 1 then dropBytes? (n + 1 - c.utf8Size) cs else none

/-- The first bytes of a text, if a character ends there. -/
def takeBytes? : Nat → List Char → Option (List Char)
  | 0, _ => some []
  | _ + 1, [] => none
  | n + 1, c :: cs =>
    if c.utf8Size ≤ n + 1 then (takeBytes? (n + 1 - c.utf8Size) cs).map (c :: ·) else none

/-- The part of a text from one byte up to another, if both stand between characters. -/
def slice? (text : List Char) (first last : Nat) : Option (List Char) :=
  if first ≤ last then (dropBytes? first text).bind (takeBytes? (last - first)) else none

theorem dropBytes?_append (cs rest : List Char) :
    dropBytes? (byteLength cs) (cs ++ rest) = some rest := by
  induction cs with
  | nil =>
    rw [byteLength_nil, dropBytes?]
    rfl
  | cons c cs ih =>
    obtain ⟨n, hn⟩ := Nat.exists_eq_add_one_of_ne_zero (Nat.ne_of_gt c.utf8Size_pos)
    rw [byteLength_cons, List.cons_append, hn, Nat.add_right_comm, dropBytes?, hn,
      if_pos (by omega), Nat.add_right_comm, Nat.add_sub_cancel_left, ih]

theorem takeBytes?_append (cs rest : List Char) :
    takeBytes? (byteLength cs) (cs ++ rest) = some cs := by
  induction cs with
  | nil => rw [byteLength_nil, takeBytes?]
  | cons c cs ih =>
    obtain ⟨n, hn⟩ := Nat.exists_eq_add_one_of_ne_zero (Nat.ne_of_gt c.utf8Size_pos)
    rw [byteLength_cons, List.cons_append, hn, Nat.add_right_comm, takeBytes?, hn,
      if_pos (by omega), Nat.add_right_comm, Nat.add_sub_cancel_left, ih]
    rfl

/-- The bytes between two lengths are the characters that stand there. -/
theorem slice?_append (before mid after : List Char) :
    slice? (before ++ mid ++ after) (byteLength before) (byteLength (before ++ mid)) =
      some mid := by
  rw [slice?, byteLength_append, if_pos (Nat.le_add_right _ _), List.append_assoc,
    dropBytes?_append, Option.bind_some, Nat.add_sub_cancel_left, takeBytes?_append]

theorem exists_of_dropBytes? {n : Nat} {text rest : List Char}
    (h : dropBytes? n text = some rest) :
    ∃ before, text = before ++ rest ∧ n = byteLength before := by
  fun_induction dropBytes? n text with
  | case1 cs => exact ⟨[], Option.some.inj h, rfl⟩
  | case2 => cases h
  | case3 n c cs hle ih =>
    obtain ⟨before, rfl, hn⟩ := ih h
    exact ⟨c :: before, rfl, by rw [byteLength_cons]; omega⟩
  | case4 => cases h

theorem exists_of_takeBytes? {n : Nat} {text part : List Char}
    (h : takeBytes? n text = some part) : ∃ after, text = part ++ after ∧ n = byteLength part := by
  fun_induction takeBytes? n text generalizing part with
  | case1 cs => exact ⟨cs, by rw [← Option.some.inj h]; rfl, by rw [← Option.some.inj h]; rfl⟩
  | case2 => cases h
  | case3 n c cs hle ih =>
    obtain ⟨part, hpart, rfl⟩ := Option.map_eq_some_iff.mp h
    obtain ⟨after, rfl, hn⟩ := ih hpart
    exact ⟨after, rfl, by rw [byteLength_cons]; omega⟩
  | case4 => cases h

/-- Whether a part of a text goes from one byte up to another. Both stand between characters then,
and they are in order. -/
def IsSlice (text : List Char) (first last : Nat) (part : List Char) : Prop :=
  ∃ before after, text = before ++ part ++ after ∧ first = byteLength before ∧
    last = byteLength (before ++ part)

/-- What is sliced out of a text stands in it between the two numbers of bytes. -/
theorem slice?_eq_some_iff {text part : List Char} {first last : Nat} :
    slice? text first last = some part ↔ IsSlice text first last part := by
  refine ⟨fun h => ?_, ?_⟩
  · rw [slice?] at h
    split at h
    · next hle =>
      obtain ⟨rest, hrest, hpart⟩ := Option.bind_eq_some_iff.mp h
      obtain ⟨before, rfl, hfirst⟩ := exists_of_dropBytes? hrest
      obtain ⟨after, rfl, hlast⟩ := exists_of_takeBytes? hpart
      refine ⟨before, after, (List.append_assoc _ _ _).symm, hfirst, ?_⟩
      rw [byteLength_append]
      omega
    · cases h
  · rintro ⟨before, after, rfl, rfl, rfl⟩
    exact slice?_append before part after

end TableSchema.Ddl
