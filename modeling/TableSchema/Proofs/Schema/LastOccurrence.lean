import Mathlib.Data.List.Induction
import TableSchema.Proofs.OrderedMap
import TableSchema.Proofs.Schema.Generator

/-!
# Last occurrences

A map that entries are inserted into one after the other holds of each name the last entry, and its
names stand in the order of these. Each insertion keeps that, because a name that comes again goes
to the end and leaves the others where they are. Properties are the columns of a table inserted in
order, and definitions the tables.
-/

namespace TableSchema

/-- A name stands at a place for the last time. -/
structure IsLastPlace (names : List String) (name : String) (i : Nat) : Prop where
  at_place : names[i]? = some name
  last : ∀ j, names[j]? = some name → j ≤ i

section IsLastPlace

variable {names : List String} {name other : String} {i : Nat}

theorem IsLastPlace.lt_length (h : IsLastPlace names name i) : i < names.length :=
  (List.getElem?_eq_some_iff.mp h.at_place).1

/-- A name that comes at the end stands there for the last time. -/
theorem isLastPlace_concat_self (names : List String) (name : String) :
    IsLastPlace (names ++ [name]) name names.length where
  at_place := List.getElem?_concat_length
  last j hj := by
    have hlt := (List.getElem?_eq_some_iff.mp hj).1
    rw [List.length_append, List.length_singleton] at hlt
    omega

/-- Where another name stands for the last time does not change. -/
theorem IsLastPlace.concat (h : IsLastPlace names name i) (hne : name ≠ other) :
    IsLastPlace (names ++ [other]) name i where
  at_place := by rw [List.getElem?_append_left h.lt_length, h.at_place]
  last j hj := by
    rcases Nat.lt_trichotomy j names.length with hlt | rfl | hgt
    · rw [List.getElem?_append_left hlt] at hj
      exact h.last j hj
    · rw [List.getElem?_concat_length] at hj
      exact absurd (Option.some.inj hj).symm hne
    · have hlt := (List.getElem?_eq_some_iff.mp hj).1
      rw [List.length_append, List.length_singleton] at hlt
      omega

end IsLastPlace

namespace OrderedMap

variable {α : Type} {m : OrderedMap α} {es : List (String × α)}

/-- A map holds of each name in a list of entries the last entry, in the order of these. -/
structure HoldsLast (es : List (String × α)) (m : OrderedMap α) : Prop where
  /-- the names are those in the list -/
  mem_keys_iff : ∀ name, name ∈ m.keys ↔ name ∈ es.map Prod.fst
  /-- each of them occurs once -/
  nodup : m.keys.Nodup
  /-- one stands before another if its last entry does -/
  in_order : m.keys.Pairwise fun name other => ∃ i j, IsLastPlace (es.map Prod.fst) name i ∧
    IsLastPlace (es.map Prod.fst) other j ∧ i < j
  /-- the value of a name is that of its last entry -/
  holds : ∀ name ∈ m.keys, ∃ i value, es[i]? = some (name, value) ∧
    IsLastPlace (es.map Prod.fst) name i ∧ m.get? name = some value

theorem holdsLast_empty : HoldsLast [] (empty : OrderedMap α) where
  mem_keys_iff := by simp [keys]
  nodup := List.nodup_nil
  in_order := .nil
  holds := by simp [keys]

/-- Inserting a name keeps that the map holds the last entries. -/
theorem HoldsLast.insert (h : HoldsLast es m) (name : String) (value : α) :
    HoldsLast (es ++ [(name, value)]) (m.insert name value) := by
  have hnames : (es ++ [(name, value)]).map Prod.fst = es.map Prod.fst ++ [name] := by simp
  have hself : IsLastPlace ((es ++ [(name, value)]).map Prod.fst) name es.length := by
    rw [hnames]
    simpa using isLastPlace_concat_self (es.map Prod.fst) name
  have hother : ∀ {other i}, other ≠ name → IsLastPlace (es.map Prod.fst) other i →
      IsLastPlace ((es ++ [(name, value)]).map Prod.fst) other i := by
    intro other i hne hplace
    rw [hnames]
    exact hplace.concat hne
  have hkept : ∀ {other}, other ∈ m.keys.filter (· != name) ↔ other ∈ m.keys ∧ other ≠ name := by
    simp
  refine ⟨fun other => ?_, (m.insert name value).nodup_keys, ?_, fun other hmem => ?_⟩
  · rw [keys_insert, hnames, List.mem_append, hkept, h.mem_keys_iff, List.mem_append]
    by_cases hne : other = name <;> simp [hne]
  · -- the other names keep their order, and the new one has the last of all places
    rw [keys_insert, List.pairwise_append]
    refine ⟨(h.in_order.filter _).imp_of_mem ?_, List.pairwise_singleton _ _, ?_⟩
    · rintro a b ha hb ⟨i, j, hi, hj, hlt⟩
      exact ⟨i, j, hother (hkept.mp ha).2 hi, hother (hkept.mp hb).2 hj, hlt⟩
    · intro other hmem last hlast
      obtain rfl := List.mem_singleton.mp hlast
      obtain ⟨hmem, hne⟩ := hkept.mp hmem
      obtain ⟨i, -, -, hplace, -⟩ := h.holds other hmem
      exact ⟨i, es.length, hother hne hplace, hself, by simpa using hplace.lt_length⟩
  · rw [get?_insert]
    by_cases hne : other = name
    · subst hne
      exact ⟨es.length, value, List.getElem?_concat_length, hself, if_pos rfl⟩
    · rw [keys_insert, List.mem_append, hkept] at hmem
      have hmem : other ∈ m.keys := by simpa [hne] using hmem
      obtain ⟨i, value', hat, hplace, hget⟩ := h.holds other hmem
      refine ⟨i, value', ?_, hother hne hplace, by rw [if_neg hne, hget]⟩
      rw [List.getElem?_append_left (by simpa using hplace.lt_length), hat]

/-- A map that entries are inserted into one after the other holds the last of them. -/
theorem holdsLast_ofList (es : List (String × α)) : HoldsLast es (ofList es) := by
  induction es using List.reverseRecOn with
  | nil => exact holdsLast_empty
  | append_singleton es e ih =>
    have hlast : ofList (es ++ [e]) = (ofList es).insert e.1 e.2 := by
      simp [ofList, insertAll]
    rw [hlast]
    exact ih.insert e.1 e.2

/-- Names that do not repeat stay in order. -/
theorem entries_ofList_of_nodup (h : (es.map Prod.fst).Nodup) : (ofList es).entries = es :=
  congrArg entries (ofList_entries ⟨es, h⟩)

end OrderedMap

namespace Schema

open Catalog OrderedMap

/-- **What comes last counts, and where it comes.** The properties of a table are those of the last
column of each name, in the order of these columns, so that they are all columns in order where no
name repeats. The definitions of tables are the properties of the last table of each name, in the
order of these tables, under whatever settings the document is made. -/
theorem maps_keep_last_occurrences :
    (∀ t : Table,
      HoldsLast
        (t.fields.map fun f => (f.name, (⟨f.name, f.type.base.text, f.type.format⟩ : Property)))
        (Properties.ofTable t) ∧
      ((t.fields.map Field.name).Nodup → (Properties.ofTable t).entries =
        t.fields.map fun f => (f.name, ⟨f.name, f.type.base.text, f.type.format⟩))) ∧
    ∀ tables : List Table, ∃ m : OrderedMap Properties,
      HoldsLast (tables.map fun t => (t.name, .ofTable t)) m ∧
      ∀ s : Settings, s.definitions tables = (s.identifier "definitions").map fun id =>
        { dialect := s.effectiveDialect, id, title := s.effectiveTitle, definitions := m } := by
  refine ⟨fun t => ⟨holdsLast_ofList _, fun hnodup => ?_⟩, fun tables => ?_⟩
  · refine entries_ofList_of_nodup ?_
    rw [List.map_map]
    exact hnodup
  · exact ⟨_, holdsLast_ofList _, fun s => s.definitions_eq tables⟩

/-- A column that comes again moves behind the one between, and a table that comes again replaces
the columns; where nothing repeats, nothing moves. -/
theorem maps_keep_last_occurrences_repeated :
    let x : Field := ⟨"x", ⟨.string, none⟩⟩
    let y : Field := ⟨"y", ⟨.number, some "float"⟩⟩
    let z : Field := ⟨"x", ⟨.boolean, none⟩⟩
    ([x, y].map Field.name).Nodup ∧
      (Properties.ofTable ⟨"t", [x, y], []⟩).entries =
        [("x", ⟨"x", "string", none⟩), ("y", ⟨"y", "number", some "float"⟩)] ∧
      (Properties.ofTable ⟨"t", [x, y, z], []⟩).entries =
        [("y", ⟨"y", "number", some "float"⟩), ("x", ⟨"x", "boolean", none⟩)] := by
  intro x y z
  have hnodup : ([x, y].map Field.name).Nodup := by decide
  exact ⟨hnodup, (maps_keep_last_occurrences.1 ⟨"t", [x, y], []⟩).2 hnodup, by decide⟩

end Schema

end TableSchema
