import Mathlib.Data.List.Nodup
import TableSchema.Proofs.Document.Json
import TableSchema.Proofs.OrderedMap
import TableSchema.Schema.Decoding
import TableSchema.Schema.Encoding
import TableSchema.Schema.Format

/-!
# Tables and schemas are read back

Each kind of record is written and read with its parts under the same names, so it comes back from
the value of its document if its parts do. That is carried up from texts over columns and properties
to tables and schemas; the maps in them come back in order because their names are distinct.

What is read from a text is settled by the text, so different documents have different texts.
-/

namespace TableSchema

open Document Document.Json

/-! ## Parts -/

/-- Whether what is written comes back from its document. -/
def ReadBack {α : Type} (write : α → Node) (read : Value → Option α) : Prop :=
  ∀ a, read (.ofNode (write a)) = some a

section Parts

variable {α : Type} {write : α → Node} {read : Value → Option α}

/-- Parts that all come back do so together. -/
theorem mapM_eq_some {β γ : Type} {f : β → Option γ} {g : β → γ} (h : ∀ b, f b = some (g b))
    (bs : List β) : bs.mapM f = some (bs.map g) := by
  rw [show f = fun b => pure (g b) from funext h, List.mapM_pure]
  rfl

/-- What reads one item back reads a list of them back. -/
theorem ReadBack.listOf? (h : ReadBack write read) (as : List α) :
    (Value.ofNode (.list (as.map write))).listOf? read = some as := by
  have hmap : (as.map write).map Value.ofNode = as.map fun a => Value.ofNode (write a) :=
    List.map_map
  rw [Value.ofNode, ofItems_eq_map, hmap, Value.listOf?, List.mapM_map]
  exact (mapM_eq_some h as).trans (congrArg some (List.map_id' as))

/-- What reads one value back reads a map of them back, with its keys and their order. -/
theorem ReadBack.membersOf? (h : ReadBack write read) (es : List (String × α)) :
    (Value.ofNode (.map (es.map fun e => (e.1, write e.2)))).membersOf? read = some es := by
  rw [Value.ofNode, ofEntries_eq_map, List.map_map, Value.membersOf?, List.mapM_map]
  refine (mapM_eq_some (g := id) (fun e => ?_) es).trans (congrArg some (List.map_id es))
  simp [h e.2]

/-- The parts of a record are the entries of its document, by name. -/
theorem record?_ofNode {entries : List (String × Node)} (h : (entries.map Prod.fst).Nodup)
    (names : List String) (least : Nat) :
    (Value.ofNode (.map entries)).record? names least =
      some (names.map fun name => (entries.lookup name).map Value.ofNode) := by
  have hcount : ∀ name, (Value.ofEntries entries).countP (fun m => m.1 == some name) ≤ 1 := by
    intro name
    have hone := List.nodup_iff_count_le_one.mp h name
    rw [List.count, List.countP_map] at hone
    rw [ofEntries_eq_map, List.countP_map]
    exact hone
  have hlookup : ∀ name, (Value.ofEntries entries).lookup (some name) =
      (entries.lookup name).map Value.ofNode := by
    intro name
    rw [ofEntries_eq_map]
    clear h hcount
    induction entries with
    | nil => rfl
    | cons e es ih =>
      rw [List.map_cons, List.lookup_cons, List.lookup_cons, ih]
      have hkey : (some name == some e.1) = (name == e.1) := rfl
      rw [hkey]
      cases name == e.1 <;> rfl
  have hsome : (Value.ofEntries entries).all (fun m => m.1.isSome) = true := by
    simp [ofEntries_eq_map]
  rw [Value.ofNode, Value.record?, if_pos (by simp [hsome, hcount])]
  simp only [hlookup]

/-! ## Texts -/

/-- Reading back survives the writer and the reader of the text in between. -/
theorem ReadBack.ofText? (h : ReadBack write read) (a : α) :
    (Value.ofText? (render (write a))).bind read = some a := by
  rw [ofText?_render, Option.bind_some, h a]

/-- Two things written as the same value are the same thing. -/
theorem ReadBack.injective (h : ReadBack write read) {a b : α}
    (hab : Value.ofNode (write a) = Value.ofNode (write b)) : a = b :=
  Option.some.inj ((h a).symm.trans (hab ▸ h b))

theorem ofNode_of_render_eq {n n' : Node} (h : render n = render n') :
    Value.ofNode n = Value.ofNode n' :=
  Option.some.inj ((ofText?_render n).symm.trans (h ▸ ofText?_render n'))

end Parts

/-! ## Tables -/

theorem readBack_text : ReadBack Node.text Value.text? := fun _ => rfl

namespace Catalog

theorem readBack_columnType : ReadBack ColumnType.toNode ColumnType.ofValue? := by
  rintro ⟨base, _ | format⟩
  all_goals
    rw [ColumnType.toNode, ColumnType.ofValue?, record?_ofNode (by simp [Node.optional])]
    simp [Node.optional, List.lookup_cons, Value.ofNode, BaseType.ofValue?, Value.optionalText?,
      Value.text?]

theorem readBack_field : ReadBack Field.toNode Field.ofValue? := by
  rintro ⟨name, type⟩
  rw [Field.toNode, Field.ofValue?, record?_ofNode (by simp)]
  simp [List.lookup_cons, readBack_text name, readBack_columnType type]

theorem readBack_table : ReadBack Table.toNode Table.ofValue? := by
  rintro ⟨name, fields, primaryKeys⟩
  rw [Table.toNode, Table.ofValue?, record?_ofNode (by simp), Node.ofTexts]
  simp [List.lookup_cons, readBack_text name, readBack_field.listOf? fields,
    readBack_text.listOf? primaryKeys]

end Catalog

/-! ## Schemas -/

namespace Schema

/-- A property is read back with the optional members it was written with. -/
theorem readBack_property : ReadBack Property.toNode Property.ofValue? := by
  rintro ⟨name, type, _ | format⟩
  all_goals
    rw [Property.toNode, Property.ofValue?, record?_ofNode (by simp [Node.optional])]
    simp [Node.optional, List.lookup_cons, Value.ofNode, Value.optionalText?, Value.text?]

theorem readBack_properties : ReadBack Properties.toNode Properties.ofValue? := by
  intro ps
  rw [Properties.toNode, Properties.ofValue?, readBack_property.membersOf?, Option.map_some,
    OrderedMap.ofList_entries]

theorem readBack_objectSchema : ReadBack ObjectSchema.toNode ObjectSchema.ofValue? := by
  rintro ⟨dialect, id, title, type, properties⟩
  rw [ObjectSchema.toNode, ObjectSchema.ofValue?, record?_ofNode (by simp)]
  simp [List.lookup_cons, readBack_text dialect, readBack_text id, readBack_text title,
    readBack_text type, readBack_properties properties]

theorem readBack_definitions : ReadBack Definitions.toNode Definitions.ofValue? := by
  rintro ⟨dialect, id, title, definitions⟩
  rw [Definitions.toNode, Definitions.ofValue?, record?_ofNode (by simp)]
  simp [List.lookup_cons, readBack_text dialect, readBack_text id, readBack_text title,
    readBack_properties.membersOf? definitions.entries, OrderedMap.ofList_entries]

/-- A document of any kind. -/
inductive AnyDocument where
  | table (t : Catalog.Table)
  | objectSchema (s : ObjectSchema)
  | definitions (d : Definitions)

/-- The document as such. -/
def AnyDocument.toNode : AnyDocument → Node
  | table t => t.toNode
  | objectSchema s => s.toNode
  | definitions d => d.toNode

/-- **JSON documents read back as themselves.** The JSON text of a table, of the schema of a table
and of definitions is read as the same kind of document with the same contents: all texts in it
whatever characters they hold, the order of fields, properties and definitions, and whether a column
has a format. Documents that differ, also in their kind, have texts that differ. -/
theorem json_documents_read_back :
    (∀ t : Catalog.Table,
      (Value.ofText? (Format.json.render t.toNode)).bind Catalog.Table.ofValue? = some t) ∧
    (∀ s : ObjectSchema,
      (Value.ofText? (Format.json.render s.toNode)).bind ObjectSchema.ofValue? = some s) ∧
    (∀ d : Definitions,
      (Value.ofText? (Format.json.render d.toNode)).bind Definitions.ofValue? = some d) ∧
    Function.Injective fun d : AnyDocument => Format.json.render d.toNode := by
  refine ⟨Catalog.readBack_table.ofText?, readBack_objectSchema.ofText?,
    readBack_definitions.ofText?, fun d d' h => ?_⟩
  have hvalue : Value.ofNode d.toNode = Value.ofNode d'.toNode := ofNode_of_render_eq h
  cases d <;> cases d'
  case table.table t t' => exact congrArg _ (Catalog.readBack_table.injective hvalue)
  case objectSchema.objectSchema s s' => exact congrArg _ (readBack_objectSchema.injective hvalue)
  case definitions.definitions d d' => exact congrArg _ (readBack_definitions.injective hvalue)
  -- documents of two kinds have different names in them
  all_goals
    simp [AnyDocument.toNode, Catalog.Table.toNode, ObjectSchema.toNode, Definitions.toNode,
      Value.ofNode, Value.ofEntries] at hvalue

end Schema

end TableSchema
