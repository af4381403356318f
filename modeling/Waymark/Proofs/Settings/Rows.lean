import Waymark.Proofs.Settings.Texts
/-!
# Listed settings

A listing has a row for each declared setting and one for each other property that is stored, so that
every property that is stored has exactly one row, and each row shows what its setting is.
-/

namespace Waymark

theorem Bag.contains_iff {bag : Bag} {name : String} :
    bag.contains name = true ↔ ∃ property ∈ bag.properties, property.key = Text.lower name := by
  simp [contains, find?, findKey?]

namespace Schema

variable {schema : Schema} {bag : Bag}

def Apart (schema : Schema) : Prop :=
  schema.Pairwise fun a b => Text.lower a.name ≠ Text.lower b.name

theorem Apart.declares (apart : schema.Apart) {declaration : Declaration}
    (inside : declaration ∈ schema) : schema.Declares declaration.name declaration := by
  obtain ⟨before, after, rfl⟩ := List.append_of_mem inside
  refine ⟨rfl, before, after, rfl, fun other early => ?_⟩
  exact (List.pairwise_append.mp apart).2.2 other early declaration List.mem_cons_self

def declaredRow (bag : Bag) (declaration : Declaration) : Row :=
  ⟨declaration.name, declaration.resolve bag, some declaration, !bag.contains declaration.name⟩

def otherRow (property : Property) : Row :=
  ⟨property.name, property.value, none, false⟩

def others (schema : Schema) (bag : Bag) : List Property :=
  bag.properties.filter fun property => (schema.declared? property.name).isNone

theorem rows_eq (schema : Schema) (bag : Bag) :
    schema.rows bag = schema.map (declaredRow bag) ++ (schema.others bag).map otherRow :=
  rfl

theorem mem_others {property : Property} :
    property ∈ schema.others bag ↔ property ∈ bag.properties ∧ schema.Undeclared property.name := by
  rw [others, List.mem_filter, Option.isNone_iff_eq_none, declared?_eq_none]

theorem mem_rows {row : Row} : row ∈ schema.rows bag ↔
    (∃ declaration ∈ schema, declaredRow bag declaration = row) ∨
      ∃ property ∈ schema.others bag, otherRow property = row := by
  rw [rows_eq, List.mem_append, List.mem_map, List.mem_map]

/-- The rows that show the declared settings, in the order of the declarations, and then the other
properties that are stored, in the order of their lower-cased names. -/
structure Lists (schema : Schema) (bag : Bag) (rows : List Row) : Prop where
  order : ∃ others : List Property,
    rows.map (fun row => (row.name, row.declaration)) =
      schema.map (fun declaration => (declaration.name, some declaration)) ++
        others.map (fun property => (property.name, none)) ∧
    (others.Pairwise fun a b => a.key < b.key) ∧
    ∀ property, property ∈ others ↔ property ∈ bag.properties ∧ schema.Undeclared property.name
  apart : rows.Pairwise fun a b => Text.lower a.name ≠ Text.lower b.name
  once : ∀ property ∈ bag.properties,
    (rows.map fun row => Text.lower row.name).count (Text.lower property.name) = 1
  values : ∀ row ∈ rows, schema.get? bag row.name = some row.value
  defaults : ∀ row ∈ rows, row.isDefault = true ↔
    row.declaration.isSome = true ∧
      ∀ property ∈ bag.properties, Text.lower property.name ≠ Text.lower row.name

theorem rows_apart (apart : schema.Apart) (bag : Bag) :
    (schema.rows bag).Pairwise fun a b => Text.lower a.name ≠ Text.lower b.name := by
  rw [rows_eq, List.pairwise_append]
  refine ⟨List.pairwise_map.mpr apart, List.pairwise_map.mpr (bag.keysDiffer.filter _), ?_⟩
  rintro _ first _ second
  obtain ⟨declaration, listed, rfl⟩ := List.mem_map.mp first
  obtain ⟨property, inside, rfl⟩ := List.mem_map.mp second
  exact (mem_others.mp inside).2 declaration listed

theorem exists_row (schema : Schema) {property : Property} (inside : property ∈ bag.properties) :
    ∃ row ∈ schema.rows bag, Text.lower row.name = Text.lower property.name := by
  by_cases undeclared : schema.Undeclared property.name
  · exact ⟨otherRow property, mem_rows.mpr (.inr ⟨property, mem_others.mpr ⟨inside, undeclared⟩, rfl⟩),
      rfl⟩
  · obtain ⟨declaration, found⟩ := Option.ne_none_iff_exists'.mp (mt declared?_eq_none.mp undeclared)
    have declares := declared?_eq_some.mp found
    exact ⟨declaredRow bag declaration, mem_rows.mpr (.inl ⟨declaration, declares.mem, rfl⟩),
      declares.same⟩

theorem get?_of_mem_rows (apart : schema.Apart) {row : Row} (inside : row ∈ schema.rows bag) :
    schema.get? bag row.name = some row.value := by
  rw [get?]
  rcases mem_rows.mp inside with ⟨declaration, listed, rfl⟩ | ⟨property, other, rfl⟩
  · rw [declaredRow, declared?_eq_some.mpr (apart.declares listed)]
  · obtain ⟨stored, undeclared⟩ := mem_others.mp other
    rw [otherRow, declared?_eq_none.mpr undeclared, Bag.value?_of_mem stored]

theorem isDefault_of_mem_rows {row : Row} (inside : row ∈ schema.rows bag) :
    row.isDefault = true ↔ row.declaration.isSome = true ∧
      ∀ property ∈ bag.properties, Text.lower property.name ≠ Text.lower row.name := by
  rcases mem_rows.mp inside with ⟨declaration, -, rfl⟩ | ⟨property, -, rfl⟩
  · simp only [declaredRow, Bool.not_eq_true', Bool.eq_false_iff, ne_eq, Bag.contains_iff,
      not_exists, not_and, Option.isSome_some, true_and]
    rfl
  · exact iff_of_false Bool.false_ne_true fun declared => Bool.false_ne_true declared.1

/-- A listing is complete: the declared settings stand in the order of their declarations before the
other properties that are stored, each stored property has exactly one row, and each row shows what
is read under its name. It is told of a declared setting whether nothing is stored for it. -/
theorem rows_lists (apart : schema.Apart) (bag : Bag) : schema.Lists bag (schema.rows bag) where
  order := by
    refine ⟨schema.others bag, ?_, bag.ordered.filter _, fun property => mem_others⟩
    rw [rows_eq, List.map_append, List.map_map, List.map_map]
    rfl
  apart := rows_apart apart bag
  once := by
    intro property inside
    obtain ⟨row, listed, same⟩ := exists_row schema inside
    have distinct : (schema.rows bag).map (fun row => Text.lower row.name) |>.Nodup :=
      List.pairwise_map.mpr (rows_apart apart bag)
    exact List.count_eq_one_of_mem distinct (List.mem_map.mpr ⟨row, listed, same⟩)
  values := fun row inside => get?_of_mem_rows apart inside
  defaults := fun row inside => isDefault_of_mem_rows inside

def storedSettings : Bag :=
  ((Bag.empty.set "MAXIMUMINSTANCES" (.integer 500)).1.set "Theme" (.string "dark")).1

theorem settings_apart : Schema.Apart Settings.schema := by
  unfold Apart
  decide +kernel

theorem rows_lists_storedSettings :
    Settings.schema.Lists storedSettings (Settings.schema.rows storedSettings) ∧
      (Settings.schema.rows storedSettings).map (fun row => (row.name, row.isDefault)) =
        [("sendErrorReport", true), ("maximumInstances", false), ("instancesUpdateInterval", true),
          ("backupsMaxDays", true), ("maximumHistoryEntries", true),
          ("closeExitedTerminalProcesses", true), ("Theme", false)] ∧
      Settings.schema.get? storedSettings "maximumInstances" = some (.integer 100) := by
  have lists := rows_lists settings_apart storedSettings
  have row : (⟨"maximumInstances", .integer 100, some ⟨"maximumInstances", .number 10 1 100⟩,
      false⟩ : Row) ∈ Settings.schema.rows storedSettings := by
    refine mem_rows.mpr (.inl ⟨⟨"maximumInstances", .number 10 1 100⟩, by decide, rfl⟩)
  exact ⟨lists, by decide +kernel, lists.values _ row⟩

end Schema
end Waymark
