import GlobalMetadata.Layout.Resolved

/-!
# Rows

A section of the blob with structures in it is a table, and each structure a row. The class `Row`
says which kind of structure a row type is read from and how the values of a record become its
fields. A field that only some versions have is optional: `none` says that the version lacks it.
Indices into other tables are kept as they are stored; nothing here follows one.
-/

namespace GlobalMetadata

/-- A type of rows. -/
class Row (α : Type) where
  /-- The kind of structure that the rows are stored as. -/
  kind : RecordKind
  /-- The row that holds the values of a record. -/
  ofRecord : Record → Except Error α

end GlobalMetadata
