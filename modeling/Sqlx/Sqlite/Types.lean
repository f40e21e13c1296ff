import Mathlib.Init

/-
  Sqlx.Sqlite.Types — SQLite's type information and the decoder of an optional value
  (`sqlx-core/src/sqlite/types/mod.rs`).

  A `SqliteTypeInfo` is a storage type and, for a declared column, its type affinity. Two are
  `compatible` when their types or their affinities are equal; `Display` names the type.
  `Decode for Option<T>` reads SQL NULL as `None` and anything else with `T`'s decoder.
  `sqlite/value.rs` is not in src/: what `decode` reads of a value is whether it is NULL, a
  parameter, and `T`'s decoder is a parameter too. Nothing here is more than a lookup or a test,
  so the module is the model alone.
-/

namespace Sqlx.Sqlite

/-- `SqliteType` (`Integer = 1, Float, Text, Blob`, the fundamental datatypes, and a
    non-standard `Boolean`). -/
inductive SqliteType where
  | integer
  | float
  | text
  | blob
  | boolean
  deriving DecidableEq, Repr

inductive SqliteTypeAffinity where
  | text
  | numeric
  | integer
  | real
  | blob
  deriving DecidableEq, Repr

structure SqliteTypeInfo where
  type : SqliteType
  affinity : Option SqliteTypeAffinity
  deriving DecidableEq, Repr

def SqliteTypeInfo.new (type : SqliteType) (affinity : SqliteTypeAffinity) : SqliteTypeInfo :=
  ⟨type, some affinity⟩

/-- `Display`. -/
def SqliteTypeInfo.fmt (info : SqliteTypeInfo) : String :=
  match info.type with
  | .text => "TEXT"
  | .boolean => "BOOLEAN"
  | .integer => "INTEGER"
  | .float => "DOUBLE"
  | .blob => "BLOB"

/-- `TypeInfo::compatible`. -/
def SqliteTypeInfo.compatible (self other : SqliteTypeInfo) : Bool :=
  self.type == other.type || self.affinity == other.affinity

/-! ## Decoding an optional value -/

section Decode

variable {V ε α : Type} (isNull : V → Bool) (decode : V → Except ε α)

/-- `Decode for Option<T>`: `isNull` is `SqliteValue::is_null`, `decode` is `T`'s decoder. -/
def decodeOption (value : V) : Except ε (Option α) :=
  if isNull value then .ok none else (decode value).map some

end Decode

end Sqlx.Sqlite
