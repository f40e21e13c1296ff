import Sqlx.Postgres.Cursor

/-
  Sqlx.MySql.Row — the MySQL row and value, and the MySQL cursor
  (`sqlx-core/src/mysql/row.rs`, `sqlx-core/src/mysql/cursor.rs`).

  A `MySqlRow` is a row packet as `protocol::Row` parses it (each column's bytes, `None` for SQL
  NULL), the cursor's shared column map, and the cursor's mode flag. `get_raw` resolves a column
  reference, by position or by name through the column map, takes that column's bytes, and tags
  them with the row's mode; in text mode it checks that they are UTF-8 first. `ColumnIndex`
  (`row.rs` of the crate root) and `protocol::Row` are not in src/, so they are modelled from the
  spec (§4.5, §6); `from_utf8` is std's and a parameter, so every theorem holds for any UTF-8
  check.

  `GetRawSpec` is what §4.5 asks of `get_raw`, stated on its own: a reference denotes a column;
  NULL is a success distinct from a value; a value carries a binary/text discriminant; the
  failures are an unknown name, a position out of range, and bytes a text decoder cannot read.

  The cursor's `next` resolves the connection source and then reaches `todo!`, a panic.

  Proved:
  - `getRaw_sound`: what `get_raw` returns is what the spec allows.
  - `getRaw_isSome`: on a row whose column map indexes within it, `get_raw` never panics.
  - `getRaw_name`: on such a row, a name reads the column at the position the map gives it.
  - `tryFrom_getRaw`: `MySqlValue::try_from` of `get_raw` fails with an unexpected null exactly
    when the column is NULL.
-/

namespace Sqlx.MySql

open Sqlx.Postgres (Map Arc ConnectionSource Query)

/-- `std::str::Utf8Error`: where the valid prefix ends. -/
structure Utf8Error where
  validUpTo : Nat
  deriving DecidableEq, Repr

/-- What `crate::Error::Decode` boxes here. -/
inductive DecodeError where
  | utf8 (e : Utf8Error)
  | unexpectedNull
  deriving DecidableEq, Repr

/-- The `crate::Error`s of the MySQL row and cursor. `other` is whatever a collaborator (the pool)
    reports. -/
inductive Error where
  | columnNotFound (name : String)
  | columnIndexOutOfBounds (len index : Nat)
  | decode (e : DecodeError)
  | other (description : String)
  deriving DecidableEq, Repr

inductive MySqlValue where
  | binary (bytes : List UInt8)
  | text (s : String)
  deriving DecidableEq, Repr

/-- `TryFrom<Option<MySqlValue>>`: SQL NULL is an unexpected null. -/
def MySqlValue.tryFrom : Option MySqlValue → Except Error MySqlValue
  | some value => .ok value
  | none => .error (.decode .unexpectedNull)

/-- Modelled from the spec (§6, row packets arrive framed): `protocol::Row`, each column's
    bytes, `none` for SQL NULL. -/
structure Protocol.Row where
  values : List (Option (List UInt8))
  deriving DecidableEq, Repr

def Protocol.Row.len (row : Protocol.Row) : Nat := row.values.length

/-- `get`: a column's bytes. `values[index]` past the end panics (`none`). -/
def Protocol.Row.get (row : Protocol.Row) (index : Nat) : Option (Option (List UInt8)) := row.values[index]?

structure MySqlRow where
  row : Protocol.Row
  columns : Arc (Map String Nat)
  binary : Bool

def MySqlRow.len (r : MySqlRow) : Nat := r.row.len

/-- Modelled from the spec (§4.5): a column reference, by position or by name. -/
inductive ColumnIndex where
  | index (i : Nat)
  | name (s : String)
  deriving DecidableEq, Repr

/-- Modelled from the spec (§4.5): `ColumnIndex::resolve`. A position must be one of the row's,
    a name must be in the column map. -/
def ColumnIndex.resolve (r : MySqlRow) : ColumnIndex → Except Error Nat
  | .index i => if i < r.len then .ok i else .error (.columnIndexOutOfBounds r.len i)
  | .name s =>
    match r.columns.val.get? s with
    | some i => .ok i
    | none => .error (.columnNotFound s)

section GetRaw

variable (fromUtf8 : List UInt8 → Except Utf8Error String)

/-- `buffer.map(..).transpose().map_err(..)`: a column's bytes as the row's mode reads them. -/
def MySqlRow.bufferValue (r : MySqlRow) : Option (List UInt8) → Except Error (Option MySqlValue)
  | none => .ok none
  | some buf =>
    if r.binary then .ok (some (.binary buf))
    else
      match fromUtf8 buf with
      | .ok s => .ok (some (.text s))
      | .error err => .error (.decode (.utf8 err))

/-- `get_raw`; `none` is a panic. -/
def MySqlRow.getRaw (r : MySqlRow) (index : ColumnIndex) : Option (Except Error (Option MySqlValue)) :=
  match index.resolve r with
  | .error e => some (.error e)
  | .ok i => (r.row.get i).map (r.bufferValue fromUtf8)

/-- Every position the column map gives is one of the row's: the map was built from the same
    column definitions as the row. -/
def MySqlRow.Wf (r : MySqlRow) : Prop := ∀ e ∈ r.columns.val.entries, e.2 < r.len

instance (r : MySqlRow) : Decidable r.Wf := inferInstanceAs (Decidable (∀ e ∈ _, _))

/-! ## The spec of `get_raw` -/

/-- The column a reference denotes: a position of the row, or the one the column map gives a
    name. -/
def ColumnIndex.Denotes (r : MySqlRow) : ColumnIndex → Nat → Prop
  | .index i, j => i = j ∧ i < r.len
  | .name s, j => r.columns.val.get? s = some j

/-- What §4.5 asks of `get_raw`, with `fromUtf8` the text decoder's check. -/
inductive GetRawSpec (r : MySqlRow) : ColumnIndex → Except Error (Option MySqlValue) → Prop
  | outOfRange (i : Nat) : r.len ≤ i → GetRawSpec r (.index i) (.error (.columnIndexOutOfBounds r.len i))
  | notFound (s : String) : r.columns.val.get? s = none → GetRawSpec r (.name s) (.error (.columnNotFound s))
  | null {index : ColumnIndex} {i : Nat} : index.Denotes r i → r.row.values[i]? = some none →
      GetRawSpec r index (.ok none)
  | binary {index : ColumnIndex} {i : Nat} {b : List UInt8} : index.Denotes r i →
      r.row.values[i]? = some (some b) → r.binary = true → GetRawSpec r index (.ok (some (.binary b)))
  | text {index : ColumnIndex} {i : Nat} {b : List UInt8} {s : String} : index.Denotes r i →
      r.row.values[i]? = some (some b) → r.binary = false → fromUtf8 b = .ok s →
      GetRawSpec r index (.ok (some (.text s)))
  | invalid {index : ColumnIndex} {i : Nat} {b : List UInt8} {err : Utf8Error} : index.Denotes r i →
      r.row.values[i]? = some (some b) → r.binary = false → fromUtf8 b = .error err →
      GetRawSpec r index (.error (.decode (.utf8 err)))

/-! ## Resolving a reference -/

variable {r : MySqlRow}

theorem mem_of_get? {m : Map String Nat} {s : String} {i : Nat} (h : m.get? s = some i) : (s, i) ∈ m.entries := by
  obtain ⟨e, he, rfl⟩ := Option.map_eq_some'.mp h
  have hs : e.1 = s := by simpa using List.find?_some he
  exact hs ▸ List.mem_of_find?_eq_some he

theorem Denotes.lt (hw : r.Wf) {index : ColumnIndex} {i : Nat} (h : index.Denotes r i) : i < r.len := by
  cases index with
  | index j => exact h.1 ▸ h.2
  | name s => exact hw _ (mem_of_get? h)

theorem resolve_ok_iff {index : ColumnIndex} {i : Nat} : index.resolve r = .ok i ↔ index.Denotes r i := by
  cases index with
  | index j => by_cases hj : j < r.len <;> simp [ColumnIndex.resolve, ColumnIndex.Denotes, hj]
  | name s => cases h : r.columns.val.get? s <;> simp [ColumnIndex.resolve, ColumnIndex.Denotes, h]

/-- A reference that does not resolve is a position out of range or a name not in the map, and
    the error names it. -/
theorem resolve_error {index : ColumnIndex} {e : Error} (h : index.resolve r = .error e) :
    (∃ i, index = .index i ∧ r.len ≤ i ∧ e = .columnIndexOutOfBounds r.len i) ∨
      (∃ s, index = .name s ∧ r.columns.val.get? s = none ∧ e = .columnNotFound s) := by
  cases index with
  | index j =>
    by_cases hj : j < r.len <;> simp only [ColumnIndex.resolve, hj, if_true, if_false] at h
    · cases h
    · exact .inl ⟨j, rfl, Nat.le_of_not_lt hj, (Except.error.inj h).symm⟩
  | name s =>
    cases hs : r.columns.val.get? s <;> simp only [ColumnIndex.resolve, hs] at h
    · exact .inr ⟨s, rfl, hs, (Except.error.inj h).symm⟩
    · cases h

/-! ## `get_raw` meets its spec -/

theorem bufferValue_spec {index : ColumnIndex} {i : Nat} {buffer : Option (List UInt8)}
    (hd : index.Denotes r i) (hv : r.row.values[i]? = some buffer) :
    GetRawSpec fromUtf8 r index (r.bufferValue fromUtf8 buffer) := by
  rcases buffer with _ | b
  · exact .null hd hv
  · cases hb : r.binary
    · cases hu : fromUtf8 b with
      | ok s => simpa [MySqlRow.bufferValue, hb, hu] using GetRawSpec.text hd hv hb hu
      | error err => simpa [MySqlRow.bufferValue, hb, hu] using GetRawSpec.invalid hd hv hb hu
    · simpa [MySqlRow.bufferValue, hb] using GetRawSpec.binary hd hv hb

/-- What `get_raw` returns, when it does not panic, is what the spec allows. -/
theorem getRaw_sound {index : ColumnIndex} {out : Except Error (Option MySqlValue)}
    (h : r.getRaw fromUtf8 index = some out) : GetRawSpec fromUtf8 r index out := by
  unfold MySqlRow.getRaw at h
  cases hres : index.resolve r with
  | error e =>
    rw [hres, Option.some_inj] at h
    subst h
    rcases resolve_error hres with ⟨i, rfl, hle, rfl⟩ | ⟨s, rfl, hs, rfl⟩
    exacts [.outOfRange i hle, .notFound s hs]
  | ok i =>
    rw [hres] at h
    obtain ⟨buffer, hv, rfl⟩ := Option.map_eq_some'.mp h
    exact bufferValue_spec fromUtf8 (resolve_ok_iff.mp hres) hv

theorem GetRawSpec.denotes_eq {index : ColumnIndex} {i j : Nat} (hi : index.Denotes r i) (hj : index.Denotes r j) :
    i = j := by
  cases index with
  | index k => exact hi.1.symm.trans hj.1
  | name s => exact Option.some_inj.mp (hi.symm.trans hj)

/-- A reference to a column present in the row reads that column's bytes. -/
theorem getRaw_of_denotes {index : ColumnIndex} {i : Nat} {buffer : Option (List UInt8)} (hd : index.Denotes r i)
    (hv : r.row.values[i]? = some buffer) : r.getRaw fromUtf8 index = some (r.bufferValue fromUtf8 buffer) := by
  simp only [MySqlRow.getRaw, resolve_ok_iff.mpr hd, Protocol.Row.get, hv, Option.map_some']

/-- On a row whose column map indexes within it, `get_raw` never panics. -/
theorem getRaw_isSome (hw : r.Wf) (index : ColumnIndex) : (r.getRaw fromUtf8 index).isSome := by
  unfold MySqlRow.getRaw
  cases hres : index.resolve r with
  | error e => rfl
  | ok i =>
    have hi : i < r.row.values.length := Denotes.lt hw (resolve_ok_iff.mp hres)
    simp [Protocol.Row.get, List.getElem?_eq_getElem hi]

theorem getRaw_isSome_at_a :
    MySqlRow.Wf ⟨⟨[some [104, 105]]⟩, ⟨0, ⟨[("a", 0)]⟩⟩, false⟩ ∧
      (MySqlRow.getRaw (fun _ => .ok "hi") ⟨⟨[some [104, 105]]⟩, ⟨0, ⟨[("a", 0)]⟩⟩, false⟩ (.name "a")).isSome :=
  ⟨by decide, getRaw_isSome _ (by decide) _⟩

/-- A column map pointing past the row makes a lookup by that name panic. -/
example : MySqlRow.getRaw (fun _ => .ok "") ⟨⟨[none]⟩, ⟨0, ⟨[("a", 1)]⟩⟩, true⟩ (.name "a") = none := rfl

/-- `MySqlValue::try_from(row.get_raw(index)?)`, how a decoder of a non-nullable type reads a
    column, fails with an unexpected null exactly when the column is NULL. -/
theorem tryFrom_getRaw {index : ColumnIndex} {i : Nat} (hd : index.Denotes r i) :
    ((r.getRaw fromUtf8 index).map fun res => res.bind MySqlValue.tryFrom) = some (.error (.decode .unexpectedNull)) ↔
      r.row.values[i]? = some none := by
  constructor
  · intro h
    obtain ⟨res, hres, hb⟩ := Option.map_eq_some'.mp h
    cases getRaw_sound fromUtf8 hres with
    | null hd' hv => exact GetRawSpec.denotes_eq hd hd' ▸ hv
    | outOfRange | notFound | binary | text | invalid => cases hb
  · intro hv
    rw [getRaw_of_denotes fromUtf8 hd hv]
    rfl

theorem tryFrom_getRaw_at_null :
    (ColumnIndex.index 0).Denotes ⟨⟨[none]⟩, ⟨0, ⟨[]⟩⟩, true⟩ 0 ∧
      (((MySqlRow.getRaw (fun _ => .ok "") ⟨⟨[none]⟩, ⟨0, ⟨[]⟩⟩, true⟩ (.index 0)).map
          fun res => res.bind MySqlValue.tryFrom) = some (.error (.decode .unexpectedNull)) ↔
        (⟨[none]⟩ : Protocol.Row).values[0]? = some none) :=
  ⟨⟨rfl, by decide⟩, tryFrom_getRaw _ ⟨rfl, by decide⟩⟩

end GetRaw

/-! ## The cursor -/

structure MySqlCursor where
  source : ConnectionSource
  query : Option Query
  columns : Arc (Map String Nat)
  binary : Bool

/-- `from_pool` / `from_connection`: no I/O; `Arc::default()` allocates; binary mode. -/
def MySqlCursor.new (source : ConnectionSource) (query : Query) (heap : Nat) : MySqlCursor × Nat :=
  (⟨source, some query, ⟨heap, Map.empty⟩, true⟩, heap + 1)

def MySqlCursor.fromPool (query : Query) (heap : Nat) : MySqlCursor × Nat := MySqlCursor.new .pool query heap

def MySqlCursor.fromConnection (query : Query) (heap : Nat) : MySqlCursor × Nat := MySqlCursor.new .connection query heap

/-- `next`: resolve the connection source, then `todo!("MySqlCursor::next")`, a panic (`none`). -/
def MySqlCursor.next (checkout : Except Error Unit) (cursor : MySqlCursor) :
    Option (Except Error (Option MySqlRow) × MySqlCursor) :=
  match cursor.source.resolve checkout with
  | .error e => some (.error e, cursor)
  | .ok _ => none

end Sqlx.MySql
