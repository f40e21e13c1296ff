import Mathlib.Logic.Function.Basic

/-
  Sqlx.Postgres.Protocol — what the Postgres cursor reads and keeps
  (`sqlx-core/src/postgres/cursor.rs`: `describe`, the read loops of `describe` and `next`).

  The backend messages are the tags the cursor matches on (spec §6) and a catch-all, with the
  body of the two it parses. `protocol/` is not in src/, so `RowDescription::read` and
  `DataRow::read` are a parameter (`Readers`): every theorem holds for any parsers. A
  `HashMap` is its list of entries (`Map`, newest first, `insert` replacing the key's entry);
  an `Arc` is its allocation and the value there, so pointer equality is `ptr` equality.

  Both loops of the cursor read messages until one decides (`readUntil`); `describe` is that
  loop over `describeTurn` followed by building the column map and format list.

  Proved:
  - `readUntil_acks`: acknowledgements (ParseComplete, BindComplete) are read past.
  - `describeFields_get?`: the column map sends a name to the last position of a field with
    that name, and has no other keys; the format list is the fields' formats in order.
  - `describe_after_acks`: what `describe` returns after any acknowledgements, for each kind of
    next message: for a RowDescription, the fields' formats in order and a map from each name to
    the last position of a field so named.
-/

namespace Sqlx.Postgres

inductive TypeFormat where
  | text
  | binary
  deriving DecidableEq, Repr

/-- `StatementId(u32)`: the backend's name for a prepared statement. -/
structure StatementId where
  id : UInt32
  deriving DecidableEq, Repr

/-- A `RowDescription` field, with what `describe` reads of it (the table, type and size
    fields are never read by the cursor). -/
structure Field where
  name : Option String
  typeFormat : TypeFormat
  deriving DecidableEq, Repr

structure RowDescription where
  fields : List Field
  deriving DecidableEq, Repr

/-- A `DataRow`: each column's raw bytes, `none` for SQL NULL. -/
structure DataRow where
  values : List (Option (List UInt8))
  deriving DecidableEq, Repr

/-- A backend message as `conn.stream.read()` returns it, with the body of the two kinds the
    cursor parses. `other` is every tag the cursor does not name. -/
inductive Message where
  | parseComplete
  | bindComplete
  | noData
  | rowDescription (body : List UInt8)
  | commandComplete
  | dataRow (body : List UInt8)
  | readyForQuery
  | other (tag : Char)
  deriving DecidableEq, Repr

/-- The errors the cursor returns. `unexpectedMessage context m` is
    `protocol_err!("{context}: unexpected message: {:?}", m)`; `io` is a read from a closed
    stream; `other` is whatever a collaborator (the pool, `run`, the parsers) reports. -/
inductive Error where
  | io
  | unexpectedMessage (context : String) (message : Message)
  | unexpectedNull
  | other (description : String)
  deriving DecidableEq, Repr

/-- `RowDescription::read` and `DataRow::read`, which parse a message's body. -/
structure Readers where
  rowDescription : List UInt8 → Except Error RowDescription
  dataRow : List UInt8 → Except Error DataRow

@[simp] theorem except_map_ok {ε α β : Type} (f : α → β) (a : α) : Except.map f (.ok a : Except ε α) = .ok (f a) := rfl

@[simp] theorem except_map_error {ε α β : Type} (f : α → β) (e : ε) :
    Except.map f (.error e : Except ε α) = .error e := rfl

/-! ## Maps and `Arc`s -/

/-- A `HashMap` as its entries, the newest first. -/
structure Map (κ ν : Type) where
  entries : List (κ × ν)

namespace Map

variable {κ ν : Type} [DecidableEq κ]

def empty : Map κ ν := ⟨[]⟩

def get? (m : Map κ ν) (k : κ) : Option ν := (m.entries.find? fun e => e.1 = k).map (·.2)

def contains (m : Map κ ν) (k : κ) : Bool := (m.get? k).isSome

/-- `insert` replaces the key's entry. -/
def insert (m : Map κ ν) (k : κ) (v : ν) : Map κ ν := ⟨(k, v) :: m.entries.filter fun e => e.1 ≠ k⟩

@[simp] theorem get?_empty (k : κ) : (empty : Map κ ν).get? k = none := rfl

theorem find?_filter_ne (l : List (κ × ν)) {k k' : κ} (h : k ≠ k') :
    (l.filter fun e => e.1 ≠ k).find? (fun e => e.1 = k') = l.find? fun e => e.1 = k' := by
  induction l with
  | nil => rfl
  | cons e l ih =>
    by_cases hk : e.1 = k
    · rw [List.filter_cons_of_neg (by simpa using hk), ih,
        List.find?_cons_of_neg _ (by simpa [hk] using h)]
    · rw [List.filter_cons_of_pos (by simpa using hk), List.find?_cons, List.find?_cons, ih]

@[simp] theorem get?_insert (m : Map κ ν) (k : κ) (v : ν) (k' : κ) :
    (m.insert k v).get? k' = if k = k' then some v else m.get? k' := by
  by_cases h : k = k'
  · simp [get?, insert, h]
  · simp only [get?, insert, h, if_false]
    rw [List.find?_cons_of_neg _ (by simpa using h), find?_filter_ne _ h]

@[simp] theorem contains_iff (m : Map κ ν) (k : κ) : m.contains k = true ↔ ∃ v, m.get? k = some v := by
  simp [contains, Option.isSome_iff_exists]

end Map

/-- An `Arc`: where it was allocated and the value there. `Arc::clone` copies both. -/
structure Arc (α : Type) where
  ptr : Nat
  val : α
  deriving DecidableEq, Repr

/-! ## The read loops -/

/-- How one message read in `loop { match conn.stream.read().await? { .. } }` ends. -/
inductive Turn (α : Type) where
  | skip
  | stop (a : α)
  | fail (e : Error)

/-- Such a loop: read until a message decides, and return the decision with the messages left.
    Out of messages, `read` fails. -/
def readUntil {α : Type} (turn : Message → Turn α) : List Message → Except Error α × List Message
  | [] => (.error .io, [])
  | m :: ms =>
    match turn m with
    | .skip => readUntil turn ms
    | .stop a => (.ok a, ms)
    | .fail e => (.error e, ms)

/-- ParseComplete or BindComplete, which both loops read past. -/
def IsAck (m : Message) : Prop := m = .parseComplete ∨ m = .bindComplete

theorem readUntil_acks {α : Type} {turn : Message → Turn α} (hturn : ∀ m, IsAck m → turn m = .skip)
    (acks ms : List Message) (hacks : ∀ m ∈ acks, IsAck m) : readUntil turn (acks ++ ms) = readUntil turn ms := by
  induction acks with
  | nil => rfl
  | cons m acks ih =>
    simp only [List.cons_append, readUntil, hturn m (hacks m (List.mem_cons_self _ _))]
    exact ih fun m hm => hacks m (List.mem_cons_of_mem _ hm)

/-! ## `describe` -/

section Describe

variable (rd : Readers)

/-- `describe`'s match on one message (lines 74-89). -/
def describeTurn : Message → Turn (Option RowDescription)
  | .parseComplete | .bindComplete => .skip
  | .rowDescription body =>
    match rd.rowDescription body with
    | .ok description => .stop (some description)
    | .error e => .fail e
  | .noData => .stop none
  | m => .fail (.unexpectedMessage "next/describe" m)

/-- `if let Some(name) = &field.name { columns.insert(name.clone(), index); }` -/
def insertName (columns : Map String Nat) (index : Nat) (field : Field) : Map String Nat :=
  match field.name with
  | some name => columns.insert name index
  | none => columns

/-- The loop over the fields (lines 100-106), the first at `index`. -/
def describeFields : Nat → List Field → Map String Nat × List TypeFormat → Map String Nat × List TypeFormat
  | _, [], acc => acc
  | index, field :: fields, (columns, formats) =>
    describeFields (index + 1) fields (insertName columns index field, formats ++ [field.typeFormat])

def describeColumns : Option RowDescription → Map String Nat × List TypeFormat
  | some description => describeFields 0 description.fields (Map.empty, [])
  | none => (Map.empty, [])

def describe (ms : List Message) : Except Error (Map String Nat × List TypeFormat) × List Message :=
  let (description, ms) := readUntil (describeTurn rd) ms
  (description.map describeColumns, ms)

end Describe

/-! ## What `describe` builds -/

/-- `i` is the last position of a field named `name`. -/
def LastNamed (fields : List Field) (name : String) (i : Nat) : Prop :=
  (fields[i]?).bind Field.name = some name ∧ ∀ f ∈ fields.drop (i + 1), f.name ≠ some name

@[simp] theorem lastNamed_cons_succ {f : Field} {fs : List Field} {name : String} {j : Nat} :
    LastNamed (f :: fs) name (j + 1) ↔ LastNamed fs name j := by
  simp [LastNamed]

@[simp] theorem lastNamed_cons_zero {f : Field} {fs : List Field} {name : String} :
    LastNamed (f :: fs) name 0 ↔ f.name = some name ∧ ∀ g ∈ fs, g.name ≠ some name := by
  simp [LastNamed]

@[simp] theorem insertName_get? (columns : Map String Nat) (index : Nat) (field : Field) (name : String) :
    (insertName columns index field).get? name = if field.name = some name then some index else columns.get? name := by
  unfold insertName
  split <;> simp_all

theorem describeFields_formats (index : Nat) (fields : List Field) (columns : Map String Nat)
    (formats : List TypeFormat) :
    (describeFields index fields (columns, formats)).2 = formats ++ fields.map Field.typeFormat := by
  induction fields generalizing index columns formats with
  | nil => simp [describeFields]
  | cons f fs ih => simp [describeFields, ih]

theorem exists_lastNamed_cons {f : Field} {fs : List Field} {name : String} {index i : Nat} :
    (∃ j, i = index + j ∧ LastNamed (f :: fs) name j) ↔
      (i = index ∧ f.name = some name ∧ ∀ g ∈ fs, g.name ≠ some name) ∨
        ∃ j, i = index + 1 + j ∧ LastNamed fs name j := by
  constructor
  · rintro ⟨_ | j, rfl, h⟩
    · exact .inl ⟨rfl, lastNamed_cons_zero.1 h⟩
    · exact .inr ⟨j, by omega, lastNamed_cons_succ.1 h⟩
  · rintro (⟨rfl, h⟩ | ⟨j, rfl, h⟩)
    · exact ⟨0, rfl, lastNamed_cons_zero.2 h⟩
    · exact ⟨j + 1, by omega, lastNamed_cons_succ.2 h⟩

/-- The map sends `name` to the last position of a field so named, and is `columns` on the
    names no field has. -/
theorem describeFields_get? (name : String) (fields : List Field) :
    ∀ (index : Nat) (columns : Map String Nat) (formats : List TypeFormat) (i : Nat),
      (describeFields index fields (columns, formats)).1.get? name = some i ↔
        (∃ j, i = index + j ∧ LastNamed fields name j) ∨
          (columns.get? name = some i ∧ ∀ f ∈ fields, f.name ≠ some name) := by
  induction fields with
  | nil => intros; simp [describeFields, LastNamed]
  | cons f fs ih =>
    intro index columns formats i
    rw [describeFields, ih, exists_lastNamed_cons, insertName_get?]
    by_cases hf : f.name = some name
    · simp only [hf, if_true, Option.some.injEq, List.mem_cons, forall_eq_or_imp, ne_eq, not_true_eq_false,
        false_and, and_false, or_false, true_and]
      rw [@eq_comm _ index i, or_comm]
    · simp only [hf, if_false, false_and, and_false, false_or, List.mem_cons, forall_eq_or_imp, ne_eq,
        not_false_eq_true, true_and]

theorem describeColumns_get? (description : RowDescription) (name : String) (i : Nat) :
    (describeColumns (some description)).1.get? name = some i ↔ LastNamed description.fields name i := by
  simp [describeColumns, describeFields_get?]

/-- What `describe` returns when a message decides its loop. -/
theorem describe_stop (rd : Readers) {m : Message} {rest : List Message} {description : Option RowDescription}
    (h : describeTurn rd m = .stop description) :
    describe rd (m :: rest) = (.ok (describeColumns description), rest) := by
  simp [describe, readUntil, h]

theorem describe_acks (rd : Readers) (acks ms : List Message) (hacks : ∀ m ∈ acks, IsAck m) :
    describe rd (acks ++ ms) = describe rd ms := by
  have hturn : ∀ m, IsAck m → describeTurn rd m = .skip := by
    rintro m (rfl | rfl) <;> rfl
  simp only [describe, readUntil_acks hturn acks ms hacks]

theorem describe_rejects (rd : Readers) {m : Message} {rest : List Message} (hack : ¬IsAck m) (hnd : m ≠ .noData)
    (hrd : ∀ body description, m = .rowDescription body → rd.rowDescription body ≠ .ok description) :
    ∃ e, describe rd (m :: rest) = (.error e, rest) := by
  cases m with
  | parseComplete => exact absurd (.inl rfl) hack
  | bindComplete => exact absurd (.inr rfl) hack
  | noData => exact absurd rfl hnd
  | rowDescription body =>
    cases hb : rd.rowDescription body with
    | ok d => exact absurd hb (hrd body d rfl)
    | error e => exact ⟨e, by simp [describe, readUntil, describeTurn, hb]⟩
  | _ => exact ⟨_, rfl⟩


theorem lastNamed_lt {fields : List Field} {name : String} {i : Nat} (h : LastNamed fields name i) :
    i < fields.length := by
  by_contra hi
  simp [LastNamed, List.getElem?_eq_none (Nat.le_of_not_lt hi)] at h

theorem not_lastNamed_of_unnamed {fields : List Field} {i : Nat} {f : Field} (hf : fields[i]? = some f)
    (hn : f.name = none) (name : String) : ¬LastNamed fields name i := by
  simp [LastNamed, hf, hn]

theorem exists_lastNamed_iff {fields : List Field} {name : String} :
    (∃ i, LastNamed fields name i) ↔ ∃ f ∈ fields, f.name = some name := by
  induction fields with
  | nil => simp [LastNamed]
  | cons f fs ih =>
    constructor
    · rintro ⟨_ | j, h⟩
      · exact ⟨f, List.mem_cons_self _ _, (lastNamed_cons_zero.1 h).1⟩
      · obtain ⟨g, hg, hgn⟩ := ih.1 ⟨j, lastNamed_cons_succ.1 h⟩
        exact ⟨g, List.mem_cons_of_mem _ hg, hgn⟩
    · rintro ⟨g, hg, hgn⟩
      by_cases hfs : ∃ g ∈ fs, g.name = some name
      · obtain ⟨j, hj⟩ := ih.2 hfs
        exact ⟨j + 1, lastNamed_cons_succ.2 hj⟩
      · simp only [not_exists, not_and] at hfs
        rcases List.mem_cons.1 hg with rfl | hg
        · exact ⟨0, lastNamed_cons_zero.2 ⟨hgn, hfs⟩⟩
        · exact absurd hgn (hfs g hg)

/-- `describe` after any acknowledgements. A RowDescription that parses gives the fields' formats
    in order and a map sending each name to the last position of a field so named: its keys are
    the names of the named fields, its indices are positions of the format list, and an unnamed
    field's position is no key's index. NoData gives an empty map and list; any other message,
    or none, is an error. -/
theorem describe_after_acks (rd : Readers) (acks ms : List Message) (hacks : ∀ m ∈ acks, IsAck m) :
    describe rd (acks ++ ms) = describe rd ms ∧
    (∀ body description rest, ms = .rowDescription body :: rest → rd.rowDescription body = .ok description →
      ∃ columns, describe rd ms = (.ok (columns, description.fields.map Field.typeFormat), rest) ∧
        (∀ name i, columns.get? name = some i ↔ LastNamed description.fields name i) ∧
        (∀ name, columns.contains name = true ↔ ∃ f ∈ description.fields, f.name = some name) ∧
        (∀ name i, columns.get? name = some i → i < description.fields.length) ∧
        (∀ i f, description.fields[i]? = some f → f.name = none → ∀ name, columns.get? name ≠ some i)) ∧
    (∀ rest, ms = .noData :: rest → describe rd ms = (.ok (Map.empty, []), rest)) ∧
    (∀ m rest, ms = m :: rest → ¬IsAck m → m ≠ .noData →
      (∀ body description, m = .rowDescription body → rd.rowDescription body ≠ .ok description) →
      ∃ e, describe rd ms = (.error e, rest)) ∧
    (ms = [] → describe rd ms = (.error .io, [])) := by
  refine ⟨describe_acks rd acks ms hacks, ?_, ?_, ?_, by rintro rfl; rfl⟩
  · rintro body description rest rfl hb
    have hget := describeColumns_get? description
    refine ⟨_, ?_, hget, fun name => ?_, fun name i h => lastNamed_lt ((hget name i).1 h),
      fun i f hf hn name h => not_lastNamed_of_unnamed hf hn name ((hget name i).1 h)⟩
    · rw [describe_stop rd (show describeTurn rd (.rowDescription body) = .stop (some description) by
        simp [describeTurn, hb])]
      have := describeFields_formats 0 description.fields Map.empty []
      simp only [describeColumns, List.nil_append] at this ⊢
      rw [← this]
    · simp only [Map.contains_iff, hget, exists_lastNamed_iff]
  · rintro rest rfl
    exact describe_stop rd (show describeTurn rd .noData = .stop none from rfl)
  · rintro m rest rfl hack hnd hrd
    exact describe_rejects rd hack hnd hrd

/-- A RowDescription after a BindComplete whose fields are `id`, an unnamed one and `id` again:
    the three formats in order, `id` sent to position 2, and position 1 no key's index. -/
theorem describe_after_acks_witness :
    (∀ m ∈ [Message.bindComplete], IsAck m) ∧
      ∃ columns, describe ⟨fun _ => .ok ⟨[⟨some "id", .binary⟩, ⟨none, .text⟩, ⟨some "id", .text⟩]⟩,
          fun b => .ok ⟨[some b]⟩⟩ [.bindComplete, .rowDescription [0]] = (.ok (columns, [.binary, .text, .text]), []) ∧
        columns.get? "id" = some 2 ∧ (∀ name, columns.contains name = true ↔ name = "id") ∧
        ∀ name, columns.get? name ≠ some 1 := by
  have hacks : ∀ m ∈ [Message.bindComplete], IsAck m := by simp [IsAck]
  have hd := describe_after_acks ⟨fun _ => .ok ⟨[⟨some "id", .binary⟩, ⟨none, .text⟩, ⟨some "id", .text⟩]⟩,
    fun b => .ok ⟨[some b]⟩⟩ [.bindComplete] [.rowDescription [0]] hacks
  obtain ⟨columns, hcols, hget, hkeys, -, hunnamed⟩ := hd.2.1 [0] _ [] rfl rfl
  refine ⟨hacks, columns, hd.1.trans hcols, (hget "id" 2).2 (by simp [LastNamed]), fun name => ?_,
    hunnamed 1 _ rfl rfl⟩
  rw [hkeys name]
  simp [eq_comm]

end Sqlx.Postgres
