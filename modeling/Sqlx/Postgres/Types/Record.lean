import Mathlib
import Sqlx.Postgres.Protocol

/-
  Sqlx.Postgres.Types.Record — the record codec (`types/record.rs`): `PgRecordEncoder`, which
  writes a record's fields into a byte buffer and back-patches each length and the count,
  `PgRecordDecoder`, which reads a record back one field at a time from a binary or a text value,
  and the codec of `(bool, i32, i64, f64, T5)` built on them.

  Where Rust would panic the model returns `none`. A text is its characters, at byte offsets
  given by their UTF-8 sizes: `&s[a..b]` panics when `a > b`, when `b` is past the end, or when
  either falls inside a character (`slice`). `u32` arithmetic wraps, as in a release build.

  Three collaborators are not in src/. `io/buf.rs`: `Buf::get_u32` / `get_i32` are modelled from
  the spec (§3, a truncated buffer is a decode failure), reading a big-endian word, or failing
  without consuming anything when fewer than four bytes are left; sqlx's own panic there. The scalar `Encode` / `Decode`
  impls: a field is its type's oid and the bytes its `Encode` appends, and a field decoder is any
  `Option PgValue → Except Error α` (`Codec`). `TryFrom<Option<PgValue>>`: a NULL record is
  `UnexpectedNull`, as §4.5 says.
-/

namespace Sqlx.Postgres

/-! ## Words -/

/-- `to_be_bytes()` of the `u32` holding `n` (so `n % 2 ^ 32`). -/
def be32 (n : Nat) : List UInt8 :=
  [UInt8.ofNat (n / 2 ^ 24), UInt8.ofNat (n / 2 ^ 16), UInt8.ofNat (n / 2 ^ 8), UInt8.ofNat n]

def beWord (b0 b1 b2 b3 : UInt8) : Nat := b0.toNat * 2 ^ 24 + b1.toNat * 2 ^ 16 + b2.toNat * 2 ^ 8 + b3.toNat

def toI32 (n : Nat) : Int := if n < 2 ^ 31 then n else (n : Int) - 2 ^ 32

/-- Modelled from the spec: `Buf::get_u32::<BigEndian>`. sqlx's reads the word with `byteorder`,
    which panics when fewer than four bytes are left; the spec's decode failure is modelled. -/
def getU32 : List UInt8 → Except Error (UInt32 × List UInt8)
  | b0 :: b1 :: b2 :: b3 :: rest => .ok (UInt32.ofNat (beWord b0 b1 b2 b3), rest)
  | _ => .error .io

/-- Modelled from the spec: `Buf::get_i32::<BigEndian>`, as `getU32`. -/
def getI32 : List UInt8 → Except Error (Int × List UInt8)
  | b0 :: b1 :: b2 :: b3 :: rest => .ok (toI32 (beWord b0 b1 b2 b3), rest)
  | _ => .error .io

/-! ## Text slices -/

def byteLen (s : List Char) : Nat := (s.map Char.utf8Size).sum

/-- `(&s[..n], &s[n..])`, or `none` where Rust panics: `n` past the end or inside a character. -/
def splitAt? : List Char → Nat → Option (List Char × List Char)
  | s, 0 => some ([], s)
  | [], _ + 1 => none
  | c :: s, n + 1 =>
    if c.utf8Size ≤ n + 1 then (splitAt? s (n + 1 - c.utf8Size)).map fun (l, r) => (c :: l, r) else none

def slice (s : List Char) (a b : Nat) : Option (List Char) :=
  if a ≤ b then (splitAt? s a).bind fun (_, r) => (splitAt? r (b - a)).map Prod.fst else none

def nulChar : Char := Char.ofNat 0

def quoteChar : Char := Char.ofNat 34

/-! ## Values -/

inductive PgValue where
  | binary (buf : List UInt8)
  | text (s : List Char)
  deriving DecidableEq, Repr

/-- A field as `encode::<T>` sees it: `T`'s oid and the bytes `T`'s `Encode` appends. -/
structure RecordField where
  oid : UInt32
  payload : List UInt8
  deriving DecidableEq, Repr

instance instDecidableEqExcept {ε α : Type} [DecidableEq ε] [DecidableEq α] : DecidableEq (Except ε α)
  | .error a, .error b => decidable_of_iff (a = b) ⟨congrArg _, Except.error.inj⟩
  | .ok a, .ok b => decidable_of_iff (a = b) ⟨congrArg _, Except.ok.inj⟩
  | .error _, .ok _ => isFalse Except.noConfusion
  | .ok _, .error _ => isFalse Except.noConfusion

/-- A field type's codec: the field its `Encode` writes for a value, and its `Decode`. -/
structure Codec (α : Type) where
  encode : α → RecordField
  decode : Option PgValue → Except Error α

/-- The codecs of a `(bool, i32, i64, f64, T5)` record's fields; an `f64` is its bits. -/
structure TupleCodecs (α : Type) where
  bool : Codec Bool
  i32 : Codec Int
  i64 : Codec Int
  f64 : Codec UInt64
  t5 : Codec α

/-! ## `PgRecordEncoder` -/

def patch (buf : List UInt8) (pos : Nat) (bytes : List UInt8) : List UInt8 :=
  buf.take pos ++ bytes ++ buf.drop (pos + bytes.length)

@[simp] theorem length_be32 (n : Nat) : (be32 n).length = 4 := rfl

theorem length_patch {buf bytes : List UInt8} {pos : Nat} (h : pos + bytes.length ≤ buf.length) :
    (patch buf pos bytes).length = buf.length := by
  simp only [patch, List.length_append, List.length_take, List.length_drop]
  omega

structure PgRecordEncoder where
  buf : List UInt8
  beg : Nat
  num : UInt32
  beg_le : 4 ≤ beg ∧ beg ≤ buf.length

def PgRecordEncoder.new (buf : List UInt8) : PgRecordEncoder :=
  ⟨buf ++ be32 0, buf.length + 4, 0, by simp⟩

theorem beg_le_patch {buf : List UInt8} {beg : Nat} (h : 4 ≤ beg ∧ beg ≤ buf.length) (oid zeros payload bytes : List UInt8)
    (hoid : oid.length = 4) (hzeros : zeros.length = 4) (hbytes : bytes.length = 4) :
    4 ≤ beg ∧ beg ≤ (patch (buf ++ oid ++ zeros ++ payload) ((buf ++ oid ++ zeros).length - 4) bytes).length := by
  rw [length_patch (by simp only [List.length_append]; omega)]
  simp only [List.length_append]
  omega

/-- `encode::<T>`: the oid, four zeros for the length, the value, then the length (`size as u32`)
    written over the zeros. -/
def PgRecordEncoder.encode (e : PgRecordEncoder) (field : RecordField) : PgRecordEncoder :=
  let start := (e.buf ++ be32 field.oid.toNat ++ [0, 0, 0, 0]).length
  let size := (e.buf ++ be32 field.oid.toNat ++ [0, 0, 0, 0] ++ field.payload).length - start
  ⟨patch (e.buf ++ be32 field.oid.toNat ++ [0, 0, 0, 0] ++ field.payload) (start - 4) (be32 (UInt32.ofNat size).toNat),
    e.beg, e.num + 1,
    by exact beg_le_patch e.beg_le _ [0, 0, 0, 0] field.payload _ (length_be32 _) rfl (length_be32 _)⟩

/-- `finish`: the count written over the reserved bytes. -/
def PgRecordEncoder.finish (e : PgRecordEncoder) : PgRecordEncoder :=
  ⟨patch e.buf (e.beg - 4) (be32 e.num.toNat), e.beg, e.num, by
    have := e.beg_le
    rw [length_patch (by simp; omega)]
    exact this⟩

def encodeRecord (buf : List UInt8) (fields : List RecordField) : List UInt8 :=
  (fields.foldl PgRecordEncoder.encode (PgRecordEncoder.new buf)).finish.buf

/-- `Encode for (bool, i32, i64, f64, &str)` (lines 69-78). -/
def encodeTuple {α : Type} (cs : TupleCodecs α) (v : Bool × Int × Int × UInt64 × α) (buf : List UInt8) :
    List UInt8 :=
  encodeRecord buf [cs.bool.encode v.1, cs.i32.encode v.2.1, cs.i64.encode v.2.2.1, cs.f64.encode v.2.2.2.1,
    cs.t5.encode v.2.2.2.2]

/-! ## `PgRecordDecoder` -/

structure PgRecordDecoder where
  value : PgValue
  deriving DecidableEq, Repr

/-- `PgRecordDecoder::new` (lines 95-109): skip the count of a binary record; strip the first and
    the last byte of a text one (`&s[1..s.len() - 1]`, where `s.len() - 1` cannot go below zero). -/
def PgRecordDecoder.new : PgValue → Option (Except Error PgRecordDecoder)
  | .binary buf => some ((getU32 buf).map fun (_, buf) => ⟨.binary buf⟩)
  | .text s => if byteLen s = 0 then none else (slice s 1 (byteLen s - 1)).map fun s => .ok ⟨.text s⟩

/-- `decode` on a binary value (lines 116-133): the field's oid and length, then, for a length that
    is not negative, its bytes. What the field's decoder returns comes with the bytes left. -/
def decodeBinary {α : Type} (dec : Option PgValue → Except Error α) (buf : List UInt8) :
    Option (Except Error α × List UInt8) :=
  match getU32 buf with
  | .error e => some (.error e, buf)
  | .ok (_, buf) =>
    match getI32 buf with
    | .error e => some (.error e, buf)
    | .ok (len, buf) =>
      if len < 0 then some (dec none, buf)
      else if len.toNat ≤ buf.length then some (dec (some (.binary (buf.take len.toNat))), buf.drop len.toNat)
      else none

/-- The text loop's state (lines 136-139); the unescaped `value` it also builds is never read. -/
structure Scan where
  inQuotes : Bool
  isQuoted : Bool
  prevCh : Char
  prevIndex : Nat
  deriving DecidableEq, Repr

/-- A character that does not end the loop (lines 152-175): the quote arms, then `prev_ch` and
    `prev_index`. -/
def Scan.push (st : Scan) (index : Nat) (ch : Char) : Scan :=
  let st :=
    if ch = quoteChar then
      if st.inQuotes then { st with inQuotes := false }
      else if st.prevCh = quoteChar then { st with inQuotes := false }
      else { st with inQuotes := true, isQuoted := true }
    else st
  { st with prevCh := ch, prevIndex := index }

/-- The loop over `s.char_indices()`, at byte `index`: its state at the end and how it left,
    `some none` at a comma before any character (a NULL), `some (some i)` at a comma outside
    quotes at byte `i`, `none` at the end of the text. -/
def scan (st : Scan) (index : Nat) : List Char → Scan × Option (Option Nat)
  | [] => (st, none)
  | ch :: s =>
    if ch = ',' ∧ st.prevCh = nulChar then (st, some none)
    else if ch = ',' ∧ st.inQuotes = false then (st, some (some index))
    else scan (st.push index ch) (index + ch.utf8Size) s

def Scan.index (st : Scan) : Option (Option Nat) → Option Nat
  | some brk => brk
  | none => if st.prevCh = nulChar then none else some st.prevIndex

def Scan.init : Scan := ⟨false, false, nulChar, 0⟩

/-- `decode` on a text value (lines 135-201): the field is `&s[..index]`, without its first byte
    when a quote was seen; the decoder's value comes with `&s[index + 1..]` (`&s[1..]` for a NULL). -/
def decodeText {α : Type} (dec : Option PgValue → Except Error α) (s : List Char) :
    Option (Except Error α × List Char) :=
  let (st, brk) := scan .init 0 s
  let index := st.index brk
  let value : Option (Option PgValue) :=
    match index with
    | none => some none
    | some index => (slice s 0 index).bind fun f =>
        if st.isQuoted then (slice f 1 (byteLen f)).map fun f => some (.text f) else some (some (.text f))
  value.bind fun value =>
    match dec value with
    | .error e => some (.error e, s)
    | .ok v => (splitAt? s (index.getD 0 + 1)).map fun (_, s) => (.ok v, s)

/-- `PgRecordDecoder::decode`: the value for the field's decoder, and the decoder after it. -/
def PgRecordDecoder.decode {α : Type} (dec : Option PgValue → Except Error α) :
    PgRecordDecoder → Option (Except Error α × PgRecordDecoder)
  | ⟨.binary buf⟩ => (decodeBinary dec buf).map fun (r, buf) => (r, ⟨.binary buf⟩)
  | ⟨.text s⟩ => (decodeText dec s).map fun (r, s) => (r, ⟨.text s⟩)

def andThen {α β : Type} (r : Option (Except Error α × PgRecordDecoder))
    (k : α → PgRecordDecoder → Option (Except Error β)) : Option (Except Error β) :=
  match r with
  | none => none
  | some (.error e, _) => some (.error e)
  | some (.ok v, d) => k v d

/-- `Decode for (bool, i32, i64, f64, T5)` (lines 206-222). -/
def decodeTuple {α : Type} (cs : TupleCodecs α) (value : Option PgValue) :
    Option (Except Error (Bool × Int × Int × UInt64 × α)) :=
  match value with
  | none => some (.error .unexpectedNull)
  | some value =>
    match PgRecordDecoder.new value with
    | none => none
    | some (.error e) => some (.error e)
    | some (.ok d) =>
      andThen (d.decode cs.bool.decode) fun v1 d =>
      andThen (d.decode cs.i32.decode) fun v2 d =>
      andThen (d.decode cs.i64.decode) fun v3 d =>
      andThen (d.decode cs.f64.decode) fun v4 d =>
      andThen (d.decode cs.t5.decode) fun v5 _ => some (.ok (v1, v2, v3, v4, v5))

/-- `n` calls of `decode` for fields of type `Option<PgValue>`: the raw values handed out. -/
def decodeFields : Nat → PgRecordDecoder → Option (Except Error (List (Option PgValue)) × PgRecordDecoder)
  | 0, d => some (.ok [], d)
  | n + 1, d =>
    match d.decode Except.ok with
    | none => none
    | some (.error e, d) => some (.error e, d)
    | some (.ok v, d) => (decodeFields n d).map fun (r, d) => (r.map (v :: ·), d)

/-- `PgRecordDecoder::new` on a value, then `n` calls of `decode` for fields of type
    `Option<PgValue>`: the raw values handed out, and what is left of the value. -/
def decodeRecord (n : Nat) (value : PgValue) : Option (Except Error (List (Option PgValue) × PgValue)) :=
  match PgRecordDecoder.new value with
  | none => none
  | some (.error e) => some (.error e)
  | some (.ok d) =>
    match decodeFields n d with
    | none => none
    | some (.error e, _) => some (.error e)
    | some (.ok vs, d) => some (.ok (vs, d.value))

end Sqlx.Postgres
