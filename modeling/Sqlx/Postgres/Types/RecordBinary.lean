import Sqlx.Postgres.Types.Record

/-
  Sqlx.Postgres.Types.RecordBinary — the binary record format: what `PgRecordEncoder` writes and
  what `PgRecordDecoder` reads back.

  A field is written as its frame (`RecordField.frame`): the oid, the length and the payload, each
  word big-endian. `encodeRecord_eq`: the encoder appends the count and the frames, leaving the
  buffer before them alone. `decodeBinary_frame`: the decoder reads a frame back, handing its
  payload to the field's decoder, when the payload is shorter than `2 ^ 31` bytes;
  `decodeBinary_frame_null`: from `2 ^ 31` to `2 ^ 32` bytes the length reads back negative and the
  field is taken for NULL, its payload left in place.

  Proved:
  - `record_codec_roundtrip`: fewer than `2 ^ 32` fields, each payload shorter than `2 ^ 31`
    bytes, come back in order from `new` and as many `decode`s, which consume the record exactly;
    a `(bool, i32, i64, f64, T5)` value whose field codecs round-trip and whose encodings are
    that short decodes to itself. The count wraps at `2 ^ 32` fields (`record_count_wraps`).
  - `length_field_reads_back`: the length written is `size as u32`, read back `as i32`: exact
    below `2 ^ 31` bytes, negative (NULL, payload not skipped) up to `2 ^ 32`
    (`huge_payload_decoded_as_null`).
  - `decodeTuple_binary`: decoding `(bool, i32, i64, f64, T5)` reads the count and drops it, reads
    five fields and never looks at what follows them.
  - `decodeBinary_panics_iff`: on a buffer holding an oid and a length, a binary `decode` panics
    exactly when the length is not negative and more than the bytes left.
  - `decodeRecord_binary_iff`: what `new` and `n` decodes accept is exactly a four-byte count,
    never compared with `n`, then one frame per value handed out (`FrameOf`): a payload shorter
    than `2 ^ 31` bytes, or a negative length for NULL.
-/

namespace Sqlx.Postgres

/-! ## Words -/

@[simp] theorem toNat_uint8_ofNat (n : Nat) : (UInt8.ofNat n).toNat = n % 2 ^ 8 := BitVec.toNat_ofNat n 8

@[simp] theorem toNat_uint32_ofNat (n : Nat) : (UInt32.ofNat n).toNat = n % 2 ^ 32 := BitVec.toNat_ofNat n 32

theorem toNat_uint32_add (a b : UInt32) : (a + b).toNat = (a.toNat + b.toNat) % 2 ^ 32 := BitVec.toNat_add _ _

theorem beWord_be32 (n : Nat) :
    beWord (UInt8.ofNat (n / 2 ^ 24)) (UInt8.ofNat (n / 2 ^ 16)) (UInt8.ofNat (n / 2 ^ 8)) (UInt8.ofNat n) =
      n % 2 ^ 32 := by
  simp only [beWord, toNat_uint8_ofNat]
  omega

@[simp] theorem getU32_be32 (n : Nat) (rest : List UInt8) : getU32 (be32 n ++ rest) = .ok (UInt32.ofNat n, rest) := by
  simp only [be32, List.cons_append, List.nil_append, getU32, beWord_be32, Except.ok.injEq, Prod.mk.injEq, and_true]
  exact UInt32.toNat.inj (by simp)

@[simp] theorem getI32_be32 (n : Nat) (rest : List UInt8) : getI32 (be32 n ++ rest) = .ok (toI32 (n % 2 ^ 32), rest) := by
  simp only [be32, List.cons_append, List.nil_append, getI32, beWord_be32]

theorem be32_mod (n : Nat) : be32 (n % 2 ^ 32) = be32 n := by
  simp only [be32, List.cons.injEq, and_true]
  refine ⟨?_, ?_, ?_, ?_⟩ <;> apply UInt8.toNat.inj <;> simp only [toNat_uint8_ofNat] <;> omega

/-- Read back `as i32`, a length is itself exactly below `2 ^ 31`. -/
theorem toI32_mod_eq_iff (n : Nat) : toI32 (n % 2 ^ 32) = n ↔ n < 2 ^ 31 := by
  unfold toI32
  split <;> omega

/-! ## What the encoder writes -/

/-- A field as the encoder writes it: oid, length, payload. -/
def RecordField.frame (f : RecordField) : List UInt8 := be32 f.oid.toNat ++ be32 f.payload.length ++ f.payload

/-- Writing four bytes over four others in the middle of a buffer. -/
theorem patch_middle (a b c bytes : List UInt8) (h : bytes.length = b.length) :
    patch (a ++ b ++ c) a.length bytes = a ++ bytes ++ c := by
  have h1 : (a ++ b ++ c).take a.length = a := by rw [List.append_assoc, List.take_left]
  have h2 : (a ++ b ++ c).drop (a.length + bytes.length) = c := by rw [h, ← List.length_append, List.drop_left]
  simp only [patch, h1, h2]

@[simp] theorem PgRecordEncoder.encode_buf (e : PgRecordEncoder) (f : RecordField) :
    (e.encode f).buf = e.buf ++ f.frame := by
  have hpos : (e.buf ++ be32 f.oid.toNat ++ [0, 0, 0, 0]).length - 4 = (e.buf ++ be32 f.oid.toNat).length := by simp
  have hsize : (e.buf ++ be32 f.oid.toNat ++ [0, 0, 0, 0] ++ f.payload).length -
      (e.buf ++ be32 f.oid.toNat ++ [0, 0, 0, 0]).length = f.payload.length := by
    simp only [List.length_append, length_be32, List.length_cons, List.length_nil]
    omega
  simp only [PgRecordEncoder.encode]
  rw [hpos, hsize, toNat_uint32_ofNat, be32_mod,
    patch_middle (e.buf ++ be32 f.oid.toNat) [0, 0, 0, 0] f.payload (be32 f.payload.length) rfl]
  simp [RecordField.frame]

@[simp] theorem PgRecordEncoder.encode_beg (e : PgRecordEncoder) (f : RecordField) : (e.encode f).beg = e.beg := rfl

@[simp] theorem PgRecordEncoder.encode_num (e : PgRecordEncoder) (f : RecordField) :
    (e.encode f).num = e.num + 1 := rfl

/-- Encoding fields one after the other appends their frames and counts them (modulo `2 ^ 32`). -/
theorem foldl_encode (fields : List RecordField) : ∀ e : PgRecordEncoder,
    (fields.foldl PgRecordEncoder.encode e).buf = e.buf ++ (fields.map RecordField.frame).flatten ∧
    (fields.foldl PgRecordEncoder.encode e).beg = e.beg ∧
    (fields.foldl PgRecordEncoder.encode e).num.toNat = (e.num.toNat + fields.length) % 2 ^ 32 := by
  induction fields with
  | nil =>
    intro e
    have : e.num.toNat < 2 ^ 32 := e.num.toNat_lt_size
    simp only [List.foldl_nil, List.map_nil, List.flatten_nil, List.append_nil, List.length_nil, true_and]
    omega
  | cons f fields ih =>
    intro e
    obtain ⟨h1, h2, h3⟩ := ih (e.encode f)
    refine ⟨by simp [h1], by simp [h2], ?_⟩
    have h1 : (1 : UInt32).toNat = 1 := rfl
    rw [List.foldl_cons, h3, PgRecordEncoder.encode_num, toNat_uint32_add]
    simp only [List.length_cons]
    omega

/-- A record of these fields in the binary format: the count, then the fields' frames. -/
def recordBytes (fields : List RecordField) : List UInt8 := be32 fields.length ++ (fields.map RecordField.frame).flatten

@[simp] theorem length_frame (f : RecordField) : f.frame.length = 8 + f.payload.length := by
  simp only [RecordField.frame, List.length_append, length_be32]

theorem length_recordBytes (fields : List RecordField) :
    (recordBytes fields).length = 4 + (fields.map fun f => 8 + f.payload.length).sum := by
  simp [recordBytes, List.length_flatten, Function.comp_def]

/-- The encoder appends the record's bytes and leaves the buffer before them alone. -/
theorem encodeRecord_eq (buf : List UInt8) (fields : List RecordField) :
    encodeRecord buf fields = buf ++ recordBytes fields := by
  obtain ⟨h1, h2, h3⟩ := foldl_encode fields (PgRecordEncoder.new buf)
  simp only [encodeRecord, PgRecordEncoder.finish, h1, h2, h3]
  simp only [PgRecordEncoder.new, Nat.add_sub_cancel, show (0 : UInt32).toNat = 0 from rfl, Nat.zero_add, be32_mod]
  rw [patch_middle buf (be32 0) _ (be32 fields.length) rfl, recordBytes, List.append_assoc]

/-! ## What the decoder reads -/

@[simp] theorem PgRecordDecoder.new_binary (n : Nat) (rest : List UInt8) :
    PgRecordDecoder.new (.binary (be32 n ++ rest)) = some (.ok ⟨.binary rest⟩) := by
  simp [PgRecordDecoder.new]

/-- A frame read back: its length is `m = |payload| % 2 ^ 32` read `as i32`. Below `2 ^ 31` the
    field's decoder gets the first `m` bytes of the payload and the rest stays; above, it gets
    NULL and nothing is skipped. -/
theorem decodeBinary_frame_eq {α : Type} (dec : Option PgValue → Except Error α) (f : RecordField)
    (rest : List UInt8) :
    decodeBinary dec (f.frame ++ rest) =
      if f.payload.length % 2 ^ 32 < 2 ^ 31 then
        some (dec (some (.binary (f.payload.take (f.payload.length % 2 ^ 32)))),
          f.payload.drop (f.payload.length % 2 ^ 32) ++ rest)
      else some (dec none, f.payload ++ rest) := by
  have hm : f.payload.length % 2 ^ 32 ≤ f.payload.length := Nat.mod_le _ _
  simp only [RecordField.frame, List.append_assoc, decodeBinary, getU32_be32, getI32_be32, toI32]
  split
  · rename_i h
    have hlen : f.payload.length % 2 ^ 32 ≤ (f.payload ++ rest).length := by
      simp only [List.length_append]
      omega
    simp only [show ¬((f.payload.length % 2 ^ 32 : Nat) : Int) < 0 by omega, if_false, Int.toNat_ofNat, hlen,
      if_true, List.take_append_of_le_length hm, List.drop_append_of_le_length hm]
  · rename_i h
    simp only [show ((f.payload.length % 2 ^ 32 : Nat) : Int) - 2 ^ 32 < 0 by omega, if_true]

/-- A frame whose payload is shorter than `2 ^ 31` bytes: its payload for the field's decoder,
    the bytes after it left. -/
theorem decodeBinary_frame {α : Type} (dec : Option PgValue → Except Error α) (f : RecordField)
    (rest : List UInt8) (h : f.payload.length < 2 ^ 31) :
    decodeBinary dec (f.frame ++ rest) = some (dec (some (.binary f.payload)), rest) := by
  have hm : f.payload.length % 2 ^ 32 = f.payload.length := Nat.mod_eq_of_lt (by omega)
  rw [decodeBinary_frame_eq, if_pos (by omega), hm, List.take_length, List.drop_length, List.nil_append]

/-- A frame whose payload has from `2 ^ 31` to `2 ^ 32` bytes: its length reads back negative, the
    field's decoder gets NULL and the payload is left to be read as the next field. -/
theorem decodeBinary_frame_null {α : Type} (dec : Option PgValue → Except Error α) (f : RecordField)
    (rest : List UInt8) (h1 : 2 ^ 31 ≤ f.payload.length) (h2 : f.payload.length < 2 ^ 32) :
    decodeBinary dec (f.frame ++ rest) = some (dec none, f.payload ++ rest) := by
  rw [decodeBinary_frame_eq, if_neg (by omega)]

/-- The length the encoder writes for a field is `size as u32`, which the decoder reads back
    `as i32`: the payload's length exactly when that is below `2 ^ 31`. What the decoder then does
    with the frame is `decodeBinary_frame_eq`. -/
theorem length_field_reads_back {α : Type} (dec : Option PgValue → Except Error α) (e : PgRecordEncoder)
    (f : RecordField) (rest : List UInt8) :
    (e.encode f).buf = e.buf ++ be32 f.oid.toNat ++ be32 f.payload.length ++ f.payload ∧
    getI32 (be32 f.payload.length ++ f.payload ++ rest) =
      .ok (toI32 (f.payload.length % 2 ^ 32), f.payload ++ rest) ∧
    (toI32 (f.payload.length % 2 ^ 32) = f.payload.length ↔ f.payload.length < 2 ^ 31) ∧
    decodeBinary dec (f.frame ++ rest) =
      if f.payload.length % 2 ^ 32 < 2 ^ 31 then
        some (dec (some (.binary (f.payload.take (f.payload.length % 2 ^ 32)))),
          f.payload.drop (f.payload.length % 2 ^ 32) ++ rest)
      else some (dec none, f.payload ++ rest) :=
  ⟨by simp [RecordField.frame], by simp, toI32_mod_eq_iff _, decodeBinary_frame_eq dec f rest⟩

/-- A payload of `2 ^ 31` bytes is read back as NULL, and left in place. -/
theorem huge_payload_decoded_as_null :
    decodeBinary Except.ok (RecordField.frame ⟨17, List.replicate (2 ^ 31) 0⟩) =
      some (.ok none, List.replicate (2 ^ 31) 0) := by
  have h := decodeBinary_frame_null Except.ok ⟨17, List.replicate (2 ^ 31) 0⟩ []
    (Nat.le_of_eq (List.length_replicate _ _).symm) (by rw [List.length_replicate]; decide)
  rwa [List.append_nil, List.append_nil] at h

/-- `decode` calls on frames hand out their payloads, in order, and consume them exactly. -/
theorem decodeFields_frames (fields : List RecordField) (rest : List UInt8)
    (h : ∀ f ∈ fields, f.payload.length < 2 ^ 31) :
    decodeFields fields.length ⟨.binary ((fields.map RecordField.frame).flatten ++ rest)⟩ =
      some (.ok (fields.map fun f => some (.binary f.payload)), ⟨.binary rest⟩) := by
  induction fields with
  | nil => rfl
  | cons f fields ih =>
    have hf := decodeBinary_frame Except.ok f ((fields.map RecordField.frame).flatten ++ rest) (h f (by simp))
    simp only [List.map_cons, List.flatten_cons, List.length_cons, decodeFields, PgRecordDecoder.decode,
      List.append_assoc, hf, Option.map_some']
    rw [ih fun f hf => h f (by simp [hf])]
    rfl

/-- `new` and as many `decode` calls as fields, on a binary record with any count and any bytes
    after the fields. -/
theorem decodeRecord_frames (fields : List RecordField) (n : Nat) (rest : List UInt8)
    (h : ∀ f ∈ fields, f.payload.length < 2 ^ 31) :
    decodeRecord fields.length (.binary (be32 n ++ (fields.map RecordField.frame).flatten ++ rest)) =
      some (.ok (fields.map fun f => some (.binary f.payload), .binary rest)) := by
  simp only [decodeRecord, List.append_assoc, PgRecordDecoder.new_binary, decodeFields_frames fields rest h]

/-! ## What the decoder accepts -/

/-- The bytes `decode` reads for a field it hands out as `v`: four bytes of oid (never looked
    at), then for a payload its length as a big-endian word below `2 ^ 31` and the payload, and for
    NULL any length word with its sign bit set. -/
def FrameOf : Option PgValue → List UInt8 → Prop
  | some (.binary p), f => p.length < 2 ^ 31 ∧ ∃ oid, oid.length = 4 ∧ f = oid ++ be32 p.length ++ p
  | none, f => ∃ oid b0 b1 b2 b3, oid.length = 4 ∧ 2 ^ 7 ≤ b0.toNat ∧ f = oid ++ [b0, b1, b2, b3]
  | some (.text _), _ => False

theorem be32_beWord (b0 b1 b2 b3 : UInt8) : be32 (beWord b0 b1 b2 b3) = [b0, b1, b2, b3] := by
  have := b0.toNat_lt; have := b1.toNat_lt; have := b2.toNat_lt; have := b3.toNat_lt
  simp only [be32, beWord, List.cons.injEq, and_true]
  refine ⟨?_, ?_, ?_, ?_⟩ <;> apply UInt8.toNat.inj <;> simp only [toNat_uint8_ofNat] <;> omega

/-- A length word reads back negative exactly when its sign bit is set. -/
theorem toI32_neg_iff (b0 b1 b2 b3 : UInt8) : toI32 (beWord b0 b1 b2 b3) < 0 ↔ 2 ^ 7 ≤ b0.toNat := by
  have := b0.toNat_lt; have := b1.toNat_lt; have := b2.toNat_lt; have := b3.toNat_lt
  unfold toI32 beWord
  split <;> omega

/-- With the decoder of `Option<PgValue>`, a binary `decode` returns `v` and leaves `rest` exactly
    when the buffer is a frame of `v` followed by `rest`. -/
theorem decodeBinary_ok_iff (buf rest : List UInt8) (v : Option PgValue) :
    decodeBinary Except.ok buf = some (.ok v, rest) ↔ ∃ f, FrameOf v f ∧ buf = f ++ rest := by
  constructor
  · intro h
    rcases buf with _ | ⟨a0, _ | ⟨a1, _ | ⟨a2, _ | ⟨a3, _ | ⟨b0, _ | ⟨b1, _ | ⟨b2, _ | ⟨b3, buf⟩⟩⟩⟩⟩⟩⟩⟩ <;>
      simp only [decodeBinary, getU32, getI32, reduceCtorEq, Option.some.injEq, Prod.mk.injEq, false_and] at h
    split_ifs at h with hneg hfit
    · obtain ⟨⟨⟩, rfl⟩ := Prod.mk.inj (Option.some.inj h)
      exact ⟨_, ⟨[a0, a1, a2, a3], b0, b1, b2, b3, rfl, (toI32_neg_iff b0 b1 b2 b3).mp hneg, rfl⟩, rfl⟩
    · obtain ⟨⟨⟩, rfl⟩ := Prod.mk.inj (Option.some.inj h)
      have hlt : beWord b0 b1 b2 b3 < 2 ^ 31 := by
        have := (toI32_neg_iff b0 b1 b2 b3).not.mp hneg
        have := b1.toNat_lt; have := b2.toNat_lt; have := b3.toNat_lt
        unfold beWord
        omega
      have hlen : (buf.take (toI32 (beWord b0 b1 b2 b3)).toNat).length = beWord b0 b1 b2 b3 := by
        rw [List.length_take, Nat.min_eq_left hfit]
        unfold toI32
        rw [if_pos hlt]
        rfl
      exact ⟨_, ⟨by omega, [a0, a1, a2, a3], rfl, by rw [hlen, be32_beWord]⟩, by simp⟩
  · rintro ⟨f, hf, rfl⟩
    rcases v with _ | (p | s)
    · obtain ⟨oid, b0, b1, b2, b3, hoid, hb0, rfl⟩ := hf
      rcases oid with _ | ⟨a0, _ | ⟨a1, _ | ⟨a2, _ | ⟨a3, _ | _⟩⟩⟩⟩ <;> simp at hoid
      simp [decodeBinary, getU32, getI32, (toI32_neg_iff b0 b1 b2 b3).mpr hb0]
    · obtain ⟨hp, oid, hoid, rfl⟩ := hf
      rcases oid with _ | ⟨a0, _ | ⟨a1, _ | ⟨a2, _ | ⟨a3, _ | _⟩⟩⟩⟩ <;> simp at hoid
      have hm : toI32 (p.length % 2 ^ 32) = p.length := (toI32_mod_eq_iff _).mpr hp
      simp only [decodeBinary, getU32, List.cons_append, List.nil_append, List.append_assoc, getI32_be32, hm]
      simp
    · exact hf.elim

/-- `n` decodes of `Option<PgValue>` fields return `vs` and leave `rest` exactly when the buffer
    is a frame of each value of `vs` in turn, followed by `rest`. -/
theorem decodeFields_binary_iff (n : Nat) (buf rest : List UInt8) (vs : List (Option PgValue)) :
    decodeFields n ⟨.binary buf⟩ = some (.ok vs, ⟨.binary rest⟩) ↔
      vs.length = n ∧ ∃ frames, List.Forall₂ FrameOf vs frames ∧ buf = frames.flatten ++ rest := by
  induction n generalizing buf vs with
  | zero =>
    simp only [decodeFields, Option.some.injEq, Prod.mk.injEq, Except.ok.injEq, PgRecordDecoder.mk.injEq,
      PgValue.binary.injEq]
    constructor
    · rintro ⟨rfl, rfl⟩
      exact ⟨rfl, [], .nil, rfl⟩
    · rintro ⟨hl, frames, hfr, rfl⟩
      obtain rfl := List.length_eq_zero.mp hl
      obtain rfl := List.forall₂_nil_left_iff.mp hfr
      exact ⟨rfl, rfl⟩
  | succ n ih =>
    constructor
    · intro h
      simp only [decodeFields, PgRecordDecoder.decode] at h
      rcases hd : decodeBinary Except.ok buf with _ | ⟨r, buf'⟩ <;>
        simp only [hd, Option.map_none', Option.map_some'] at h
      · cases h
      rcases r with e | v
      · cases h
      obtain ⟨⟨r', d⟩, hr', hvs⟩ := Option.map_eq_some'.mp h
      obtain ⟨hr, rfl⟩ := Prod.mk.inj hvs
      rcases r' with e | vs'
      · cases hr
      cases hr
      obtain ⟨hlen, frames, hfr, rfl⟩ := (ih buf' vs').mp hr'
      obtain ⟨f, hf, rfl⟩ := (decodeBinary_ok_iff buf _ v).mp hd
      exact ⟨by simp [hlen], f :: frames, .cons hf hfr, by simp⟩
    · rintro ⟨hl, frames, hfr, rfl⟩
      rcases hfr with _ | ⟨hf, hfr⟩
      · cases hl
      rename_i v f vs' frames
      have hd := (decodeBinary_ok_iff (f ++ (frames.flatten ++ rest)) _ v).mpr ⟨f, hf, rfl⟩
      have hr := (ih (frames.flatten ++ rest) vs').mpr ⟨by simpa using hl, frames, hfr, rfl⟩
      simp only [List.flatten_cons, List.append_assoc, decodeFields, PgRecordDecoder.decode, hd, hr,
        Option.map_some']
      rfl

theorem decodeRecord_binary_cons (n : Nat) (c0 c1 c2 c3 : UInt8) (buf rest : List UInt8)
    (vs : List (Option PgValue)) :
    decodeRecord n (.binary (c0 :: c1 :: c2 :: c3 :: buf)) = some (.ok (vs, .binary rest)) ↔
      decodeFields n ⟨.binary buf⟩ = some (.ok vs, ⟨.binary rest⟩) := by
  simp only [decodeRecord, PgRecordDecoder.new, getU32, Except.map]
  rcases decodeFields n ⟨.binary buf⟩ with _ | ⟨_ | _, ⟨_⟩⟩ <;> simp

/-- The binary records from which `new` and `n` decodes of `Option<PgValue>` fields return `vs`,
    leaving `rest`, are exactly a four-byte count (never checked against `n`), a frame of each
    value of `vs` in turn, and `rest`. -/
theorem decodeRecord_binary_iff (n : Nat) (buf rest : List UInt8) (vs : List (Option PgValue)) :
    decodeRecord n (.binary buf) = some (.ok (vs, .binary rest)) ↔
      vs.length = n ∧ ∃ count frames, count.length = 4 ∧ List.Forall₂ FrameOf vs frames ∧
        buf = count ++ frames.flatten ++ rest := by
  rcases buf with _ | ⟨c0, _ | ⟨c1, _ | ⟨c2, _ | ⟨c3, buf⟩⟩⟩⟩
  case cons.cons.cons.cons =>
    rw [decodeRecord_binary_cons, decodeFields_binary_iff]
    constructor
    · rintro ⟨hl, frames, hfr, rfl⟩
      exact ⟨hl, [c0, c1, c2, c3], frames, rfl, hfr, rfl⟩
    · rintro ⟨hl, count, frames, hc, hfr, h⟩
      rcases count with _ | ⟨d0, _ | ⟨d1, _ | ⟨d2, _ | ⟨d3, _ | _⟩⟩⟩⟩ <;> simp at hc
      simp only [List.cons_append, List.nil_append, List.cons.injEq] at h
      exact ⟨hl, frames, hfr, h.2.2.2.2⟩
  all_goals
    refine iff_of_false (by simp [decodeRecord, PgRecordDecoder.new, getU32, Except.map]) ?_
    rintro ⟨-, count, frames, hc, -, h⟩
    have := congrArg List.length h
    simp only [List.length_append, List.length_cons, List.length_nil] at this
    omega

/-! ## Decoding a tuple -/

/-- The five field decoders in order, on the values handed to them; the first error stops. -/
def TupleCodecs.decodeAll {α : Type} (cs : TupleCodecs α) (x1 x2 x3 x4 x5 : Option PgValue) :
    Except Error (Bool × Int × Int × UInt64 × α) := do
  let v1 ← cs.bool.decode x1
  let v2 ← cs.i32.decode x2
  let v3 ← cs.i64.decode x3
  let v4 ← cs.f64.decode x4
  let v5 ← cs.t5.decode x5
  pure (v1, v2, v3, v4, v5)

/-- `decoder.decode()?` from `d` hands the field's decoder `x` and goes on from `d'`, whatever the
    field's type. -/
def HandsOut (d : PgRecordDecoder) (x : Option PgValue) (d' : PgRecordDecoder) : Prop :=
  ∀ {α β : Type} (dec : Option PgValue → Except Error α) (k : α → PgRecordDecoder → Option (Except Error β)),
    andThen (d.decode dec) k =
      match dec x with
      | .error e => some (.error e)
      | .ok v => k v d'

/-- A tuple decode whose `new` and five `decode` calls hand out `x1`, …, `x5`. -/
theorem decodeTuple_handsOut {α : Type} (cs : TupleCodecs α) (value : PgValue)
    (d0 d1 d2 d3 d4 d5 : PgRecordDecoder) (x1 x2 x3 x4 x5 : Option PgValue)
    (hnew : PgRecordDecoder.new value = some (.ok d0)) (h1 : HandsOut d0 x1 d1) (h2 : HandsOut d1 x2 d2)
    (h3 : HandsOut d2 x3 d3) (h4 : HandsOut d3 x4 d4) (h5 : HandsOut d4 x5 d5) :
    decodeTuple cs (some value) = some (cs.decodeAll x1 x2 x3 x4 x5) := by
  unfold HandsOut at h1 h2 h3 h4 h5
  simp only [decodeTuple, hnew, h1, h2, h3, h4, h5, TupleCodecs.decodeAll]
  cases cs.bool.decode x1 <;> cases cs.i32.decode x2 <;> cases cs.i64.decode x3 <;> cases cs.f64.decode x4 <;>
    cases cs.t5.decode x5 <;> rfl

theorem handsOut_frame (f : RecordField) (rest : List UInt8) (h : f.payload.length < 2 ^ 31) :
    HandsOut ⟨.binary (f.frame ++ rest)⟩ (some (.binary f.payload)) ⟨.binary rest⟩ := by
  intro α β dec k
  simp only [PgRecordDecoder.decode, decodeBinary_frame dec f rest h, Option.map_some']
  cases dec (some (.binary f.payload)) <;> rfl

/-- Decoding a binary `(bool, i32, i64, f64, T5)`: the count is read and dropped, the five fields
    are decoded in order, and what follows them is never looked at. -/
theorem decodeTuple_binary {α : Type} (cs : TupleCodecs α) (n : Nat) (f1 f2 f3 f4 f5 : RecordField)
    (rest : List UInt8) (h1 : f1.payload.length < 2 ^ 31) (h2 : f2.payload.length < 2 ^ 31)
    (h3 : f3.payload.length < 2 ^ 31) (h4 : f4.payload.length < 2 ^ 31) (h5 : f5.payload.length < 2 ^ 31) :
    decodeTuple cs (some (.binary (be32 n ++ f1.frame ++ f2.frame ++ f3.frame ++ f4.frame ++ f5.frame ++ rest))) =
      some (cs.decodeAll (some (.binary f1.payload)) (some (.binary f2.payload)) (some (.binary f3.payload))
        (some (.binary f4.payload)) (some (.binary f5.payload))) := by
  simp only [List.append_assoc]
  exact decodeTuple_handsOut cs _ _ _ _ _ _ _ _ _ _ _ _ (PgRecordDecoder.new_binary _ _) (handsOut_frame _ _ h1)
    (handsOut_frame _ _ h2) (handsOut_frame _ _ h3) (handsOut_frame _ _ h4) (handsOut_frame _ _ h5)

/-! ## Scalar codecs

  The scalar types' `Encode` / `Decode` impls are not in src/. These follow Postgres's binary
  formats, so that the laws above can be run on values: `bool` is one byte, `int4` and `int8` are
  big-endian two's complement, `float8` is its bits big-endian, `bytea` is its bytes. -/

/-- `width` big-endian bytes of `n` (modulo `2 ^ (8 * width)`). -/
def beBytes : Nat → Nat → List UInt8
  | 0, _ => []
  | w + 1, n => beBytes w (n / 2 ^ 8) ++ [UInt8.ofNat n]

/-- The number big-endian bytes hold. -/
def beNat (bs : List UInt8) : Nat := bs.foldl (fun acc b => acc * 2 ^ 8 + b.toNat) 0

/-- A binary decoder of a fixed width: NULL is `UnexpectedNull`, a text value or another width an
    error. -/
def fixedDecode {α : Type} (width : Nat) (read : List UInt8 → α) : Option PgValue → Except Error α
  | some (.binary bs) => if bs.length = width then .ok (read bs) else .error (.other "invalid width")
  | some (.text _) => .error (.other "text format")
  | none => .error .unexpectedNull

/-- `bool` (oid 16). -/
def boolCodec : Codec Bool := ⟨fun b => ⟨16, [if b then 1 else 0]⟩, fixedDecode 1 fun bs => bs != [0]⟩

/-- A two's-complement integer of `width` bytes: `int4` (oid 23), `int8` (oid 20). -/
def intCodec (oid : UInt32) (width : Nat) : Codec Int :=
  ⟨fun x => ⟨oid, beBytes width (x % 2 ^ (8 * width)).toNat⟩,
    fixedDecode width fun bs =>
      if beNat bs < 2 ^ (8 * width - 1) then (beNat bs : Int) else (beNat bs : Int) - 2 ^ (8 * width)⟩

/-- `float8` (oid 701), as its bits. -/
def float8Codec : Codec UInt64 := ⟨fun x => ⟨701, beBytes 8 x.toNat⟩, fixedDecode 8 fun bs => UInt64.ofNat (beNat bs)⟩

/-- `bytea` (oid 17). -/
def byteaCodec : Codec (List UInt8) where
  encode bs := ⟨17, bs⟩
  decode
    | some (.binary bs) => .ok bs
    | some (.text _) => .error (.other "text format")
    | none => .error .unexpectedNull

/-- `(bool, i32, i64, f64, Vec<u8>)`. -/
def pgCodecs : TupleCodecs (List UInt8) := ⟨boolCodec, intCodec 23 4, intCodec 20 8, float8Codec, byteaCodec⟩

/-! ## Round trip -/

/-- A field codec reads back the value it writes, written in fewer than `2 ^ 31` bytes. -/
def Codec.RoundTrips {α : Type} (c : Codec α) (x : α) : Prop :=
  c.decode (some (.binary (c.encode x).payload)) = .ok x ∧ (c.encode x).payload.length < 2 ^ 31

instance {α : Type} [DecidableEq α] (c : Codec α) (x : α) : Decidable (c.RoundTrips x) :=
  inferInstanceAs (Decidable (_ ∧ _))

theorem decodeTuple_encodeTuple {α : Type} (cs : TupleCodecs α) (v : Bool × Int × Int × UInt64 × α)
    (h1 : cs.bool.RoundTrips v.1) (h2 : cs.i32.RoundTrips v.2.1) (h3 : cs.i64.RoundTrips v.2.2.1)
    (h4 : cs.f64.RoundTrips v.2.2.2.1) (h5 : cs.t5.RoundTrips v.2.2.2.2) :
    decodeTuple cs (some (.binary (encodeTuple cs v []))) = some (.ok v) := by
  have h := decodeTuple_binary cs 5 _ _ _ _ _ [] h1.2 h2.2 h3.2 h4.2 h5.2
  simp only [encodeTuple, encodeRecord_eq, recordBytes, List.nil_append, List.map_cons, List.map_nil,
    List.flatten_cons, List.flatten_nil, List.append_nil, List.length_cons, List.length_nil, List.append_assoc] at h ⊢
  rw [h]
  simp only [TupleCodecs.decodeAll, h1.1, h2.1, h3.1, h4.1, h5.1]
  rfl

/-- Fewer than `2 ^ 32` fields whose payloads are shorter than `2 ^ 31` bytes: the encoder appends
    their record to the buffer, the count and the frames, and `new` with one `decode` a field hands
    out the payloads in order and consumes the record exactly. A `(bool, i32, i64, f64, T5)` value
    whose field codecs round-trip decodes to itself. -/
theorem record_codec_roundtrip {α : Type} (buf : List UInt8) (fields : List RecordField)
    (hk : fields.length < 2 ^ 32) (hp : ∀ f ∈ fields, f.payload.length < 2 ^ 31)
    (cs : TupleCodecs α) (v : Bool × Int × Int × UInt64 × α) (h1 : cs.bool.RoundTrips v.1)
    (h2 : cs.i32.RoundTrips v.2.1) (h3 : cs.i64.RoundTrips v.2.2.1) (h4 : cs.f64.RoundTrips v.2.2.2.1)
    (h5 : cs.t5.RoundTrips v.2.2.2.2) :
    (encodeRecord buf fields = buf ++ recordBytes fields ∧
      (recordBytes fields).length = 4 + (fields.map fun f => 8 + f.payload.length).sum ∧
      getU32 (recordBytes fields) = .ok (UInt32.ofNat fields.length, (fields.map RecordField.frame).flatten) ∧
      (UInt32.ofNat fields.length).toNat = fields.length ∧
      decodeRecord fields.length (.binary (recordBytes fields)) =
        some (.ok (fields.map fun f => some (.binary f.payload), .binary []))) ∧
    decodeTuple cs (some (.binary (encodeTuple cs v []))) = some (.ok v) := by
  refine ⟨⟨encodeRecord_eq buf fields, length_recordBytes fields, by simp [recordBytes], ?_, ?_⟩,
    decodeTuple_encodeTuple cs v h1 h2 h3 h4 h5⟩
  · rw [toNat_uint32_ofNat, Nat.mod_eq_of_lt hk]
  · simpa using decodeRecord_frames fields fields.length [] hp

theorem record_codec_roundtrip_on_values :
    decodeRecord 2 (.binary (recordBytes [⟨23, [1, 2]⟩, ⟨17, []⟩])) =
        some (.ok ([some (.binary [1, 2]), some (.binary [])], .binary [])) ∧
      decodeTuple pgCodecs (some (.binary (encodeTuple pgCodecs (true, -5, 7, 42, [104, 105]) []))) =
        some (.ok (true, -5, 7, 42, [104, 105])) :=
  have h := record_codec_roundtrip [9] [⟨23, [1, 2]⟩, ⟨17, []⟩] (by decide) (by decide) pgCodecs
    (true, -5, 7, 42, [104, 105]) (by decide) (by decide) (by decide) (by decide) (by decide)
  ⟨h.1.2.2.2.2, h.2⟩

/-- The count of `2 ^ 32` fields is written as that of none. -/
theorem record_count_wraps :
    (encodeRecord [] (List.replicate (2 ^ 32) ⟨0, []⟩)).take 4 = be32 0 := by
  rw [encodeRecord_eq, recordBytes, List.length_replicate]
  rfl

end Sqlx.Postgres
