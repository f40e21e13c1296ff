import Sqlx.Postgres.Types.RecordBinary

/-
  Sqlx.Postgres.Types.RecordText — the text record format: how `PgRecordDecoder` cuts `(f1,f2,…)`
  into fields, and where its slices go wrong.

  A field is read by one run of the loop over `s.char_indices()` (`scan`). A character that is not
  a quote, not NUL, and a comma only inside quotes (`Plain`) just moves `prev_ch` and `prev_index`
  (`scan_plain`, `scan_plain_run`). So a bare field followed by a comma is handed whole and the
  comma skipped (`decodeText_bare`); but a field that ends the text is cut at `prev_index`, the
  byte where its last character starts (`decodeText_bare_last`), so the last field loses that
  character, and when it is more than one byte `&s[index + 1..]` falls inside it and panics.

  Proved:
  - `tuple_decode_ignores_arity`: neither path checks the arity or what follows the fifth field.
  - `text_fields_at_a_b`: `(a,b)` hands the second field's decoder `""`.
  - `record_decode_panics`: panics on short text, a trailing NULL, a last field ending in a
    multi-byte character and a binary length past the end; and `abc` is taken for a record.
  - The last bare field loses its last character (`decodeRecord_bare`), a quoted field followed
    by a comma keeps its closing quote (`decodeText_quoted`), and a decode past the last field
    panics exactly when the field's decoder accepts NULL (`decodeText_exhausted`), so reading one
    `Option` field more than a record holds panics (`decodeRecord_text_past_end`).
  - `decodeRecord_escaped_quote`: the arm for an escaped quote `""` leaves the loop outside
    quotes, so the closing quote of such a field opens them again and the comma after it is
    read into the field: `("a""b",x)` is read as the one field `a""b",`.
-/

namespace Sqlx.Postgres

/-! ## Slices -/

@[simp] theorem byteLen_nil : byteLen [] = 0 := rfl

@[simp] theorem byteLen_cons (c : Char) (s : List Char) : byteLen (c :: s) = c.utf8Size + byteLen s := by
  simp [byteLen]

@[simp] theorem byteLen_append (s t : List Char) : byteLen (s ++ t) = byteLen s + byteLen t := by
  induction s with
  | nil => simp
  | cons c s ih => simp [ih, Nat.add_assoc]

/-- Splitting at the end of a prefix gives that prefix. -/
theorem splitAt?_append (pre post : List Char) : splitAt? (pre ++ post) (byteLen pre) = some (pre, post) := by
  induction pre with
  | nil => simp [splitAt?]
  | cons c pre ih =>
    have hc := c.utf8Size_pos
    obtain ⟨n, hn⟩ : ∃ n, c.utf8Size + byteLen pre = n + 1 := ⟨c.utf8Size + byteLen pre - 1, by omega⟩
    simp only [List.cons_append, byteLen_cons, hn, splitAt?, if_pos (show c.utf8Size ≤ n + 1 by omega),
      show n + 1 - c.utf8Size = byteLen pre by omega, ih, Option.map_some']

/-- Splitting inside a character panics. -/
theorem splitAt?_inside (pre post : List Char) (c : Char) (k : Nat) (h0 : 0 < k) (hk : k < c.utf8Size) :
    splitAt? (pre ++ c :: post) (byteLen pre + k) = none := by
  induction pre with
  | nil =>
    obtain ⟨n, rfl⟩ : ∃ n, k = n + 1 := ⟨k - 1, by omega⟩
    simp only [List.nil_append, byteLen_nil, Nat.zero_add]
    simp only [splitAt?, if_neg (show ¬c.utf8Size ≤ n + 1 by omega)]
  | cons d pre ih =>
    have hd := d.utf8Size_pos
    obtain ⟨n, hn⟩ : ∃ n, d.utf8Size + byteLen pre + k = n + 1 := ⟨d.utf8Size + byteLen pre + k - 1, by omega⟩
    simp only [List.cons_append, byteLen_cons, hn, splitAt?, if_pos (show d.utf8Size ≤ n + 1 by omega),
      show n + 1 - d.utf8Size = byteLen pre + k by omega, ih, Option.map_none']

/-- `&s[a..b]` where `a` and `b` bound a middle part. -/
theorem slice_append (pre mid post : List Char) :
    slice (pre ++ mid ++ post) (byteLen pre) (byteLen pre + byteLen mid) = some mid := by
  simp only [slice, Nat.le_add_right, if_true, List.append_assoc, splitAt?_append, Option.some_bind,
    Nat.add_sub_cancel_left, Option.map_some']

/-- `&s[..b]` of a prefix. -/
theorem slice_zero_append (mid post : List Char) : slice (mid ++ post) 0 (byteLen mid) = some mid := by
  simpa using slice_append [] mid post

/-! ## `new` -/

/-- `new` on a text of at least two one-byte characters strips them, whatever they are. -/
theorem PgRecordDecoder.new_text (c d : Char) (body : List Char) (hc : c.utf8Size = 1) (hd : d.utf8Size = 1) :
    PgRecordDecoder.new (.text (c :: body ++ [d])) = some (.ok ⟨.text body⟩) := by
  have hlen : byteLen (c :: body ++ [d]) = 1 + byteLen body + 1 := by
    simp only [List.cons_append, byteLen_cons, byteLen_append, byteLen_nil, hc, hd]
    omega
  have h : slice (c :: body ++ [d]) 1 (1 + byteLen body) = some body := by
    simpa [hc] using slice_append [c] body [d]
  simp only [PgRecordDecoder.new, hlen, Nat.add_one_ne_zero, if_false, Nat.add_sub_cancel, h]
  rfl

/-! ## The loop -/

/-- A character the loop only records: not a quote, not NUL, and a comma only inside quotes. -/
def Plain (inQuotes : Bool) (ch : Char) : Prop := ch ≠ quoteChar ∧ ch ≠ nulChar ∧ (inQuotes = false → ch ≠ ',')

instance (inQuotes : Bool) (ch : Char) : Decidable (Plain inQuotes ch) := inferInstanceAs (Decidable (_ ∧ _ ∧ _))

/-- A field Postgres writes bare: not empty, no comma, quote or NUL. -/
def Bare (f : List Char) : Prop := f ≠ [] ∧ ∀ ch ∈ f, Plain false ch

instance (f : List Char) : Decidable (Bare f) := inferInstanceAs (Decidable (_ ∧ _))

theorem scan_plain (st : Scan) (index : Nat) (ch : Char) (s : List Char) (hch : Plain st.inQuotes ch)
    (hprev : st.inQuotes = true → st.prevCh ≠ nulChar) :
    scan st index (ch :: s) = scan { st with prevCh := ch, prevIndex := index } (index + ch.utf8Size) s := by
  obtain ⟨hq, -, hc⟩ := hch
  have h1 : ¬(ch = ',' ∧ st.prevCh = nulChar) := fun ⟨hc', hn⟩ => by
    cases hi : st.inQuotes
    · exact hc hi hc'
    · exact hprev hi hn
  have h2 : ¬(ch = ',' ∧ st.inQuotes = false) := fun ⟨hc', hi⟩ => hc hi hc'
  simp only [scan, h1, h2, if_false, Scan.push, hq]

/-- A run of plain characters `g ++ [c]`: the loop stands after it with `prev_ch = c`. -/
theorem scan_plain_run (g : List Char) (c : Char) (s : List Char) : ∀ (st : Scan) (index : Nat),
    (∀ ch ∈ g ++ [c], Plain st.inQuotes ch) → (st.inQuotes = true → st.prevCh ≠ nulChar) →
    scan st index (g ++ c :: s) =
      scan { st with prevCh := c, prevIndex := index + byteLen g } (index + byteLen g + c.utf8Size) s := by
  induction g with
  | nil =>
    intro st index hg hprev
    simpa using scan_plain st index c s (hg c (by simp)) hprev
  | cons h g ih =>
    intro st index hg hprev
    rw [List.cons_append, scan_plain st index h _ (hg h (by simp)) hprev,
      ih { st with prevCh := h, prevIndex := index } (index + h.utf8Size)
        (fun ch hch => hg ch (List.mem_cons_of_mem h hch)) (fun _ => (hg h (by simp)).2.1)]
    simp only [byteLen_cons, Nat.add_assoc]

@[simp] theorem scan_nil (st : Scan) (index : Nat) : scan st index [] = (st, none) := rfl

theorem scan_comma (st : Scan) (index : Nat) (s : List Char) (hq : st.inQuotes = false)
    (hprev : st.prevCh ≠ nulChar) : scan st index (',' :: s) = (st, some (some index)) := by
  simp [scan, hq, hprev]

/-- A field's last character before the comma or the end: `g ++ [c]`. -/
theorem bare_split {f : List Char} (hf : Bare f) :
    ∃ g c, f = g ++ [c] ∧ ∀ ch ∈ g ++ [c], Plain false ch :=
  ⟨f.dropLast, f.getLast hf.1, (List.dropLast_concat_getLast hf.1).symm,
    (List.dropLast_concat_getLast hf.1).symm ▸ hf.2⟩

/-- The loop from a fresh state over a bare run `g ++ [c]`. -/
theorem scan_init_plain (g : List Char) (c : Char) (s : List Char) (hg : ∀ ch ∈ g ++ [c], Plain false ch) :
    scan .init 0 (g ++ c :: s) = scan ⟨false, false, c, byteLen g⟩ (byteLen g + c.utf8Size) s := by
  simpa [Scan.init] using scan_plain_run g c s .init 0 hg (by simp [Scan.init])

/-! ## `decode` on a text -/

/-- `decode` on a text whose loop ends, outside quotes, at byte `i` after the field `f`. -/
theorem decodeText_unquoted {α : Type} (dec : Option PgValue → Except Error α) {s f : List Char} {st : Scan}
    {brk : Option (Option Nat)} {i : Nat} (hscan : scan .init 0 s = (st, brk)) (hi : st.index brk = some i)
    (hq : st.isQuoted = false) (hf : slice s 0 i = some f) :
    decodeText dec s =
      match dec (some (.text f)) with
      | .error e => some (.error e, s)
      | .ok v => (splitAt? s (i + 1)).map fun r => (.ok v, r.2) := by
  cases h : dec (some (.text f)) <;>
    simp only [decodeText, hscan, hi, hq, hf, Bool.false_eq_true, if_false, Option.some_bind, Option.getD_some, h]

/-- `decode` on a text whose loop ends at byte `i` after a quoted field `f`: its decoder gets `f`
    without the first byte. -/
theorem decodeText_quotedField {α : Type} (dec : Option PgValue → Except Error α) {s f f' : List Char}
    {st : Scan} {brk : Option (Option Nat)} {i : Nat} (hscan : scan .init 0 s = (st, brk))
    (hi : st.index brk = some i) (hq : st.isQuoted = true) (hf : slice s 0 i = some f)
    (hf' : slice f 1 (byteLen f) = some f') :
    decodeText dec s =
      match dec (some (.text f')) with
      | .error e => some (.error e, s)
      | .ok v => (splitAt? s (i + 1)).map fun r => (.ok v, r.2) := by
  cases h : dec (some (.text f')) <;>
    simp only [decodeText, hscan, hi, hq, hf, hf', if_true, Option.some_bind, Option.map_some', Option.getD_some, h]

/-- A bare field followed by a comma: its decoder gets it whole, and the comma is skipped. -/
theorem decodeText_bare {α : Type} (dec : Option PgValue → Except Error α) (f tail : List Char) (hf : Bare f) :
    decodeText dec (f ++ ',' :: tail) =
      match dec (some (.text f)) with
      | .error e => some (.error e, f ++ ',' :: tail)
      | .ok v => some (.ok v, tail) := by
  obtain ⟨g, c, rfl, hg⟩ := bare_split hf
  have hscan : scan .init 0 (g ++ [c] ++ ',' :: tail) = (⟨false, false, c, byteLen g⟩, some (some (byteLen (g ++ [c])))) := by
    rw [List.append_assoc, List.singleton_append, scan_init_plain g c _ hg, scan_comma _ _ _ rfl (hg c (by simp)).2.1]
    simp
  have hsplit : splitAt? (g ++ [c] ++ ',' :: tail) (byteLen (g ++ [c]) + 1) = some (g ++ [c, ','], tail) := by
    simpa [show Char.utf8Size ',' = 1 from rfl, Nat.add_assoc] using splitAt?_append (g ++ [c, ',']) tail
  rw [decodeText_unquoted dec hscan rfl rfl (slice_zero_append _ _)]
  cases dec (some (.text (g ++ [c]))) <;> simp only [hsplit, Option.map_some']

/-- Where the loop ends on the last field, bare and ending in `c`: at `prev_index`, the byte
    where `c` starts. -/
theorem scan_bare_last (g : List Char) (c : Char) (hg : ∀ ch ∈ g ++ [c], Plain false ch) :
    scan .init 0 (g ++ [c]) = (⟨false, false, c, byteLen g⟩, none) ∧
    Scan.index ⟨false, false, c, byteLen g⟩ none = some (byteLen g) := by
  refine ⟨by rw [scan_init_plain g c [] hg, scan_nil], ?_⟩
  simp [Scan.index, (hg c (by simp)).2.1]

/-- The last field, bare and ending in `c`: the decoder gets the field without `c`;
    `&s[index + 1..]` is then past `c` when `c` is one byte. -/
theorem decodeText_bare_last {α : Type} (dec : Option PgValue → Except Error α) (g : List Char) (c : Char)
    (hg : ∀ ch ∈ g ++ [c], Plain false ch) (hc : c.utf8Size = 1) :
    decodeText dec (g ++ [c]) =
      match dec (some (.text g)) with
      | .error e => some (.error e, g ++ [c])
      | .ok v => some (.ok v, []) := by
  have hsplit : splitAt? (g ++ [c]) (byteLen g + 1) = some (g ++ [c], []) := by
    simpa [hc] using splitAt?_append (g ++ [c]) []
  obtain ⟨hscan, hi⟩ := scan_bare_last g c hg
  rw [decodeText_unquoted dec hscan hi rfl (slice_zero_append _ _)]
  cases dec (some (.text g)) <;> simp only [hsplit, Option.map_some']

/-- The last field ending in a character of more than one byte: once its decoder accepts what it
    gets, `&s[index + 1..]` cuts that character and panics. -/
theorem decodeText_multibyte_last {α : Type} (dec : Option PgValue → Except Error α) (g : List Char) (c : Char)
    (hg : ∀ ch ∈ g ++ [c], Plain false ch) (hc : 1 < c.utf8Size) (v : α) (hv : dec (some (.text g)) = .ok v) :
    decodeText dec (g ++ [c]) = none := by
  obtain ⟨hscan, hi⟩ := scan_bare_last g c hg
  rw [decodeText_unquoted dec hscan hi rfl (slice_zero_append _ _), hv, splitAt?_inside g [] c 1 Nat.one_pos hc]
  rfl

theorem decodeText_multibyte_last_at_a_e : decodeText Except.ok (['a'] ++ ['é']) = none :=
  decodeText_multibyte_last Except.ok ['a'] 'é' (by decide) (by decide) _ rfl

/-- `decode` once the text is used up: the loop sees no character, so the field is NULL, and
    `&s[1..]` of the empty text panics unless the field's decoder rejects NULL first. -/
theorem decodeText_exhausted {α : Type} (dec : Option PgValue → Except Error α) :
    decodeText dec [] =
      match dec none with
      | .error e => some (.error e, [])
      | .ok _ => none := by
  simp only [decodeText, scan, Scan.index, Scan.init, if_true, Option.some_bind]
  cases dec none <;> rfl

/-- An `Option<PgValue>` field read from a used-up text panics. -/
theorem decodeFields_one_exhausted : decodeFields 1 ⟨.text []⟩ = none := by
  simp only [decodeFields, PgRecordDecoder.decode, decodeText_exhausted, Option.map_none']

/-- One decode more than `n` decodes that returned `vs` is one decode from where they stopped. -/
theorem decodeFields_succ_of_ok {n : Nat} {d d' : PgRecordDecoder} {vs : List (Option PgValue)}
    (h : decodeFields n d = some (.ok vs, d')) :
    decodeFields (n + 1) d = (decodeFields 1 d').map fun (r, d) => (r.map (vs ++ ·), d) := by
  induction n generalizing d vs with
  | zero =>
    cases h
    simp only [decodeFields]
    rcases d'.decode Except.ok with _ | ⟨_ | _, _⟩ <;> rfl
  | succ n ih =>
    rw [decodeFields] at h ⊢
    rcases hd : d.decode Except.ok with _ | ⟨_ | v, d0⟩ <;> simp only [hd] at h ⊢
    · cases h
    · cases h
    obtain ⟨⟨_ | vs', d1⟩, hf, hvs⟩ := Option.map_eq_some'.mp h
    · cases hvs
    obtain ⟨rfl, rfl⟩ : vs = v :: vs' ∧ d' = d1 := by simpa [eq_comm] using hvs
    rw [ih hf]
    rcases decodeFields 1 d' with _ | ⟨_ | _, _⟩ <;> rfl

/-- `new` and `n` decodes that returned `vs`, leaving `rest`. -/
theorem decodeRecord_ok_inv {n : Nat} {value rest : PgValue} {vs : List (Option PgValue)}
    (h : decodeRecord n value = some (.ok (vs, rest))) :
    ∃ d, PgRecordDecoder.new value = some (.ok d) ∧ decodeFields n d = some (.ok vs, ⟨rest⟩) := by
  rcases hn : PgRecordDecoder.new value with _ | _ | d <;> simp only [decodeRecord, hn] at h
  · cases h
  · cases h
  rcases hf : decodeFields n d with _ | ⟨_ | vs', ⟨rest'⟩⟩ <;> simp only [hf] at h
  · cases h
  · cases h
  obtain ⟨rfl, rfl⟩ : vs' = vs ∧ rest' = rest := by simpa using h
  exact ⟨d, rfl, hf⟩

/-- Reading one field more than a text record holds panics: once `n` decodes of `Option<PgValue>`
    fields have used the text up, the next takes the field for NULL, which `Option` accepts, and
    slices the empty text. -/
theorem decodeRecord_text_past_end {n : Nat} {s : List Char} {vs : List (Option PgValue)}
    (h : decodeRecord n (.text s) = some (.ok (vs, .text []))) : decodeRecord (n + 1) (.text s) = none := by
  obtain ⟨d, hn, hf⟩ := decodeRecord_ok_inv h
  simp only [decodeRecord, hn, decodeFields_succ_of_ok hf, decodeFields_one_exhausted, Option.map_none']

theorem decodeRecord_text_past_end_at_ab_c :
    decodeRecord 2 (.text ['(', 'a', 'b', ',', 'c', 'd', ')']) =
        some (.ok ([some (.text ['a', 'b']), some (.text ['c'])], .text [])) ∧
      decodeRecord 3 (.text ['(', 'a', 'b', ',', 'c', 'd', ')']) = none :=
  ⟨by decide, @decodeRecord_text_past_end 2 _ [some (.text ['a', 'b']), some (.text ['c'])] (by decide)⟩

theorem handsOut_bare (f tail : List Char) (hf : Bare f) :
    HandsOut ⟨.text (f ++ ',' :: tail)⟩ (some (.text f)) ⟨.text tail⟩ := by
  intro α β dec k
  simp only [PgRecordDecoder.decode, decodeText_bare dec f tail hf]
  cases dec (some (.text f)) <;> rfl

/-- `decode` calls over bare fields, each followed by a comma, then a last bare field ending in a
    one-byte character `c`: every field is handed whole but the last, which loses `c`. -/
theorem decodeFields_bare (init : List (List Char)) (g : List Char) (c : Char) (hinit : ∀ f ∈ init, Bare f)
    (hlast : ∀ ch ∈ g ++ [c], Plain false ch) (hc : c.utf8Size = 1) :
    decodeFields (init.length + 1) ⟨.text ((init.map (· ++ [','])).flatten ++ (g ++ [c]))⟩ =
      some (.ok (init.map (fun f => some (.text f)) ++ [some (.text g)]), ⟨.text []⟩) := by
  induction init with
  | nil =>
    simp only [List.map_nil, List.flatten_nil, List.nil_append, List.length_nil, Nat.zero_add, decodeFields,
      PgRecordDecoder.decode, decodeText_bare_last Except.ok g c hlast hc, Option.map_some']
    rfl
  | cons f init ih =>
    have hf := decodeText_bare Except.ok f ((init.map (· ++ [','])).flatten ++ (g ++ [c])) (hinit f (by simp))
    simp only [List.map_cons, List.flatten_cons, List.length_cons, List.append_assoc, List.singleton_append,
      List.cons_append, List.nil_append]
    rw [decodeFields]
    simp only [PgRecordDecoder.decode, hf, Option.map_some', ih fun f hf => hinit f (List.mem_cons_of_mem _ hf)]
    rfl

/-- A record of bare fields, the last ending in a one-byte character `c`, between any two one-byte
    characters (not only `(` and `)`, which `new` never checks): the decoders get every field
    whole but the last, which loses `c`, and the text is used up. -/
theorem decodeRecord_bare (o cl : Char) (ho : o.utf8Size = 1) (hcl : cl.utf8Size = 1)
    (init : List (List Char)) (g : List Char) (c : Char) (hinit : ∀ f ∈ init, Bare f)
    (hlast : ∀ ch ∈ g ++ [c], Plain false ch) (hc : c.utf8Size = 1) :
    decodeRecord (init.length + 1) (.text (o :: ((init.map (· ++ [','])).flatten ++ (g ++ [c])) ++ [cl])) =
      some (.ok (init.map (fun f => some (.text f)) ++ [some (.text g)], .text [])) := by
  simp only [decodeRecord, PgRecordDecoder.new_text o cl _ ho hcl, decodeFields_bare init g c hinit hlast hc]

theorem decodeRecord_bare_at_a_b_c :
    decodeRecord 2 (.text ['[', 'a', 'b', ',', 'c', 'd', ']']) =
      some (.ok ([some (.text ['a', 'b']), some (.text ['c'])], .text [])) :=
  decodeRecord_bare '[' ']' rfl rfl [['a', 'b']] ['c'] 'd' (by decide) (by decide) rfl

theorem scan_open_quote (s : List Char) : scan .init 0 (quoteChar :: s) = scan ⟨true, true, quoteChar, 0⟩ 1 s := by
  simp only [scan, Scan.init, Scan.push, show ¬(quoteChar = ',' ∧ nulChar = nulChar) by decide,
    show ¬(quoteChar = ',' ∧ false = false) by decide, if_false, if_true, Bool.false_eq_true,
    show ¬(nulChar = quoteChar) by decide]
  rfl

theorem scan_close_quote (st : Scan) (index : Nat) (s : List Char) (hq : st.inQuotes = true) :
    scan st index (quoteChar :: s) =
      scan { st with inQuotes := false, prevCh := quoteChar, prevIndex := index } (index + 1) s := by
  simp only [scan, Scan.push, hq, show ¬(quoteChar = ',') by decide, false_and, if_false, if_true]
  rfl

/-- A quoted field with no quote or NUL inside (commas allowed): followed by a comma, its decoder
    gets the contents with the closing quote; as the last field, the contents alone. -/
theorem decodeText_quoted {α : Type} (dec : Option PgValue → Except Error α) (g : List Char) (c : Char)
    (tail : List Char) (hg : ∀ ch ∈ g ++ [c], Plain true ch) :
    decodeText dec (quoteChar :: (g ++ [c]) ++ quoteChar :: ',' :: tail) =
      (match dec (some (.text (g ++ [c, quoteChar]))) with
        | .error e => some (.error e, quoteChar :: (g ++ [c]) ++ quoteChar :: ',' :: tail)
        | .ok v => some (.ok v, tail)) ∧
    decodeText dec (quoteChar :: (g ++ [c]) ++ [quoteChar]) =
      (match dec (some (.text (g ++ [c]))) with
        | .error e => some (.error e, quoteChar :: (g ++ [c]) ++ [quoteChar])
        | .ok v => some (.ok v, [])) := by
  have hq1 : Char.utf8Size quoteChar = 1 := rfl
  have hrun : ∀ s, scan .init 0 (quoteChar :: (g ++ [c]) ++ quoteChar :: s) =
      scan ⟨false, true, quoteChar, 1 + byteLen (g ++ [c])⟩ (1 + byteLen (g ++ [c]) + 1) s := by
    intro s
    rw [List.cons_append, scan_open_quote, List.append_assoc, List.singleton_append,
      scan_plain_run g c _ _ 1 hg (fun _ => show quoteChar ≠ nulChar by decide), scan_close_quote _ _ _ rfl]
    simp [Nat.add_assoc]
  constructor
  · have hscan := hrun (',' :: tail)
    rw [scan_comma _ _ _ rfl (show quoteChar ≠ nulChar by decide)] at hscan
    have hslice : slice (quoteChar :: (g ++ [c]) ++ quoteChar :: ',' :: tail) 0 (1 + byteLen (g ++ [c]) + 1) =
        some (quoteChar :: (g ++ [c, quoteChar])) := by
      simpa [hq1, Nat.add_assoc] using slice_zero_append (quoteChar :: (g ++ [c, quoteChar])) (',' :: tail)
    have hinner : slice (quoteChar :: (g ++ [c, quoteChar])) 1 (byteLen (quoteChar :: (g ++ [c, quoteChar]))) =
        some (g ++ [c, quoteChar]) := by
      simpa [hq1, Nat.add_assoc] using slice_append [quoteChar] (g ++ [c, quoteChar]) []
    have hsplit : splitAt? (quoteChar :: (g ++ [c]) ++ quoteChar :: ',' :: tail) (1 + byteLen (g ++ [c]) + 1 + 1) =
        some (quoteChar :: (g ++ [c]) ++ [quoteChar, ','], tail) := by
      simpa [hq1, Nat.add_assoc, show Char.utf8Size ',' = 1 from rfl] using
        splitAt?_append (quoteChar :: (g ++ [c]) ++ [quoteChar, ',']) tail
    rw [decodeText_quotedField dec hscan rfl rfl hslice hinner]
    cases dec (some (.text (g ++ [c, quoteChar]))) <;> simp only [hsplit, Option.map_some']
  · have hscan := hrun []
    rw [scan_nil] at hscan
    have hslice : slice (quoteChar :: (g ++ [c]) ++ [quoteChar]) 0 (1 + byteLen (g ++ [c])) =
        some (quoteChar :: (g ++ [c])) := by
      simpa [hq1, Nat.add_assoc] using slice_zero_append (quoteChar :: (g ++ [c])) [quoteChar]
    have hinner : slice (quoteChar :: (g ++ [c])) 1 (byteLen (quoteChar :: (g ++ [c]))) = some (g ++ [c]) := by
      simpa [hq1, Nat.add_assoc] using slice_append [quoteChar] (g ++ [c]) []
    have hsplit : splitAt? (quoteChar :: (g ++ [c]) ++ [quoteChar]) (1 + byteLen (g ++ [c]) + 1) =
        some (quoteChar :: (g ++ [c]) ++ [quoteChar], []) := by
      simpa [hq1, Nat.add_assoc] using splitAt?_append (quoteChar :: (g ++ [c]) ++ [quoteChar]) []
    rw [decodeText_quotedField dec hscan rfl rfl hslice hinner]
    cases dec (some (.text (g ++ [c]))) <;> simp only [hsplit, Option.map_some']

theorem decodeText_quoted_at_a_comma :
    decodeText Except.ok (quoteChar :: (['a'] ++ [',']) ++ quoteChar :: ',' :: ['x']) =
      some (.ok (some (.text ['a', ',', quoteChar])), ['x']) :=
  (decodeText_quoted Except.ok ['a'] ',' ['x'] (by decide)).1

/-! ## Escaped quotes -/

/-- Characters plain inside quotes, read inside quotes: the loop stays inside quotes. -/
theorem scan_quoted_run (s : List Char) : ∀ (l : List Char) (st : Scan) (index : Nat), st.inQuotes = true →
    st.prevCh ≠ nulChar → (∀ ch ∈ l, Plain true ch) →
    ∃ st' : Scan, st'.inQuotes = true ∧ st'.isQuoted = st.isQuoted ∧ st'.prevCh ≠ nulChar ∧
      scan st index (l ++ s) = scan st' (index + byteLen l) s
  | [], st, index, hq, hp, _ => ⟨st, hq, rfl, hp, by simp⟩
  | ch :: l, st, index, hq, hp, hl => by
    have hch := hl ch (List.mem_cons_self ch l)
    obtain ⟨st', h1, h2, h3, h4⟩ := scan_quoted_run s l { st with prevCh := ch, prevIndex := index }
      (index + ch.utf8Size) hq hch.2.1 fun c hc => hl c (List.mem_cons_of_mem ch hc)
    refine ⟨st', h1, h2, h3, ?_⟩
    rw [List.cons_append, scan_plain st index ch _ (by rwa [hq]) fun _ => hp, h4, byteLen_cons, Nat.add_assoc]

/-- A quote outside quotes right after a quote is taken for an escaped one: the loop stays
    outside quotes. -/
theorem scan_escaped_quote (st : Scan) (index : Nat) (s : List Char) (hq : st.inQuotes = false)
    (hp : st.prevCh = quoteChar) :
    scan st index (quoteChar :: s) =
      scan { st with inQuotes := false, prevCh := quoteChar, prevIndex := index } (index + 1) s := by
  simp only [scan, Scan.push, hq, hp, show ¬(quoteChar = ',') by decide, false_and, if_false, if_true,
    Bool.false_eq_true]
  rfl

/-- A quote outside quotes after any other character opens quotes. -/
theorem scan_reopen_quote (st : Scan) (index : Nat) (s : List Char) (hq : st.inQuotes = false)
    (hp : st.prevCh ≠ quoteChar) :
    scan st index (quoteChar :: s) =
      scan { st with inQuotes := true, isQuoted := true, prevCh := quoteChar, prevIndex := index } (index + 1) s := by
  simp only [scan, Scan.push, hq, hp, show ¬(quoteChar = ',') by decide, false_and, if_false, if_true,
    Bool.false_eq_true]
  rfl

/-- A quoted field `"g1""gc"` that holds an escaped quote followed by more of the field, then a
    comma and the text `t ++ [d]` of the next field: the escape arm leaves the loop outside
    quotes, the closing quote opens them again, and the comma and the next field are read into
    this one. Its decoder gets everything but the first quote and `d`, and the text is used up. -/
theorem decodeText_escaped {α : Type} (dec : Option PgValue → Except Error α) (g1 g : List Char) (c : Char)
    (t : List Char) (d : Char) (hg1 : ∀ ch ∈ g1, Plain true ch) (hg : ∀ ch ∈ g ++ [c], Plain false ch)
    (ht : ∀ ch ∈ t ++ [d], Plain true ch) (hd : d.utf8Size = 1) :
    decodeText dec (quoteChar :: (g1 ++ [quoteChar, quoteChar] ++ (g ++ [c]) ++ [quoteChar, ','] ++ (t ++ [d]))) =
      match dec (some (.text (g1 ++ [quoteChar, quoteChar] ++ (g ++ [c]) ++ [quoteChar, ','] ++ t))) with
      | .error e => some (.error e,
          quoteChar :: (g1 ++ [quoteChar, quoteChar] ++ (g ++ [c]) ++ [quoteChar, ','] ++ (t ++ [d])))
      | .ok v => some (.ok v, []) := by
  have hq1 : Char.utf8Size quoteChar = 1 := rfl
  have hc1 : Char.utf8Size ',' = 1 := rfl
  set field := g1 ++ [quoteChar, quoteChar] ++ (g ++ [c]) ++ [quoteChar, ','] ++ t
  have hs : quoteChar :: (g1 ++ [quoteChar, quoteChar] ++ (g ++ [c]) ++ [quoteChar, ','] ++ (t ++ [d])) =
      quoteChar :: field ++ [d] := by simp [field]
  obtain ⟨⟨_, _, p1, i1⟩, rfl, h2, -, hrun⟩ := scan_quoted_run
    (quoteChar :: quoteChar :: (g ++ c :: quoteChar :: ',' :: (t ++ [d]))) g1 ⟨true, true, quoteChar, 0⟩ 1 rfl
    (by decide) hg1
  obtain rfl : _ = true := h2
  have hc : c ≠ quoteChar := (hg c (by simp)).1
  have hscan : scan .init 0 (quoteChar :: field ++ [d]) = (⟨true, true, d, byteLen (quoteChar :: field)⟩, none) :=
    calc scan .init 0 (quoteChar :: field ++ [d])
      _ = scan .init 0 (quoteChar :: (g1 ++ quoteChar :: quoteChar :: (g ++ c :: quoteChar :: ',' :: (t ++ [d])))) := by
        rw [← hs]; simp
      _ = scan ⟨true, true, p1, i1⟩ (1 + byteLen g1) (quoteChar :: quoteChar :: (g ++ c :: quoteChar :: ',' :: (t ++ [d]))) := by
        rw [scan_open_quote, hrun]
      _ = scan ⟨false, true, quoteChar, 1 + byteLen g1 + 1⟩ (1 + byteLen g1 + 1 + 1)
          (g ++ c :: quoteChar :: ',' :: (t ++ [d])) := by
        rw [scan_close_quote _ _ _ rfl, scan_escaped_quote _ _ _ rfl rfl]
      _ = scan ⟨false, true, c, 1 + byteLen g1 + 1 + 1 + byteLen g⟩ (1 + byteLen g1 + 1 + 1 + byteLen g + c.utf8Size)
          (quoteChar :: ',' :: (t ++ [d])) :=
        scan_plain_run g c _ ⟨false, true, quoteChar, 1 + byteLen g1 + 1⟩ _ hg nofun
      _ = scan ⟨true, true, ',', 1 + byteLen g1 + 1 + 1 + byteLen g + c.utf8Size + 1⟩
          (1 + byteLen g1 + 1 + 1 + byteLen g + c.utf8Size + 1 + 1) (t ++ [d]) := by
        rw [scan_reopen_quote _ _ _ rfl hc,
          scan_plain _ _ ',' _ (show Plain true ',' by decide) fun _ => show quoteChar ≠ nulChar by decide]
        rfl
      _ = (⟨true, true, d, byteLen (quoteChar :: field)⟩, none) := by
        rw [scan_plain_run t d [] ⟨true, true, ',', _⟩ _ ht fun _ => show ',' ≠ nulChar by decide, scan_nil]
        simp [field, hq1, hc1]
        omega
  have hi : Scan.index ⟨true, true, d, byteLen (quoteChar :: field)⟩ none = some (byteLen (quoteChar :: field)) := by
    simp [Scan.index, (ht d (by simp)).2.1]
  have hslice : slice (quoteChar :: field ++ [d]) 0 (byteLen (quoteChar :: field)) = some (quoteChar :: field) :=
    slice_zero_append _ _
  have hinner : slice (quoteChar :: field) 1 (byteLen (quoteChar :: field)) = some field := by
    simpa [hq1] using slice_append [quoteChar] field []
  have hsplit : splitAt? (quoteChar :: field ++ [d]) (byteLen (quoteChar :: field) + 1) =
      some (quoteChar :: field ++ [d], []) := by
    simpa [hd] using splitAt?_append (quoteChar :: field ++ [d]) []
  rw [hs, decodeText_quotedField dec hscan hi rfl hslice hinner]
  cases dec (some (.text field)) <;> simp only [hsplit, Option.map_some']

/-- A record whose first field, quoted, holds an escaped quote followed by more of the field: the
    comma after it and the second field are read into the first, which then takes the whole
    record, and reading the second field panics. Postgres writes `('a"b', 'x')` so. -/
theorem decodeRecord_escaped_quote (o cl : Char) (ho : o.utf8Size = 1) (hcl : cl.utf8Size = 1)
    (g1 g : List Char) (c : Char) (t : List Char) (d : Char) (hg1 : ∀ ch ∈ g1, Plain true ch)
    (hg : ∀ ch ∈ g ++ [c], Plain false ch) (ht : ∀ ch ∈ t ++ [d], Plain true ch) (hd : d.utf8Size = 1) :
    decodeRecord 1
        (.text (o :: (quoteChar :: (g1 ++ [quoteChar, quoteChar] ++ (g ++ [c]) ++ [quoteChar, ','] ++ (t ++ [d]))) ++ [cl])) =
        some (.ok ([some (.text (g1 ++ [quoteChar, quoteChar] ++ (g ++ [c]) ++ [quoteChar, ','] ++ t))], .text [])) ∧
      decodeRecord 2
        (.text (o :: (quoteChar :: (g1 ++ [quoteChar, quoteChar] ++ (g ++ [c]) ++ [quoteChar, ','] ++ (t ++ [d]))) ++ [cl])) =
        none := by
  have h1 : decodeFields 1
      ⟨.text (quoteChar :: (g1 ++ [quoteChar, quoteChar] ++ (g ++ [c]) ++ [quoteChar, ','] ++ (t ++ [d])))⟩ =
      some (.ok [some (.text (g1 ++ [quoteChar, quoteChar] ++ (g ++ [c]) ++ [quoteChar, ','] ++ t))], ⟨.text []⟩) := by
    simp only [decodeFields, PgRecordDecoder.decode, decodeText_escaped Except.ok g1 g c t d hg1 hg ht hd,
      Option.map_some']
    rfl
  constructor
  · simp only [decodeRecord, PgRecordDecoder.new_text o cl _ ho hcl, h1]
  · simp only [decodeRecord, PgRecordDecoder.new_text o cl _ ho hcl, decodeFields_succ_of_ok h1,
      decodeFields_one_exhausted, Option.map_none']

theorem decodeRecord_escaped_quote_at_a_b_x :
    decodeRecord 1 (.text ['(', quoteChar, 'a', quoteChar, quoteChar, 'b', quoteChar, ',', 'x', ')']) =
        some (.ok ([some (.text ['a', quoteChar, quoteChar, 'b', quoteChar, ','])], .text [])) ∧
      decodeRecord 2 (.text ['(', quoteChar, 'a', quoteChar, quoteChar, 'b', quoteChar, ',', 'x', ')']) = none :=
  decodeRecord_escaped_quote '(' ')' rfl rfl ['a'] [] 'b' [] 'x' (by decide) (by decide) (by decide) rfl

/-! ## Arity -/

/-- Decoding a text `(bool, i32, i64, f64, T5)` whose first five fields are bare: they are handed
    out in order, and what follows the fifth field's comma is never looked at. -/
theorem decodeTuple_text {α : Type} (cs : TupleCodecs α) (t1 t2 t3 t4 t5 tail : List Char) (b1 : Bare t1)
    (b2 : Bare t2) (b3 : Bare t3) (b4 : Bare t4) (b5 : Bare t5) :
    decodeTuple cs (some (.text ('(' :: (t1 ++ ',' :: t2 ++ ',' :: t3 ++ ',' :: t4 ++ ',' :: t5 ++ ',' :: tail) ++ [')']))) =
      some (cs.decodeAll (some (.text t1)) (some (.text t2)) (some (.text t3)) (some (.text t4))
        (some (.text t5))) := by
  simp only [List.append_assoc, List.cons_append]
  exact decodeTuple_handsOut cs _ _ _ _ _ _ _ _ _ _ _ _
    (by simpa using PgRecordDecoder.new_text '(' ')' (t1 ++ ',' :: t2 ++ ',' :: t3 ++ ',' :: t4 ++ ',' :: t5 ++ ',' :: tail) rfl rfl)
    (handsOut_bare _ _ b1) (handsOut_bare _ _ b2) (handsOut_bare _ _ b3) (handsOut_bare _ _ b4) (handsOut_bare _ _ b5)

/-- Decoding `(bool, i32, i64, f64, T5)` checks neither the arity nor what follows the fifth field.
    A binary record with any count whose first five fields are shorter than `2 ^ 31` bytes, and
    any bytes after them, and a text record whose first five fields are bare and followed by a
    comma, and anything after it: each field's decoder gets the field, and the result is theirs. -/
theorem tuple_decode_ignores_arity {α : Type} (cs : TupleCodecs α) (n : Nat) (f1 f2 f3 f4 f5 : RecordField)
    (rest : List UInt8) (h1 : f1.payload.length < 2 ^ 31) (h2 : f2.payload.length < 2 ^ 31)
    (h3 : f3.payload.length < 2 ^ 31) (h4 : f4.payload.length < 2 ^ 31) (h5 : f5.payload.length < 2 ^ 31)
    (t1 t2 t3 t4 t5 tail : List Char) (b1 : Bare t1) (b2 : Bare t2) (b3 : Bare t3) (b4 : Bare t4) (b5 : Bare t5) :
    decodeTuple cs (some (.binary (be32 n ++ f1.frame ++ f2.frame ++ f3.frame ++ f4.frame ++ f5.frame ++ rest))) =
      some (cs.decodeAll (some (.binary f1.payload)) (some (.binary f2.payload)) (some (.binary f3.payload))
        (some (.binary f4.payload)) (some (.binary f5.payload))) ∧
    decodeTuple cs (some (.text ('(' :: (t1 ++ ',' :: t2 ++ ',' :: t3 ++ ',' :: t4 ++ ',' :: t5 ++ ',' :: tail) ++ [')']))) =
      some (cs.decodeAll (some (.text t1)) (some (.text t2)) (some (.text t3)) (some (.text t4))
        (some (.text t5))) :=
  ⟨decodeTuple_binary cs n f1 f2 f3 f4 f5 rest h1 h2 h3 h4 h5, decodeTuple_text cs t1 t2 t3 t4 t5 tail b1 b2 b3 b4 b5⟩

theorem tuple_decode_ignores_arity_on_values :
    decodeTuple pgCodecs (some (.binary (be32 7 ++ RecordField.frame ⟨16, [1]⟩ ++ RecordField.frame ⟨23, [0, 0, 0, 2]⟩ ++
        RecordField.frame ⟨20, [0, 0, 0, 0, 0, 0, 0, 3]⟩ ++ RecordField.frame ⟨701, [0, 0, 0, 0, 0, 0, 0, 4]⟩ ++
        RecordField.frame ⟨17, [5]⟩ ++ [255]))) =
      some (pgCodecs.decodeAll (some (.binary [1])) (some (.binary [0, 0, 0, 2])) (some (.binary [0, 0, 0, 0, 0, 0, 0, 3]))
        (some (.binary [0, 0, 0, 0, 0, 0, 0, 4])) (some (.binary [5]))) :=
  (tuple_decode_ignores_arity pgCodecs 7 ⟨16, [1]⟩ ⟨23, [0, 0, 0, 2]⟩ ⟨20, [0, 0, 0, 0, 0, 0, 0, 3]⟩
    ⟨701, [0, 0, 0, 0, 0, 0, 0, 4]⟩ ⟨17, [5]⟩ [255] (by decide) (by decide) (by decide) (by decide) (by decide)
    ['t'] ['1'] ['2'] ['3'] ['x'] ['y'] (by decide) (by decide) (by decide) (by decide) (by decide)).1

/-- A binary record whose count says seven, with five fields and a byte after them, decodes. -/
theorem tuple_decode_accepts_wrong_arity :
    decodeTuple pgCodecs (some (.binary (be32 7 ++ RecordField.frame ⟨16, [1]⟩ ++ RecordField.frame ⟨23, [0, 0, 0, 2]⟩ ++
        RecordField.frame ⟨20, [0, 0, 0, 0, 0, 0, 0, 3]⟩ ++ RecordField.frame ⟨701, [0, 0, 0, 0, 0, 0, 0, 4]⟩ ++
        RecordField.frame ⟨17, [5]⟩ ++ [255]))) =
      some (.ok (true, 2, 3, 4, [5])) :=
  rfl

/-! ## Failures -/

/-- `(a,b)`, the record `('a', 'b')` as Postgres writes it: the second field's decoder gets `""`. -/
theorem text_fields_at_a_b :
    decodeRecord 2 (.text ['(', 'a', ',', 'b', ')']) = some (.ok ([some (.text ['a']), some (.text [])], .text [])) := by
  decide

/-- Panics: `new` on the empty text and on one character; a trailing NULL read by an `Option`
    field; a last field ending in a two-byte character; a binary length past the bytes left. And
    `abc`, not a record, is read as one. -/
theorem record_decode_panics :
    PgRecordDecoder.new (.text []) = none ∧
    PgRecordDecoder.new (.text ['x']) = none ∧
    decodeRecord 2 (.text ['(', '1', ',', ')']) = none ∧
    decodeRecord 1 (.text ['(', 'é', ')']) = none ∧
    decodeRecord 1 (.binary (be32 1 ++ be32 23 ++ be32 5 ++ [1])) = none ∧
    decodeRecord 1 (.text ['a', 'b', 'c']) = some (.ok ([some (.text [])], .text [])) := by
  refine ⟨?_, ?_, ?_, ?_, ?_, ?_⟩ <;> decide

end Sqlx.Postgres
