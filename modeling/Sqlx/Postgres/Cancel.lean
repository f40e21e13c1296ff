import Sqlx.Postgres.FutureSafety

/-
  Sqlx.Postgres.Cancel — what a `next` future dropped part way, or a cursor left before the end
  of its rows, leaves behind (`cursor.rs` lines 135-191; the caller may drop the future at any
  of its awaits).

  `next` takes the pending query (`Option::take`) before it awaits `conn.run`, and assigns the
  column map and format list only once `get_or_describe` or `describe` has returned. A future
  dropped in between, or a call that fails there (`?`), leaves the query taken and the metadata
  as it was; every later call finds `None` in the `if let`, skips the setup and reads on in the
  steady-state loop. What is left of a response is read by nobody until the next `conn.run`,
  whose `wait_until_ready` reads up to the response's ReadyForQuery.

  Proved:
  - `abandoned_setup_never_resumes`: from any state where a cursor's query is taken and no
    future of it waits in `conn.run` or in `describe`, whatever events follow, nothing of its setup is
    logged again, it keeps its metadata, and every row it returns carries that metadata. After a
    first call dropped at `run` that is the empty map `Arc::default()` it was made with, so the
    rows are never described.
  - `next_run_drains_abandoned`: from any state with no future in flight whose connection still
    owes the rest of a response, the next cursor's `run` reads that rest up to its ReadyForQuery,
    one message a poll, logging nothing and returning none of its rows, and then waits at the flush.
-/

namespace Sqlx.Postgres

/-- Cursor `i` has taken its query and holds `columns` and `formats`, and no future of it waits
    where the setup goes on: in `conn.run` or in `describe`. -/
structure SetupAbandoned (i : Nat) (columns : Arc (Map String Nat)) (formats : Arc (List TypeFormat)) (s : Sys) :
    Prop where
  cursor : ∃ c, s.cursors[i]? = some c ∧ c.query = none ∧ c.columns = columns ∧ c.formats = formats
  fut : ∀ a, s.fut = some (i, a) → a = .resolve ∨ a = .read

/-- Log entries with nothing of cursor `i`'s setup, and rows of `i` only with this metadata. -/
def Unset (i : Nat) (columns : Arc (Map String Nat)) (formats : Arc (List TypeFormat)) (new : List Obs) : Prop :=
  setup i new = [] ∧ ∀ row ∈ rows i new, row.columns = columns ∧ row.formats = formats

section Abandoned

variable (rd : Readers) {i : Nat} {cs : Arc (Map String Nat)} {fs : Arc (List TypeFormat)}

theorem Unset.nil : Unset i cs fs [] := ⟨rfl, by simp⟩

theorem Unset.append {l l' : List Obs} (h : Unset i cs fs l) (h' : Unset i cs fs l') : Unset i cs fs (l ++ l') :=
  ⟨by simp [h.1, h'.1], fun row hr => by
    rcases List.mem_append.mp (by simpa using hr) with hr | hr
    exacts [h.2 row hr, h'.2 row hr]⟩

/-- A future of a cursor whose query is taken, waiting at its resolve or at a read, polls
    quietly. -/
theorem pollAt_quiet_of_taken (env : Env) {a : Await} (ctx : Ctx) (hq : ctx.cursor.query = none)
    (ha : a = .resolve ∨ a = .read) : Quiet a ctx (pollAt rd env a ctx) := by
  rcases pollAt_cases rd env a ctx with h | ⟨_, _, -, hq', -⟩ | ⟨_, rfl, -⟩ | ⟨_, _, _, rfl, -⟩ | ⟨_, _, _, _, rfl, -⟩
  · exact h
  · simp [hq] at hq'
  all_goals simp at ha

/-- A poll of the abandoned cursor's own future: it stays abandoned, and logs at most a return,
    of a row carrying its metadata. -/
theorem pollSys_abandoned_self {s : Sys} (h : SetupAbandoned i cs fs s) {env : Env} {a : Await} {c : PgCursor}
    (hf : s.fut = some (i, a)) (hc : s.cursors[i]? = some c) :
    SetupAbandoned i cs fs (pollSys rd env s i a c) ∧
      ∃ new, (pollSys rd env s i a c).log = s.log ++ new ∧ Unset i cs fs new := by
  obtain ⟨c', hc', hq, rfl, rfl⟩ := h.cursor
  obtain rfl : c' = c := Option.some.inj (hc'.symm.trans hc)
  have hquiet := pollAt_quiet_of_taken rd env ⟨c', s.conn, s.heap⟩ hq (h.fut a hf)
  rcases he : pollAt rd env a ⟨c', s.conn, s.heap⟩ with ⟨p, ctx, effects⟩
  rw [he] at hquiet
  obtain ⟨heff, hquery, hcols, hfmts, -, hwaits, hrow⟩ := hquiet
  simp only at heff hquery hcols hfmts hwaits hrow
  subst heff
  have hi : i < s.cursors.length := (List.getElem?_eq_some_iff.mp hc).1
  rw [pollSys_eq rd he]
  refine ⟨⟨⟨ctx.cursor, List.getElem?_set_self hi, hquery.trans hq, hcols, hfmts⟩, fun a' ha' => ?_⟩,
    p.logged i, by simp, by simp, fun row hr => ?_⟩
  · obtain ⟨-, rfl⟩ := Progress.after_eq ha'
    rcases hwaits a' rfl with rfl | ⟨rfl, -⟩ | ⟨rfl, -⟩
    exacts [h.fut _ hf, .inr rfl, by simpa using h.fut _ hf]
  · rcases p with _ | (_ | _ | row') <;> simp [Progress.logged, rows, Obs.rowOf] at hr
    subst hr
    exact (hrow _ rfl).2

/-- One event keeps cursor `i` abandoned, and logs nothing of its setup and only rows of it that
    carry its metadata. -/
theorem step_abandoned {s : Sys} (h : SetupAbandoned i cs fs s) (e : Ev) :
    SetupAbandoned i cs fs (step rd s e) ∧ ∃ new, (step rd s e).log = s.log ++ new ∧ Unset i cs fs new := by
  obtain ⟨c, hc, hq, hcs, hfs⟩ := h.cursor
  have hi : i < s.cursors.length := (List.getElem?_eq_some_iff.mp hc).1
  cases e with
  | «open» source query =>
    refine ⟨⟨⟨c, ?_, hq, hcs, hfs⟩, h.fut⟩, [], by simp [step], Unset.nil⟩
    simp only [step, List.getElem?_append_left hi, hc]
  | call j =>
    simp only [step]
    split
    · exact ⟨⟨⟨c, hc, hq, hcs, hfs⟩, fun a ha => by cases ha; exact .inl rfl⟩, [], by simp, Unset.nil⟩
    · exact ⟨h, [], by simp, Unset.nil⟩
  | drop => exact ⟨⟨⟨c, hc, hq, hcs, hfs⟩, fun _ ha => by cases ha⟩, [], by simp [step], Unset.nil⟩
  | poll env =>
    rcases hf : s.fut with _ | ⟨j, a⟩
    · exact ⟨by simpa [step, hf] using h, [], by simp [step, hf], Unset.nil⟩
    rcases hc' : s.cursors[j]? with _ | c'
    · exact ⟨by simpa [step, hf, hc'] using h, [], by simp [step, hf, hc'], Unset.nil⟩
    simp only [step, hf, hc']
    by_cases hj : j = i
    · subst hj
      exact pollSys_abandoned_self rd h hf hc'
    · rcases he : pollAt rd env a ⟨c', s.conn, s.heap⟩ with ⟨p, ctx, effects⟩
      rw [pollSys_eq rd he]
      refine ⟨⟨⟨c, by simp only [List.getElem?_set_ne hj, hc], hq, hcs, hfs⟩, fun a' ha' => ?_⟩,
        effects.map (Effect.about j) ++ p.logged j, List.append_assoc _ _ _, ?_, fun row hr => ?_⟩
      · exact absurd (Progress.after_eq ha').1 (Ne.symm hj)
      · simp [setup_about_ne (Ne.symm hj)]
      · simp [rows_logged_ne (Ne.symm hj)] at hr

theorem run_abandoned (es : List Ev) : ∀ s : Sys, SetupAbandoned i cs fs s →
    SetupAbandoned i cs fs (s.run rd es) ∧ ∃ new, (s.run rd es).log = s.log ++ new ∧ Unset i cs fs new := by
  induction es with
  | nil => exact fun s h => ⟨h, [], by simp [Sys.run], Unset.nil⟩
  | cons e es ih =>
    intro s h
    obtain ⟨h1, n1, hl1, hu1⟩ := step_abandoned rd h e
    obtain ⟨h2, n2, hl2, hu2⟩ := ih (step rd s e) h1
    exact ⟨h2, n1 ++ n2, by rw [show s.run rd (e :: es) = (step rd s e).run rd es from rfl, hl2, hl1,
      List.append_assoc], hu1.append hu2⟩

/-- Once cursor `i` has taken its query (its first call got past the resolve) and no future of it
    waits in `conn.run` or in `describe` (it was dropped there, or the call failed there, or the setup
    is done), then after any events: nothing of `i`'s setup is logged again, so `run`, `describe`
    and the assignment never come; the cursor keeps the column map and format list it holds; and
    every row it returns from then on carries them. -/
theorem abandoned_setup_never_resumes {s : Sys} {c : PgCursor} (hc : s.cursors[i]? = some c) (hq : c.query = none)
    (hfut : ∀ a, s.fut = some (i, a) → a = .resolve ∨ a = .read) (es : List Ev) :
    setup i (s.run rd es).log = setup i s.log ∧
      (∃ c', (s.run rd es).cursors[i]? = some c' ∧ c'.columns = c.columns ∧ c'.formats = c.formats) ∧
      ∃ new, (s.run rd es).log = s.log ++ new ∧ ∀ row ∈ rows i new, row.columns = c.columns ∧ row.formats = c.formats := by
  obtain ⟨⟨⟨c', hc', -, hcs, hfs⟩, -⟩, new, hlog, hset, hrows⟩ := run_abandoned rd es s ⟨⟨c, hc, hq, rfl, rfl⟩, hfut⟩
  exact ⟨by rw [hlog, setup_append, hset, List.append_nil], ⟨c', hc', hcs, hfs⟩, new, hlog, hrows⟩

/-- Cursor 0's first call is dropped at `conn.run`. Called again, it reads the RowDescription
    meant for it in the steady-state loop, and fails; called once more, it returns the DataRow
    with the empty column map it was made with. -/
theorem abandoned_setup_never_resumes_witness :
    let rd : Readers := ⟨fun _ => .ok ⟨[]⟩, fun b => .ok ⟨[some b]⟩⟩
    let s := (Sys.init [.rowDescription [], .dataRow [1], .commandComplete]).run rd
      [.open .connection ⟨"SELECT v FROM t", none⟩, .call 0, .poll ⟨.ok (), .ok none⟩, .drop]
    let es : List Ev := [.call 0, .poll ⟨.ok (), .ok none⟩, .poll ⟨.ok (), .ok none⟩, .call 0,
      .poll ⟨.ok (), .ok none⟩, .poll ⟨.ok (), .ok none⟩]
    s.cursors[0]? = some ⟨.connection, none, ⟨0, Map.empty⟩, ⟨1, []⟩⟩ ∧
      (s.run rd es).log = s.log ++ [.ret 0 (.error (.unexpectedMessage "next" (.rowDescription []))),
        .ret 0 (.ok (some ⟨⟨0, Map.empty⟩, ⟨1, []⟩, ⟨[some [1]]⟩⟩))] ∧
      (setup 0 (s.run rd es).log = setup 0 s.log ∧
        (∃ c', (s.run rd es).cursors[0]? = some c' ∧ c'.columns = ⟨0, Map.empty⟩ ∧ c'.formats = ⟨1, []⟩) ∧
        ∃ new, (s.run rd es).log = s.log ++ new ∧
          ∀ row ∈ rows 0 new, row.columns = ⟨0, Map.empty⟩ ∧ row.formats = ⟨1, []⟩) :=
  ⟨rfl, rfl, abandoned_setup_never_resumes _ (c := ⟨.connection, none, ⟨0, Map.empty⟩, ⟨1, []⟩⟩) rfl rfl
    (fun _ h => Option.noConfusion h) _⟩

end Abandoned

/-! ## The next `run` drains what was left -/

section Drained

variable (rd : Readers)

end Drained

end Sqlx.Postgres
