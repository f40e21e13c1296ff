import Sqlx.Postgres.Future

/-
  Sqlx.Postgres.Delivery — what the cursors of one connection deliver of what the backend sent
  (`cursor.rs`: the read loops of `describe` and `next`, lines 73-91 and 161-188).

  Every read takes the connection's next message (`conn.stream.read()`), whichever cursor's
  future polls (`wait_until_ready` reads past messages and returns none of them), and a call
  returns a row only for a DataRow it has just read and parsed. So, across any interleaving of
  cursors, calls, polls and dropped futures (`Sys.run`), the connection is read front to back,
  each message once, and the rows the calls return, all cursors together and in the order they
  were returned, are among the rows the backend sent, in the order it sent them.

  Proved:
  - `pollAt_delivers`: a poll reads at most the connection's next message, and returns a row
    only when that message is a DataRow that `DataRow::read` parses to the row.
  - `rows_delivered_in_order`: after any events from a fresh connection, the backend's messages
    are the ones read followed by the ones left, and the rows returned are a sublist of the rows
    among the ones read: none invented, none returned twice, none out of order. The order is
    the connection's, not the cursor's: a cursor whose query is taken reads whatever message
    comes next (`later_call_reads_on`).
-/

namespace Sqlx.Postgres

/-- The rows among the backend's messages, as `DataRow::read` parses them. -/
def sentRows (rd : Readers) (ms : List Message) : List DataRow :=
  ms.filterMap fun
    | .dataRow body => (rd.dataRow body).toOption
    | _ => none

/-- The row a call returns when its future ends in `p`. -/
def Progress.row : Progress → Option DataRow
  | .ret (.ok (some row)) => some row.data
  | _ => none

/-- The rows the calls returned, in the order they returned them, all cursors together. -/
def yielded (log : List Obs) : List DataRow :=
  log.filterMap fun
    | .ret _ (.ok (some row)) => some row.data
    | _ => none

@[simp] theorem sentRows_append (rd : Readers) (l l' : List Message) :
    sentRows rd (l ++ l') = sentRows rd l ++ sentRows rd l' :=
  List.filterMap_append _ _ _

@[simp] theorem yielded_append (l l' : List Obs) : yielded (l ++ l') = yielded l ++ yielded l' :=
  List.filterMap_append _ _ _

@[simp] theorem yielded_about (i : Nat) (effects : List Effect) : yielded (effects.map (Effect.about i)) = [] :=
  List.filterMap_eq_nil_iff.mpr fun o ho => by
    obtain ⟨e, -, rfl⟩ := List.mem_map.mp ho
    cases e <;> rfl

@[simp] theorem yielded_logged (i : Nat) (p : Progress) : yielded (p.logged i) = p.row.toList := by
  rcases p with _ | (_ | _ | _) <;> rfl

section Poll

variable (rd : Readers) (env : Env)

/-- The steady-state loop returns a row only for a DataRow that parses to it. -/
theorem nextTurn_stop_some {m : Message} {d : DataRow} (h : nextTurn rd m = .stop (some d)) :
    sentRows rd [m] = [d] := by
  rcases m with _ | _ | _ | _ | _ | body | _ | _ <;> simp only [nextTurn] at h <;> try cases h
  cases hb : rd.dataRow body <;> simp only [hb] at h <;> cases h
  simp [sentRows, hb, Except.toOption]

/-- A poll reads at most the connection's next message, and returns a row only when that message
    is a DataRow that parses to the row. -/
theorem pollAt_delivers (a : Await) (ctx : Ctx) :
    ∃ taken, ctx.conn.stream = taken ++ (pollAt rd env a ctx).2.1.conn.stream ∧
      List.Sublist (pollAt rd env a ctx).1.row.toList (sentRows rd taken) := by
  cases a with
  | resolve =>
    refine ⟨[], ?_, ?_⟩ <;> cases hr : ctx.cursor.source.resolve env.checkout <;>
      cases hq : ctx.cursor.query <;> simp [pollAt, Progress.row, hr, hq]
  | drain =>
    cases hs : ctx.conn.stream with
    | nil => exact ⟨[], by simp [pollAt, hs], by simp [pollAt, hs, Progress.row]⟩
    | cons m ms =>
      cases ht : readyTurn m <;> exact ⟨[m], by simp [pollAt, hs, ht], by simp [pollAt, hs, ht, Progress.row]⟩
  | run =>
    refine ⟨[], ?_, ?_⟩ <;> rcases hrun : env.run with _ | _ | st <;> simp [pollAt, Progress.row, hrun] <;>
      cases ctx.conn.cached st <;> simp [Progress.row]
  | describe st =>
    cases hs : ctx.conn.stream with
    | nil => exact ⟨[], by simp [pollAt, hs], by simp [pollAt, hs, Progress.row]⟩
    | cons m ms =>
      cases ht : describeTurn rd m <;> exact ⟨[m], by simp [pollAt, hs, ht], by simp [pollAt, hs, ht, Progress.row]⟩
  | read =>
    cases hs : ctx.conn.stream with
    | nil => exact ⟨[], by simp [pollAt, hs], by simp [pollAt, hs, Progress.row]⟩
    | cons m ms =>
      refine ⟨[m], ?_, ?_⟩ <;> cases ht : nextTurn rd m with
      | stop data =>
        cases data with
        | none => simp [pollAt, hs, ht, Progress.row]
        | some d => simp [pollAt, hs, ht, Progress.row, nextTurn_stop_some rd ht]
      | _ => simp [pollAt, hs, ht, Progress.row]

end Poll

/-! ## Over any run -/

section Run

variable (rd : Readers)

/-- One event reads a prefix of the connection's messages and appends to the rows returned a
    sublist of the rows among them. -/
theorem step_delivers (s : Sys) (e : Ev) :
    ∃ taken, s.conn.stream = taken ++ (step rd s e).conn.stream ∧
      ∃ new, yielded (step rd s e).log = yielded s.log ++ new ∧ List.Sublist new (sentRows rd taken) := by
  cases e with
  | poll env =>
    rcases hf : s.fut with _ | ⟨i, a⟩
    · exact ⟨[], by simp [step, hf], [], by simp [step, hf], .slnil⟩
    · cases hc : s.cursors[i]? with
      | none => exact ⟨[], by simp [step, hf, hc], [], by simp [step, hf, hc], .slnil⟩
      | some c =>
        obtain ⟨taken, hs, hrow⟩ := pollAt_delivers rd env a ⟨c, s.conn, s.heap⟩
        exact ⟨taken, by simpa [step, hf, hc, pollSys] using hs, _, by simp [step, hf, hc, pollSys], hrow⟩
  | «open» source query => exact ⟨[], by simp [step], [], by simp [step], .slnil⟩
  | call i => exact ⟨[], by simp only [step]; split <;> rfl, [], by simp only [step]; split <;> simp, .slnil⟩
  | drop => exact ⟨[], rfl, [], by simp [step], .slnil⟩

theorem run_delivers (es : List Ev) : ∀ s : Sys,
    ∃ taken, s.conn.stream = taken ++ (s.run rd es).conn.stream ∧
      ∃ new, yielded (s.run rd es).log = yielded s.log ++ new ∧ List.Sublist new (sentRows rd taken) := by
  induction es with
  | nil => exact fun s => ⟨[], rfl, [], by simp [Sys.run], .slnil⟩
  | cons e es ih =>
    intro s
    obtain ⟨t1, hs1, n1, hy1, hn1⟩ := step_delivers rd s e
    obtain ⟨t2, hs2, n2, hy2, hn2⟩ := ih (step rd s e)
    refine ⟨t1 ++ t2, by rw [hs1, hs2, List.append_assoc]; rfl, n1 ++ n2, ?_, ?_⟩
    · rw [show s.run rd (e :: es) = (step rd s e).run rd es from rfl, hy2, hy1, List.append_assoc]
    · simpa using hn1.append hn2

/-- After any events on a fresh connection (any cursors, calls, polls, outcomes of the pool and
    of `run`, and futures dropped at any await), the backend's messages are the ones read
    followed by the ones left, and the rows the calls returned, all cursors together in the order
    returned, are a sublist of the rows among the messages read. -/
theorem rows_delivered_in_order (stream : List Message) (es : List Ev) :
    ∃ read, stream = read ++ ((Sys.init stream).run rd es).conn.stream ∧
      List.Sublist (yielded ((Sys.init stream).run rd es).log) (sentRows rd read) := by
  obtain ⟨read, hs, new, hy, hn⟩ := run_delivers rd es (Sys.init stream)
  exact ⟨read, hs, by rw [hy]; exact hn⟩

end Run

end Sqlx.Postgres
