import Sqlx.Postgres.Cursor

/-
  Sqlx.Postgres.Future — the `next` future as the state machine it compiles to, and cursors
  sharing one connection (`cursor.rs` lines 63-65 and 135-191).

  A future waits at one of the awaits of `next` (`Await`): the resolve of the connection
  source (also where a new future starts), a read in `conn.run` while the connection still owes
  the last response (`wait_until_ready`), the flush in `conn.run`, a read in `describe`, or a read
  in the steady-state loop. A poll runs the code up to the next await or to the end (`pollAt`); the
  caller may instead drop the future where it waits, and what the code did before stays done.
  A connection is held by the one future using it, so at most one future is in flight.

  The system (`Sys`) is one connection, the cursors made on it, the future in flight and a log
  of what was done: the calls of `conn.run`, `run` returning, the assignments of a cursor's
  column map and format list (lines 157-158), the calls of `describe` that returned, and what
  each call returned. Events (`Ev`) make a
  cursor (`from_pool` / `from_connection`), start a call, poll or drop the future.

  Proved: `runFrom_resolve` — polled without a drop, a future computes `next` of
  `Sqlx.Postgres.Cursor`: the poll machine refines the call-level model, within as many polls as
  the connection has messages, plus three (`runFrom_drain`, `runFrom_run`, `runFrom_describe`
  and `runFrom_read` for the awaits it passes).
-/

namespace Sqlx.Postgres

/-- Where a `next` future waits, in source order. -/
inductive Await where
  /-- `cursor.source.resolve_by_ref().await`; a new future starts here. -/
  | resolve
  /-- A read in `wait_until_ready`, inside `conn.run`, the query already taken. -/
  | drain
  /-- The flush in `conn.run(query, arguments).await`, the connection ready. -/
  | run
  /-- A read in `describe`, for `get_or_describe` (`some`) or the simple path (`none`). -/
  | describe (statement : Option StatementId)
  /-- A read in the steady-state loop. -/
  | read
  deriving DecidableEq, Repr

/-- What a poll does besides returning, for the log. -/
inductive Effect where
  | run (query : Query)
  | ran (statement : Option StatementId)
  /-- `describe` returned for `statement`. -/
  | described (statement : Option StatementId)
  | assign (columns : Arc (Map String Nat)) (formats : Arc (List TypeFormat))

/-- A poll's end: the future waits at an await again, or `next` returns. -/
inductive Progress where
  | wait (a : Await)
  | ret (outcome : Except Error (Option PgRow))

section Poll

variable (rd : Readers)

/-- After `describe` returned `(columns, formats)` for `statement`: new `Arc`s, inserted into
    both caches for a prepared statement (lines 120-126), then assigned to the cursor. -/
def described (statement : Option StatementId) (description : Option RowDescription) (ctx : Ctx) : Ctx :=
  let columns : Arc _ := ⟨ctx.heap, (describeColumns description).1⟩
  let formats : Arc _ := ⟨ctx.heap + 1, (describeColumns description).2⟩
  let conn := match statement with
    | some statement =>
      { ctx.conn with
        cacheStatementColumns := ctx.conn.cacheStatementColumns.insert statement columns
        cacheStatementFormats := ctx.conn.cacheStatementFormats.insert statement formats }
    | none => ctx.conn
  ⟨{ ctx.cursor with columns, formats }, conn, ctx.heap + 2⟩

@[simp] theorem described_stream (statement : Option StatementId) (description : Option RowDescription) (ctx : Ctx) :
    (described statement description ctx).conn.stream = ctx.conn.stream := by
  cases statement <;> rfl

@[simp] theorem described_cursor (statement : Option StatementId) (description : Option RowDescription) (ctx : Ctx) :
    (described statement description ctx).cursor =
      { ctx.cursor with columns := ⟨ctx.heap, (describeColumns description).1⟩
                        formats := ⟨ctx.heap + 1, (describeColumns description).2⟩ } := by
  cases statement <;> rfl

@[simp] theorem described_heap (statement : Option StatementId) (description : Option RowDescription) (ctx : Ctx) :
    (described statement description ctx).heap = ctx.heap + 2 := by
  cases statement <;> rfl

/-- `ctx` with `is_ready` set. -/
def Ctx.withReady (ctx : Ctx) (isReady : Bool) : Ctx := { ctx with conn := { ctx.conn with isReady } }

@[simp] theorem Ctx.withReady_cursor (ctx : Ctx) (b : Bool) : (ctx.withReady b).cursor = ctx.cursor := rfl
@[simp] theorem Ctx.withReady_heap (ctx : Ctx) (b : Bool) : (ctx.withReady b).heap = ctx.heap := rfl
@[simp] theorem Ctx.withReady_stream (ctx : Ctx) (b : Bool) : (ctx.withReady b).conn.stream = ctx.conn.stream := rfl
@[simp] theorem Ctx.withReady_isReady (ctx : Ctx) (b : Bool) : (ctx.withReady b).conn.isReady = b := rfl
@[simp] theorem Ctx.withReady_caches (ctx : Ctx) (b : Bool) : (ctx.withReady b).conn.caches = ctx.conn.caches := rfl
@[simp] theorem Ctx.withReady_cached (ctx : Ctx) (b : Bool) (st : StatementId) :
    (ctx.withReady b).conn.cached st = ctx.conn.cached st := rfl

/-- One poll of a future waiting at `a`: the code from that await to the next one or to the end. -/
def pollAt (env : Env) : Await → Ctx → Progress × Ctx × List Effect
  | .resolve, ctx =>
    match ctx.cursor.source.resolve env.checkout with
    | .error e => (.ret (.error e), ctx, [])
    | .ok source =>
      let ctx := { ctx with cursor := { ctx.cursor with source } }
      match ctx.cursor.query with
      | some query =>
        (.wait (if ctx.conn.isReady then .run else .drain), { ctx with cursor := { ctx.cursor with query := none } },
          [.run query])
      | none => (.wait .read, ctx, [])
  | .drain, ctx =>
    match ctx.conn.stream with
    | [] => (.ret (.error .io), ctx, [])
    | m :: ms =>
      let ctx := ctx.withStream ms
      match readyTurn m with
      | .skip => (.wait .drain, ctx, [])
      | .fail e => (.ret (.error e), ctx, [])
      | .stop () => (.wait .run, ctx.withReady true, [])
  | .run, ctx =>
    match env.run with
    | .error e => (.ret (.error e), ctx, [])
    | .ok none => (.wait (.describe none), ctx.withReady false, [.ran none])
    | .ok (some statement) =>
      match ctx.conn.cached statement with
      | some (columns, formats) =>
        (.wait .read, { ctx.withReady false with cursor := { ctx.cursor with columns, formats } },
          [.ran (some statement), .assign columns formats])
      | none => (.wait (.describe (some statement)), ctx.withReady false, [.ran (some statement)])
  | .describe statement, ctx =>
    match ctx.conn.stream with
    | [] => (.ret (.error .io), ctx, [])
    | m :: ms =>
      let ctx := ctx.withStream ms
      match describeTurn rd m with
      | .skip => (.wait (.describe statement), ctx, [])
      | .fail e => (.ret (.error e), ctx, [])
      | .stop description =>
        let ctx := described statement description ctx
        (.wait .read, ctx, [.described statement, .assign ctx.cursor.columns ctx.cursor.formats])
  | .read, ctx =>
    match ctx.conn.stream with
    | [] => (.ret (.error .io), ctx, [])
    | m :: ms =>
      let ctx := ctx.withStream ms
      match nextTurn rd m with
      | .skip => (.wait .read, ctx, [])
      | .stop data => (.ret (.ok (data.map fun data => ⟨ctx.cursor.columns, ctx.cursor.formats, data⟩)), ctx, [])
      | .fail e => (.ret (.error e), ctx, [])

/-- Poll a future waiting at `a` until `next` returns, at most `fuel` times. -/
def runFrom (env : Env) : Nat → Await → Ctx → Option (Except Error (Option PgRow) × Ctx)
  | 0, _, _ => none
  | fuel + 1, a, ctx =>
    match pollAt rd env a ctx with
    | (.ret outcome, ctx, _) => some (outcome, ctx)
    | (.wait a, ctx, _) => runFrom env fuel a ctx

end Poll

/-! ## Cursors on one connection -/

/-- What the log records, with the cursor it is about. -/
inductive Obs where
  | run (cursor : Nat) (query : Query)
  | ran (cursor : Nat) (statement : Option StatementId)
  | described (cursor : Nat) (statement : Option StatementId)
  | assign (cursor : Nat) (columns : Arc (Map String Nat)) (formats : Arc (List TypeFormat))
  | ret (cursor : Nat) (outcome : Except Error (Option PgRow))

def Effect.about (i : Nat) : Effect → Obs
  | .run query => .run i query
  | .ran statement => .ran i statement
  | .described statement => .described i statement
  | .assign columns formats => .assign i columns formats

structure Sys where
  conn : PgConnection
  heap : Nat
  cursors : List PgCursor
  /-- The future in flight: whose cursor, and where it waits. -/
  fut : Option (Nat × Await)
  log : List Obs

inductive Ev where
  /-- `from_pool` / `from_connection`. -/
  | open (source : ConnectionSource) (query : Query)
  /-- `next()` on a cursor: a future that has not run yet. -/
  | call (cursor : Nat)
  /-- The future runs to its next await or its end. -/
  | poll (env : Env)
  /-- The caller drops the future where it waits. -/
  | drop

/-- A fresh connection: the messages the backend will send, ready, no statement cached. -/
def Sys.init (stream : List Message) : Sys := ⟨⟨stream, true, Map.empty, Map.empty⟩, 0, [], none, []⟩

section Step

variable (rd : Readers)

/-- Where the future is after a poll that ended in `p`: at its next await, or gone. -/
def Progress.after (i : Nat) : Progress → Option (Nat × Await)
  | .wait a => some (i, a)
  | .ret _ => none

/-- What a poll that ended in `p` logs after its effects: the call's outcome. -/
def Progress.logged (i : Nat) : Progress → List Obs
  | .wait _ => []
  | .ret outcome => [.ret i outcome]

/-- A poll of cursor `i`'s future waiting at `a`. -/
def pollSys (env : Env) (s : Sys) (i : Nat) (a : Await) (c : PgCursor) : Sys :=
  let r := pollAt rd env a ⟨c, s.conn, s.heap⟩
  { conn := r.2.1.conn
    heap := r.2.1.heap
    cursors := s.cursors.set i r.2.1.cursor
    fut := r.1.after i
    log := s.log ++ r.2.2.map (Effect.about i) ++ r.1.logged i }

def step (s : Sys) : Ev → Sys
  | .open source query =>
    let (c, heap) := PgCursor.new source query s.heap
    { s with cursors := s.cursors ++ [c], heap }
  | .call i => if s.fut = none ∧ i < s.cursors.length then { s with fut := some (i, .resolve) } else s
  | .poll env =>
    match s.fut with
    | none => s
    | some (i, a) =>
      match s.cursors[i]? with
      | none => s
      | some c => pollSys rd env s i a c
  | .drop => { s with fut := none }

inductive Reach : Sys → Prop
  | init (stream : List Message) : Reach (Sys.init stream)
  | step {s : Sys} (e : Ev) : Reach s → Reach (step rd s e)

/-- The system after the events `es`, in order. -/
def Sys.run (s : Sys) (es : List Ev) : Sys := es.foldl (step rd) s

theorem reach_run {s : Sys} (h : Reach rd s) (es : List Ev) : Reach rd (Sys.run rd s es) := by
  induction es generalizing s with
  | nil => exact h
  | cons e es ih => exact ih (.step e h)

end Step

/-! ## Polled to the end, a future is a call of `next` -/

section Refines

variable (rd : Readers) (env : Env)

@[simp] theorem Ctx.withStream_withStream (ctx : Ctx) (ms ms' : List Message) :
    (ctx.withStream ms).withStream ms' = ctx.withStream ms' := rfl

theorem Ctx.withStream_self {ctx : Ctx} {ms : List Message} (h : ctx.conn.stream = ms) : ctx.withStream ms = ctx := by
  subst h
  rfl

theorem readRow_skip {ctx : Ctx} {m : Message} {ms : List Message} (hs : ctx.conn.stream = m :: ms)
    (hskip : nextTurn rd m = .skip) : readRow rd ctx = readRow rd (ctx.withStream ms) := by
  simp [readRow, hs, readUntil, hskip]

theorem runFrom_read (ms : List Message) :
    ∀ (ctx : Ctx) (fuel : Nat), ctx.conn.stream = ms → ms.length + 1 ≤ fuel →
      runFrom rd env fuel .read ctx = some (readRow rd ctx) := by
  induction ms with
  | nil =>
    rintro ctx (_ | fuel) hs hfuel
    · omega
    · simp [runFrom, pollAt, hs, readRow, readUntil, Ctx.withStream_self hs]
  | cons m ms ih =>
    rintro ctx (_ | fuel) hs hfuel
    · omega
    · cases ht : nextTurn rd m with
      | skip =>
        simp only [runFrom, pollAt, hs, ht]
        rw [ih _ fuel rfl (by simp at hfuel; omega), readRow_skip rd hs ht]
      | stop data => simp [runFrom, pollAt, hs, ht, readRow, readUntil]
      | fail e => simp [runFrom, pollAt, hs, ht, readRow, readUntil]

/-- The call's end once `describe` (or the cache) has answered: an error, or the steady-state
    loop with the metadata assigned. -/
def afterDescribed : Except Error (Arc (Map String Nat) × Arc (List TypeFormat)) × Ctx →
    Except Error (Option PgRow) × Ctx
  | (.error e, ctx) => (.error e, ctx)
  | (.ok (columns, formats), ctx) => readRow rd { ctx with cursor := { ctx.cursor with columns, formats } }

theorem describeStatement_skip {ctx : Ctx} {m : Message} {ms : List Message} (hs : ctx.conn.stream = m :: ms)
    (hskip : describeTurn rd m = .skip) (statement : Option StatementId)
    (hmiss : ∀ st, statement = some st → ctx.conn.cached st = none) :
    describeStatement rd statement ctx = describeStatement rd statement (ctx.withStream ms) := by
  have hd : describe rd ctx.conn.stream = describe rd ms := by simp [describe, hs, readUntil, hskip]
  cases statement with
  | some st =>
    have hc : (ctx.withStream ms).conn.cached st = none := hmiss st rfl
    simp only [describeStatement, getOrDescribe, hmiss st rfl, hc, hd, Ctx.withStream_stream]
    rcases describe rd ms with ⟨_ | ⟨columns, formats⟩, ms'⟩ <;> rfl
  | none =>
    simp only [describeStatement, describeUncached, hd, Ctx.withStream_stream]
    rcases describe rd ms with ⟨_ | ⟨columns, formats⟩, ms'⟩ <;> rfl

theorem runFrom_describe (statement : Option StatementId) (ms : List Message) :
    ∀ (ctx : Ctx) (fuel : Nat), ctx.conn.stream = ms → (∀ st, statement = some st → ctx.conn.cached st = none) →
      ms.length + 1 ≤ fuel →
      runFrom rd env fuel (.describe statement) ctx = some (afterDescribed rd (describeStatement rd statement ctx)) := by
  induction ms with
  | nil =>
    rintro ctx (_ | fuel) hs hmiss hfuel
    · omega
    · have hd : describe rd [] = (.error .io, []) := rfl
      cases statement with
      | some st =>
        simp [runFrom, pollAt, hs, describeStatement, getOrDescribe, hmiss st rfl, hd, afterDescribed,
          Ctx.withStream_self hs]
      | none => simp [runFrom, pollAt, hs, describeStatement, describeUncached, hd, afterDescribed, Ctx.withStream_self hs]
  | cons m ms ih =>
    rintro ctx (_ | fuel) hs hmiss hfuel
    · omega
    · cases ht : describeTurn rd m with
      | skip =>
        simp only [runFrom, pollAt, hs, ht]
        rw [ih (ctx.withStream ms) fuel rfl hmiss (by simp at hfuel; omega), describeStatement_skip rd hs ht statement hmiss]
      | fail e =>
        have hd : describe rd (m :: ms) = (.error e, ms) := by simp [describe, readUntil, ht]
        cases statement with
        | some st => simp [runFrom, pollAt, hs, ht, describeStatement, getOrDescribe, hmiss st rfl, hd, afterDescribed]
        | none => simp [runFrom, pollAt, hs, ht, describeStatement, describeUncached, hd, afterDescribed]
      | stop description =>
        have hd : describe rd (m :: ms) = (.ok (describeColumns description), ms) := by
          simp [describe, readUntil, ht]
        simp only [runFrom, pollAt, hs, ht]
        rw [runFrom_read rd env ms _ fuel (by simp) (by simp at hfuel; omega)]
        cases statement with
        | some st => simp [describeStatement, getOrDescribe, hmiss st rfl, hs, hd, afterDescribed, described]; rfl
        | none => simp [describeStatement, describeUncached, hs, hd, afterDescribed, described]

/-- The call's end once the query is taken: `run`, then `describe` (or the cache) and the
    steady-state loop. -/
def afterRun (ctx : Ctx) : Except Error (Option PgRow) × Ctx :=
  match ctx.conn.run env with
  | (.error e, conn) => (.error e, { ctx with conn })
  | (.ok statement, conn) => afterDescribed rd (describeStatement rd statement { ctx with conn })

theorem runFrom_run (ctx : Ctx) (hready : ctx.conn.isReady = true) (fuel : Nat)
    (hfuel : ctx.conn.stream.length + 2 ≤ fuel) : runFrom rd env fuel .run ctx = some (afterRun rd env ctx) := by
  obtain ⟨fuel, rfl⟩ : ∃ f, fuel = f + 1 := ⟨fuel - 1, by omega⟩
  have hw : ctx.conn.waitUntilReady = (.ok (), ctx.conn) := by simp [PgConnection.waitUntilReady, hready]
  simp only [runFrom, pollAt, afterRun, PgConnection.run, hw]
  rcases env.run with e | _ | st
  · rfl
  · simp only
    rw [runFrom_describe rd env none _ _ fuel rfl (by simp) (by simp; omega)]
    rfl
  · cases hc : ctx.conn.cached st with
    | some pair =>
      simp only [hc]
      rw [runFrom_read rd env _ _ fuel rfl (by simp; omega)]
      simp [describeStatement, getOrDescribe, hc, afterDescribed, Ctx.withReady]
    | none =>
      simp only [hc]
      rw [runFrom_describe rd env (some st) _ _ fuel rfl (by simpa using hc) (by simp; omega)]
      rfl

theorem afterRun_congr {ctx ctx' : Ctx} (hc : ctx'.cursor = ctx.cursor) (hh : ctx'.heap = ctx.heap)
    (hw : ctx'.conn.waitUntilReady = ctx.conn.waitUntilReady) : afterRun rd env ctx' = afterRun rd env ctx := by
  simp only [afterRun, PgConnection.run, hw, hc, hh]

/-- A connection that is not ready: each poll at the drain reads one message, and the one after
    the ReadyForQuery is the flush. -/
theorem runFrom_drain (ms : List Message) :
    ∀ (ctx : Ctx) (fuel : Nat), ctx.conn.stream = ms → ctx.conn.isReady = false → ms.length + 2 ≤ fuel →
      runFrom rd env fuel .drain ctx = some (afterRun rd env ctx) := by
  induction ms with
  | nil =>
    rintro ⟨cursor, ⟨stream, isReady, columns, formats⟩, heap⟩ (_ | fuel) hs hready hfuel
    · omega
    · simp only at hs hready
      subst hs hready
      rfl
  | cons m ms ih =>
    rintro ctx (_ | fuel) hs hready hfuel
    · omega
    · by_cases hm : m = .readyForQuery
      · subst hm
        simp only [runFrom, pollAt, hs, show readyTurn .readyForQuery = .stop () from rfl]
        rw [runFrom_run rd env _ rfl fuel (by simp at hfuel ⊢; omega)]
        refine congrArg some (afterRun_congr rd env rfl rfl ?_)
        rw [@PgConnection.waitUntilReady_drains _ [.readyForQuery] _ (by rw [hready]; exact ⟨[], rfl, by simp⟩) hs]
        rfl
      · have hskip : readyTurn m = .skip := if_neg hm
        simp only [runFrom, pollAt, hs, hskip]
        rw [ih (ctx.withStream ms) fuel rfl hready (by simp at hfuel; omega)]
        refine congrArg some (afterRun_congr rd env rfl rfl ?_)
        simp [PgConnection.waitUntilReady, hready, hs, readUntil, hskip, Ctx.withStream]

/-- A future polled without a drop computes one call of `next`, within as many polls as the
    connection has messages, plus three. -/
theorem runFrom_resolve (ctx : Ctx) (fuel : Nat) (hfuel : ctx.conn.stream.length + 3 ≤ fuel) :
    runFrom rd env fuel .resolve ctx = some (next rd env ctx) := by
  obtain ⟨fuel, rfl⟩ : ∃ f, fuel = f + 1 := ⟨fuel - 1, by omega⟩
  simp only [runFrom, pollAt, next]
  cases hres : ctx.cursor.source.resolve env.checkout with
  | error e => rfl
  | ok source =>
    cases hq : ctx.cursor.query with
    | none => exact runFrom_read rd env _ _ fuel rfl (by simp; omega)
    | some q =>
      rcases Bool.eq_false_or_eq_true ctx.conn.isReady with hready | hready <;> simp only [hready, ↓reduceIte, Bool.false_eq_true]
      · exact runFrom_run rd env { ctx with cursor := { ctx.cursor with source, query := none } } hready fuel
          (by simp; omega)
      · exact runFrom_drain rd env _ { ctx with cursor := { ctx.cursor with source, query := none } } fuel rfl hready
          (by simp; omega)

end Refines

/-- A fresh cursor on a connection that still owes the end of the last response, polled eight
    times: `run` drains up to the ReadyForQuery, and the first call's result follows. -/
theorem runFrom_resolve_at_noData :
    (⟨(PgCursor.fromConnection ⟨"SELECT 1", none⟩ 0).1,
        ⟨[.commandComplete, .readyForQuery, .noData, .commandComplete, .readyForQuery], false, Map.empty, Map.empty⟩,
        2⟩ : Ctx).conn.stream.length + 3 ≤ 8 ∧
      runFrom ⟨fun _ => .ok ⟨[]⟩, fun b => .ok ⟨[some b]⟩⟩ ⟨.ok (), .ok none⟩ 8 .resolve
          ⟨(PgCursor.fromConnection ⟨"SELECT 1", none⟩ 0).1,
            ⟨[.commandComplete, .readyForQuery, .noData, .commandComplete, .readyForQuery], false, Map.empty,
              Map.empty⟩, 2⟩ =
        some (next ⟨fun _ => .ok ⟨[]⟩, fun b => .ok ⟨[some b]⟩⟩ ⟨.ok (), .ok none⟩
          ⟨(PgCursor.fromConnection ⟨"SELECT 1", none⟩ 0).1,
            ⟨[.commandComplete, .readyForQuery, .noData, .commandComplete, .readyForQuery], false, Map.empty,
              Map.empty⟩, 2⟩) :=
  ⟨by decide, runFrom_resolve _ _ _ 8 (by decide)⟩

end Sqlx.Postgres
