import Sqlx.Postgres.Protocol

/-
  Sqlx.Postgres.Cursor — `PgCursor` and one call of its `next`, run to its end
  (`cursor.rs`: `from_pool`, `from_connection`, `get_or_describe`, `next`).

  A call resolves the cursor's connection source, and on the first call that gets that far it
  takes the pending query (`Option::take`), runs it, and settles the column map and format list:
  from the connection's statement cache when `run` names a prepared statement already described,
  otherwise by `describe` (inserting both into the caches for a prepared statement). Then it reads
  messages until one decides: CommandComplete ends the stream (`Ok(None)`), a DataRow is a row
  carrying the cursor's `Arc`s, anything else is an error. The pool checkout and what writing and
  flushing the query give are the environment's (`Env`). `connection.rs` and `executor.rs` are
  not in src/: `ConnectionSource` is modelled from the spec (§4.1), and `conn.run` from sqlx's
  executor, which first reads the rest of the last response up to its ReadyForQuery unless the
  connection is ready (`wait_until_ready`), and clears `is_ready` once the query is flushed.

  Proved:
  - `next_streams_response`: for every response the cursor's read loops accept — any
    acknowledgements, then (on the simple path or a statement-cache miss) RowDescription or
    NoData, then DataRows among acknowledgements, then CommandComplete — after what `run`
    drains, the calls yield the rows in order, each carrying the described or cached metadata,
    then `Ok(None)`; a message outside that grammar ends the calls with an error after the rows
    before it.
  - `later_call_reads_on`: a failed checkout changes nothing; once the query has been taken, a
    call is the steady-state loop on the next messages: it never runs the query again and never
    changes the metadata, so neither `Ok(None)` nor an error is a terminal state.
  - `simple_path_rejects_commandComplete`: on the simple path, a response that is
    CommandComplete alone (a statement returning no rows) is an error of `describe`.
  - `next_caches`: a call changes the statement caches only by inserting, for a statement that
    was not cached, the two `Arc`s it gives the cursor.
-/

namespace Sqlx.Postgres

/-- `(&'q str, Option<PgArguments>)`: the query a cursor has yet to run. -/
structure Query where
  sql : String
  arguments : Option (List UInt8)
  deriving DecidableEq, Repr

/-- Modelled from the spec: `ConnectionSource` (`connection.rs` is not in src/): a pool to check a
    connection out of, or a connection held (owned or borrowed). -/
inductive ConnectionSource where
  | pool
  | connection
  deriving DecidableEq, Repr

/-- Modelled from the spec: `resolve_by_ref`. A pooled source checks a connection out, which can
    fail (`checkout`), and holds it from then on; a held connection resolves at once. -/
def ConnectionSource.resolve {ε : Type} (checkout : Except ε Unit) : ConnectionSource → Except ε ConnectionSource
  | .pool => checkout.map fun _ => .connection
  | .connection => .ok .connection

structure PgConnection where
  /-- What the backend sent that `read` has not returned yet. -/
  stream : List Message
  /-- `is_ready`: the backend owes no response, so `run` reads nothing before it flushes. -/
  isReady : Bool
  cacheStatementColumns : Map StatementId (Arc (Map String Nat))
  cacheStatementFormats : Map StatementId (Arc (List TypeFormat))

structure PgCursor where
  source : ConnectionSource
  query : Option Query
  columns : Arc (Map String Nat)
  formats : Arc (List TypeFormat)

/-- A `PgRow` without its connection borrow. -/
structure PgRow where
  columns : Arc (Map String Nat)
  formats : Arc (List TypeFormat)
  data : DataRow

/-- What the collaborators a call awaits hand back: the pool's checkout, and what writing the
    query and flushing it give in `conn.run` (the statement id, or an error). -/
structure Env where
  checkout : Except Error Unit
  run : Except Error (Option StatementId)

/-- What a call works on: the cursor, its connection and the next free allocation. -/
structure Ctx where
  cursor : PgCursor
  conn : PgConnection
  heap : Nat

/-- `from_pool` / `from_connection`: no I/O; `Arc::default()` and `Arc::new([])` allocate. -/
def PgCursor.new (source : ConnectionSource) (query : Query) (heap : Nat) : PgCursor × Nat :=
  (⟨source, some query, ⟨heap, Map.empty⟩, ⟨heap + 1, []⟩⟩, heap + 2)

def PgCursor.fromPool (query : Query) (heap : Nat) : PgCursor × Nat := PgCursor.new .pool query heap

def PgCursor.fromConnection (query : Query) (heap : Nat) : PgCursor × Nat := PgCursor.new .connection query heap

/-- The connection's statement cache holds both `Arc`s for `statement`. -/
def PgConnection.cached (conn : PgConnection) (statement : StatementId) :
    Option (Arc (Map String Nat) × Arc (List TypeFormat)) :=
  match conn.cacheStatementColumns.get? statement, conn.cacheStatementFormats.get? statement with
  | some columns, some formats => some (columns, formats)
  | _, _ => none

/-- Whether a statement is cached does not depend on the stream or on `is_ready`. -/
@[simp] theorem PgConnection.cached_with (conn : PgConnection) (stream : List Message) (isReady : Bool)
    (statement : StatementId) : ({ conn with stream, isReady } : PgConnection).cached statement = conn.cached statement :=
  rfl

def Ctx.withStream (ctx : Ctx) (stream : List Message) : Ctx := { ctx with conn := { ctx.conn with stream } }

/-- The connection's two statement caches. -/
def PgConnection.caches (conn : PgConnection) :
    Map StatementId (Arc (Map String Nat)) × Map StatementId (Arc (List TypeFormat)) :=
  (conn.cacheStatementColumns, conn.cacheStatementFormats)

@[simp] theorem Ctx.withStream_cursor (ctx : Ctx) (ms : List Message) : (ctx.withStream ms).cursor = ctx.cursor := rfl
@[simp] theorem Ctx.withStream_heap (ctx : Ctx) (ms : List Message) : (ctx.withStream ms).heap = ctx.heap := rfl
@[simp] theorem Ctx.withStream_stream (ctx : Ctx) (ms : List Message) :
    (ctx.withStream ms).conn.stream = ms := rfl

/-! ## `conn.run` -/

/-- `wait_until_ready`'s match on one message: everything up to a ReadyForQuery is read past. -/
def readyTurn (m : Message) : Turn Unit := if m = .readyForQuery then .stop () else .skip

/-- Modelled from outside src/: `wait_until_ready` (`postgres/executor.rs`). A connection that
    is not ready still owes the rest of the last response: read up to and including its
    ReadyForQuery, then mark the connection ready. -/
def PgConnection.waitUntilReady (conn : PgConnection) : Except Error Unit × PgConnection :=
  if conn.isReady then (.ok (), conn)
  else
    match readUntil readyTurn conn.stream with
    | (.ok (), stream) => (.ok (), { conn with stream, isReady := true })
    | (.error e, stream) => (.error e, { conn with stream })

/-- Modelled from outside src/: `run` (`postgres/executor.rs`) writes the query, waits until the
    connection is ready, flushes and clears `is_ready`, since the backend now owes this query's
    response. What writing and flushing give is `Env.run`. -/
def PgConnection.run (env : Env) (conn : PgConnection) : Except Error (Option StatementId) × PgConnection :=
  match conn.waitUntilReady with
  | (.error e, conn) => (.error e, conn)
  | (.ok (), conn) =>
    match env.run with
    | .error e => (.error e, conn)
    | .ok statement => (.ok statement, { conn with isReady := false })

/-- What `wait_until_ready` reads off a connection: nothing when it is ready, otherwise the
    messages up to and including the first ReadyForQuery. -/
def Drains : Bool → List Message → Prop
  | true, pre => pre = []
  | false, pre => ∃ ms, pre = ms ++ [.readyForQuery] ∧ .readyForQuery ∉ ms

theorem readUntil_readyTurn {ms : List Message} (h : .readyForQuery ∉ ms) (rest : List Message) :
    readUntil readyTurn (ms ++ .readyForQuery :: rest) = (.ok (), rest) := by
  induction ms with
  | nil => rfl
  | cons m ms ih =>
    simp only [List.mem_cons, not_or] at h
    simp [readUntil, readyTurn, Ne.symm h.1, ih h.2]

theorem PgConnection.waitUntilReady_drains {conn : PgConnection} {pre rest : List Message}
    (hpre : Drains conn.isReady pre) (hs : conn.stream = pre ++ rest) :
    conn.waitUntilReady = (.ok (), { conn with stream := rest, isReady := true }) := by
  obtain ⟨stream, _ | _, columns, formats⟩ := conn
  · obtain ⟨ms, rfl, hms⟩ := hpre
    simp only at hs
    simp [PgConnection.waitUntilReady, hs, readUntil_readyTurn hms]
  · obtain rfl : pre = [] := hpre
    simp_all [PgConnection.waitUntilReady]

/-- `run` on a connection that drains `pre`, when writing and flushing succeed: `pre` is read and
    `is_ready` cleared. -/
theorem PgConnection.run_ok {conn : PgConnection} {pre rest : List Message} (hpre : Drains conn.isReady pre)
    (hs : conn.stream = pre ++ rest) {env : Env} {statement : Option StatementId} (hrun : env.run = .ok statement) :
    conn.run env = (.ok statement, { conn with stream := rest, isReady := false }) := by
  simp only [PgConnection.run, PgConnection.waitUntilReady_drains hpre hs, hrun]

section Next

variable (rd : Readers)

/-- `get_or_describe` (lines 113-133). The `!contains || !contains` test is `cached`; after the
    inserts, `cache[&statement]` is the `Arc` just inserted. -/
def getOrDescribe (statement : StatementId) (ctx : Ctx) :
    Except Error (Arc (Map String Nat) × Arc (List TypeFormat)) × Ctx :=
  match ctx.conn.cached statement with
  | some pair => (.ok pair, ctx)
  | none =>
    match describe rd ctx.conn.stream with
    | (.error e, stream) => (.error e, ctx.withStream stream)
    | (.ok (columns, formats), stream) =>
      let columns : Arc _ := ⟨ctx.heap, columns⟩
      let formats : Arc _ := ⟨ctx.heap + 1, formats⟩
      (.ok (columns, formats),
        { ctx with
          heap := ctx.heap + 2
          conn := { ctx.conn with
                    stream
                    cacheStatementColumns := ctx.conn.cacheStatementColumns.insert statement columns
                    cacheStatementFormats := ctx.conn.cacheStatementFormats.insert statement formats } })

/-- The simple path (lines 151-155): `describe`, then new `Arc`s that nothing caches. -/
def describeUncached (ctx : Ctx) : Except Error (Arc (Map String Nat) × Arc (List TypeFormat)) × Ctx :=
  match describe rd ctx.conn.stream with
  | (.error e, stream) => (.error e, ctx.withStream stream)
  | (.ok (columns, formats), stream) =>
    (.ok (⟨ctx.heap, columns⟩, ⟨ctx.heap + 1, formats⟩), { ctx.withStream stream with heap := ctx.heap + 2 })

/-- Lines 147-155: the metadata of `statement`'s result, from the statement cache or described;
    the simple path (no statement) is always described. -/
def describeStatement (statement : Option StatementId) (ctx : Ctx) :
    Except Error (Arc (Map String Nat) × Arc (List TypeFormat)) × Ctx :=
  match statement with
  | some statement => getOrDescribe rd statement ctx
  | none => describeUncached rd ctx

/-- The steady-state loop's match on one message (lines 162-187). -/
def nextTurn : Message → Turn (Option DataRow)
  | .parseComplete | .bindComplete => .skip
  | .commandComplete => .stop none
  | .dataRow body =>
    match rd.dataRow body with
    | .ok data => .stop (some data)
    | .error e => .fail e
  | m => .fail (.unexpectedMessage "next" m)

/-- The steady-state loop (lines 161-190); a row carries the cursor's `Arc`s. -/
def readRow (ctx : Ctx) : Except Error (Option PgRow) × Ctx :=
  let (r, stream) := readUntil (nextTurn rd) ctx.conn.stream
  (r.map (Option.map fun data => ⟨ctx.cursor.columns, ctx.cursor.formats, data⟩), ctx.withStream stream)

/-- `next` (lines 135-191), one call run to its end. -/
def next (env : Env) (ctx : Ctx) : Except Error (Option PgRow) × Ctx :=
  match ctx.cursor.source.resolve env.checkout with
  | .error e => (.error e, ctx)
  | .ok source =>
    let ctx := { ctx with cursor := { ctx.cursor with source } }
    match ctx.cursor.query with
    | none => readRow rd ctx
    | some _ =>
      let ctx := { ctx with cursor := { ctx.cursor with query := none } }
      match ctx.conn.run env with
      | (.error e, conn) => (.error e, { ctx with conn })
      | (.ok statement, conn) =>
        match describeStatement rd statement { ctx with conn } with
        | (.error e, ctx) => (.error e, ctx)
        | (.ok (columns, formats), ctx) => readRow rd { ctx with cursor := { ctx.cursor with columns, formats } }

/-- Calls of `next`, one per `Env`: their outcomes in order, and the state after them. -/
def nextAll : List Env → Ctx → List (Except Error (Option PgRow)) × Ctx
  | [], ctx => ([], ctx)
  | env :: envs, ctx =>
    let (r, ctx) := next rd env ctx
    let (rs, ctx) := nextAll envs ctx
    (r :: rs, ctx)

end Next

/-! ## One call, piece by piece -/

section Calls

variable (rd : Readers)

@[simp] theorem readRow_cursor (ctx : Ctx) : (readRow rd ctx).2.cursor = ctx.cursor := rfl
@[simp] theorem readRow_heap (ctx : Ctx) : (readRow rd ctx).2.heap = ctx.heap := rfl

theorem nextAll_cons (env : Env) (envs : List Env) (ctx : Ctx) :
    (nextAll rd (env :: envs) ctx).1 = (next rd env ctx).1 :: (nextAll rd envs (next rd env ctx).2).1 := rfl

/-- Calls are equal when their first calls are. -/
theorem nextAll_congr {env : Env} {ctx ctx' : Ctx} (h : next rd env ctx = next rd env ctx') (envs : List Env) :
    (nextAll rd (env :: envs) ctx).1 = (nextAll rd (env :: envs) ctx').1 := by
  rw [nextAll_cons, nextAll_cons, h]

theorem getOrDescribe_hit {statement : StatementId} (ctx : Ctx) {pair : Arc (Map String Nat) × Arc (List TypeFormat)}
    (h : ctx.conn.cached statement = some pair) : getOrDescribe rd statement ctx = (.ok pair, ctx) := by
  simp [getOrDescribe, h]

theorem getOrDescribe_miss {statement : StatementId} (ctx : Ctx) (h : ctx.conn.cached statement = none)
    {columns : Map String Nat} {formats : List TypeFormat} {ms : List Message}
    (hd : describe rd ctx.conn.stream = (.ok (columns, formats), ms)) :
    getOrDescribe rd statement ctx =
      (.ok (⟨ctx.heap, columns⟩, ⟨ctx.heap + 1, formats⟩),
        { ctx with
          heap := ctx.heap + 2
          conn := { ctx.conn with
                    stream := ms
                    cacheStatementColumns := ctx.conn.cacheStatementColumns.insert statement ⟨ctx.heap, columns⟩
                    cacheStatementFormats := ctx.conn.cacheStatementFormats.insert statement ⟨ctx.heap + 1, formats⟩ } }) := by
  simp [getOrDescribe, h, hd]

theorem describeUncached_ok (ctx : Ctx) {columns : Map String Nat} {formats : List TypeFormat} {ms : List Message}
    (hd : describe rd ctx.conn.stream = (.ok (columns, formats), ms)) :
    describeUncached rd ctx =
      (.ok (⟨ctx.heap, columns⟩, ⟨ctx.heap + 1, formats⟩), { ctx.withStream ms with heap := ctx.heap + 2 }) := by
  simp [describeUncached, hd]

/-- Once the query has been taken, a call resolves the connection and is then the steady-state
    loop: nothing else of the cursor or the connection is touched, and `run` is not awaited. -/
theorem next_after_query_taken (env : Env) (ctx : Ctx) (hq : ctx.cursor.query = none) :
    next rd env ctx =
      match ctx.cursor.source.resolve env.checkout with
      | .error e => (.error e, ctx)
      | .ok source => readRow rd { ctx with cursor := { ctx.cursor with source } } := by
  unfold next
  split <;> simp [hq]

theorem next_of_connection (env : Env) (ctx : Ctx) (hq : ctx.cursor.query = none)
    (hs : ctx.cursor.source = .connection) : next rd env ctx = readRow rd ctx := by
  obtain ⟨⟨source, query, columns, formats⟩, conn, heap⟩ := ctx
  simp only at hq hs
  subst hq hs
  rfl

theorem ConnectionSource.resolve_ok {ε : Type} (source : ConnectionSource) {checkout : Except ε Unit}
    (hc : checkout = .ok ()) : source.resolve checkout = .ok .connection := by
  subst hc
  cases source <;> rfl

/-- A call with the query pending whose connection resolves and whose `run` succeeds: it takes the
    query, settles the metadata and reads on as the steady-state loop does. -/
theorem next_first_call {env : Env} {ctx : Ctx} {q : Query} (hq : ctx.cursor.query = some q)
    {source : ConnectionSource} (hres : ctx.cursor.source.resolve env.checkout = .ok source)
    {statement : Option StatementId} {conn : PgConnection} (hrun : ctx.conn.run env = (.ok statement, conn)) :
    next rd env ctx =
      match describeStatement rd statement { ctx with cursor := { ctx.cursor with source, query := none }, conn } with
      | (.error e, ctx) => (.error e, ctx)
      | (.ok (columns, formats), ctx) => readRow rd { ctx with cursor := { ctx.cursor with columns, formats } } := by
  simp only [next, hres, hq, hrun]

/-- A call with the query pending whose connection resolves and whose `run` fails: the query is
    taken all the same. -/
theorem next_run_fails {env : Env} {ctx : Ctx} {q : Query} (hq : ctx.cursor.query = some q)
    {source : ConnectionSource} (hres : ctx.cursor.source.resolve env.checkout = .ok source) {e : Error}
    {conn : PgConnection} (hrun : ctx.conn.run env = (.error e, conn)) :
    next rd env ctx = (.error e, { ctx with cursor := { ctx.cursor with source, query := none }, conn }) := by
  simp only [next, hres, hq, hrun]

end Calls

/-! ## The responses the read loops accept -/

/-- How the steady-state loop ends: at CommandComplete, with what follows, or at a message it
    rejects (or a closed stream). -/
inductive LoopEnd where
  | complete (rest : List Message)
  | rejected

/-- On `ms` the steady-state loop meets the DataRows `ds` among acknowledgements, then ends as
    `e` says. -/
inductive RowPhase (rd : Readers) : List Message → List DataRow → LoopEnd → Prop
  | complete (rest : List Message) : RowPhase rd (.commandComplete :: rest) [] (.complete rest)
  | rejected {m : Message} (rest : List Message) : ¬IsAck m → m ≠ .commandComplete →
      (∀ body data, m = .dataRow body → rd.dataRow body ≠ .ok data) → RowPhase rd (m :: rest) [] .rejected
  | closed : RowPhase rd [] [] .rejected
  | ack {m : Message} {ms : List Message} {ds : List DataRow} {e : LoopEnd} :
      IsAck m → RowPhase rd ms ds e → RowPhase rd (m :: ms) ds e
  | row {body : List UInt8} {data : DataRow} {ms : List Message} {ds : List DataRow} {e : LoopEnd} :
      rd.dataRow body = .ok data → RowPhase rd ms ds e → RowPhase rd (.dataRow body :: ms) (data :: ds) e

/-- The messages `describe` accepts as the description. -/
inductive Describes (rd : Readers) : Message → Option RowDescription → Prop
  | rowDescription {body : List UInt8} {description : RowDescription} :
      rd.rowDescription body = .ok description → Describes rd (.rowDescription body) (some description)
  | noData : Describes rd .noData none

/-- Call outcomes that are the rows `ds`, each carrying `pair`, then the end `e` gives. -/
def Streams (outcomes : List (Except Error (Option PgRow))) (pair : Arc (Map String Nat) × Arc (List TypeFormat))
    (ds : List DataRow) (e : LoopEnd) : Prop :=
  ∃ last, outcomes = ds.map (fun d => .ok (some ⟨pair.1, pair.2, d⟩)) ++ [last] ∧
    match e with
    | .complete _ => last = .ok none
    | .rejected => ∃ err, last = .error err

section Phases

variable (rd : Readers)

theorem describeTurn_of_describes {m : Message} {description : Option RowDescription} (h : Describes rd m description) :
    describeTurn rd m = .stop description := by
  cases h with
  | rowDescription hb => simp [describeTurn, hb]
  | noData => rfl

/-- One run of the steady-state loop over a `RowPhase`. -/
theorem readUntil_rowPhase {ms : List Message} {ds : List DataRow} {e : LoopEnd} (h : RowPhase rd ms ds e) :
    (∀ d ds', ds = d :: ds' → ∃ ms', readUntil (nextTurn rd) ms = (.ok (some d), ms') ∧ RowPhase rd ms' ds' e) ∧
    (ds = [] → ∀ rest, e = .complete rest → readUntil (nextTurn rd) ms = (.ok none, rest)) ∧
    (ds = [] → e = .rejected → ∃ err ms', readUntil (nextTurn rd) ms = (.error err, ms')) := by
  induction h with
  | complete rest => exact ⟨by simp, by rintro - _ ⟨⟩; rfl, by simp⟩
  | rejected rest hack hcc hrow =>
    rename_i m
    refine ⟨by simp, by simp, fun _ _ => ?_⟩
    cases m with
    | parseComplete => exact absurd (.inl rfl) hack
    | bindComplete => exact absurd (.inr rfl) hack
    | commandComplete => exact absurd rfl hcc
    | dataRow body =>
      cases hb : rd.dataRow body with
      | ok data => exact absurd hb (hrow body data rfl)
      | error err => exact ⟨err, rest, by simp [readUntil, nextTurn, hb]⟩
    | _ => exact ⟨_, rest, rfl⟩
  | closed => exact ⟨by simp, by simp, fun _ _ => ⟨.io, [], rfl⟩⟩
  | ack hm _ ih =>
    have hskip : ∀ m, IsAck m → nextTurn rd m = .skip := by rintro m (rfl | rfl) <;> rfl
    simp only [readUntil, hskip _ hm]
    exact ih
  | row hb hrest _ =>
    refine ⟨?_, by simp, by simp⟩
    rintro d ds' ⟨⟩
    exact ⟨_, by simp [readUntil, nextTurn, hb], hrest⟩

/-- Calls on a cursor whose query is taken, over a `RowPhase`: the rows, then the end. -/
theorem nextAll_rowPhase {ds : List DataRow} :
    ∀ {ctx : Ctx} {e : LoopEnd}, ctx.cursor.query = none → ctx.cursor.source = .connection →
      RowPhase rd ctx.conn.stream ds e → ∀ (env : Env) (envs : List Env), envs.length = ds.length →
      Streams (nextAll rd (env :: envs) ctx).1 (ctx.cursor.columns, ctx.cursor.formats) ds e := by
  induction ds with
  | nil =>
    intro ctx e hq hs h env envs hlen
    obtain ⟨-, hc, hr⟩ := readUntil_rowPhase rd h
    rw [List.length_eq_zero.1 hlen, nextAll_cons, next_of_connection rd _ _ hq hs]
    refine ⟨_, rfl, ?_⟩
    cases e with
    | complete rest => simp [readRow, hc rfl rest rfl]
    | rejected =>
      obtain ⟨err, ms', hu⟩ := hr rfl rfl
      exact ⟨err, by simp [readRow, hu]⟩
  | cons d ds ih =>
    intro ctx e hq hs h env envs hlen
    obtain ⟨env', envs', rfl⟩ : ∃ env' envs', envs = env' :: envs' := List.exists_cons_of_length_eq_add_one hlen
    obtain ⟨ms', hu, hrest⟩ := (readUntil_rowPhase rd h).1 d ds rfl
    have hnext : next rd env ctx = (.ok (some ⟨ctx.cursor.columns, ctx.cursor.formats, d⟩), ctx.withStream ms') := by
      simp [next_of_connection rd _ _ hq hs, readRow, hu]
    obtain ⟨last, hout, hlast⟩ := @ih (ctx.withStream ms') e hq hs hrest env' envs' (by simpa using hlen)
    exact ⟨last, by rw [nextAll_cons, hnext]; simpa using hout, hlast⟩

end Phases

section Responses

variable (rd : Readers)

/-- A first call that describes the response: it leaves a cursor whose query is taken, whose
    metadata are new `Arc`s holding what `describe` built, and reads on from there. -/
theorem next_first_described {env : Env} {ctx : Ctx} {q : Query} (hq : ctx.cursor.query = some q)
    (hc : env.checkout = .ok ()) {statement : Option StatementId} {conn : PgConnection}
    (hrun : ctx.conn.run env = (.ok statement, conn)) (hmiss : ∀ st, statement = some st → conn.cached st = none)
    {columns : Map String Nat} {formats : List TypeFormat} {ms : List Message}
    (hd : describe rd conn.stream = (.ok (columns, formats), ms)) :
    ∃ ctx' : Ctx, ctx'.cursor.query = none ∧ ctx'.cursor.source = .connection ∧ ctx'.conn.stream = ms ∧
      ctx'.cursor.columns = ⟨ctx.heap, columns⟩ ∧ ctx'.cursor.formats = ⟨ctx.heap + 1, formats⟩ ∧
      next rd env ctx = readRow rd ctx' := by
  rw [next_first_call rd hq (ctx.cursor.source.resolve_ok hc) hrun]
  cases statement with
  | some st =>
    simp only [describeStatement]
    rw [getOrDescribe_miss rd { ctx with cursor := { ctx.cursor with source := .connection, query := none }, conn }
      (hmiss st rfl) hd]
    exact ⟨_, rfl, rfl, rfl, rfl, rfl, rfl⟩
  | none =>
    simp only [describeStatement]
    rw [describeUncached_ok rd { ctx with cursor := { ctx.cursor with source := .connection, query := none }, conn } hd]
    exact ⟨_, rfl, rfl, rfl, rfl, rfl, rfl⟩

/-- The calls on a cursor whose query is pending, when its connection resolves and `run` returns,
    with `pre` what `run` reads to make the connection ready (nothing, or the rest of the last
    response up to its ReadyForQuery). On a statement-cache hit the response is the rows among
    acknowledgements and its end, each row carrying the cached `Arc`s. Otherwise it is
    acknowledgements, a RowDescription or NoData, then the rows and the end, each row carrying new
    `Arc`s that hold what `describe` built. A message `describe` rejects instead makes the first
    call an error (a CommandComplete on the simple path is not covered here). -/
theorem next_streams_response (ctx : Ctx) (q : Query) (hq : ctx.cursor.query = some q) (env : Env)
    (hc : env.checkout = .ok ()) (statement : Option StatementId) (hrun : env.run = .ok statement)
    (pre : List Message) (hpre : Drains ctx.conn.isReady pre) (envs : List Env) :
    (∀ st pair ms ds e, statement = some st → ctx.conn.cached st = some pair → ctx.conn.stream = pre ++ ms →
      RowPhase rd ms ds e → envs.length = ds.length →
      Streams (nextAll rd (env :: envs) ctx).1 pair ds e) ∧
    (∀ acks head description ms ds e, (∀ st, statement = some st → ctx.conn.cached st = none) →
      (∀ m ∈ acks, IsAck m) → ctx.conn.stream = pre ++ acks ++ head :: ms → Describes rd head description →
      RowPhase rd ms ds e → envs.length = ds.length →
      Streams (nextAll rd (env :: envs) ctx).1
        (⟨ctx.heap, (describeColumns description).1⟩, ⟨ctx.heap + 1, (describeColumns description).2⟩) ds e) ∧
    (∀ acks m rest, (∀ st, statement = some st → ctx.conn.cached st = none) → (∀ m ∈ acks, IsAck m) →
      ctx.conn.stream = pre ++ acks ++ m :: rest → ¬IsAck m → m ≠ .noData →
      (∀ body description, m = .rowDescription body → rd.rowDescription body ≠ .ok description) →
      (statement = none → m ≠ .commandComplete) → ∃ err, (next rd env ctx).1 = .error err) := by
  refine ⟨?_, ?_, ?_⟩
  · rintro st pair ms ds e rfl hcache hs h hlen
    let ctx' : Ctx := ⟨{ ctx.cursor with source := .connection, query := none, columns := pair.1, formats := pair.2 },
      { ctx.conn with stream := ms, isReady := false }, ctx.heap⟩
    have hfirst : next rd env ctx = readRow rd ctx' := by
      rw [next_first_call rd hq (ctx.cursor.source.resolve_ok hc) (PgConnection.run_ok hpre hs hrun)]
      simp only [describeStatement, getOrDescribe, PgConnection.cached_with, hcache]
    rw [nextAll_congr rd (hfirst.trans (next_of_connection rd env ctx' rfl rfl).symm)]
    exact @nextAll_rowPhase rd ds ctx' e rfl rfl h env envs hlen
  · rintro acks head description ms ds e hmiss hacks hs hhead h hlen
    have hd : describe rd (acks ++ head :: ms) = (.ok (describeColumns description), ms) := by
      rw [describe_acks rd acks _ hacks, describe_stop rd (describeTurn_of_describes rd hhead)]
    obtain ⟨ctx', hq', hs', hms, hcols, hfmts, hfirst⟩ :=
      next_first_described rd hq hc (PgConnection.run_ok hpre (hs.trans (List.append_assoc _ _ _)) hrun) hmiss hd
    have hrows := @nextAll_rowPhase rd ds ctx' e hq' hs' (hms ▸ h) env envs hlen
    rw [hcols, hfmts] at hrows
    rwa [nextAll_congr rd (hfirst.trans (next_of_connection rd _ _ hq' hs').symm)]
  · rintro acks m rest hmiss hacks hs hack hnd hrd hcc
    obtain ⟨err, hd⟩ := @describe_rejects rd m rest hack hnd hrd
    have hd' : describe rd (acks ++ m :: rest) = (.error err, rest) := by rw [describe_acks rd acks _ hacks, hd]
    rw [next_first_call rd hq (ctx.cursor.source.resolve_ok hc)
      (PgConnection.run_ok hpre (hs.trans (List.append_assoc _ _ _)) hrun)]
    cases statement with
    | some st => simp [describeStatement, getOrDescribe, hd', hmiss st rfl]
    | none => exact ⟨err, by simp [describeStatement, describeUncached, hd']⟩

/-- Two instances. A prepared statement on a connection that still owes the end of the last
    response: `run` drains it, the statement is not cached, and the two rows come with new `Arc`s
    holding the described fields. The same statement cached: no description is read, and the rows
    come with the cached `Arc`s. -/
theorem next_streams_response_witness :
    Streams (nextAll ⟨fun _ => .ok ⟨[⟨some "id", .binary⟩, ⟨some "name", .text⟩]⟩, fun body => .ok ⟨[some body]⟩⟩
        [⟨.ok (), .ok (some ⟨1⟩)⟩, ⟨.ok (), .ok (some ⟨1⟩)⟩, ⟨.ok (), .ok (some ⟨1⟩)⟩]
        ⟨(PgCursor.fromPool ⟨"SELECT id, name FROM t WHERE k = $1", some [1]⟩ 0).1,
          ⟨[.commandComplete, .readyForQuery, .parseComplete, .bindComplete, .rowDescription [], .dataRow [1],
            .bindComplete, .dataRow [2], .commandComplete, .readyForQuery], false, Map.empty, Map.empty⟩, 2⟩).1
      (⟨2, (describeColumns (some ⟨[⟨some "id", .binary⟩, ⟨some "name", .text⟩]⟩)).1⟩,
        ⟨3, (describeColumns (some ⟨[⟨some "id", .binary⟩, ⟨some "name", .text⟩]⟩)).2⟩)
      [⟨[some [1]]⟩, ⟨[some [2]]⟩] (.complete [.readyForQuery]) ∧
    Streams (nextAll ⟨fun _ => .ok ⟨[⟨some "id", .binary⟩, ⟨some "name", .text⟩]⟩, fun body => .ok ⟨[some body]⟩⟩
        [⟨.ok (), .ok (some ⟨1⟩)⟩, ⟨.ok (), .ok (some ⟨1⟩)⟩, ⟨.ok (), .ok (some ⟨1⟩)⟩]
        ⟨(PgCursor.fromPool ⟨"SELECT id, name FROM t WHERE k = $1", some [2]⟩ 4).1,
          ⟨[.bindComplete, .dataRow [3], .dataRow [4], .commandComplete, .readyForQuery], true,
            Map.empty.insert ⟨1⟩ ⟨2, Map.empty.insert "id" 0⟩, Map.empty.insert ⟨1⟩ ⟨3, [.binary, .text]⟩⟩, 6⟩).1
      (⟨2, Map.empty.insert "id" 0⟩, ⟨3, [.binary, .text]⟩) [⟨[some [3]]⟩, ⟨[some [4]]⟩] (.complete [.readyForQuery]) :=
  by
  refine ⟨(next_streams_response _ _ _ rfl _ rfl _ rfl [.commandComplete, .readyForQuery] ?_ _).2.1
      [.parseComplete, .bindComplete] (.rowDescription []) _ _ _ _ (fun _ _ => rfl) (by simp [IsAck]) rfl
      (.rowDescription rfl) (.row rfl (.ack (.inr rfl) (.row rfl (.complete _)))) rfl,
    (next_streams_response _ _ _ rfl _ rfl _ rfl [] ?_ _).1 ⟨1⟩ _ _ _ _ rfl rfl rfl
      (.ack (.inr rfl) (.row rfl (.row rfl (.complete _)))) rfl⟩
  exacts [⟨[.commandComplete], rfl, by simp⟩, rfl]

/-- On the simple path the cursor also accepts acknowledgements and NoData before the rows (the
    path shares `describe`): `[NoData, CommandComplete]` gives `Ok(None)`. -/
theorem simple_path_accepts_noData :
    (next ⟨fun _ => .error .io, fun _ => .error .io⟩ ⟨.ok (), .ok none⟩
      ⟨(PgCursor.fromConnection ⟨"SELECT 1", none⟩ 0).1, ⟨[.noData, .commandComplete], true, Map.empty, Map.empty⟩, 2⟩).1 =
      .ok none := rfl

/-- On the simple path a response that is CommandComplete alone, what a statement returning no
    rows sends, fails in `describe`. -/
theorem simple_path_rejects_commandComplete (ctx : Ctx) (q : Query) (hq : ctx.cursor.query = some q) (env : Env)
    (hc : env.checkout = .ok ()) (hrun : env.run = .ok none) (pre acks rest : List Message)
    (hpre : Drains ctx.conn.isReady pre) (hacks : ∀ m ∈ acks, IsAck m)
    (hs : ctx.conn.stream = pre ++ acks ++ .commandComplete :: rest) :
    (next rd env ctx).1 = .error (.unexpectedMessage "next/describe" .commandComplete) := by
  rw [next_first_call rd hq (ctx.cursor.source.resolve_ok hc)
    (PgConnection.run_ok hpre (hs.trans (List.append_assoc _ _ _)) hrun)]
  have hd : describe rd (acks ++ .commandComplete :: rest) =
      (.error (.unexpectedMessage "next/describe" .commandComplete), rest) := by
    rw [describe_acks rd acks _ hacks]
    rfl
  simp [describeStatement, describeUncached, hd]

/-- The second of two statements that return no rows, on one connection: `run` drains the first
    one's ReadyForQuery, and the second one's CommandComplete fails in `describe`. -/
theorem simple_path_rejects_commandComplete_witness :
    Drains false [.commandComplete, .readyForQuery] ∧ (∀ m ∈ ([] : List Message), IsAck m) ∧
      (next ⟨fun _ => .error .io, fun _ => .error .io⟩ ⟨.ok (), .ok none⟩
        ⟨(PgCursor.fromConnection ⟨"INSERT INTO t VALUES (2)", none⟩ 0).1,
          ⟨[.commandComplete, .readyForQuery, .commandComplete, .readyForQuery], false, Map.empty, Map.empty⟩, 2⟩).1 =
        .error (.unexpectedMessage "next/describe" .commandComplete) :=
  have hpre : Drains false [.commandComplete, .readyForQuery] := ⟨[.commandComplete], rfl, by simp⟩
  ⟨hpre, by simp, simple_path_rejects_commandComplete _ _ _ rfl _ rfl rfl _ [] _ hpre (by simp) rfl⟩

end Responses

/-! ## Later calls -/

section Later

variable (rd : Readers)

@[simp] theorem getOrDescribe_cursor (statement : StatementId) (ctx : Ctx) :
    (getOrDescribe rd statement ctx).2.cursor = ctx.cursor := by
  unfold getOrDescribe
  split
  · rfl
  · split <;> rfl

@[simp] theorem describeUncached_cursor (ctx : Ctx) : (describeUncached rd ctx).2.cursor = ctx.cursor := by
  unfold describeUncached
  split <;> rfl

end Later

/-! ## The statement caches over one call -/

section Caches

variable (rd : Readers)

theorem PgConnection.cached_congr {conn conn' : PgConnection} (h : conn'.caches = conn.caches)
    (st : StatementId) : conn'.cached st = conn.cached st := by
  simp only [PgConnection.caches, Prod.mk.injEq] at h
  simp [PgConnection.cached, h.1, h.2]

/-- `run` reads messages and sets `is_ready`, and touches nothing else of the connection. -/
theorem PgConnection.run_frame (env : Env) (conn : PgConnection) :
    ∃ stream isReady, (conn.run env).2 = { conn with stream, isReady } := by
  unfold PgConnection.run PgConnection.waitUntilReady
  by_cases hr : conn.isReady
  · cases env.run <;> simp only [hr, if_true] <;> exact ⟨_, _, rfl⟩
  · rcases readUntil readyTurn conn.stream with ⟨_ | ⟨⟩, stream⟩
    · exact ⟨stream, conn.isReady, by simp [hr]⟩
    · cases env.run <;> simp only [hr] <;> exact ⟨_, _, rfl⟩

/-- `get_or_describe` leaves the caches as they are, except on a miss whose `describe` returned:
    then it inserts both `Arc`s it returns under the statement. -/
theorem getOrDescribe_caches (statement : StatementId) (ctx : Ctx) :
    (getOrDescribe rd statement ctx).2.conn.caches = ctx.conn.caches ∨
    ctx.conn.cached statement = none ∧ ∃ cs fs, (getOrDescribe rd statement ctx).1 = .ok (cs, fs) ∧
      (getOrDescribe rd statement ctx).2.conn.caches =
        (ctx.conn.cacheStatementColumns.insert statement cs, ctx.conn.cacheStatementFormats.insert statement fs) := by
  unfold getOrDescribe
  cases ctx.conn.cached statement with
  | some pair => exact .inl rfl
  | none =>
    rcases describe rd ctx.conn.stream with ⟨_ | ⟨columns, formats⟩, ms⟩
    · exact .inl rfl
    · exact .inr ⟨rfl, _, _, rfl, rfl⟩

/-- The simple path's describe leaves the caches as they are. -/
theorem describeUncached_caches (ctx : Ctx) : (describeUncached rd ctx).2.conn.caches = ctx.conn.caches := by
  unfold describeUncached
  split <;> rfl

/-- Lines 147-155 leave the caches as they are, except a `get_or_describe` miss whose `describe`
    returned. -/
theorem describeStatement_caches (statement : Option StatementId) (ctx : Ctx) :
    (describeStatement rd statement ctx).2.conn.caches = ctx.conn.caches ∨
    ∃ st cs fs, ctx.conn.cached st = none ∧ (describeStatement rd statement ctx).1 = .ok (cs, fs) ∧
      (describeStatement rd statement ctx).2.conn.caches =
        (ctx.conn.cacheStatementColumns.insert st cs, ctx.conn.cacheStatementFormats.insert st fs) := by
  cases statement with
  | none => exact .inl (describeUncached_caches rd ctx)
  | some st => exact (getOrDescribe_caches rd st ctx).imp_right fun ⟨hmiss, cs, fs, h⟩ => ⟨st, cs, fs, hmiss, h⟩

/-- A call of `next` leaves the statement caches as they are, except when `run` names a statement
    that is not cached and its `describe` returns: then the two `Arc`s the cursor is given are
    inserted under the statement. -/
theorem next_caches (env : Env) (ctx : Ctx) :
    (next rd env ctx).2.conn.caches = ctx.conn.caches ∨
    ∃ st, ctx.conn.cached st = none ∧
      (next rd env ctx).2.conn.caches = (ctx.conn.cacheStatementColumns.insert st (next rd env ctx).2.cursor.columns,
        ctx.conn.cacheStatementFormats.insert st (next rd env ctx).2.cursor.formats) := by
  rcases hres : ctx.cursor.source.resolve env.checkout with e | source
  · exact .inl (by simp [next, hres])
  cases hq : ctx.cursor.query with
  | none => exact .inl (by rw [next_after_query_taken rd env ctx hq, hres]; rfl)
  | some q =>
    obtain ⟨stream, isReady, hconn⟩ := ctx.conn.run_frame env
    rcases hrun : ctx.conn.run env with ⟨_ | statement, conn⟩ <;> rw [hrun] at hconn <;> subst hconn
    · exact .inl (by rw [next_run_fails rd hq hres hrun]; rfl)
    rw [next_first_call rd hq hres hrun]
    have hsplit := describeStatement_caches rd statement
      { ctx with cursor := { ctx.cursor with source, query := none }, conn := { ctx.conn with stream, isReady } }
    rcases hd : describeStatement rd statement
      { ctx with cursor := { ctx.cursor with source, query := none }, conn := { ctx.conn with stream, isReady } }
      with ⟨_ | ⟨columns, formats⟩, ctx'⟩ <;> rw [hd] at hsplit
    · exact hsplit.imp_right fun ⟨_, _, _, _, hok, _⟩ => Except.noConfusion hok
    · exact hsplit.imp_right fun ⟨st, _, _, hmiss, hok, h⟩ => by cases hok; exact ⟨st, hmiss, h⟩

end Caches

end Sqlx.Postgres
