import Sqlx.Postgres.Future

/-
  Sqlx.Postgres.FutureSafety — what holds in every state the cursors of one connection can reach
  (`Reach`): any number of cursors, their calls and polls in any order, any messages, any outcome
  of `conn.run` and of `describe`, and futures dropped at any await.

  What a poll can do is said once (`pollAt_cases`): it logs nothing and keeps the cursor's query
  and metadata and the statement caches (`Quiet`; every read of `wait_until_ready` is such a
  poll), or it is one step of the query's setup — the take of the query, `run` returning a
  statement to describe, `run` returning a cached statement, or `describe` returning. The invariant (`Inv`, with `CursorInv` for each cursor) follows for
  every reachable state (`reach_inv`).

  Proved:
  - `statement_cache_safe`: the two statement caches have the same keys; a describe for a
    statement is in flight only while the statement is absent; the caches change only when such a
    describe returns, by inserting both entries; an entry is never replaced; a cached statement is
    served without reading a message, with the cached `Arc`s; the simple path neither reads nor
    writes the caches; and the log holds one returned describe of each cached statement and none
    of any other, so every cursor that settled a statement holds the same `Arc`s.
  - `cursor_setup_once`: a cursor runs its query at most once; its column map and format list are
    assigned at most once, after `run` returned and after a describe of the statement returned
    (its own describe on the simple path), and change only by that assignment; every row it
    yields carries its current `Arc`s.
-/

namespace Sqlx.Postgres

/-! ## The log, cursor by cursor -/

/-- The cursor a log entry is about. -/
def Obs.cursor : Obs → Nat
  | .run i _ | .ran i _ | .described i _ | .assign i _ _ | .ret i _ => i

/-- An entry of cursor `i`'s setup: the query run, `run` returned, `describe` returned, the
    metadata assigned. -/
def Obs.isSetupOf (i : Nat) : Obs → Bool
  | .run j _ | .ran j _ | .described j _ | .assign j _ _ => j == i
  | .ret _ _ => false

def Obs.isRunOf (i : Nat) : Obs → Bool
  | .run j _ => j == i
  | _ => false

def Obs.isAssignOf (i : Nat) : Obs → Bool
  | .assign j _ _ => j == i
  | _ => false

/-- A `describe` of the prepared statement `statement` that returned. -/
def Obs.describes (statement : StatementId) : Obs → Bool
  | .described _ (some st) => st == statement
  | _ => false

/-- The row a call of cursor `i` returned. -/
def Obs.rowOf (i : Nat) : Obs → Option PgRow
  | .ret j (.ok (some row)) => if j = i then some row else none
  | _ => none

/-- Cursor `i`'s setup entries, in order. -/
def setup (i : Nat) (log : List Obs) : List Obs := log.filter (Obs.isSetupOf i)

/-- The rows cursor `i` yielded, in order. -/
def rows (i : Nat) (log : List Obs) : List PgRow := log.filterMap (Obs.rowOf i)

/-- `x` is logged before an occurrence of `y`. -/
def Precedes (log : List Obs) (x y : Obs) : Prop := ∃ pre post, log = pre ++ y :: post ∧ x ∈ pre

/-- The setups a cursor can have logged. -/
inductive Setup (i : Nat) : List Obs → Prop
  | pending : Setup i []
  | running (q : Query) : Setup i [.run i q]
  | ran (q : Query) (st : Option StatementId) : Setup i [.run i q, .ran i st]
  /-- The metadata assigned from the statement cache. -/
  | cached (q : Query) (st : StatementId) (columns : Arc (Map String Nat)) (formats : Arc (List TypeFormat)) :
      Setup i [.run i q, .ran i (some st), .assign i columns formats]
  /-- The metadata assigned from what `describe` returned. -/
  | described (q : Query) (st : Option StatementId) (columns : Arc (Map String Nat))
      (formats : Arc (List TypeFormat)) : Setup i [.run i q, .ran i st, .described i st, .assign i columns formats]

@[simp] theorem setup_append (i : Nat) (l l' : List Obs) : setup i (l ++ l') = setup i l ++ setup i l' :=
  List.filter_append l l'

@[simp] theorem rows_append (i : Nat) (l l' : List Obs) : rows i (l ++ l') = rows i l ++ rows i l' :=
  List.filterMap_append l l' _

/-- An entry logged for another cursor is not in cursor `i`'s setup. -/
theorem Obs.isSetupOf_ne {i : Nat} {o : Obs} (h : o.cursor ≠ i) : o.isSetupOf i = false := by
  cases o <;> simp_all [Obs.isSetupOf, Obs.cursor]

/-- An entry logged for another cursor is not a row of cursor `i`. -/
theorem Obs.rowOf_ne {i : Nat} {o : Obs} (h : o.cursor ≠ i) : o.rowOf i = none := by
  rcases o with _ | _ | _ | _ | ⟨j, _ | _ | _⟩ <;> simp_all [Obs.rowOf, Obs.cursor]

@[simp] theorem setup_nil (i : Nat) : setup i [] = [] := rfl

@[simp] theorem rows_nil (i : Nat) : rows i [] = [] := rfl

theorem mem_setup {i : Nat} {o : Obs} {log : List Obs} (h : o.isSetupOf i = true) : o ∈ setup i log ↔ o ∈ log := by
  simp [setup, h]

/-- Nothing of the cursors from `n` on is logged while there are `n` cursors. -/
theorem setup_rows_of_bound {log : List Obs} {n i : Nat} (h : ∀ o ∈ log, o.cursor < n) (hi : n ≤ i) :
    setup i log = [] ∧ rows i log = [] := by
  have hne : ∀ o ∈ log, o.cursor ≠ i := fun o ho => Nat.ne_of_lt (Nat.lt_of_lt_of_le (h o ho) hi)
  exact ⟨List.filter_eq_nil_iff.mpr fun o ho => by simp [Obs.isSetupOf_ne (hne o ho)],
    List.filterMap_eq_nil_iff.mpr fun o ho => Obs.rowOf_ne (hne o ho)⟩

theorem Precedes.append {log : List Obs} {x y : Obs} (h : Precedes log x y) (l : List Obs) :
    Precedes (log ++ l) x y := by
  obtain ⟨pre, post, rfl, hx⟩ := h
  exact ⟨pre, post ++ l, by simp, hx⟩

/-! ## The statement caches -/

/-- `ctx` with the statement caches replaced. -/
def Ctx.withCaches (ctx : Ctx) (columns : Map StatementId (Arc (Map String Nat)))
    (formats : Map StatementId (Arc (List TypeFormat))) : Ctx :=
  { ctx with conn := { ctx.conn with cacheStatementColumns := columns, cacheStatementFormats := formats } }

@[simp] theorem Ctx.withStream_caches (ctx : Ctx) (ms : List Message) :
    (ctx.withStream ms).conn.caches = ctx.conn.caches := rfl

theorem PgConnection.cached_eq_some {conn : PgConnection} {st : StatementId} {cs : Arc (Map String Nat)}
    {fs : Arc (List TypeFormat)} :
    conn.cached st = some (cs, fs) ↔
      conn.cacheStatementColumns.get? st = some cs ∧ conn.cacheStatementFormats.get? st = some fs := by
  unfold PgConnection.cached
  split <;> simp_all

/-- With the keys the same, a statement is uncached exactly when it is absent. -/
theorem PgConnection.cached_eq_none {conn : PgConnection} {st : StatementId}
    (hkeys : conn.cacheStatementColumns.contains st = conn.cacheStatementFormats.contains st) :
    conn.cached st = none ↔ conn.cacheStatementColumns.contains st = false := by
  unfold PgConnection.cached Map.contains at *
  cases h1 : conn.cacheStatementColumns.get? st <;> cases h2 : conn.cacheStatementFormats.get? st <;> simp_all

@[simp] theorem Ctx.withStream_cacheStatementColumns (ctx : Ctx) (ms : List Message) :
    (ctx.withStream ms).conn.cacheStatementColumns = ctx.conn.cacheStatementColumns := rfl

@[simp] theorem Ctx.withStream_cacheStatementFormats (ctx : Ctx) (ms : List Message) :
    (ctx.withStream ms).conn.cacheStatementFormats = ctx.conn.cacheStatementFormats := rfl

@[simp] theorem described_none_conn (description : Option RowDescription) (ctx : Ctx) :
    (described none description ctx).conn = ctx.conn := rfl

@[simp] theorem described_some_cacheStatementColumns (st : StatementId) (description : Option RowDescription)
    (ctx : Ctx) : (described (some st) description ctx).conn.cacheStatementColumns =
      ctx.conn.cacheStatementColumns.insert st ⟨ctx.heap, (describeColumns description).1⟩ := rfl

@[simp] theorem described_some_cacheStatementFormats (st : StatementId) (description : Option RowDescription)
    (ctx : Ctx) : (described (some st) description ctx).conn.cacheStatementFormats =
      ctx.conn.cacheStatementFormats.insert st ⟨ctx.heap + 1, (describeColumns description).2⟩ := rfl

@[simp] theorem Map.contains_insert {κ ν : Type} [DecidableEq κ] (m : Map κ ν) (k : κ) (v : ν) (k' : κ) :
    (m.insert k v).contains k' = (decide (k = k') || m.contains k') := by
  by_cases h : k = k' <;> simp [Map.contains, h]

@[simp] theorem Ctx.withStream_cached (ctx : Ctx) (ms : List Message) (st : StatementId) :
    (ctx.withStream ms).conn.cached st = ctx.conn.cached st := rfl

/-- The cached pairs after a describe of `st` returned. -/
theorem described_cached (st : StatementId) (description : Option RowDescription) (ctx : Ctx) (st' : StatementId) :
    (described (some st) description ctx).conn.cached st' =
      if st = st' then some (⟨ctx.heap, (describeColumns description).1⟩, ⟨ctx.heap + 1, (describeColumns description).2⟩)
      else ctx.conn.cached st' := by
  by_cases e : st = st' <;> simp [PgConnection.cached, e]

/-! ## What one poll does -/

/-- A poll that logs nothing: the cursor's query and metadata and the statement caches stay; it
    waits at the same await, at a read with the query taken, or at the flush once the drain has
    read the ReadyForQuery; a row it returns is read in the steady-state loop and carries the
    cursor's `Arc`s. -/
structure Quiet (a : Await) (ctx : Ctx) (r : Progress × Ctx × List Effect) : Prop where
  effects : r.2.2 = []
  query : r.2.1.cursor.query = ctx.cursor.query
  columns : r.2.1.cursor.columns = ctx.cursor.columns
  formats : r.2.1.cursor.formats = ctx.cursor.formats
  caches : r.2.1.conn.caches = ctx.conn.caches
  waits : ∀ a', r.1 = .wait a' → a' = a ∨ (a' = .read ∧ ctx.cursor.query = none) ∨ (a = .drain ∧ a' = .run)
  row : ∀ row, r.1 = .ret (.ok (some row)) →
    a = .read ∧ row.columns = ctx.cursor.columns ∧ row.formats = ctx.cursor.formats

section Poll

variable (rd : Readers) (env : Env)

/-- Everything a poll can do: log nothing (`Quiet`, every poll of the drain among them), take the
    query, see `run` return a statement to describe, see it return a cached statement, or see
    `describe` return. -/
theorem pollAt_cases (a : Await) (ctx : Ctx) :
    Quiet a ctx (pollAt rd env a ctx) ∨
    (∃ q source, a = .resolve ∧ ctx.cursor.query = some q ∧
      pollAt rd env a ctx = (.wait (if ctx.conn.isReady then .run else .drain),
        { ctx with cursor := { ctx.cursor with source, query := none } }, [.run q])) ∨
    (∃ st, a = .run ∧ (∀ st', st = some st' → ctx.conn.cached st' = none) ∧
      pollAt rd env a ctx = (.wait (.describe st), ctx.withReady false, [.ran st])) ∨
    (∃ st cs fs, a = .run ∧ ctx.conn.cached st = some (cs, fs) ∧
      pollAt rd env a ctx = (.wait .read, { ctx.withReady false with cursor := { ctx.cursor with columns := cs, formats := fs } },
        [.ran (some st), .assign cs fs])) ∨
    (∃ st m ms d, a = .describe st ∧ ctx.conn.stream = m :: ms ∧ describeTurn rd m = .stop d ∧
      pollAt rd env a ctx = (.wait .read, described st d (ctx.withStream ms),
        [.described st, .assign ⟨ctx.heap, (describeColumns d).1⟩ ⟨ctx.heap + 1, (describeColumns d).2⟩])) := by
  cases a with
  | resolve =>
    cases hr : ctx.cursor.source.resolve env.checkout with
    | error e => exact .inl (by constructor <;> simp [pollAt, hr])
    | ok source =>
      cases hq : ctx.cursor.query with
      | some q => exact .inr (.inl ⟨q, source, rfl, rfl, by simp [pollAt, hr, hq]⟩)
      | none => exact .inl (by constructor <;> simp [pollAt, hr, hq])
  | drain =>
    cases hs : ctx.conn.stream with
    | nil => exact .inl (by constructor <;> simp [pollAt, hs])
    | cons m ms => cases ht : readyTurn m <;> exact .inl (by constructor <;> simp [pollAt, hs, ht])
  | run =>
    cases hrun : env.run with
    | error e => exact .inl (by constructor <;> simp [pollAt, hrun])
    | ok st =>
      cases st with
      | none => exact .inr (.inr (.inl ⟨none, rfl, by simp, by simp [pollAt, hrun]⟩))
      | some st =>
        cases hc : ctx.conn.cached st with
        | none => exact .inr (.inr (.inl ⟨some st, rfl, by simpa using hc, by simp [pollAt, hrun, hc]⟩))
        | some pair => exact .inr (.inr (.inr (.inl ⟨st, pair.1, pair.2, rfl, hc, by simp [pollAt, hrun, hc]⟩)))
  | describe st =>
    cases hs : ctx.conn.stream with
    | nil => exact .inl (by constructor <;> simp [pollAt, hs])
    | cons m ms =>
      cases ht : describeTurn rd m with
      | skip => exact .inl (by constructor <;> simp [pollAt, hs, ht])
      | fail e => exact .inl (by constructor <;> simp [pollAt, hs, ht])
      | stop d => exact .inr (.inr (.inr (.inr ⟨st, m, ms, d, rfl, rfl, ht, by simp [pollAt, hs, ht]⟩)))
  | read =>
    cases hs : ctx.conn.stream with
    | nil => exact .inl (by constructor <;> simp [pollAt, hs])
    | cons m ms =>
      cases ht : nextTurn rd m with
      | skip => exact .inl (by constructor <;> simp [pollAt, hs, ht])
      | fail e => exact .inl (by constructor <;> simp [pollAt, hs, ht])
      | stop data => exact .inl (by constructor <;> simp [pollAt, hs, ht])

end Poll

/-! ## The invariant -/

/-- What holds of cursor `i`, currently `c`, in `s`. -/
structure CursorInv (s : Sys) (i : Nat) (c : PgCursor) : Prop where
  shape : Setup i (setup i s.log)
  /-- While the query is pending, nothing of its setup and no row is logged. -/
  pending : ∀ q, c.query = some q → setup i s.log = [] ∧ rows i s.log = []
  /-- A future of the cursor past its resolve has taken the query. -/
  taken : ∀ a, s.fut = some (i, a) → a ≠ .resolve → c.query = none
  /-- Inside `conn.run`, only the run is logged. -/
  atRun : ∀ a, s.fut = some (i, a) → (a = .drain ∨ a = .run) → (∃ q, setup i s.log = [.run i q]) ∧ rows i s.log = []
  atDescribe : ∀ st, s.fut = some (i, .describe st) → (∃ q, setup i s.log = [.run i q, .ran i st]) ∧ rows i s.log = []
  /-- The cursor holds the metadata assigned to it. -/
  assigned : ∀ cs fs, .assign i cs fs ∈ setup i s.log → c.columns = cs ∧ c.formats = fs
  /-- Every row yielded carries the cursor's current `Arc`s. -/
  current : ∀ row ∈ rows i s.log, row.columns = c.columns ∧ row.formats = c.formats
  /-- Metadata settled for a prepared statement is the cached pair. -/
  settled : ∀ st cs fs, .ran i (some st) ∈ setup i s.log → .assign i cs fs ∈ setup i s.log →
    s.conn.cached st = some (cs, fs)

structure Inv (s : Sys) : Prop where
  sameKeys : ∀ st, s.conn.cacheStatementColumns.contains st = s.conn.cacheStatementFormats.contains st
  /-- A describe for a prepared statement is in flight only while the statement is absent. -/
  describing : ∀ i st, s.fut = some (i, .describe (some st)) → s.conn.cacheStatementColumns.contains st = false
  describedOnce : ∀ st, s.log.countP (Obs.describes st) = (s.conn.cacheStatementColumns.contains st).toNat
  logBound : ∀ o ∈ s.log, o.cursor < s.cursors.length
  futBound : ∀ i a, s.fut = some (i, a) → i < s.cursors.length
  /-- An assignment follows `run` and a describe of its statement, by the cursor itself on the
      simple path. -/
  assignOrdered : ∀ i cs fs, .assign i cs fs ∈ s.log →
    ∃ st, Precedes s.log (.ran i st) (.assign i cs fs) ∧
      ∃ j, Precedes s.log (.described j st) (.assign i cs fs) ∧ (st = none → j = i)
  cursor : ∀ i c, s.cursors[i]? = some c → CursorInv s i c

/-- A step that logs nothing of cursor `i`, keeps its query and metadata and the cached pairs,
    and moves none of its futures on except past a resolve to a read of a taken query, keeps the
    cursor's invariant. -/
theorem CursorInv.frame {s s' : Sys} {i : Nat} {c x : PgCursor} (h : CursorInv s i c)
    (hquery : x.query = c.query) (hcols : x.columns = c.columns) (hfmts : x.formats = c.formats)
    (hsetup : setup i s'.log = setup i s.log) (hrows : rows i s'.log = rows i s.log)
    (hfut : ∀ a, s'.fut = some (i, a) → s.fut = some (i, a) ∨ a = .resolve ∨ (a = .read ∧ c.query = none) ∨
      (a = .run ∧ s.fut = some (i, .drain)))
    (hcached : ∀ st p, s.conn.cached st = some p → s'.conn.cached st = some p) : CursorInv s' i x := by
  refine ⟨?_, fun q hq => ?_, fun a hf ha => ?_, fun a hf ha => ?_, fun st hf => ?_, fun cs fs ha => ?_,
    fun row hr => ?_, fun st cs fs hr ha => hcached _ _ ?_⟩ <;> simp only [hsetup, hrows, hquery, hcols, hfmts] at *
  · exact h.shape
  · exact h.pending q hq
  · rcases hfut a hf with hf | rfl | ⟨-, hn⟩ | ⟨-, hd⟩
    · exact h.taken a hf ha
    · exact absurd rfl ha
    · exact hn
    · exact h.taken _ hd nofun
  · rcases hfut a hf with hf | rfl | ⟨rfl, -⟩ | ⟨-, hd⟩
    · exact h.atRun a hf ha
    · simp at ha
    · simp at ha
    · exact h.atRun _ hd (.inl rfl)
  · exact h.atDescribe st ((hfut _ hf).resolve_right (by simp))
  · exact h.assigned cs fs ha
  · exact h.current row hr
  · exact h.settled st cs fs hr ha

/-- A cursor of which nothing is logged and no future is in flight. -/
theorem CursorInv.fresh {s : Sys} {i : Nat} {c : PgCursor} (hs : setup i s.log = []) (hr : rows i s.log = [])
    (hf : ∀ a, s.fut ≠ some (i, a)) : CursorInv s i c := by
  refine ⟨hs ▸ .pending, fun _ _ => ⟨hs, hr⟩, fun a h => absurd h (hf a), fun a h => absurd h (hf a),
    fun st h => absurd h (hf _), ?_, ?_, ?_⟩ <;> simp [hs, hr]

theorem Inv.described_of_contains {s : Sys} (h : Inv s) {st : StatementId}
    (hc : s.conn.cacheStatementColumns.contains st = true) : ∃ j, .described j (some st) ∈ s.log := by
  have : 0 < s.log.countP (Obs.describes st) := by simp [h.describedOnce st, hc]
  obtain ⟨o, ho, hd⟩ := List.countP_pos_iff.mp this
  rcases o with _ | _ | ⟨j, _ | st'⟩ | _ | _ <;> simp_all [Obs.describes]
  exact ⟨j, ho⟩

section Steps

variable (rd : Readers)

theorem inv_init (stream : List Message) : Inv (Sys.init stream) :=
  ⟨fun _ => rfl, fun _ _ h => (nomatch h), fun _ => by simp [Sys.init, Map.contains], fun _ h => (nomatch h),
    fun _ _ h => (nomatch h), fun _ _ _ h => (nomatch h), fun _ _ h => (nomatch h)⟩

theorem inv_open {s : Sys} (h : Inv s) (source : ConnectionSource) (query : Query) :
    Inv (step rd s (.open source query)) := by
  simp only [step, PgCursor.new]
  refine ⟨h.sameKeys, h.describing, h.describedOnce, fun o ho => ?_, fun i a hf => ?_, h.assignOrdered,
    fun i c hc => ?_⟩
  · simpa using Nat.lt_succ_of_lt (h.logBound o ho)
  · simpa using Nat.lt_succ_of_lt (h.futBound i a hf)
  · rcases Nat.lt_or_ge i s.cursors.length with hi | hi
    · rw [List.getElem?_append_left hi] at hc
      exact (h.cursor i c hc).frame rfl rfl rfl rfl rfl (fun a hf => .inl hf) (fun _ _ => id)
    · obtain ⟨hs, hr⟩ := setup_rows_of_bound h.logBound hi
      exact .fresh hs hr fun a hf => absurd (h.futBound i a hf) (Nat.not_lt.mpr hi)

theorem inv_call {s : Sys} (h : Inv s) (i : Nat) : Inv (step rd s (.call i)) := by
  simp only [step]
  split
  · rename_i hc
    refine ⟨h.sameKeys, fun j st hf => by simp at hf, h.describedOnce, h.logBound, fun j a hf => ?_, h.assignOrdered,
      fun j c hj => (h.cursor j c hj).frame rfl rfl rfl rfl rfl (fun a hf => .inr (.inl ?_)) (fun _ _ => id)⟩
    · simp only [Option.some.injEq, Prod.mk.injEq] at hf
      exact hf.1 ▸ hc.2
    · simp only [Option.some.injEq, Prod.mk.injEq] at hf
      exact hf.2.symm
  · exact h

theorem inv_drop {s : Sys} (h : Inv s) : Inv (step rd s .drop) :=
  ⟨h.sameKeys, fun _ _ h => (nomatch h), h.describedOnce, h.logBound, fun _ _ h => (nomatch h), h.assignOrdered,
    fun j c hj => (h.cursor j c hj).frame rfl rfl rfl rfl rfl (fun _ h => (nomatch h)) (fun _ _ => id)⟩

end Steps

/-! ## A poll keeps the invariant -/

theorem Progress.after_eq {p : Progress} {i j : Nat} {a : Await} (h : p.after i = some (j, a)) :
    j = i ∧ p = .wait a := by
  cases p <;> simp_all [Progress.after]

theorem Effect.about_cursor (i : Nat) (e : Effect) : (e.about i).cursor = i := by
  cases e <;> rfl

@[simp] theorem setup_about_self (i : Nat) (effects : List Effect) :
    setup i (effects.map (Effect.about i)) = effects.map (Effect.about i) :=
  List.filter_eq_self.mpr fun o ho => by
    obtain ⟨e, -, rfl⟩ := List.mem_map.mp ho
    cases e <;> simp [Effect.about, Obs.isSetupOf]

theorem setup_about_ne {i j : Nat} (h : j ≠ i) (effects : List Effect) : setup j (effects.map (Effect.about i)) = [] :=
  List.filter_eq_nil_iff.mpr fun o ho => by
    obtain ⟨e, -, rfl⟩ := List.mem_map.mp ho
    cases e <;> simp [Effect.about, Obs.isSetupOf, Ne.symm h]

@[simp] theorem rows_about (i j : Nat) (effects : List Effect) : rows j (effects.map (Effect.about i)) = [] :=
  List.filterMap_eq_nil_iff.mpr fun o ho => by
    obtain ⟨e, -, rfl⟩ := List.mem_map.mp ho
    cases e <;> rfl

@[simp] theorem setup_logged (i j : Nat) (p : Progress) : setup j (p.logged i) = [] := by
  cases p <;> rfl

/-- What a poll of cursor `i` adds to `i`'s setup: its effects. -/
theorem setup_after (i : Nat) (log : List Obs) (effects : List Effect) (p : Progress) :
    setup i (log ++ effects.map (Effect.about i) ++ p.logged i) = setup i log ++ effects.map (Effect.about i) := by
  simp

theorem rows_after_wait (i : Nat) (log : List Obs) (effects : List Effect) (a : Await) :
    rows i (log ++ effects.map (Effect.about i) ++ (Progress.wait a).logged i) = rows i log := by
  simp [Progress.logged]

theorem rows_logged_ne {i j : Nat} (h : j ≠ i) (p : Progress) : rows j (p.logged i) = [] := by
  rcases p with a | (e | _ | row) <;> simp [Progress.logged, rows, Obs.rowOf, Ne.symm h]

section Polls

variable (rd : Readers)

theorem pollSys_eq {env : Env} {s : Sys} {i : Nat} {a : Await} {c : PgCursor} {p : Progress} {ctx : Ctx}
    {effects : List Effect} (he : pollAt rd env a ⟨c, s.conn, s.heap⟩ = (p, ctx, effects)) :
    pollSys rd env s i a c =
      ⟨ctx.conn, ctx.heap, s.cursors.set i ctx.cursor, p.after i, s.log ++ effects.map (Effect.about i) ++ p.logged i⟩ := by
  simp only [pollSys, he]

theorem pollSys_cursors (env : Env) (s : Sys) (i : Nat) (a : Await) (c : PgCursor) :
    (pollSys rd env s i a c).cursors = s.cursors.set i (pollAt rd env a ⟨c, s.conn, s.heap⟩).2.1.cursor := rfl

end Polls

/-- After a poll of cursor `i` that moved to the state `⟨conn, heap, _, _, _⟩`, the invariant holds
    once the caches, the describes logged, the assignments logged and cursor `i` are accounted for:
    the other cursors and the bounds follow. -/
theorem Inv.after {s : Sys} (h : Inv s) {i : Nat} (hi : i < s.cursors.length) {x : PgCursor}
    {conn : PgConnection} {heap : Nat} {p : Progress} {effects : List Effect}
    (hkeys : ∀ st, conn.cacheStatementColumns.contains st = conn.cacheStatementFormats.contains st)
    (hdesc : ∀ j st, p.after i = some (j, .describe (some st)) → conn.cacheStatementColumns.contains st = false)
    (honce : ∀ st, (effects.map (Effect.about i)).countP (Obs.describes st) +
      s.log.countP (Obs.describes st) = (conn.cacheStatementColumns.contains st).toNat)
    (hassign : ∀ j cs fs, .assign j cs fs ∈ effects.map (Effect.about i) →
      ∃ st, Precedes (s.log ++ effects.map (Effect.about i)) (.ran j st) (.assign j cs fs) ∧
        ∃ k, Precedes (s.log ++ effects.map (Effect.about i)) (.described k st) (.assign j cs fs) ∧ (st = none → k = j))
    (hcached : ∀ st q, s.conn.cached st = some q → conn.cached st = some q)
    (hcur : CursorInv ⟨conn, heap, s.cursors.set i x, p.after i, s.log ++ effects.map (Effect.about i) ++ p.logged i⟩ i x) :
    Inv ⟨conn, heap, s.cursors.set i x, p.after i, s.log ++ effects.map (Effect.about i) ++ p.logged i⟩ := by
  refine ⟨hkeys, hdesc, fun st => ?_, fun o ho => ?_, fun j a hp => ?_, fun j cs fs ha => ?_, fun j c' hc' => ?_⟩
  · have : (p.logged i).countP (Obs.describes st) = 0 := by cases p <;> rfl
    have := honce st
    simp only [List.countP_append, this]
    omega
  · rw [List.length_set]
    rcases List.mem_append.mp ho with ho | ho
    · rcases List.mem_append.mp ho with ho | ho
      · exact h.logBound o ho
      · obtain ⟨e, -, rfl⟩ := List.mem_map.mp ho
        rw [Effect.about_cursor]; exact hi
    · cases p <;> simp_all [Progress.logged, Obs.cursor]
  · rw [List.length_set, (Progress.after_eq hp).1]; exact hi
  · have hret : .assign j cs fs ∉ p.logged i := by cases p <;> simp [Progress.logged]
    rcases List.mem_append.mp ha with ha | ha
    · rcases List.mem_append.mp ha with ha | ha
      · obtain ⟨st, h1, k, h2, hk⟩ := h.assignOrdered j cs fs ha
        exact ⟨st, (h1.append _).append _, k, (h2.append _).append _, hk⟩
      · obtain ⟨st, h1, k, h2, hk⟩ := hassign j cs fs ha
        exact ⟨st, h1.append _, k, h2.append _, hk⟩
    · exact absurd ha hret
  · by_cases hj : j = i
    · subst hj
      rw [List.getElem?_set_self hi] at hc'
      cases hc'
      exact hcur
    · rw [List.getElem?_set_ne (Ne.symm hj)] at hc'
      refine (h.cursor j c' hc').frame rfl rfl rfl ?_ ?_ (fun a hf => absurd (Progress.after_eq hf).1 hj) hcached
      · simp [setup_about_ne hj]
      · simp [rows_logged_ne hj]

/-- Cursor `i`'s invariant after a step of its setup, which takes its query or already found it
    taken, and waits at `a'`. -/
theorem CursorInv.advance {s : Sys} {i : Nat} {x : PgCursor} {a' : Await} (hfut : s.fut = some (i, a'))
    (hq : x.query = none) (hrows : rows i s.log = []) (hshape : Setup i (setup i s.log))
    (hrun : a' = .drain ∨ a' = .run → ∃ q, setup i s.log = [.run i q])
    (hdesc : ∀ st, a' = .describe st → ∃ q, setup i s.log = [.run i q, .ran i st])
    (hassigned : ∀ cs fs, .assign i cs fs ∈ setup i s.log → x.columns = cs ∧ x.formats = fs)
    (hsettled : ∀ st cs fs, .ran i (some st) ∈ setup i s.log → .assign i cs fs ∈ setup i s.log →
      s.conn.cached st = some (cs, fs)) : CursorInv s i x := by
  refine ⟨hshape, fun q h => by simp [hq] at h, fun _ _ _ => hq, fun a h ha => ⟨hrun ?_, hrows⟩,
    fun st h => ⟨hdesc st ?_, hrows⟩,
    hassigned, by simp [hrows], hsettled⟩ <;> simp_all

/-- Cursor `i`'s invariant after a quiet poll of its future that returned. -/
theorem CursorInv.quiet_ret {s s' : Sys} {i : Nat} {a : Await} {c x : PgCursor} (h : CursorInv s i c)
    (hf : s.fut = some (i, a)) {o : Except Error (Option PgRow)}
    (hquery : x.query = c.query) (hcols : x.columns = c.columns) (hfmts : x.formats = c.formats)
    (hlog : s'.log = s.log ++ [.ret i o]) (hfut : s'.fut = none)
    (hcached : ∀ st, s'.conn.cached st = s.conn.cached st)
    (hrow : ∀ row, o = .ok (some row) → a = .read ∧ row.columns = c.columns ∧ row.formats = c.formats) :
    CursorInv s' i x := by
  have hsetup : setup i s'.log = setup i s.log := by simp [hlog, setup, Obs.isSetupOf]
  have hnew : ∀ row ∈ rows i [.ret i o], a = .read ∧ row.columns = c.columns ∧ row.formats = c.formats := by
    rcases o with e | _ | row <;> simp [rows, Obs.rowOf, hrow]
  refine ⟨hsetup ▸ h.shape, fun q hq => ?_, fun _ hb => by simp [hfut] at hb, fun _ hb => by simp [hfut] at hb,
    fun _ hb => by simp [hfut] at hb, fun cs fs ha => ?_, fun row hr => ?_, fun st cs fs hr ha => ?_⟩
  · obtain ⟨hs, hr⟩ := h.pending q (hquery ▸ hq)
    refine ⟨hsetup ▸ hs, ?_⟩
    rw [hlog, rows_append, hr, List.nil_append, List.eq_nil_iff_forall_not_mem]
    intro row hrow'
    have := h.taken _ hf (by rw [(hnew row hrow').1]; nofun)
    simp [this, hq] at hquery
  · rw [hcols, hfmts]; exact h.assigned cs fs (hsetup ▸ ha)
  · rw [hcols, hfmts]
    rw [hlog, rows_append] at hr
    rcases List.mem_append.mp hr with hr | hr
    · exact h.current row hr
    · exact (hnew row hr).2
  · rw [hcached]; exact h.settled st cs fs (hsetup ▸ hr) (hsetup ▸ ha)

section PollCases

variable (rd : Readers)

theorem inv_poll_quiet {s : Sys} (h : Inv s) {env : Env} {i : Nat} {a : Await} {c : PgCursor}
    (hf : s.fut = some (i, a)) (hc : s.cursors[i]? = some c)
    (hq : Quiet a ⟨c, s.conn, s.heap⟩ (pollAt rd env a ⟨c, s.conn, s.heap⟩)) : Inv (pollSys rd env s i a c) := by
  have hci := h.cursor i c hc
  rcases he : pollAt rd env a ⟨c, s.conn, s.heap⟩ with ⟨p, ctx, effects⟩
  rw [he] at hq
  obtain ⟨heff, hquery, hcols, hfmts, hcaches, hwaits, hrow⟩ := hq
  simp only at heff hquery hcols hfmts hcaches hwaits hrow
  subst heff
  have hcc : ctx.conn.cacheStatementColumns = s.conn.cacheStatementColumns := congrArg Prod.fst hcaches
  have hfc : ctx.conn.cacheStatementFormats = s.conn.cacheStatementFormats := congrArg Prod.snd hcaches
  have hcached : ∀ st q, s.conn.cached st = some q → ctx.conn.cached st = some q := fun st q hq => by
    rwa [PgConnection.cached_congr hcaches]
  rw [pollSys_eq rd he]
  refine h.after (h.futBound i a hf) (fun st => by rw [hcc, hfc]; exact h.sameKeys st) (fun j st hp => ?_)
    (fun st => by rw [hcc]; simp [h.describedOnce]) (fun _ _ _ h => by simp at h) hcached ?_
  · obtain ⟨-, rfl⟩ := Progress.after_eq hp
    rcases hwaits _ rfl with rfl | ⟨h', -⟩ | ⟨-, h'⟩
    · rw [hcc]; exact h.describing i st hf
    all_goals cases h'
  · cases p with
    | wait a' =>
      refine hci.frame hquery hcols hfmts (by simp [Progress.logged]) (by simp [Progress.logged]) (fun b hb => ?_) hcached
      simp only [Progress.after, Option.some.injEq, Prod.mk.injEq, true_and] at hb
      subst hb
      rcases hwaits _ rfl with rfl | hr | ⟨rfl, rfl⟩
      · exact .inl hf
      · exact .inr (.inr (.inl hr))
      · exact .inr (.inr (.inr ⟨rfl, hf⟩))
    | ret o =>
      exact hci.quiet_ret hf hquery hcols hfmts (show _ = s.log ++ [.ret i o] by simp [Progress.logged]) rfl
        (PgConnection.cached_congr hcaches) (fun row hr => hrow row (by rw [hr]))

theorem inv_poll_take {s : Sys} (h : Inv s) {env : Env} {i : Nat} {c : PgCursor} {q : Query}
    {source : ConnectionSource} (hf : s.fut = some (i, .resolve)) (hc : s.cursors[i]? = some c) (hq : c.query = some q)
    {a' : Await} (ha' : a' = .drain ∨ a' = .run)
    (he : pollAt rd env .resolve ⟨c, s.conn, s.heap⟩ =
      (.wait a', ⟨{ c with source, query := none }, s.conn, s.heap⟩, [.run q])) :
    Inv (pollSys rd env s i .resolve c) := by
  obtain ⟨hs, hr⟩ := (h.cursor i c hc).pending q hq
  rw [pollSys_eq rd he]
  refine h.after (h.futBound i _ hf) h.sameKeys (fun j st hp => ?_)
    (fun st => by simp [Effect.about, Obs.describes, h.describedOnce]) (fun _ _ _ h => by simp [Effect.about] at h)
    (fun _ _ => id) (.advance rfl rfl (by rw [rows_after_wait, hr]) ?_ (fun _ => ⟨q, ?_⟩)
      (fun _ h => by rcases ha' with rfl | rfl <;> cases h) (fun _ _ h => ?_) (fun _ _ _ _ h => ?_))
  · simp only [Progress.after, Option.some.injEq, Prod.mk.injEq] at hp
    rcases ha' with rfl | rfl <;> cases hp.2
  all_goals simp only [setup_after, hs] at *; simp [Effect.about] at *
  exact .running q

theorem inv_poll_ran {s : Sys} (h : Inv s) {env : Env} {i : Nat} {c : PgCursor} {st : Option StatementId}
    (hf : s.fut = some (i, .run)) (hc : s.cursors[i]? = some c) (hmiss : ∀ st', st = some st' → s.conn.cached st' = none)
    (he : pollAt rd env .run ⟨c, s.conn, s.heap⟩ = (.wait (.describe st), ⟨c, { s.conn with isReady := false }, s.heap⟩,
      [.ran st])) :
    Inv (pollSys rd env s i .run c) := by
  have hci := h.cursor i c hc
  obtain ⟨⟨q, hs⟩, hr⟩ := hci.atRun _ hf (.inr rfl)
  rw [pollSys_eq rd he]
  refine h.after (h.futBound i _ hf) h.sameKeys (fun j st' hp => ?_)
    (fun st => by simp [Effect.about, Obs.describes, h.describedOnce]) (fun _ _ _ h => by simp [Effect.about] at h)
    (fun _ _ => id) (.advance rfl (hci.taken _ hf nofun) (by rw [rows_after_wait, hr]) ?_ nofun
      (fun st' h' => ⟨q, ?_⟩) (fun _ _ h => ?_) (fun _ _ _ _ h => ?_))
  · simp only [Progress.after, Option.some.injEq, Prod.mk.injEq, Await.describe.injEq] at hp
    exact (PgConnection.cached_eq_none (h.sameKeys st')).mp (hmiss st' hp.2)
  all_goals simp only [setup_after, hs] at *; simp [Effect.about] at *
  · exact .ran q st
  · cases h'; rfl

theorem inv_poll_hit {s : Sys} (h : Inv s) {env : Env} {i : Nat} {c : PgCursor} {st : StatementId}
    {cs : Arc (Map String Nat)} {fs : Arc (List TypeFormat)}
    (hf : s.fut = some (i, .run)) (hc : s.cursors[i]? = some c) (hhit : s.conn.cached st = some (cs, fs))
    (he : pollAt rd env .run ⟨c, s.conn, s.heap⟩ =
      (.wait .read, ⟨{ c with columns := cs, formats := fs }, { s.conn with isReady := false }, s.heap⟩,
        [.ran (some st), .assign cs fs])) :
    Inv (pollSys rd env s i .run c) := by
  have hci := h.cursor i c hc
  obtain ⟨⟨q, hs⟩, hr⟩ := hci.atRun _ hf (.inr rfl)
  obtain ⟨k, hk⟩ := h.described_of_contains
    (show s.conn.cacheStatementColumns.contains st = true by simp [(PgConnection.cached_eq_some.mp hhit).1])
  rw [pollSys_eq rd he]
  refine h.after (h.futBound i _ hf) h.sameKeys (fun j st' hp => by simp [Progress.after] at hp)
    (fun st => by simp [Effect.about, Obs.describes, h.describedOnce]) (fun j cs' fs' ha => ?_) (fun _ _ => id)
    (.advance rfl (hci.taken _ hf nofun) (by rw [rows_after_wait, hr]) ?_ nofun nofun (fun cs' fs' ha => ?_)
      (fun st' cs' fs' hr' ha => ?_))
  · simp [Effect.about] at ha
    obtain ⟨rfl, rfl, rfl⟩ := ha
    exact ⟨some st, ⟨s.log ++ [.ran j (some st)], [], by simp [Effect.about], by simp⟩,
      k, ⟨s.log ++ [.ran j (some st)], [], by simp [Effect.about], by simp [hk]⟩, nofun⟩
  all_goals simp only [setup_after, hs] at *; simp [Effect.about] at *
  · exact .cached q st cs fs
  · exact ⟨ha.1 ▸ rfl, ha.2 ▸ rfl⟩
  · subst hr'
    obtain ⟨rfl, rfl⟩ := ha
    exact hhit

theorem inv_poll_described {s : Sys} (h : Inv s) {env : Env} {i : Nat} {c : PgCursor} {st : Option StatementId}
    {ms : List Message} {d : Option RowDescription}
    (hf : s.fut = some (i, .describe st)) (hc : s.cursors[i]? = some c)
    (he : pollAt rd env (.describe st) ⟨c, s.conn, s.heap⟩ =
      (.wait .read, described st d (Ctx.withStream ⟨c, s.conn, s.heap⟩ ms),
        [.described st, .assign ⟨s.heap, (describeColumns d).1⟩ ⟨s.heap + 1, (describeColumns d).2⟩])) :
    Inv (pollSys rd env s i (.describe st) c) := by
  have hci := h.cursor i c hc
  obtain ⟨⟨q, hs⟩, hr⟩ := hci.atDescribe st hf
  have hran : .ran i st ∈ s.log := (@mem_setup i _ s.log (by simp [Obs.isSetupOf])).mp (by simp [hs])
  have habs : ∀ st', st = some st' → s.conn.cacheStatementColumns.contains st' = false :=
    fun st' e => h.describing i st' (e ▸ hf)
  rw [pollSys_eq rd he]
  refine h.after (h.futBound i _ hf) (fun k => ?_) (fun j st' hp => by simp [Progress.after] at hp) (fun k => ?_)
    (fun j cs fs ha => ?_) (fun st' p hp => ?_)
    (.advance rfl (by simp [hci.taken _ hf nofun]) (by rw [rows_after_wait, hr]) ?_ nofun nofun (fun cs fs ha => ?_)
      (fun st' cs fs hr' ha => ?_))
  · cases st <;> simp [h.sameKeys k]
  · cases st with
    | none => simp [Effect.about, Obs.describes, h.describedOnce]
    | some st =>
      by_cases e : st = k
      · subst e; simp [Effect.about, Obs.describes, h.describedOnce, habs st rfl]
      · simp [Effect.about, Obs.describes, h.describedOnce, e]
  · simp [Effect.about] at ha
    obtain ⟨rfl, rfl, rfl⟩ := ha
    exact ⟨st, ⟨s.log ++ [.described j st], [], by simp [Effect.about], by simp [hran]⟩,
      j, ⟨s.log ++ [.described j st], [], by simp [Effect.about], by simp⟩, fun _ => rfl⟩
  · cases st with
    | none => simpa using hp
    | some st =>
      have hne : st ≠ st' := by
        rintro rfl
        have := habs st rfl
        simp [Map.contains, (PgConnection.cached_eq_some.mp hp).1] at this
      simpa [described_cached, hne] using hp
  · rw [setup_after, hs]; exact .described q st _ _
  · rw [setup_after, hs] at ha
    simp [Effect.about] at ha
    simp [ha.1, ha.2]
  · rw [setup_after, hs] at hr' ha
    simp [Effect.about] at hr' ha
    subst hr'
    simp [described_cached, ha.1, ha.2]

/-- A poll keeps the invariant. -/
theorem inv_poll {s : Sys} (h : Inv s) {env : Env} {i : Nat} {a : Await} {c : PgCursor}
    (hf : s.fut = some (i, a)) (hc : s.cursors[i]? = some c) : Inv (pollSys rd env s i a c) := by
  rcases pollAt_cases rd env a ⟨c, s.conn, s.heap⟩ with hq | ⟨q, source, rfl, hq, he⟩ | ⟨st, rfl, hmiss, he⟩ |
    ⟨st, cs, fs, rfl, hhit, he⟩ | ⟨st, m, ms, d, rfl, -, -, he⟩
  · exact inv_poll_quiet rd h hf hc hq
  · exact inv_poll_take rd h hf hc hq (by cases s.conn.isReady <;> simp) he
  · exact inv_poll_ran rd h hf hc hmiss he
  · exact inv_poll_hit rd h hf hc hhit he
  · exact inv_poll_described rd h hf hc he

theorem inv_step {s : Sys} (h : Inv s) : ∀ e, Inv (step rd s e)
  | .open source query => inv_open rd h source query
  | .call i => inv_call rd h i
  | .poll env => by
    rcases hf : s.fut with _ | ⟨i, a⟩
    · simpa [step, hf] using h
    · rcases hc : s.cursors[i]? with _ | c
      · simpa [step, hf, hc] using h
      · simp only [step, hf, hc]
        exact inv_poll rd h hf hc
  | .drop => inv_drop rd h

/-- The invariant holds in every reachable state. -/
theorem reach_inv {s : Sys} (hs : Reach rd s) : Inv s := by
  induction hs with
  | init stream => exact inv_init stream
  | step e _ ih => exact inv_step rd ih e

end PollCases

/-! ## What a step does to the caches and to a cursor's metadata -/

section StepFacts

variable (rd : Readers)

/-- The caches change only when a describe of a prepared statement returns, by inserting both
    entries. -/
theorem step_caches (s : Sys) (e : Ev) :
    (step rd s e).conn.caches = s.conn.caches ∨
    ∃ env i st m ms d, e = .poll env ∧ s.fut = some (i, .describe (some st)) ∧ s.conn.stream = m :: ms ∧
      describeTurn rd m = .stop d ∧
      (step rd s e).conn.caches = (s.conn.cacheStatementColumns.insert st ⟨s.heap, (describeColumns d).1⟩,
        s.conn.cacheStatementFormats.insert st ⟨s.heap + 1, (describeColumns d).2⟩) := by
  match e with
  | .open _ _ => exact .inl rfl
  | .call _ => simp only [step]; split <;> exact .inl rfl
  | .drop => exact .inl rfl
  | .poll env =>
    rcases hf : s.fut with _ | ⟨i, a⟩
    · simp [step, hf]
    rcases hc : s.cursors[i]? with _ | c
    · simp [step, hf, hc]
    simp only [step, hf, hc]
    rcases pollAt_cases rd env a ⟨c, s.conn, s.heap⟩ with hq | ⟨q, source, rfl, -, he⟩ | ⟨st, rfl, -, he⟩ |
      ⟨st, cs, fs, rfl, -, he⟩ | ⟨st, m, ms, d, rfl, hs, ht, he⟩
    · exact .inl hq.caches
    all_goals rw [pollSys_eq rd he]
    · exact .inl rfl
    · exact .inl rfl
    · exact .inl rfl
    · cases st with
      | none => exact .inl (by simp [PgConnection.caches])
      | some st => exact .inr ⟨env, i, st, m, ms, d, rfl, rfl, hs, ht, by simp [PgConnection.caches]⟩

/-- A cached entry is never replaced. -/
theorem step_keeps_entries {s : Sys} (h : Inv s) (e : Ev) (st : StatementId) :
    (∀ cs, s.conn.cacheStatementColumns.get? st = some cs → (step rd s e).conn.cacheStatementColumns.get? st = some cs) ∧
    (∀ fs, s.conn.cacheStatementFormats.get? st = some fs → (step rd s e).conn.cacheStatementFormats.get? st = some fs) := by
  rcases step_caches rd s e with hc | ⟨env, i, st', m, ms, d, -, hf, -, -, hc⟩ <;>
    simp only [PgConnection.caches, Prod.mk.injEq] at hc <;> rw [hc.1, hc.2]
  · exact ⟨fun _ => id, fun _ => id⟩
  · have habs := h.describing i st' hf
    have habs' : s.conn.cacheStatementFormats.contains st' = false := h.sameKeys st' ▸ habs
    refine ⟨fun cs hcs => ?_, fun fs hfs => ?_⟩
    · have hne : st' ≠ st := by rintro rfl; simp [Map.contains, hcs] at habs
      simpa [hne] using hcs
    · have hne : st' ≠ st := by rintro rfl; simp [Map.contains, hfs] at habs'
      simpa [hne] using hfs

/-- On a statement-cache hit the poll of `run` reads no message and leaves the caches alone: it
    clears `is_ready`, assigns the cached `Arc`s and goes on to the steady-state loop. -/
theorem step_poll_cached {s : Sys} {env : Env} {i : Nat} {c : PgCursor} {st : StatementId}
    {cs : Arc (Map String Nat)} {fs : Arc (List TypeFormat)} (hf : s.fut = some (i, .run))
    (hc : s.cursors[i]? = some c) (hrun : env.run = .ok (some st)) (hhit : s.conn.cached st = some (cs, fs)) :
    step rd s (.poll env) = ⟨{ s.conn with isReady := false }, s.heap, s.cursors.set i { c with columns := cs, formats := fs },
      some (i, .read), s.log ++ [.ran i (some st), .assign i cs fs]⟩ := by
  simp [step, hf, hc, pollSys, pollAt, hrun, hhit, Effect.about, Progress.after, Progress.logged, Ctx.withReady]

/-- The simple path's polls neither read nor write the caches: with other caches they do the
    same and leave those caches. -/
theorem pollAt_simple_withCaches (env : Env) (a : Await) (ctx : Ctx) (columns : Map StatementId (Arc (Map String Nat)))
    (formats : Map StatementId (Arc (List TypeFormat))) (ha : a = .describe none ∨ (a = .run ∧ env.run = .ok none)) :
    pollAt rd env a (ctx.withCaches columns formats) =
      ((pollAt rd env a ctx).1, (pollAt rd env a ctx).2.1.withCaches columns formats, (pollAt rd env a ctx).2.2) := by
  rcases ha with rfl | ⟨rfl, hrun⟩
  · have hs : (ctx.withCaches columns formats).conn.stream = ctx.conn.stream := rfl
    cases hs' : ctx.conn.stream with
    | nil => simp only [pollAt, hs, hs']
    | cons m ms => cases ht : describeTurn rd m <;> simp only [pollAt, hs, hs', ht] <;> rfl
  · simp [pollAt, hrun, Ctx.withReady, Ctx.withCaches]

theorem countP_setup {p : Obs → Bool} {i : Nat} (hp : ∀ o, p o = true → o.isSetupOf i = true) (log : List Obs) :
    (setup i log).countP p = log.countP p := by
  rw [setup, List.countP_filter]
  exact List.countP_congr fun o _ => by simp only [Bool.and_eq_true]; exact ⟨And.left, fun h => ⟨h, hp o h⟩⟩

theorem isRunOf_setup {i : Nat} (o : Obs) (h : o.isRunOf i = true) : o.isSetupOf i = true := by
  cases o <;> simp_all [Obs.isRunOf, Obs.isSetupOf]

theorem isAssignOf_setup {i : Nat} (o : Obs) (h : o.isAssignOf i = true) : o.isSetupOf i = true := by
  cases o <;> simp_all [Obs.isAssignOf, Obs.isSetupOf]

theorem Setup.runs_le {i : Nat} {l : List Obs} (h : Setup i l) : l.countP (Obs.isRunOf i) ≤ 1 := by
  cases h <;> simp [Obs.isRunOf]

theorem Setup.assigns_le {i : Nat} {l : List Obs} (h : Setup i l) : l.countP (Obs.isAssignOf i) ≤ 1 := by
  cases h <;> simp [Obs.isAssignOf]

/-- A step changes a cursor's column map and format list only by the assignment of its setup,
    logged in that step, when none was logged before. -/
theorem step_metadata {s : Sys} (h : Inv s) (e : Ev) {i : Nat} {c c' : PgCursor} (hc : s.cursors[i]? = some c)
    (hc' : (step rd s e).cursors[i]? = some c') :
    (c'.columns = c.columns ∧ c'.formats = c.formats) ∨
    (s.log.countP (Obs.isAssignOf i) = 0 ∧ .assign i c'.columns c'.formats ∈ (step rd s e).log) := by
  have hsame : (step rd s e).cursors[i]? = s.cursors[i]? → (c'.columns = c.columns ∧ c'.formats = c.formats) :=
    fun e => by rw [hc', hc] at e; cases e; exact ⟨rfl, rfl⟩
  have hnone : ∀ l, setup i s.log = l → l.countP (Obs.isAssignOf i) = 0 → s.log.countP (Obs.isAssignOf i) = 0 :=
    fun l hl h0 => by rw [← countP_setup isAssignOf_setup, hl, h0]
  match e with
  | .open _ _ =>
    have hi : i < s.cursors.length := (List.getElem?_eq_some_iff.mp hc).1
    exact .inl (hsame (List.getElem?_append_left hi))
  | .call _ => exact .inl (hsame (by simp only [step]; split <;> rfl))
  | .drop => exact .inl (hsame rfl)
  | .poll env =>
    rcases hf : s.fut with _ | ⟨j, a⟩
    · exact .inl (hsame (by simp [step, hf]))
    rcases hcj : s.cursors[j]? with _ | cj
    · exact .inl (hsame (by simp [step, hf, hcj]))
    simp only [step, hf, hcj] at hc' ⊢
    by_cases hj : j = i
    · subst hj
      rw [hc] at hcj
      cases hcj
      have hci := h.cursor j c hc
      rcases pollAt_cases rd env a ⟨c, s.conn, s.heap⟩ with hq | ⟨q, source, rfl, -, he⟩ | ⟨st, rfl, -, he⟩ |
        ⟨st, cs, fs, rfl, -, he⟩ | ⟨st, m, ms, d, rfl, -, -, he⟩
      · rw [pollSys_cursors, List.getElem?_set_self (List.getElem?_eq_some_iff.mp hc).1] at hc'
        cases hc'
        exact .inl ⟨hq.columns, hq.formats⟩
      all_goals rw [pollSys_eq rd he, List.getElem?_set_self (List.getElem?_eq_some_iff.mp hc).1] at hc'
      all_goals cases hc'
      · exact .inl ⟨rfl, rfl⟩
      · exact .inl ⟨rfl, rfl⟩
      · obtain ⟨⟨q, hs⟩, -⟩ := hci.atRun _ hf (.inr rfl)
        exact .inr ⟨hnone _ hs (by simp [Obs.isAssignOf]), by rw [pollSys_eq rd he]; simp [Effect.about]⟩
      · obtain ⟨⟨q, hs⟩, -⟩ := hci.atDescribe st hf
        exact .inr ⟨hnone _ hs (by simp [Obs.isAssignOf]), by rw [pollSys_eq rd he]; simp [Effect.about]⟩
    · exact .inl (hsame (by simp only [step, hf, hcj]; rw [pollSys_cursors, List.getElem?_set_ne hj]))

end StepFacts

/-! ## The statement cache and a cursor's setup, over every run -/

section Safety

variable (rd : Readers)

/-- The statement caches of a connection shared by any number of cursors, whatever the calls,
    the messages, the outcomes of `run` and `describe` and the awaits where futures are dropped:
    (1) both caches have the same statement ids; (2) a describe for a statement reads messages
    only while the statement is in neither cache, and the caches change only when it returns, by
    inserting both entries, so a failed or dropped describe changes nothing; (3) an entry is never
    replaced; (4) a cached statement is served without reading a message, with the cached `Arc`s;
    (5) the simple path neither reads nor writes the caches; and one describe of each cached
    statement has returned (none of any other), so every cursor that settled a prepared statement
    holds the cached `Arc`s. -/
theorem statement_cache_safe {s : Sys} (hs : Reach rd s) :
    (∀ st, s.conn.cacheStatementColumns.contains st = s.conn.cacheStatementFormats.contains st) ∧
    (∀ i st, s.fut = some (i, .describe (some st)) →
      s.conn.cacheStatementColumns.contains st = false ∧ s.conn.cacheStatementFormats.contains st = false) ∧
    (∀ e, (step rd s e).conn.caches = s.conn.caches ∨
      ∃ env i st m ms d, e = .poll env ∧ s.fut = some (i, .describe (some st)) ∧ s.conn.stream = m :: ms ∧
        describeTurn rd m = .stop d ∧
        (step rd s e).conn.caches = (s.conn.cacheStatementColumns.insert st ⟨s.heap, (describeColumns d).1⟩,
          s.conn.cacheStatementFormats.insert st ⟨s.heap + 1, (describeColumns d).2⟩)) ∧
    (∀ e st,
      (∀ cs, s.conn.cacheStatementColumns.get? st = some cs → (step rd s e).conn.cacheStatementColumns.get? st = some cs) ∧
      (∀ fs, s.conn.cacheStatementFormats.get? st = some fs → (step rd s e).conn.cacheStatementFormats.get? st = some fs)) ∧
    (∀ env i c st cs fs, s.fut = some (i, .run) → s.cursors[i]? = some c → env.run = .ok (some st) →
      s.conn.cached st = some (cs, fs) →
      step rd s (.poll env) = ⟨{ s.conn with isReady := false }, s.heap,
        s.cursors.set i { c with columns := cs, formats := fs }, some (i, .read),
        s.log ++ [.ran i (some st), .assign i cs fs]⟩) ∧
    (∀ env a ctx columns formats, (a = .describe none ∨ (a = .run ∧ env.run = .ok none)) →
      pollAt rd env a (ctx.withCaches columns formats) =
        ((pollAt rd env a ctx).1, (pollAt rd env a ctx).2.1.withCaches columns formats, (pollAt rd env a ctx).2.2)) ∧
    (∀ st, s.log.countP (Obs.describes st) = (s.conn.cacheStatementColumns.contains st).toNat) ∧
    (∀ i c st cs fs, s.cursors[i]? = some c → .ran i (some st) ∈ s.log → .assign i cs fs ∈ s.log →
      s.conn.cached st = some (c.columns, c.formats)) := by
  have h := reach_inv rd hs
  refine ⟨h.sameKeys, fun i st hf => ⟨h.describing i st hf, h.sameKeys st ▸ h.describing i st hf⟩, step_caches rd s,
    step_keeps_entries rd h, fun env i c st cs fs hf hc hrun hhit => step_poll_cached rd hf hc hrun hhit,
    fun env a ctx columns formats ha => pollAt_simple_withCaches rd env a ctx columns formats ha, h.describedOnce,
    fun i c st cs fs hc hran ha => ?_⟩
  have hci := h.cursor i c hc
  have hran' := (@mem_setup i _ s.log (by simp [Obs.isSetupOf])).mpr hran
  have ha' := (@mem_setup i _ s.log (by simp [Obs.isSetupOf])).mpr ha
  obtain ⟨rfl, rfl⟩ := hci.assigned cs fs ha'
  exact hci.settled st _ _ hran' ha'

/-- Two cursors on one connection execute the same prepared statement: the second one's `run`
    drains the first response's ReadyForQuery, and there is one describe. -/
theorem statement_cache_safe_witness :
    Reach ⟨fun _ => .error .io, fun _ => .error .io⟩
        ((Sys.init [.noData, .commandComplete, .readyForQuery, .commandComplete, .readyForQuery]).run
          ⟨fun _ => .error .io, fun _ => .error .io⟩
          [.open .pool ⟨"SELECT 1", none⟩, .call 0, .poll ⟨.ok (), .ok (some ⟨1⟩)⟩, .poll ⟨.ok (), .ok (some ⟨1⟩)⟩,
            .poll ⟨.ok (), .ok (some ⟨1⟩)⟩, .poll ⟨.ok (), .ok (some ⟨1⟩)⟩, .open .connection ⟨"SELECT 1", none⟩,
            .call 1, .poll ⟨.ok (), .ok (some ⟨1⟩)⟩, .poll ⟨.ok (), .ok (some ⟨1⟩)⟩, .poll ⟨.ok (), .ok (some ⟨1⟩)⟩,
            .poll ⟨.ok (), .ok (some ⟨1⟩)⟩]) ∧
      ((Sys.init [.noData, .commandComplete, .readyForQuery, .commandComplete, .readyForQuery]).run
          ⟨fun _ => .error .io, fun _ => .error .io⟩
          [.open .pool ⟨"SELECT 1", none⟩, .call 0, .poll ⟨.ok (), .ok (some ⟨1⟩)⟩, .poll ⟨.ok (), .ok (some ⟨1⟩)⟩,
            .poll ⟨.ok (), .ok (some ⟨1⟩)⟩, .poll ⟨.ok (), .ok (some ⟨1⟩)⟩, .open .connection ⟨"SELECT 1", none⟩,
            .call 1, .poll ⟨.ok (), .ok (some ⟨1⟩)⟩, .poll ⟨.ok (), .ok (some ⟨1⟩)⟩, .poll ⟨.ok (), .ok (some ⟨1⟩)⟩,
            .poll ⟨.ok (), .ok (some ⟨1⟩)⟩]).log.countP (Obs.describes ⟨1⟩) = 1 :=
  have h := reach_run _ (.init _) _
  ⟨h, ((statement_cache_safe _ h).2.2.2.2.2.2.1 ⟨1⟩).trans rfl⟩

/-- One cursor over its lifetime, whatever the calls, outcomes and dropped futures: `conn.run` is
    called at most once; the column map and format list are assigned at most once, only after
    `run` returned and a describe of the statement returned (on the simple path, where nothing is
    cached, the cursor's own describe), and the cursor holds what was assigned; a step changes them only by that assignment; every row the cursor yielded carries
    its current `Arc`s, so they have not changed since. -/
theorem cursor_setup_once {s : Sys} (hs : Reach rd s) {i : Nat} {c : PgCursor} (hc : s.cursors[i]? = some c) :
    s.log.countP (Obs.isRunOf i) ≤ 1 ∧
    s.log.countP (Obs.isAssignOf i) ≤ 1 ∧
    (∀ cs fs, .assign i cs fs ∈ s.log → (c.columns = cs ∧ c.formats = fs) ∧
      ∃ st, Precedes s.log (.ran i st) (.assign i cs fs) ∧
        ∃ j, Precedes s.log (.described j st) (.assign i cs fs) ∧ (st = none → j = i)) ∧
    (∀ e c', (step rd s e).cursors[i]? = some c' → (c'.columns = c.columns ∧ c'.formats = c.formats) ∨
      (s.log.countP (Obs.isAssignOf i) = 0 ∧ .assign i c'.columns c'.formats ∈ (step rd s e).log)) ∧
    (∀ row ∈ rows i s.log, row.columns = c.columns ∧ row.formats = c.formats) := by
  have h := reach_inv rd hs
  have hci := h.cursor i c hc
  refine ⟨?_, ?_, fun cs fs ha => ⟨hci.assigned cs fs ((@mem_setup i _ s.log (by simp [Obs.isSetupOf])).mpr ha),
    h.assignOrdered i cs fs ha⟩, fun e c' hc' => step_metadata rd h e hc hc', hci.current⟩
  · rw [← countP_setup isRunOf_setup]; exact hci.shape.runs_le
  · rw [← countP_setup isAssignOf_setup]; exact hci.shape.assigns_le

theorem cursor_setup_once_witness :
    Reach ⟨fun _ => .error .io, fun _ => .error .io⟩
        ((Sys.init [.noData, .commandComplete]).run ⟨fun _ => .error .io, fun _ => .error .io⟩
          [.open .pool ⟨"SELECT 1", none⟩, .call 0, .poll ⟨.ok (), .ok none⟩, .poll ⟨.ok (), .ok none⟩, .drop,
            .call 0, .poll ⟨.ok (), .ok none⟩, .poll ⟨.ok (), .ok none⟩]) ∧
      ((Sys.init [.noData, .commandComplete]).run ⟨fun _ => .error .io, fun _ => .error .io⟩
          [.open .pool ⟨"SELECT 1", none⟩, .call 0, .poll ⟨.ok (), .ok none⟩, .poll ⟨.ok (), .ok none⟩, .drop,
            .call 0, .poll ⟨.ok (), .ok none⟩, .poll ⟨.ok (), .ok none⟩]).cursors[0]? =
        some ⟨.connection, none, ⟨0, Map.empty⟩, ⟨1, []⟩⟩ ∧
      ((Sys.init [.noData, .commandComplete]).run ⟨fun _ => .error .io, fun _ => .error .io⟩
          [.open .pool ⟨"SELECT 1", none⟩, .call 0, .poll ⟨.ok (), .ok none⟩, .poll ⟨.ok (), .ok none⟩, .drop,
            .call 0, .poll ⟨.ok (), .ok none⟩, .poll ⟨.ok (), .ok none⟩]).log.countP (Obs.isRunOf 0) ≤ 1 :=
  have h := reach_run _ (.init _) _
  ⟨h, rfl, (cursor_setup_once _ h rfl).1⟩

end Safety

end Sqlx.Postgres
