import Tablespace.Session.Call

/-!
# Sessions

A session is a workspace and the calls that are blocked in it. Every
transaction makes one call at a time: while one of its calls is blocked, the
transaction is busy. After every step the blocked calls are settled
(`Blocked.settle`), so that a lock that was given up goes on at once to
those who wait for it.
-/

namespace Tablespace

/-- **A workspace and the calls that are blocked in it.** -/
structure Session where
  /-- The workspace. -/
  workspace : Workspace
  /-- The blocked calls. -/
  blocked : List (Blocked Call)

namespace Session

/-- The session of an engine that nobody has used. -/
def ofEngine (e : Engine) : Session :=
  ⟨.ofEngine e, []⟩

/-- The engine. -/
def engine (s : Session) : Engine :=
  s.workspace.engine

/-- **Whether a transaction has a blocked call.** -/
def isBusy (s : Session) (t : TxnId) : Bool :=
  s.blocked.any fun b => t ∈ b.call.txns s.workspace

/-- Whether a transaction that a cursor takes locks for has a blocked
call. -/
def isCursorBusy (s : Session) (cursor : Nat) : Bool :=
  (((s.workspace.cursors[cursor]?).map Cursor.txns).getD []).any s.isBusy

/-- **Makes a call.** There is no answer if the call is set aside; it is then
known by the ticket. -/
def call (s : Session) (ticket : Nat) (c : Call) (steps : Option Nat := none) :
    Option (Except Halt Answer) × Session :=
  match c.ask s.workspace steps with
  | (.answered a, w) => (some a, { s with workspace := w })
  | (.blocked _ c', w) => (none, ⟨w, s.blocked ++ [⟨ticket, c'⟩]⟩)

/-- How many rounds it can take to settle blocked calls: in each but the
last a call finishes or takes a lock that others held. -/
def rounds (s : Session) : Nat :=
  (s.blocked.length + 1) * (s.engine.locks.count + s.blocked.length + 2)

/-- **Settles the blocked calls**, and gives the answers of those that
finished. -/
def settle (s : Session) : List (Nat × Except Halt Answer) × Session :=
  let r := Blocked.settle (Call.ask · ·) s.rounds s.blocked s.workspace
  (r.answers, ⟨r.state, r.blocked⟩)

/-- A step that no lock can hold up. -/
def onWorkspace {α : Type} (s : Session) (f : Workspace → α × Workspace) : α × Session :=
  let r := f s.workspace
  (r.1, { s with workspace := r.2 })

/-! ## Calls that are looked at before they are made -/

/-- **An insertion into a table of the catalog**, which marks the page as
changed. -/
def insertion (e : Engine) (t : TxnId) (table : TableId) (row : Tuple) : Except Fault Call := do
  let file ← e.catalog.file table
  file.checkLayout row
  return .insert t file row true (file.firstStage e)

/-- **An insertion into a file**, which does not mark the page. -/
def fileInsertion (e : Engine) (t : TxnId) (file : HeapFile) (row : Tuple) : Except Fault Call := do
  file.checkLayout row
  return .insert t file row false (file.firstStage e)

/-- **A deletion from a table of the catalog**, which marks the page as
changed. -/
def deletion (e : Engine) (t : TxnId) (row : Tuple) : Except Fault Call := do
  let record ← row.place
  let file ← e.catalog.file record.page.table
  file.checkTable record.page
  return .delete t row record true

/-- **A deletion from a file**, which does not mark the page. -/
def fileDeletion (t : TxnId) (file : HeapFile) (row : Tuple) : Except Fault Call := do
  let record ← row.place
  file.checkTable record.page
  return .delete t row record false

end Session

end Tablespace
