import Tablespace.Proofs.Session.Deeds

/-!
# A commit that fails

A commit that fails leaves its transaction aborted, but it need not have been
undone. The pages that the transaction has changed are written one after the
other, in the order in which they were touched last, and there is no way back:
when the commit comes to a page whose table is not registered, those before it
have been written and stay written, and only it and those behind it are read
again. So other transactions see a part of what the transaction has done
(`Workspace.CommitFailed`).

The commit is undone exactly if no page that it has written was any different
from the page in its file (`Workspace.CommitFailed.undone`). A transaction that
has changed pages of one table only is always undone, for its commit fails at
the first of them (`Workspace.CommitFailed.undone_of_table`).
-/

namespace Tablespace

namespace Workspace

variable {w w' : Workspace} {home : Catalog} {t : TxnId} {halt : Halt} {s : TxnStatus}

/-- How far a transaction has come that has begun. -/
theorem status_setStatus (begun : t.number - 1 < w.statuses.length) :
    (w.setStatus t s).status t = s := by
  simp [status, setStatus, begun]

/-- **What a commit comes to that fails.** -/
structure CommitFailed (home : Catalog) (t : TxnId) (w : Workspace) (halt : Halt)
    (w' : Workspace) : Prop where
  /-- The transaction is aborted. -/
  status : w'.status t = .aborted
  /-- The pages that it has changed are those that are written, the one to blame,
  whose table is not registered, and those behind it. -/
  blamed : ∃ first later, w.engine.dirtied t = w.engine.writes t true ++ first :: later
    ∧ w.engine.registered first = false ∧ halt = .fault (.tableNotFound first.table)
  /-- The pages that are written are in their files as the transaction has
  changed them. -/
  written : ∀ p ∈ w.engine.writes t true, ∃ frame, w.engine.frame? p = some frame
    ∧ frame.page.dirtier = some t ∧ home.readPage w'.engine.volume p = .ok frame.cleaned.page
  /-- All other pages are in their files as they were. -/
  kept : ∀ p, p ∉ w.engine.writes t true →
    home.readPage w'.engine.volume p = home.readPage w.engine.volume p
  /-- It is undone exactly if the pages that are written were no different from
  those in their files. -/
  undone : (∀ p, w.engine.DirtyFor t p →
      home.readPage w'.engine.volume p = home.readPage w.engine.volume p)
    ↔ ∀ p ∈ w.engine.writes t true, ∀ frame, w.engine.frame? p = some frame →
      home.readPage w.engine.volume p = .ok frame.cleaned.page

/-- **A commit that fails is undone if only one table was changed**: no page is
written. -/
theorem CommitFailed.undone_of_table (failed : CommitFailed home t w halt w') {table : TableId}
    (one : ∀ p, w.engine.DirtyFor t p → p.table = table) (p : PageId) :
    home.readPage w'.engine.volume p = home.readPage w.engine.volume p := by
  obtain ⟨first, later, split, lost, -⟩ := failed.blamed
  have mine : w.engine.DirtyFor t first :=
    Engine.mem_dirtied.1 (split ▸ List.mem_append_right _ List.mem_cons_self)
  refine failed.kept p fun h => ?_
  -- a page that is written has a table that is registered, and it is that of the first
  have known : w.engine.registered p = true := List.mem_takeWhile_imp h
  have same : p.table = first.table :=
    (one p (Engine.dirtyFor_of_mem_writes h)).trans (one first mine).symm
  rw [Engine.registered, same, ← Engine.registered, lost] at known
  cases known

/-- **A commit that fails** leaves the transaction aborted, and what it had
written before stays written. -/
theorem commit_failed (reachable : w.engine.Reachable home) (apart : home.Apart)
    (active : w.statuses[t.number - 1]? = some .active) (h : w.commit t = (.error halt, w')) :
    CommitFailed home t w halt w' := by
  obtain ⟨e', done, finished⟩ := (reachable.anchored apart).commit t
  have begun : t.number - 1 < w.statuses.length := (List.getElem?_eq_some_iff.1 active).1
  have status : w.status t = .active := by rw [Workspace.status, active]; rfl
  rw [Workspace.commit, status] at h
  dsimp only at h
  rw [onEngine, done] at h
  cases blamed : w.engine.blame (w.engine.dirtied t) with
  | ok _ => rw [blamed] at h; cases h
  | error cause =>
    obtain ⟨first, later, split, lost, rfl⟩ := Engine.blame_eq_error blamed
    rw [blamed] at h
    cases h
    have written : ∀ p ∈ w.engine.writes t true, ∀ frame, w.engine.frame? p = some frame →
        home.readPage e'.volume p = .ok frame.cleaned.page := fun p hp frame there =>
      (finished.stored p hp frame there).2
    exact
      { status := status_setStatus begun
        blamed := ⟨first, later, split, lost, rfl⟩
        written := fun p hp => by
          obtain ⟨frame, there, dirtier⟩ := Engine.dirtyFor_of_mem_writes hp
          exact ⟨frame, there, dirtier, written p hp frame there⟩
        kept := finished.unwritten
        undone := by
          refine ⟨fun same p hp frame there => ?_, fun same p mine => ?_⟩
          · rw [← same p (Engine.dirtyFor_of_mem_writes hp)]
            exact written p hp frame there
          · by_cases hp : p ∈ w.engine.writes t true
            · obtain ⟨frame, there, -⟩ := mine
              exact (written p hp frame there).trans (same p hp frame there).symm
            · exact finished.unwritten p hp }

/-- A transaction that has put a row into either of two tables, one of which is
not registered any more. -/
def orphaned : Workspace :=
  ⟨.orphaned, [.active], [], [], []⟩

/-- Its commit fails, and the row that it has put into the other table stays in
the file. -/
theorem commit_failed_orphaned :
    CommitFailed .pair ⟨1⟩ orphaned (.fault (.tableNotFound ⟨2⟩)) (orphaned.commit ⟨1⟩).2
      ∧ (Catalog.pair.readPage orphaned.engine.volume ⟨⟨1⟩, 0⟩).map (·.usedSlots) = .ok []
      ∧ (Catalog.pair.readPage (orphaned.commit ⟨1⟩).2.engine.volume ⟨⟨1⟩, 0⟩).map (·.usedSlots)
        = .ok [0] :=
  ⟨commit_failed Engine.reachable_orphaned Catalog.apart_pair rfl
    (Prod.ext (by decide +kernel) rfl), by decide +kernel, by decide +kernel⟩

end Workspace

end Tablespace
