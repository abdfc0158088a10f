import Tablespace.Proofs.Heap.Trial
import Tablespace.Proofs.Pool.Ending
import Tablespace.Proofs.Session.Deeds

/-!
# Deeds through the pool

A deed is done **through the pool** (`Deed.Pooled`) if it is one of those that the pool
offers: rows are inserted and deleted with the mark, pages are fetched, written back
and thrown out, locks are asked for and given up, transactions end, and tables are
registered and forgotten. Nobody works on a page that he has in hand, and nobody writes
to a file himself.

Such a deed either changes the catalog and nothing else, or it is made of steps and
leaves the catalog alone (`Engine.steps_perform`). An insertion or a deletion that is cut
short is quiet (`Call.insertRow_steps`, `Call.deleteRow_steps`).
-/

namespace Tablespace

namespace Deed

/-- **What the pool offers.** -/
def Pooled : Deed → Prop
  | insert _ _ _ marked _ | delete _ _ _ marked => marked = true
  | handle .. | mark .. | write .. | store .. => False
  | lock .. | release .. | downgrade .. | fetch .. | flushPage .. | flushPages .. | flushAll
  | discard .. | complete .. | register .. | forget => True

/-- Whether the catalog is changed. -/
def Registers : Deed → Prop
  | register .. | forget => True
  | _ => False

/-- **How files grow by a deed**: by an insertion, its own. It leaves no gap if the
insertion knows the pages of its file and the engine keeps them with it. -/
def Appends (e : Engine) : Deed → HeapFile → Volume → Prop
  | insert _ file _ _ stage => file.Appends (stage.Known file e.volume ∧ e.Tends file)
  | _ => fun _ _ => False

/-- **A deed that spares a file**: it registers no rival, and inserts into none. An
insertion into the file knows its pages. -/
def Spares (f : HeapFile) (e : Engine) : Deed → Prop
  | insert _ g _ _ stage => f.Spares g ∧ (g = f → stage.Known f e.volume)
  | register g _ => f.Spares g
  | _ => True

end Deed

namespace Call

open Engine (Quietly Steps Takes)

variable {e : Engine} {t : TxnId} {f : HeapFile} {row : Tuple} {stage : InsertionStage}
  {record : RecordId} {known : Prop} {grow : HeapFile → Volume → Prop}

variable (t row) in
/-- **An insertion**, with the mark, is made of steps. One that is cut short is quiet, and
takes at most one lock, and goes on with what it knows. -/
theorem insertRow_steps (orderly : e.Orderly) (knows : known → stage.Known f e.volume ∧ e.Tends f) :
    match (insertRow t f row true).on (stage, e) with
    | (.ok _, _, e') => Steps (f.Appends known) e e'
    | (.error _, stage', e') => Quietly (f.Appends known) e e'
      ∧ (∃ n, Takes t ⟨f.table, n⟩ e e') ∧ (known → stage'.Known f e'.volume) := by
  have inserts := HeapFile.inserts_insertFrom t row (f.insertionFuel (stage, e)) orderly knows
  rw [← HeapFile.on_insert_none] at inserts
  rw [on_insertRow]
  cases inserted : (f.insert t row).on (stage, e) with | mk outcome state =>
  rw [inserted] at inserts
  obtain ⟨stage', e'⟩ := state
  cases outcome with
  | error halt => exact inserts
  | ok result =>
    obtain ⟨n, e₁, frame, reworked, -⟩ := inserts
    obtain ⟨cache, installed, steps, -⟩ := reworked.install orderly
    dsimp only
    rw [installed]
    exact steps

variable (t row record grow) in
/-- **A deletion**, with the mark, is made of steps, and writes no file. One that is cut
short is quiet, and takes at most the lock of the page. -/
theorem deleteRow_steps (orderly : e.Orderly) :
    match (deleteRow t row record true).on e with
    | (.ok _, e') => Steps grow e e' ∧ e'.volume = e.volume
    | (.error _, e') => Quietly grow e e' ∧ e'.volume = e.volume ∧ Takes t record.page e e' := by
  have deletes := Engine.deletes_deleteAt grow t row orderly record
  rw [on_deleteRow]
  cases deleted : (Engine.deleteAt t row record).on e with | mk outcome e' =>
  rw [deleted] at deletes
  cases outcome with
  | error halt => exact deletes
  | ok q =>
    obtain ⟨e₁, frame, reworked, volume, -⟩ := deletes
    obtain ⟨cache, installed, steps, -⟩ := reworked.install orderly
    dsimp only
    rw [installed]
    exact ⟨steps, volume⟩

end Call

namespace Engine

variable {e : Engine} {f : HeapFile} {deed : Deed} {config : Config} {volume : Volume}
  {catalog : Catalog}

/-- A new pool is in order. -/
theorem orderly_of_start (h : start config volume catalog = .ok e) : e.Orderly := by
  obtain rfl := eq_of_start h
  exact ⟨LockTable.sound_empty, fun p frame there => by simp [frame?] at there,
    fun p frame there => by simp [frame?] at there⟩

/-- **A deed through the pool is made of steps**, unless it changes the catalog. -/
theorem steps_perform (orderly : e.Orderly) (pooled : deed.Pooled) (still : ¬deed.Registers) :
    Steps (deed.Appends e) e (e.perform deed) := by
  cases deed with
  | lock t page mode => exact .single (.quiet (.relock _ orderly.locks.request))
  | release t page => exact .single (.quiet (.relock _ orderly.locks.release))
  | downgrade t page => exact .single (.quiet (.relock _ orderly.locks.downgrade))
  | fetch t page mode => exact Quietly.steps (quietly_fetch _ orderly t page mode)
  | insert t file row mark stage =>
    obtain rfl : mark = true := pooled
    have steps := Call.insertRow_steps t row orderly fun knows : stage.Known file e.volume
      ∧ e.Tends file => knows
    rw [perform]
    cases ran : (Call.insertRow t file row true).on (stage, e) with | mk outcome state =>
    rw [ran] at steps
    obtain ⟨stage', e'⟩ := state
    cases outcome with
    | ok _ => exact steps
    | error halt => exact Quietly.steps steps.1
  | delete t row record mark =>
    obtain rfl : mark = true := pooled
    have steps := Call.deleteRow_steps t row record
      (Deed.Appends e (.delete t row record true)) orderly
    rw [perform]
    cases ran : (Call.deleteRow t row record true).on e with | mk outcome e' =>
    rw [ran] at steps
    cases outcome with
    | ok _ => exact steps.1
    | error halt => exact Quietly.steps steps.1
  | flushPage page => exact steps_flushPage _ orderly page
  | flushPages t => exact steps_forM_writeBack _ orderly _
  | flushAll => exact steps_forM_writeBack _ orderly _
  | discard page => exact .single (.discard page)
  | complete t committed => exact steps_complete _ orderly t committed
  | register | forget => exact absurd trivial still
  | handle | mark | write | store => exact pooled.elim

/-- A deed that changes the catalog changes nothing else. -/
theorem perform_of_registers (registers : deed.Registers) :
    ∃ catalog, e.perform deed = { e with catalog := catalog } := by
  cases deed with
  | register file name => exact ⟨_, rfl⟩
  | forget => exact ⟨_, rfl⟩
  | _ => exact registers.elim

/-- **A deed through the pool leaves an engine in order.** -/
theorem Orderly.perform (orderly : e.Orderly) (pooled : deed.Pooled) :
    (e.perform deed).Orderly := by
  by_cases registers : deed.Registers
  · obtain ⟨catalog, is⟩ := perform_of_registers registers (e := e)
    rw [is]
    exact ⟨orderly.locks, orderly.named, orderly.numbered⟩
  · exact Steps.orderly (steps_perform orderly pooled registers) orderly

/-- **The states that a pool can come to**, whatever tables are registered and forgotten. -/
inductive Pooled : Engine → Prop where
  /-- The pool is new. -/
  | start {config : Config} {volume : Volume} {catalog : Catalog} {e : Engine}
      (h : Engine.start config volume catalog = .ok e) : Pooled e
  /-- Something is done through it. -/
  | perform {e : Engine} (before : Pooled e) (deed : Deed) (pooled : deed.Pooled) :
      Pooled (e.perform deed)

/-- **Every state that a pool can come to is in order.** -/
theorem Pooled.orderly (pooled : e.Pooled) : e.Orderly := by
  induction pooled with
  | start h => exact orderly_of_start h
  | perform _ deed pooled ih => exact ih.perform pooled

/-- A file bears what grows by a deed that spares it. -/
theorem Tends.bears (tends : e.Tends f) (spares : deed.Spares f e) : f.Bears (deed.Appends e) := by
  cases deed with
  | insert t g row marked stage =>
    exact HeapFile.bears_appends spares.1 fun same => ⟨same ▸ spares.2 same, same ▸ tends⟩
  | _ => exact fun _ _ grows => grows.elim

/-- **A file is tended** as long as it is spared. -/
theorem Tends.perform (tends : e.Tends f) (orderly : e.Orderly) (pooled : deed.Pooled)
    (spares : deed.Spares f e) : (e.perform deed).Tends f := by
  by_cases registers : deed.Registers
  · cases deed with
    | register g name =>
      refine ⟨fun entry there => ?_, tends.cached, tends.clean⟩
      rcases Catalog.eq_or_mem_of_mem_add there with rfl | old
      · exact spares
      · exact tends.spared entry old
    | forget => exact ⟨fun entry there => (by cases there), tends.cached, tends.clean⟩
    | _ => exact registers.elim
  · exact tends.steps (tends.bears spares) (steps_perform orderly pooled registers)

/-- Meanwhile it becomes longer by whole pages only. -/
theorem Tends.grown_perform (tends : e.Tends f) (orderly : e.Orderly) (pooled : deed.Pooled)
    (spares : deed.Spares f e) : f.Grown e.volume (e.perform deed).volume := by
  by_cases registers : deed.Registers
  · obtain ⟨catalog, is⟩ := perform_of_registers registers (e := e)
    rw [is]
    exact .refl f _
  · exact tends.grown (tends.bears spares) (steps_perform orderly pooled registers)

/-- **A file that is at hand stays so** as long as it is spared and registered. -/
theorem Hosts.perform (hosts : e.Hosts f) (pooled : deed.Pooled) (spares : deed.Spares f e)
    (file : (e.perform deed).catalog.file f.table = .ok f) : (e.perform deed).Hosts f :=
  ⟨hosts.orderly.perform pooled, hosts.tends.perform hosts.orderly pooled spares, file,
    (hosts.tends.grown_perform hosts.orderly pooled spares).whole hosts.whole⟩

end Engine

end Tablespace
