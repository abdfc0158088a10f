import Mathlib
import Tablespace.Proofs.Session.Drain

/-!
# Scanning twice

A transaction that drains a scan of a table, and then another one, is to get the
same rows in the same order, whatever others have done in between. It does not
in every run (`Session.drains_agree`).

After the first drain the transaction holds every page that the file counts, and
what they show stays as it is. So the second drain gives the rows of the first,
and behind them those of the pages that have been counted since. Nobody can append
a page who has to look at one of the held pages before: he waits. There are two
ways to append a page without that:

* The file has no page. The drain of an empty file takes no lock at all; others
  append a page to it, fill it and commit, and the second drain finds their rows.
* An insertion is past the pages (`Session.Within`). It has found them full, and
  has given their locks back, but has not yet appended a page when the first drain
  is under way.

If neither is so at the end of the first drain, then both drains agree.

A file is also taken to be empty when it has come to `2 ^ 32` pages and its
page count has wrapped (`HeapFile.Wrapped`). A drain may have given rows of
such a file before, but from then on there are none.
-/

namespace Tablespace

/-- **A file whose pages are counted as none.** -/
def HeapFile.Wrapped (f : HeapFile) (v : Volume) : Prop :=
  f.pageCount v = 0 ∧ f.pages v ≠ 0

/-- The page count tells an empty file from others, if it has not wrapped. -/
theorem HeapFile.wrapped_iff {f : HeapFile} {v : Volume} :
    f.Wrapped v ↔ f.count v % 4294967296 = 0 ∧ f.count v ≠ 0 := by
  have bounds : f.pages v ≤ f.count v ∧ f.count v ≤ f.pages v + 1 := pages_le_count
  have zero : (0 : UInt32).toNat = 0 := rfl
  rw [Wrapped, ← UInt32.toNat_inj, toNat_pageCount, zero]
  omega

namespace Session

variable {s s' : Session} {actions : List Action} {history : List Event} {f : HeapFile}

/-- A file that is counted as empty stays so. -/
theorem Step.wrapped (step : Step s history s') (sound : s.Sound)
    (file : s.engine.catalog.file f.table = .ok f) (wrapped : f.Wrapped s.engine.volume) :
    f.Wrapped s'.engine.volume := by
  have grown := (step.grown sound _ _ file).count_le
  rw [HeapFile.wrapped_iff] at wrapped ⊢
  omega

/-- **Pages are counted in no fewer** after an action, unless the page count
wraps. -/
theorem Step.pageCount_le (step : Step s history s') (sound : s.Sound)
    (file : s.engine.catalog.file f.table = .ok f) (counted : ¬f.Wrapped s'.engine.volume) :
    (f.pageCount s.engine.volume).toNat ≤ (f.pageCount s'.engine.volume).toNat := by
  have grown := (step.grown sound _ _ file).count_le
  rw [HeapFile.wrapped_iff] at counted
  rw [HeapFile.toNat_pageCount, HeapFile.toNat_pageCount]
  omega

/-- A file that is counted as empty stays so, whatever is done. -/
theorem run_wrapped (actions : List Action) (sound : s.Sound)
    (file : s.engine.catalog.file f.table = .ok f) (wrapped : f.Wrapped s.engine.volume) :
    Grows f s actions ∧ f.Wrapped (s.run actions).2.engine.volume := by
  induction actions generalizing s with
  | nil => exact ⟨trivial, wrapped⟩
  | cons a actions ih =>
    obtain ⟨sound', step⟩ := perform_spec sound a
    obtain ⟨grows, wrapped'⟩ :=
      ih sound' (step.catalog sound ▸ file) (step.wrapped sound file wrapped)
    refine ⟨⟨?_, grows⟩, wrapped'⟩
    rw [wrapped.1]
    exact Nat.zero_le _

/-- Pages are counted in no fewer after each action, if they are counted
right at the end. -/
theorem grows_of_counted (sound : s.Sound) (file : s.engine.catalog.file f.table = .ok f)
    (counted : ¬f.Wrapped (s.run actions).2.engine.volume) : Grows f s actions := by
  induction actions generalizing s with
  | nil => trivial
  | cons a actions ih =>
    obtain ⟨sound', step⟩ := perform_spec sound a
    have file' := step.catalog sound ▸ file
    have counted' : ¬f.Wrapped (s.perform a).2.engine.volume := fun wrapped =>
      counted (run_wrapped _ sound' file' wrapped).2
    exact ⟨step.pageCount_le sound file counted', ih sound' file' counted⟩

theorem Grows.le (grows : Grows f s actions) :
    (f.pageCount s.engine.volume).toNat
      ≤ (f.pageCount (s.run actions).2.engine.volume).toNat := by
  induction actions generalizing s with
  | nil => exact Nat.le_refl _
  | cons a actions ih => exact Nat.le_trans grows.1 (ih grows.2)

/-- **Pages that a transaction holds show the same rows after a run**, as long as
they are counted, and are held then. -/
theorem run_held {t : TxnId} {n : Nat} (sound : s.Sound) (quiet : s.Quiet t)
    (reads : ∀ a ∈ actions, a.writer? ≠ some t) (file : s.engine.catalog.file f.table = .ok f)
    (grows : Grows f s actions) (counted : n ≤ (f.pageCount s.engine.volume).toNat)
    (held : ∀ i, i < n → s.engine.locks.mode? t ⟨f.table, UInt32.ofNat i⟩ ≠ none) :
    (s.run actions).2.engine.rowsBefore f.table n = s.engine.rowsBefore f.table n
      ∧ ∀ i, i < n →
        (s.run actions).2.engine.locks.mode? t ⟨f.table, UInt32.ofNat i⟩ ≠ none := by
  induction actions generalizing s with
  | nil => exact ⟨rfl, held⟩
  | cons a actions ih =>
    have performed := performed sound a
    have here := reads a List.mem_cons_self
    obtain ⟨sound', step⟩ := performed.spec sound
    have counted' := Nat.le_trans counted grows.1
    obtain ⟨rows, held'⟩ := ih sound' (performed.quiet_after sound quiet here)
      (fun b hb => reads b (List.mem_cons_of_mem _ hb)) (step.catalog sound ▸ file) grows.2
      counted' fun i hi => performed.held sound quiet here (held i hi)
    exact ⟨rows.trans (performed.rowsBefore_eq sound quiet here file counted' held), held'⟩

/-- **A drain of a file that is counted as empty gives nothing.** -/
theorem Drains.eq_nil_of_wrapped {t : TxnId} {k : Nat} {state : Option ScanPosition}
    {rows : List Tuple} (drains : Drains k s actions rows) (sound : s.Sound) (quiet : s.Quiet t)
    (reads : ∀ a ∈ actions, a.writer? ≠ some t)
    (cursor : s.workspace.cursors[k]? = some (.file ⟨t, f⟩ state))
    (wrapped : f.Wrapped s.engine.volume) : rows = [] := by
  obtain ⟨scan, state', same, file⟩ := Call.cursor_of_overFiles sound.files cursor
  cases same
  obtain ⟨grows, wrapped'⟩ := run_wrapped actions sound file wrapped
  have given := (drains.finished ⟨t, f⟩ sound quiet reads cursor grows).1
  rw [wrapped'.1] at given
  exact given

section Again

variable {t : TxnId} {k : Nat} {state : Option ScanPosition} {between again : List Action}
  {rows : List Tuple} (drains : Drains k (s.run between).2 again rows) (sound : s.Sound)
  (quiet : s.Quiet t) (readsBetween : ∀ a ∈ between, a.writer? ≠ some t)
  (readsAgain : ∀ a ∈ again, a.writer? ≠ some t)
  (cursor : (s.run between).2.workspace.cursors[k]? = some (.file ⟨t, f⟩ state))

include drains sound quiet readsBetween readsAgain cursor

/-- **A drain of a file that has been held** gives what was there. -/
theorem Drains.eq_of_guarded (guarded : Guarded t f s) :
    rows = s.engine.rowsBefore f.table (f.pageCount s.engine.volume).toNat := by
  have sound' := sound.run between
  have quiet' := run_quiet sound quiet readsBetween
  obtain ⟨count, guarded', rows'⟩ := run_guarded sound quiet readsBetween guarded
  obtain ⟨count', guarded'', rows''⟩ := run_guarded sound' quiet' readsAgain guarded'
  have counted : ¬f.Wrapped ((s.run between).2.run again).2.engine.volume := fun wrapped => by
    have some := guarded''.some
    rw [wrapped.1] at some
    exact Nat.lt_irrefl _ some
  have given := (drains.finished ⟨t, f⟩ sound' quiet' readsAgain cursor
    (grows_of_counted sound' guarded'.file counted)).1
  rw [given, count', rows'', count, rows']

/-- **A drain of a file whose pages have been held** gives what was there, and then
the rows of the pages counted since. -/
theorem Drains.eq_append_of_held (file : s.engine.catalog.file f.table = .ok f)
    (held : ∀ i, i < (f.pageCount s.engine.volume).toNat →
      s.engine.locks.mode? t ⟨f.table, UInt32.ofNat i⟩ ≠ none)
    (counted : ¬f.Wrapped ((s.run between).2.run again).2.engine.volume) :
    rows = s.engine.rowsBefore f.table (f.pageCount s.engine.volume).toNat
      ++ ((s.run between).2.run again).2.engine.rowsFrom f.table
        (f.pageCount s.engine.volume).toNat
        (f.pageCount ((s.run between).2.run again).2.engine.volume).toNat := by
  have sound' := sound.run between
  have quiet' := run_quiet sound quiet readsBetween
  have file' := run_catalog sound between ▸ file
  have grows' := grows_of_counted sound' file' counted
  have grows := grows_of_counted sound file fun wrapped =>
    counted (run_wrapped _ sound' file' wrapped).2
  obtain ⟨rows', held'⟩ :=
    run_held sound quiet readsBetween file grows (Nat.le_refl _) held
  obtain ⟨rows'', -⟩ := run_held sound' quiet' readsAgain file' grows' grows.le held'
  have given := (drains.finished ⟨t, f⟩ sound' quiet' readsAgain cursor grows').1
  rw [given, Engine.rowsBefore_eq_append _ _ (Nat.le_trans grows.le grows'.le), rows'', rows']

end Again

/-- **Two drains of a table**, of a transaction that neither inserts nor deletes nor
ends meanwhile, **agree** if the file counted a page at the end of the first and no
insertion was past its pages then. In any case, the second gives the rows of the
first, and then those of the pages that have been counted since – unless the page
count has wrapped, after which it gives none. -/
theorem drains_agree {t : TxnId} {k k' : Nat} {state state' : Option ScanPosition}
    {first between again : List Action} {rows rows' : List Tuple} (reachable : s.Reachable)
    (quiet : s.Quiet t) (reads : ∀ a ∈ first ++ between ++ again, a.writer? ≠ some t)
    (cursor : s.workspace.cursors[k]? = some (.file ⟨t, f⟩ state)) (drains : Drains k s first rows)
    (cursor' : (s.run (first ++ between)).2.workspace.cursors[k']? = some (.file ⟨t, f⟩ state'))
    (drains' : Drains k' (s.run (first ++ between)).2 again rows') :
    (f.pageCount (s.run first).2.engine.volume ≠ 0 → (s.run first).2.Within f → rows' = rows)
      ∧ (¬f.Wrapped (s.run (first ++ between ++ again)).2.engine.volume →
        rows' = rows ++ (s.run (first ++ between ++ again)).2.engine.rowsFrom f.table
          (f.pageCount (s.run first).2.engine.volume).toNat
          (f.pageCount (s.run (first ++ between ++ again)).2.engine.volume).toNat)
      ∧ (f.Wrapped (s.run (first ++ between)).2.engine.volume → rows' = []) := by
  have sound := reachable.sound
  have sound₁ := sound.run first
  simp only [List.mem_append] at reads
  have readsFirst := fun a h => reads a (.inl (.inl h))
  have readsBetween := fun a h => reads a (.inl (.inr h))
  have readsAgain := fun a h => reads a (.inr h)
  obtain ⟨scan, state, same, file⟩ := Call.cursor_of_overFiles sound.files cursor
  cases same
  have file₁ := run_catalog sound first ▸ file
  have quiet₁ := run_quiet sound quiet readsFirst
  have quiet₂ := run_quiet sound₁ quiet₁ readsBetween
  rw [run_append] at cursor' drains'
  rw [run_append, run_append]
  -- the first drain leaves every page held that the file counts
  have finished := fun counted : ¬f.Wrapped (s.run first).2.engine.volume =>
    drains.finished ⟨t, f⟩ sound quiet readsFirst cursor (grows_of_counted sound file counted)
  refine ⟨fun counted within => ?_, fun counted => ?_, fun wrapped => ?_⟩
  · obtain ⟨given, held⟩ := finished fun wrapped => counted wrapped.1
    have some : 0 < (f.pageCount (s.run first).2.engine.volume).toNat :=
      Nat.pos_of_ne_zero fun zero => counted (UInt32.toNat_inj.1 zero)
    rw [given]
    exact drains'.eq_of_guarded sound₁ quiet₁ readsBetween readsAgain cursor'
      ⟨file₁, some, held, fun _ => within⟩
  · have file₂ := run_catalog sound₁ between ▸ file₁
    obtain ⟨given, held⟩ := finished fun wrapped =>
      counted (run_wrapped _ (sound₁.run between) file₂ (run_wrapped _ sound₁ file₁ wrapped).2).2
    rw [given]
    exact drains'.eq_append_of_held sound₁ quiet₁ readsBetween readsAgain cursor' file₁ held counted
  · exact drains'.eq_nil_of_wrapped (sound₁.run between) quiet₂ readsAgain cursor' wrapped

/-- A cursor is started and asked for all rows. -/
def drainAll : List Action :=
  [.method 0 .start, .method 0 .collect]

theorem drains_numbers {s : Session} {rows : List Tuple}
    (opened : Event.answersOf 0 (s.perform (.method 0 .start)).1 = [(.start, .ok .done)])
    (answered : Event.answersOf 0 ((s.perform (.method 0 .start)).2.perform (.method 0 .collect)).1
      = [(.collect, .ok (.rows rows))]) :
    Drains 0 s drainAll rows :=
  .of (.inl rfl) opened (.ends answered (.all rows))

/-- Two drains of a file of one page agree; another transaction has asked to insert
between them, and waits for the page. -/
theorem drains_agree_numbers :
    ∃ rows rows', rows = [.seven] ∧ Drains 0 (ofNumbers .seven [.scan ⟨1⟩ ⟨1⟩]) drainAll rows
      ∧ Drains 0 ((ofNumbers .seven [.scan ⟨1⟩ ⟨1⟩]).run
        (drainAll ++ [.insert ⟨2⟩ ⟨1⟩ (.number 8 none), .resume 0])).2 drainAll rows'
      ∧ rows' = rows := by
  have drains : Drains 0 (ofNumbers .seven [.scan ⟨1⟩ ⟨1⟩]) drainAll [.seven] :=
    drains_numbers rfl rfl
  have again : Drains 0 ((ofNumbers .seven [.scan ⟨1⟩ ⟨1⟩]).run
      (drainAll ++ [.insert ⟨2⟩ ⟨1⟩ (.number 8 none), .resume 0])).2 drainAll [.seven] :=
    drains_numbers (by cbv) (by cbv)
  have quiet : (ofNumbers .seven [.scan ⟨1⟩ ⟨1⟩]).Quiet ⟨1⟩ := fun b hb =>
    absurd hb List.not_mem_nil
  have cursor : ((ofNumbers .seven [.scan ⟨1⟩ ⟨1⟩]).run
      (drainAll ++ [.insert ⟨2⟩ ⟨1⟩ (.number 8 none), .resume 0])).2.workspace.cursors[0]?
      = some (.file ⟨⟨1⟩, .numbers⟩ (some ⟨1, [], false⟩)) := by cbv
  have agree := drains_agree (reachable_numbers _ _) quiet
    (by simp [drainAll, Action.writer?]) rfl drains cursor again
  exact ⟨_, _, rfl, drains, again, agree.1 (by decide) fun b hb => absurd hb List.not_mem_nil⟩

/-- A drain of an empty file does not keep others from inserting, and the
next drain finds their rows. -/
example :
    Event.answersOf 0 ((ofEngine (.numbers .empty)).run [.scan ⟨1⟩ ⟨1⟩, .method 0 .start,
        .method 0 .collect, .insert ⟨2⟩ ⟨1⟩ (.number 7 none), .finish ⟨2⟩ true, .method 0 .rewind,
        .method 0 .collect]).1
      = [(.start, .ok .done), (.collect, .ok (.rows [])), (.rewind, .ok .done),
        (.collect, .ok (.rows [.seven]))] :=
  rfl

/-- An insertion that has found the only page full does not look at it again: it
goes on after the first drain, and the next one finds its row. -/
example :
    Event.answersOf 0 ((ofEngine (.numbers (.ofImage #[3, 7, 0, 0, 0, 8, 0, 0, 0]))).run
        [.scan ⟨1⟩ ⟨1⟩, .partly 1 (.insert ⟨2⟩ ⟨1⟩ (.number 9 none)), .method 0 .start,
          .method 0 .collect, .resume 0, .finish ⟨2⟩ true, .method 0 .rewind,
          .method 0 .collect]).1
      = [(.start, .ok .done),
        (.collect, .ok (.rows [.seven, .number 8 (some ⟨⟨⟨1⟩, 0⟩, 1⟩)])),
        (.rewind, .ok .done),
        (.collect, .ok (.rows [.seven, .number 8 (some ⟨⟨⟨1⟩, 0⟩, 1⟩),
          .number 9 (some ⟨⟨⟨1⟩, 1⟩, 0⟩)]))] := by
  cbv

end Session

end Tablespace
