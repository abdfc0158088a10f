import Tablespace.Proofs.Session.Bystander

/-!
# Draining a cursor

A cursor is **drained** (`Session.Drains`) when it is started or rewound and
then asked, row by row or all at once, until it answers that there are no more
rows. Between the questions, and while one of them is set aside, other calls
may do whatever they like.

Over a file, what a drain gives is what the pages of the file show at its end,
in order, and the transaction holds them all by then
(`Session.Drains.finished`). The transaction must not have inserted or
deleted in the meantime, and the page count of the file must not have wrapped
(`Session.Grows`).
-/

namespace Tablespace

/-! ## Questions and answers -/

/-- **The rows that an answer gives.** -/
inductive Gives : Method → Except Halt Answer → List Tuple → Prop
  /-- To ask for a row gives none. -/
  | asked (outcome : Except Halt Answer) : Gives .hasNext outcome []
  | row (row : Tuple) : Gives .next (.ok (.row row)) [row]
  /-- No row is given by a refusal. -/
  | refused (halt : Halt) : Gives .next (.error halt) []
  | all (rows : List Tuple) : Gives .collect (.ok (.rows rows)) rows

/-- **An answer that there are no more rows**, with the rows that it gives. -/
inductive Ends : Method → Except Halt Answer → List Tuple → Prop
  | asked : Ends .hasNext (.ok (.truth false)) []
  | refused : Ends .next (.error (.fault .noSuchElement)) []
  | all (rows : List Tuple) : Ends .collect (.ok (.rows rows)) rows

/-- **The methods of a cursor that are blocked**, if there is at most one and
it is a question, with the rows that it has collected. -/
inductive Collecting : List (Method × Array Tuple) → List Tuple → Prop
  | idle : Collecting [] []
  | hasNext : Collecting [(.hasNext, #[])] []
  | next : Collecting [(.next, #[])] []
  | collect (rows : Array Tuple) : Collecting [(.collect, rows)] rows.toList

/-- A method that has just been called has collected nothing, unless it is no
question. -/
theorem Method.collecting (m : Method) :
    Collecting [(m, #[])] [] ∨ m = .start ∨ m = .rewind ∨ m = .close := by
  cases m with
  | hasNext => exact .inl .hasNext
  | next => exact .inl .next
  | collect => exact .inl (.collect #[])
  | start | rewind | close => simp

/-- **What a question to a cursor over a file comes to**, when the cursor has
given some rows before. -/
structure Inquired (scan : HeapScan) (given : List Tuple) (m : Method)
    (outcome : Except Halt Answer) (rows : Array Tuple) (pos : ScanPosition) (e : Engine) :
    Prop where
  /-- What it has collected when it is set aside was read from the pages. -/
  waits : Call.Aside outcome →
    ∃ col, Collecting [(m, rows)] col ∧ scan.Reading (given ++ col) pos e
  /-- So was what it gives. -/
  gives : ∀ more, Gives m outcome more → scan.Reading (given ++ more) pos e
  /-- A cursor that says that there are no more rows is at its end. -/
  ends : ∀ more, Ends m outcome more → scan.Reading (given ++ more) pos e ∧ scan.AtEnd pos e

namespace Cursor

variable {e : Engine} {scan : HeapScan} {pos : ScanPosition} {m : Method} {rows : Array Tuple}
  {given col : List Tuple} (steps : Option Nat) (coherent : e.Coherent)
  (file : e.catalog.file scan.file.table = .ok scan.file)

include coherent file

theorem inquired_hasNext (reading : scan.Reading given pos e) :
    ∃ outcome pos' e', (Cursor.file scan (some pos)).run .hasNext #[] e steps
        = (outcome, #[], .file scan (some pos'), e')
      ∧ Inquired scan given .hasNext outcome #[] pos' e' := by
  obtain ⟨outcome, pos', e', ran, reading', ends⟩ := run_hasNext #[] steps coherent file reading
  refine ⟨outcome, pos', e', ran, fun _ => ⟨[], .hasNext, ?_⟩, fun more gives => ?_,
    fun more last => ?_⟩
  · rwa [List.append_nil]
  · cases gives
    rwa [List.append_nil]
  · cases last
    obtain ⟨b, same, atEnd⟩ := ends _ rfl
    cases same
    exact ⟨by rwa [List.append_nil], atEnd rfl⟩

theorem inquired_next (reading : scan.Reading given pos e) :
    ∃ outcome pos' e', (Cursor.file scan (some pos)).run .next #[] e steps
        = (outcome, #[], .file scan (some pos'), e')
      ∧ Inquired scan given .next outcome #[] pos' e' := by
  obtain ⟨outcome, pos', e', ran, spec⟩ := run_next #[] steps coherent file reading
  refine ⟨outcome, pos', e', ran, fun waits => ⟨[], .next, ?_⟩, fun more gives => ?_,
    fun more last => ?_⟩
  · obtain ⟨halt, waits, -⟩ := waits
    rw [waits] at spec
    rw [List.append_nil]
    exact spec.1
  · cases gives with
    | row row =>
      obtain ⟨row, same, reading'⟩ := spec
      cases same
      exact reading'
    | refused halt =>
      rw [List.append_nil]
      exact spec.1
  · cases last
    exact ⟨by rw [List.append_nil]; exact spec.1, spec.2 rfl⟩

theorem inquired_collect (reading : scan.Reading (given ++ rows.toList) pos e) :
    ∃ outcome rows' pos' e', (Cursor.file scan (some pos)).run .collect rows e steps
        = (outcome, rows', .file scan (some pos'), e')
      ∧ Inquired scan given .collect outcome rows' pos' e' := by
  obtain ⟨outcome, rows', pos', e', ran, reading', ends⟩ := run_collect steps coherent file reading
  refine ⟨outcome, rows', pos', e', ran, fun _ => ⟨_, .collect rows', reading'⟩,
    fun more gives => ?_, fun more last => ?_⟩
  · cases gives
    obtain ⟨same, -⟩ := ends _ rfl
    cases same
    exact reading'
  · cases last
    obtain ⟨same, atEnd⟩ := ends _ rfl
    cases same
    exact ⟨reading', atEnd⟩

/-- **Every question is answered from the pages**, or has to wait. -/
theorem inquired (collecting : Collecting [(m, rows)] col)
    (reading : scan.Reading (given ++ col) pos e) :
    ∃ outcome rows' pos' e', (Cursor.file scan (some pos)).run m rows e steps
        = (outcome, rows', .file scan (some pos'), e')
      ∧ Inquired scan given m outcome rows' pos' e' := by
  cases collecting with
  | hasNext =>
    rw [List.append_nil] at reading
    obtain ⟨outcome, pos', e', ran, inquired⟩ := inquired_hasNext steps coherent file reading
    exact ⟨outcome, #[], pos', e', ran, inquired⟩
  | next =>
    rw [List.append_nil] at reading
    obtain ⟨outcome, pos', e', ran, inquired⟩ := inquired_next steps coherent file reading
    exact ⟨outcome, #[], pos', e', ran, inquired⟩
  | collect => exact inquired_collect steps coherent file reading

end Cursor

namespace Call

variable {w : Workspace} {c c' : Call} {k : Nat} {m : Method} {rows : Array Tuple}
  {scan : HeapScan} {pos : ScanPosition} {state : Option ScanPosition} {given col : List Tuple}
  {steps : Option Nat}

/-- The method of a cursor that a call is, with the rows that it has
collected. -/
def methodOf? (k : Nat) : Call → Option (Method × Array Tuple)
  | method cursor m rows => if cursor = k then some (m, rows) else none
  | lock .. | fetch .. | insert .. | delete .. => none

theorem methodOf?_eq_some (h : c.methodOf? k = some (m, rows)) : c = method k m rows := by
  cases c with
  | method cursor m' rows' =>
    rw [methodOf?] at h
    split at h
    · rename_i same
      cases h
      rw [same]
    · cases h
  | lock | fetch | insert | delete => cases h

theorem Resumes.methodOf?_eq_none (resumes : c.Resumes c') (h : c.methodOf? k = none) :
    c'.methodOf? k = none := by
  cases c <;> cases c' <;> simp_all [Resumes, methodOf?]

/-- A turn of a call leaves the cursors alone that it is no method of. -/
theorem turn_cursors {cursor : Cursor} (other : c.methodOf? k = none)
    (h : w.cursors[k]? = some cursor) : (c.turn w steps).2.2.cursors[k]? = some cursor := by
  cases c with
  | lock | insert | delete => exact h
  | fetch t page mode keep =>
    show (fetchPage t page mode keep w).2.cursors[k]? = some cursor
    rwa [(fetchPage_spec t page mode keep w).2]
  | method k' m rows =>
    have apart : k' ≠ k := by simpa [methodOf?] using other
    cases found : w.cursors[k']? with
    | none => rwa [turn_method_of_none found]
    | some cursor' =>
      rw [turn_method_of_some found]
      show (w.cursors.set k' _)[k]? = some cursor
      rwa [List.getElem?_set_ne apart]

/-- A cursor over a file is started, rewound and closed at once. -/
theorem turn_of_no_question (h : w.cursors[k]? = some (.file scan state))
    (none : m = .start ∨ m = .rewind ∨ m = .close) :
    ((method k m rows).turn w steps).1 = .ok .done := by
  rw [turn_method_of_some h]
  rcases none with rfl | rfl | rfl <;> rfl

variable (steps) in
/-- A turn of a question to a cursor. -/
theorem turn_question (coherent : w.engine.Coherent)
    (file : w.engine.catalog.file scan.file.table = .ok scan.file)
    (h : w.cursors[k]? = some (.file scan (some pos))) (collecting : Collecting [(m, rows)] col)
    (reading : scan.Reading (given ++ col) pos w.engine) :
    ∃ rows' pos', ((method k m rows).turn w steps).2.1 = method k m rows'
      ∧ ((method k m rows).turn w steps).2.2.cursors[k]? = some (.file scan (some pos'))
      ∧ Inquired scan given m ((method k m rows).turn w steps).1 rows' pos'
        ((method k m rows).turn w steps).2.2.engine := by
  obtain ⟨outcome, rows', pos', e', ran, inquired⟩ :=
    Cursor.inquired steps coherent file collecting reading
  rw [turn_method_of_some h, ran]
  refine ⟨rows', pos', rfl, ?_, inquired⟩
  show (w.cursors.set k _)[k]? = _
  rw [List.getElem?_set_self (List.getElem?_eq_some_iff.1 h).1]

end Call

namespace Session

/-- **Actions in the course of which a cursor gives rows**, up to the answer
that there are no more. -/
inductive Exhausts (k : Nat) : Session → List Action → List Tuple → Prop
  | ends {s : Session} {a : Action} {m : Method} {outcome : Except Halt Answer} {rows : List Tuple}
      (answered : Event.answersOf k (s.perform a).1 = [(m, outcome)]) (ends : Ends m outcome rows) :
      Exhausts k s [a] rows
  | gives {s : Session} {a : Action} {actions : List Action} {m : Method}
      {outcome : Except Halt Answer} {given rows : List Tuple}
      (answered : Event.answersOf k (s.perform a).1 = [(m, outcome)])
      (gives : Gives m outcome given) (rest : Exhausts k (s.perform a).2 actions rows) :
      Exhausts k s (a :: actions) (given ++ rows)
  /-- The cursor answers nothing. -/
  | beside {s : Session} {a : Action} {actions : List Action} {rows : List Tuple}
      (silent : Event.answersOf k (s.perform a).1 = [])
      (rest : Exhausts k (s.perform a).2 actions rows) : Exhausts k s (a :: actions) rows

/-- **Actions that drain a cursor**, with the rows that it gives. -/
inductive Drains (k : Nat) (s : Session) : List Action → List Tuple → Prop
  | of {m : Method} {actions : List Action} {rows : List Tuple} (opens : m = .start ∨ m = .rewind)
      (opened : Event.answersOf k (s.perform (.method k m)).1 = [(m, .ok .done)])
      (rest : Exhausts k (s.perform (.method k m)).2 actions rows) :
      Drains k s (.method k m :: actions) rows

/-- **The pages of a file are counted in no fewer** after each action. -/
def Grows (f : HeapFile) : Session → List Action → Prop
  | _, [] => True
  | s, a :: actions =>
    (f.pageCount s.engine.volume).toNat ≤ (f.pageCount (s.perform a).2.engine.volume).toNat
      ∧ Grows f (s.perform a).2 actions

/-- The methods of a cursor among blocked calls. -/
def methodsOf (k : Nat) (blocked : List (Blocked Call)) : List (Method × Array Tuple) :=
  blocked.filterMap fun b => b.call.methodOf? k

/-- **A session in which a cursor has given some rows**: it has pages of its
file behind it that its transaction holds, and they have the rows given, those
collected and those at hand. -/
def Tracks (s : Session) (k : Nat) (scan : HeapScan) (given : List Tuple) : Prop :=
  ∃ pos col, Collecting (methodsOf k s.blocked) col
    ∧ s.workspace.cursors[k]? = some (.file scan (some pos))
    ∧ scan.Reading (given ++ col) pos s.engine

/-- **A cursor that has given some rows is still under way after an action**,
whatever it has answered. -/
structure Follows (k : Nat) (scan : HeapScan) (given : List Tuple) (history : List Event)
    (s : Session) : Prop where
  silent : Event.answersOf k history = [] → Tracks s k scan given
  gives : ∀ m outcome more, Event.answersOf k history = [(m, outcome)] → Gives m outcome more →
    Tracks s k scan (given ++ more)
  /-- A cursor that says that there are no more rows is at its end. -/
  ends : ∀ m outcome more, Event.answersOf k history = [(m, outcome)] → Ends m outcome more →
    ∃ pos, scan.Reading (given ++ more) pos s.engine ∧ scan.AtEnd pos s.engine

variable {s s' : Session} {a : Action} {actions : List Action} {history : List Event} {k : Nat}
  {c : Call} {l r : List (Blocked Call)} {ticket : Nat} {scan : HeapScan} {pos : ScanPosition}
  {given rows col : List Tuple} {state : Option ScanPosition} {steps : Option Nat}

/-! ## The blocked methods of a cursor -/

theorem methodsOf_eq_nil_of_free (free : s.usesCursor k = false) : methodsOf k s.blocked = [] := by
  refine List.filterMap_eq_nil_iff.2 fun b hb => ?_
  rw [usesCursor, List.any_eq_false] at free
  have other := free b hb
  cases call : b.call with
  | method cursor m rows =>
    rw [call] at other
    have apart : cursor ≠ k := fun eq => other (by simp [Call.cursor?, eq])
    rw [Call.methodOf?, if_neg apart]
  | lock | fetch | insert | delete => rfl

/-- A turn of another call leaves the blocked methods of a cursor as they
are. -/
theorem Turns.methodsOf_of_other (turns : Turns s a l r ticket c) (other : c.methodOf? k = none) :
    methodsOf k l ++ methodsOf k r = methodsOf k s.blocked := by
  cases turns with
  | made makes before last => rw [before, last]; exact List.append_nil _
  | blocked taken =>
    rw [taken, methodsOf, methodsOf, methodsOf, List.filterMap_append, List.filterMap_cons, other]

/-- If a turn is taken of a method of a cursor, then it is the only one. -/
theorem Turns.methodsOf_of_own {m : Method} {collected : Array Tuple}
    (turns : Turns s a l r ticket c) (own : c.methodOf? k = some (m, collected))
    (collecting : Collecting (methodsOf k s.blocked) col) :
    methodsOf k l = [] ∧ methodsOf k r = []
      ∧ (Collecting [(m, collected)] col ∨ m = .start ∨ m = .rewind ∨ m = .close) := by
  cases turns with
  | made makes before last =>
    obtain ⟨rfl, free⟩ := makes.method k m collected (Call.methodOf?_eq_some own)
    have none := methodsOf_eq_nil_of_free free
    rw [none] at collecting
    cases collecting
    exact ⟨before ▸ none, last ▸ rfl, m.collecting⟩
  | blocked taken =>
    have all : methodsOf k s.blocked = methodsOf k l ++ (m, collected) :: methodsOf k r := by
      rw [taken, methodsOf, methodsOf, methodsOf, List.filterMap_append, List.filterMap_cons, own]
    -- a cursor has at most one blocked method, so it is this one
    have one : (methodsOf k s.blocked).length ≤ 1 := by
      generalize methodsOf k s.blocked = methods at collecting
      cases collecting <;> simp
    rw [all, List.length_append, List.length_cons] at one
    have left : methodsOf k l = [] := List.eq_nil_of_length_eq_zero (by omega)
    have right : methodsOf k r = [] := List.eq_nil_of_length_eq_zero (by omega)
    rw [all, left, right] at collecting
    exact ⟨left, right, .inl collecting⟩

/-! ## One action -/

/-- **An action leaves a scan under way** whose transaction neither inserts
nor deletes nor ends by it. -/
theorem Performed.reading (performed : Performed s a history s') (sound : s.Sound)
    (quiet : s.Quiet scan.txn) (reads : a.writer? ≠ some scan.txn)
    (file : s.engine.catalog.file scan.file.table = .ok scan.file)
    (grows : (scan.file.pageCount s.engine.volume).toNat
      ≤ (scan.file.pageCount s'.engine.volume).toNat)
    (reading : scan.Reading given pos s.engine) : scan.Reading given pos s'.engine := by
  obtain ⟨sound', step⟩ := performed.spec sound
  refine reading.keep sound.coherent sound'.coherent (step.catalog sound)
    (Nat.le_trans reading.bounded grows)
    (fun waits => Nat.lt_of_lt_of_le (reading.waiting waits) grows)
    (fun p held => performed.held sound quiet reads held) fun i hi slot => ?_
  have inside := Nat.lt_of_lt_of_le hi (Nat.le_trans reading.bounded grows)
  exact performed.seen_eq sound quiet reads file inside (reading.held i hi) slot

/-- A cursor that has answered nothing and is under way. -/
theorem follows_of_silent (silent : Event.answersOf k history = [])
    (tracks : Tracks s k scan given) : Follows k scan given history s := by
  refine ⟨fun _ => tracks, fun m outcome more answer => ?_, fun m outcome more answer => ?_⟩ <;>
  · rw [silent] at answer
    cases answer

/-- What a call answers that is no method of the cursor. -/
theorem answersOf_of_other (other : c.methodOf? k = none) (outcome : Except Halt Answer) :
    Event.answersOf k [.answered c outcome] = [] := by
  cases c with
  | method cursor m rows =>
    have apart : cursor ≠ k := by simpa [Call.methodOf?] using other
    simp [Event.answersOf, apart]
  | lock | fetch | insert | delete => rfl

section Own

variable {m : Method} {collected : Array Tuple}
  (turns : Turns s a l r ticket (.method k m collected)) (sound : s.Sound)
  (file : s.engine.catalog.file scan.file.table = .ok scan.file)
  (collecting : Collecting (methodsOf k s.blocked) col)
  (cursor : s.workspace.cursors[k]? = some (.file scan (some pos)))
  (reading : scan.Reading (given ++ col) pos s.engine)

include turns sound file collecting cursor reading

/-- **A question that is set aside** leaves the cursor under way: it is the one
that is blocked now. -/
theorem Turns.tracks_of_waits
    (waits : Call.Aside ((Call.method k m collected).turn s.workspace steps).1) :
    Tracks ⟨((Call.method k m collected).turn s.workspace steps).2.2,
        l ++ ⟨ticket, ((Call.method k m collected).turn s.workspace steps).2.1⟩ :: r⟩
      k scan given := by
  obtain ⟨left, right, one⟩ := turns.methodsOf_of_own (if_pos rfl) collecting
  have question : Collecting [(m, collected)] col := by
    refine one.resolve_right fun no => ?_
    rw [Call.turn_of_no_question cursor no] at waits
    obtain ⟨_, answered, -⟩ := waits
    cases answered
  obtain ⟨rows', pos', call, cursor', inquired⟩ :=
    Call.turn_question steps sound.coherent file cursor question reading
  obtain ⟨col', collecting', reading'⟩ := inquired.waits waits
  refine ⟨pos', col', ?_, cursor', reading'⟩
  have all : methodsOf k
        (l ++ ⟨ticket, ((Call.method k m collected).turn s.workspace steps).2.1⟩ :: r)
      = methodsOf k l ++ (m, rows') :: methodsOf k r := by
    rw [methodsOf, List.filterMap_append, List.filterMap_cons, call, Call.methodOf?, if_pos rfl]
    rfl
  rw [all, left, right]
  exact collecting'

/-- **A question that is answered** leaves no other behind. -/
theorem Turns.follows_of_answer :
    Follows k scan given
      [.answered (.method k m collected) ((Call.method k m collected).turn s.workspace steps).1]
      ⟨((Call.method k m collected).turn s.workspace steps).2.2, l ++ r⟩ := by
  obtain ⟨left, right, one⟩ := turns.methodsOf_of_own (if_pos rfl) collecting
  have free : Collecting (methodsOf k (l ++ r)) [] := by
    rw [methodsOf, List.filterMap_append, ← methodsOf, ← methodsOf, left, right]
    exact .idle
  have answers : Event.answersOf k
      [.answered (.method k m collected) ((Call.method k m collected).turn s.workspace steps).1]
      = [(m, ((Call.method k m collected).turn s.workspace steps).1)] := by
    simp [Event.answersOf]
  rcases one with question | no
  · obtain ⟨rows', pos', -, cursor', inquired⟩ :=
      Call.turn_question steps sound.coherent file cursor question reading
    constructor <;> rw [answers]
    · intro silent
      cases silent
    · intro m' outcome more answer gives
      cases answer
      refine ⟨pos', [], free, cursor', ?_⟩
      rw [List.append_nil]
      exact inquired.gives more gives
    · intro m' outcome more answer ends
      cases answer
      exact ⟨pos', inquired.ends more ends⟩
  · -- to start, to rewind or to close a cursor is neither to give rows nor to refuse them
    constructor <;> rw [answers, Call.turn_of_no_question cursor no]
    · intro silent
      cases silent
    · intro m' outcome more answer gives
      cases answer
      rcases no with rfl | rfl | rfl <;> cases gives
    · intro m' outcome more answer ends
      cases answer
      rcases no with rfl | rfl | rfl <;> cases ends

end Own

/-- **An action leaves a cursor under way.** If the cursor answers by it, then
the rows that it gives are read from the pages, and a cursor that says that
there are no more is at its end. -/
theorem Performed.follows (performed : Performed s a history s') (sound : s.Sound)
    (quiet : s.Quiet scan.txn) (reads : a.writer? ≠ some scan.txn)
    (file : s.engine.catalog.file scan.file.table = .ok scan.file)
    (grows : (scan.file.pageCount s.engine.volume).toNat
      ≤ (scan.file.pageCount s'.engine.volume).toNat)
    (tracks : Tracks s k scan given) : Follows k scan given history s' := by
  obtain ⟨pos, col, collecting, cursor, reading⟩ := tracks
  have kept := performed.reading sound quiet reads file grows reading
  cases performed with
  | still w history same cursors files silent unchanged running =>
    exact follows_of_silent (silent k) ⟨pos, col, collecting, cursors k _ cursor, kept⟩
  | ends u committed w writer ended cursors =>
    exact follows_of_silent rfl ⟨pos, col, collecting, cursors ▸ cursor, kept⟩
  | waits l r ticket c steps turns waits =>
    refine follows_of_silent rfl ?_
    cases own : c.methodOf? k with
    | none =>
      have later := (turns.turned sound steps).resumes.methodOf?_eq_none own
      refine ⟨pos, col, ?_, Call.turn_cursors own cursor, kept⟩
      rw [methodsOf, List.filterMap_append, List.filterMap_cons, later]
      exact (turns.methodsOf_of_other own).symm ▸ collecting
    | some method =>
      cases Call.methodOf?_eq_some own
      exact turns.tracks_of_waits sound file collecting cursor reading waits
  | answers l r ticket c steps turns answered =>
    cases own : c.methodOf? k with
    | none =>
      refine follows_of_silent (answersOf_of_other own _)
        ⟨pos, col, ?_, Call.turn_cursors own cursor, kept⟩
      rw [methodsOf, List.filterMap_append]
      exact (turns.methodsOf_of_other own).symm ▸ collecting
    | some method =>
      cases Call.methodOf?_eq_some own
      exact turns.follows_of_answer sound file collecting cursor reading

/-- A cursor that is started or rewound has given nothing. -/
theorem tracks_of_opened {m : Method} (cursor : s.workspace.cursors[k]? = some (.file scan state))
    (opens : m = .start ∨ m = .rewind)
    (opened : Event.answersOf k (s.perform (.method k m)).1 = [(m, .ok .done)]) :
    Tracks (s.perform (.method k m)).2 k scan [] := by
  have free : s.usesCursor k = false := by
    cases used : s.usesCursor k with
    | false => rfl
    | true =>
      rw [perform, if_pos used] at opened
      cases opened
  have turn : (Call.method k m #[]).turn s.workspace
      = (.ok .done, .method k m #[],
        (s.workspace.advance s.engine).setCursor k (.file scan (some HeapScan.start))) := by
    rw [Call.turn_method_of_some cursor]
    rcases opens with rfl | rfl <;> rfl
  have done : (s.perform (.method k m)).2
      = ⟨(s.workspace.advance s.engine).setCursor k (.file scan (some HeapScan.start)),
        s.blocked⟩ := by
    rw [perform, if_neg (by simp [free]), make, call, Call.ask, turn]
  rw [done]
  refine ⟨HeapScan.start, [], ?_, ?_, scan.reading_start _⟩
  · rw [methodsOf_eq_nil_of_free free]
    exact .idle
  · exact List.getElem?_set_self (List.getElem?_eq_some_iff.1 cursor).1

/-! ## Whole drains -/

/-- **Actions that exhaust a cursor** leave it at its end, and what it has
given is what is behind it. -/
theorem Exhausts.reading (exhausts : Exhausts k s actions rows) (sound : s.Sound)
    (quiet : s.Quiet scan.txn) (reads : ∀ a ∈ actions, a.writer? ≠ some scan.txn)
    (file : s.engine.catalog.file scan.file.table = .ok scan.file)
    (grows : Grows scan.file s actions) (tracks : Tracks s k scan given) :
    ∃ pos, scan.Reading (given ++ rows) pos (s.run actions).2.engine
      ∧ scan.AtEnd pos (s.run actions).2.engine := by
  induction exhausts generalizing given with
  | @ends s a m outcome rows answered ends =>
    have performed := performed sound a
    exact (performed.follows sound quiet (reads a List.mem_cons_self) file grows.1 tracks).ends
      m outcome rows answered ends
  | @gives s a actions m outcome more rows answered gives rest ih =>
    have performed := performed sound a
    have here := reads a List.mem_cons_self
    have tracks' := (performed.follows sound quiet here file grows.1 tracks).gives
      m outcome more answered gives
    rw [← List.append_assoc]
    exact ih (performed.spec sound).1 (performed.quiet_after sound quiet here)
      (fun b hb => reads b (List.mem_cons_of_mem _ hb))
      ((performed.spec sound).2.catalog sound ▸ file) grows.2 tracks'
  | @beside s a actions rows silent rest ih =>
    have performed := performed sound a
    have here := reads a List.mem_cons_self
    have tracks' := (performed.follows sound quiet here file grows.1 tracks).silent silent
    exact ih (performed.spec sound).1 (performed.quiet_after sound quiet here)
      (fun b hb => reads b (List.mem_cons_of_mem _ hb))
      ((performed.spec sound).2.catalog sound ▸ file) grows.2 tracks'

/-- **What a drain gives** is what the pages of the file show at its end, and
the transaction holds them all. -/
theorem Drains.finished (scan : HeapScan) (drains : Drains k s actions rows) (sound : s.Sound)
    (quiet : s.Quiet scan.txn) (reads : ∀ a ∈ actions, a.writer? ≠ some scan.txn)
    (cursor : s.workspace.cursors[k]? = some (.file scan state))
    (grows : Grows scan.file s actions) :
    rows = (s.run actions).2.engine.rowsBefore scan.file.table
        (scan.file.pageCount (s.run actions).2.engine.volume).toNat
      ∧ ∀ i, i < (scan.file.pageCount (s.run actions).2.engine.volume).toNat →
        (s.run actions).2.engine.locks.mode? scan.txn ⟨scan.file.table, UInt32.ofNat i⟩ ≠ none := by
  obtain ⟨scan', state', same, file⟩ := Call.cursor_of_overFiles sound.files cursor
  cases same
  cases drains with
  | @of m actions rows opens opened rest =>
    have performed := performed sound (.method k m)
    have here := reads _ List.mem_cons_self
    have tracks := tracks_of_opened cursor opens opened
    obtain ⟨pos, reading, atEnd⟩ := rest.reading (performed.spec sound).1
      (performed.quiet_after sound quiet here) (fun b hb => reads b (List.mem_cons_of_mem _ hb))
      ((performed.spec sound).2.catalog sound ▸ file) grows.2 tracks
    have rows' := reading.rows
    rw [atEnd.1, List.append_nil, List.nil_append] at rows'
    rw [run, ← atEnd.2]
    exact ⟨rows', reading.held⟩

end Session

end Tablespace
