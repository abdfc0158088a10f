import Mathlib
import Tablespace.Proofs.Heap.Passage
import Tablespace.Proofs.Operator.Plan
import Tablespace.Proofs.Session.Cursor
import Tablespace.Proofs.Session.Placement

/-!
# Scanning a file to its end

The scan of a file gives the rows that the file lists when it is started
(`Engine.Sparing.scan_resumes`). It answers like a stream over that list: whatever it is asked
and in whatever order, each row is given once, in the order of the places, and then there
are no more. On its way it locks the pages that it passes. If it is stopped, it has given
nothing and lost nothing, and the next call goes on with the same row. Rewound, it gives
the list from its beginning.

Between two calls anything may be done through the pool, by whomever, that leaves the file
undisturbed (`HeapFile.Undisturbed`). It may be written and thrown out of the cache, locks
may be taken and given up, and new pages may be appended as long as they are empty.

The list is that of the pages that are counted. Behind them are the other pages of a file
that has `2 ^ 32` pages or more.
-/

namespace Tablespace

/-- **What asks a stream for rows.** -/
def Method.Asks (m : Method) : Prop :=
  m = .hasNext ∨ m = .next

/-- **What puts a stream before its first row.** -/
def Method.Restarts (m : Method) : Prop :=
  m = .start ∨ m = .rewind

/-- The row that is given by an answer, if one is. -/
def Answer.given : Except Halt Answer → List Tuple
  | .ok (.row one) => [one]
  | _ => []

namespace Operator

theorem answer_hasNext_ofFile (s : HeapScan) (pos : ScanPosition) (e : Engine) :
    (ofFile s).answer .hasNext (some pos) e
      = ((s.hasNext.on (pos, e)).1.map .truth, some (s.hasNext.on (pos, e)).2.1,
          (s.hasNext.on (pos, e)).2.2) := by
  rw [answer, run, Turn.on_bind, on_hasNext_ofFile]
  rcases s.hasNext.on (pos, e) with ⟨outcome, pos', e'⟩
  cases outcome <;> rfl

theorem answer_next_ofFile (s : HeapScan) (pos : ScanPosition) (e : Engine) :
    (ofFile s).answer .next (some pos) e
      = ((s.next.on (pos, e)).1.map .row, some (s.next.on (pos, e)).2.1,
          (s.next.on (pos, e)).2.2) := by
  rw [answer, run, Turn.on_bind, on_next_ofFile]
  rcases s.next.on (pos, e) with ⟨outcome, pos', e'⟩
  cases outcome <;> rfl

theorem answer_ofFile_of_restarts {m : Method} (restarts : m.Restarts) (s : HeapScan)
    (state : Option ScanPosition) (e : Engine) :
    (ofFile s).answer m state e = (.ok .done, some HeapScan.start, e) := by
  rcases restarts with rfl | rfl <;> rfl

end Operator

namespace HeapScan

open Engine (Hosts Walks)
open Operator (ofFile)

variable {s : HeapScan} {e e₀ : Engine} {rows given : List Tuple} {state : Option ScanPosition}
  {pos : ScanPosition}

/-- **What has been done since a scan was started**, with the rows that it has given. -/
inductive Underway (s : HeapScan) (e₀ : Engine) :
    List Tuple → Option ScanPosition → Engine → Prop where
  /-- It is started, from whatever state. -/
  | start (state : Option ScanPosition) :
    Underway s e₀ [] ((ofFile s).answer .start state e₀).2.1 ((ofFile s).answer .start state e₀).2.2
  /-- It is asked for rows. It may have given one. -/
  | ask {given : List Tuple} {state : Option ScanPosition} {e : Engine}
    (before : Underway s e₀ given state e) (m : Method) (asks : m.Asks) :
    Underway s e₀ (given ++ Answer.given ((ofFile s).answer m state e).1)
      ((ofFile s).answer m state e).2.1 ((ofFile s).answer m state e).2.2
  /-- It is rewound, or started again. -/
  | restart {given : List Tuple} {state : Option ScanPosition} {e : Engine}
    (before : Underway s e₀ given state e) (m : Method) (restarts : m.Restarts) :
    Underway s e₀ [] ((ofFile s).answer m state e).2.1 ((ofFile s).answer m state e).2.2
  /-- Something is done through the pool that leaves the file undisturbed. -/
  | meanwhile {given : List Tuple} {state : Option ScanPosition} {e : Engine}
    (before : Underway s e₀ given state e) (deed : Deed) (pooled : deed.Pooled)
    (spares : deed.Spares s.file e) (file : (e.perform deed).catalog.file s.file.table = .ok s.file)
    (undisturbed : s.file.Undisturbed e (e.perform deed)) :
    Underway s e₀ given state (e.perform deed)

/-- **What it comes to when a scan is asked** that has given some rows of a list: it answers
like a stream over the list, or it is stopped at a page. -/
inductive Resumes (s : HeapScan) (rows given : List Tuple) (m : Method) (pos : ScanPosition)
    (e : Engine) : Except Halt Answer × Option ScanPosition × Engine → Prop where
  /-- It answers. It has locked the pages that it has passed. If no row is left, it has passed
  all pages. -/
  | answered {outcome : Except Halt Answer} {pos' : ScanPosition} {e' : Engine}
    (answer : outcome = (Stream.answer rows m (some given.length)).1)
    (onward : pos.next ≤ pos'.next) (walks : Walks s.file s.txn pos.next pos'.next e e')
    (last : given = rows → pos'.next = (s.file.pageCount e.volume).toNat) :
    Resumes s rows given m pos e (outcome, some pos', e')
  /-- It is stopped. -/
  | stopped {halt : Halt} {pos' : ScanPosition} {e' : Engine}
    (hinders : e.Hinders s.txn ⟨s.file.table, .ofNat pos'.next⟩ halt)
    (onward : pos.next ≤ pos'.next)
    (walks : Walks s.file s.txn pos.next (halt.reached pos'.next) e e') :
    Resumes s rows given m pos e (.error halt, some pos', e')

/-- A scan has given the first rows of the list, and has the next ones at hand. -/
theorem Passing.given_prefix (passing : s.Passing given pos e) (hosts : e.Hosts s.file)
    (listed : s.file.Lists e rows) : given ++ pos.pending <+: rows := by
  rw [hosts.eq_of_lists listed, passing.rows]
  exact e.rowsBefore_prefix _ passing.bounded

/-- At its end it has given all of them. -/
theorem Passing.given_eq (passing : s.Passing given pos e) (hosts : e.Hosts s.file)
    (listed : s.file.Lists e rows) (atEnd : s.AtEnd pos e) : given = rows := by
  have all := passing.rows
  rwa [atEnd.1, List.append_nil, atEnd.2, ← hosts.eq_of_lists listed] at all

/-- **An open scan**, of a file that is at hand. -/
def Stands (s : HeapScan) (given : List Tuple) (state : Option ScanPosition) (e : Engine) : Prop :=
  e.Hosts s.file ∧ ∃ pos, state = some pos ∧ s.Passing given pos e

/-! ## One call -/

/-- A scan that is stopped has given nothing and lost nothing. -/
theorem Asked.stopped {halt : Halt} {pos' : ScanPosition} {e' : Engine} {m : Method}
    (asked : s.Asked given pos e (.error halt, pos', e')) :
    s.Resumes rows given m pos e (.error halt, some pos', e') ∧ s.Stands given (some pos') e' := by
  obtain ⟨hosts', passing', walks, onward, hinders⟩ := asked
  exact ⟨.stopped hinders onward walks, hosts', pos', rfl, passing'⟩

section Asked

variable (hosts : e.Hosts s.file) (passing : s.Passing given pos e) (listed : s.file.Lists e rows)

include hosts passing listed

/-- **A scan says whether there is a row left of the list.** -/
theorem resumes_hasNext :
    s.Resumes rows given .hasNext pos e ((ofFile s).answer .hasNext (some pos) e)
      ∧ s.Stands (given ++ Answer.given ((ofFile s).answer .hasNext (some pos) e).1)
        ((ofFile s).answer .hasNext (some pos) e).2.1
        ((ofFile s).answer .hasNext (some pos) e).2.2 := by
  have asked := asked_hasNext hosts passing
  rw [Operator.answer_hasNext_ofFile]
  cases ran : s.hasNext.on (pos, e) with | mk outcome state =>
  obtain ⟨pos', e'⟩ := state
  rw [ran] at asked
  cases outcome with
  | error halt =>
    show _ ∧ s.Stands (given ++ []) _ _
    rw [List.append_nil]
    exact asked.stopped
  | ok more =>
    obtain ⟨hosts', passing', walks, onward, left⟩ := asked
    have listed' := walks.listed rows listed
    refine ⟨?_, hosts', pos', rfl, (List.append_nil given).symm ▸ passing'⟩
    cases more with
    | true =>
      have less : given.length < rows.length := by
        have within := (passing'.given_prefix hosts' listed').length_le
        have some := List.length_pos_iff.2 (show pos'.pending ≠ [] from left)
        rw [List.length_append] at within
        omega
      refine .answered ?_ onward walks fun all =>
        absurd (congrArg List.length all) (Nat.ne_of_lt less)
      exact congrArg (Except.ok ∘ Answer.truth) (decide_eq_true less).symm
    | false =>
      have all : given = rows := passing'.given_eq hosts' listed' left
      refine .answered ?_ onward walks fun _ => walks.pageCount ▸ left.2
      rw [← all]
      exact congrArg (Except.ok ∘ Answer.truth) (decide_eq_false (Nat.lt_irrefl _)).symm

/-- **A scan gives the next row of the list**, and none if there is none. -/
theorem resumes_next :
    s.Resumes rows given .next pos e ((ofFile s).answer .next (some pos) e)
      ∧ s.Stands (given ++ Answer.given ((ofFile s).answer .next (some pos) e).1)
        ((ofFile s).answer .next (some pos) e).2.1 ((ofFile s).answer .next (some pos) e).2.2 := by
  have asked := asked_hasNext hosts passing
  rw [Operator.answer_next_ofFile, on_next]
  cases ran : s.hasNext.on (pos, e) with | mk outcome state =>
  obtain ⟨pos', e'⟩ := state
  rw [ran] at asked
  cases outcome with
  | error halt =>
    show _ ∧ s.Stands (given ++ []) _ _
    rw [List.append_nil]
    exact asked.stopped
  | ok more =>
    obtain ⟨hosts', passing', walks, onward, left⟩ := asked
    have listed' := walks.listed rows listed
    dsimp only
    cases pending : pos'.pending with
    | nil =>
      have atEnd : s.AtEnd pos' e' := by
        cases more with
        | true => exact absurd pending left
        | false => exact left
      have all : given = rows := passing'.given_eq hosts' listed' atEnd
      refine ⟨.answered ?_ onward walks fun _ => walks.pageCount ▸ atEnd.2, hosts', pos', rfl,
        (List.append_nil given).symm ▸ passing'⟩
      have none : (some given.length).bind (rows[·]?) = none := by simp [all]
      rw [Stream.answer_next_end none]
      rfl
    | cons row rest =>
      have first := passing'.given_prefix hosts' listed'
      rw [pending] at first
      have next : rows[given.length]? = some row := by
        obtain ⟨later, are⟩ := first
        rw [← are]
        simp
      refine ⟨.answered ?_ onward walks fun all => ?_, hosts', _, rfl, passing'.bounded,
        passing'.waiting, ?_⟩
      · rw [Stream.answer_next next]
        rfl
      · rw [all, List.getElem?_length] at next
        cases next
      · -- the row was the first of those at hand
        rw [← passing'.rows, pending]
        exact List.append_assoc ..

end Asked

/-- **A scan answers**, whatever it is asked. -/
theorem Stands.asked (stands : s.Stands given state e) (listed : s.file.Lists e rows)
    {m : Method} (asks : m.Asks) :
    ∃ pos, state = some pos ∧ s.Resumes rows given m pos e ((ofFile s).answer m state e)
      ∧ s.Stands (given ++ Answer.given ((ofFile s).answer m state e).1)
        ((ofFile s).answer m state e).2.1 ((ofFile s).answer m state e).2.2 := by
  obtain ⟨hosts, pos, rfl, passing⟩ := stands
  refine ⟨pos, rfl, ?_⟩
  rcases asks with rfl | rfl
  · exact resumes_hasNext hosts passing listed
  · exact resumes_next hosts passing listed

theorem Resumes.listed {result : Except Halt Answer × Option ScanPosition × Engine} {m : Method}
    (resumes : s.Resumes rows given m pos e result) (listed : s.file.Lists e rows) :
    s.file.Lists result.2.2 rows := by
  cases resumes with
  | answered _ _ walks _ => exact walks.listed rows listed
  | stopped _ _ walks => exact walks.listed rows listed

/-! ## All calls -/

/-- **A scan that is under way stands somewhere in the list.** -/
theorem Underway.stands (underway : s.Underway e₀ given state e) (hosts : e₀.Hosts s.file)
    (listed : s.file.Lists e₀ rows) : s.Stands given state e ∧ s.file.Lists e rows := by
  induction underway with
  | start state => exact ⟨⟨hosts, _, rfl, passing_start s e₀⟩, listed⟩
  | ask before m asks ih =>
    obtain ⟨stands, listed⟩ := ih
    obtain ⟨pos, rfl, resumes, stands'⟩ := stands.asked listed asks
    exact ⟨stands', resumes.listed listed⟩
  | restart before m restarts ih =>
    obtain ⟨⟨hosts, -⟩, listed⟩ := ih
    rw [Operator.answer_ofFile_of_restarts restarts]
    exact ⟨⟨hosts, _, rfl, passing_start s _⟩, listed⟩
  | meanwhile before deed pooled spares file undisturbed ih =>
    obtain ⟨⟨hosts, pos, rfl, passing⟩, listed⟩ := ih
    have hosts' := hosts.perform pooled spares file
    exact ⟨⟨hosts', pos, rfl, passing.keep hosts hosts' undisturbed⟩,
      undisturbed.listed rows listed⟩

end HeapScan

namespace Engine

open HeapScan (Resumes Underway)
open Operator (ofFile)

variable {e : Engine} {s : HeapScan}

/-- **A scan gives what the file lists**, from its first row to its last, and can be resumed
wherever it is stopped. The file must be registered, and its last page must not be cut
short. -/
theorem Sparing.scan_resumes (sparing : e.Sparing s.file)
    (file : e.catalog.file s.file.table = .ok s.file) (whole : s.file.Whole e.volume) :
    ∃ rows, s.file.Lists e rows ∧ ∀ given state e', s.Underway e given state e' →
      s.file.Lists e' rows ∧ given <+: rows
        ∧ (s.file.count e'.volume < 4294967296 → ∀ n slot,
          e'.seen ⟨⟨s.file.table, n⟩, slot⟩ ≠ none → n < s.file.pageCount e'.volume)
        ∧ (∀ m : Method, m.Restarts →
          (ofFile s).answer m state e' = (.ok .done, some HeapScan.start, e'))
        ∧ ∃ pos, state = some pos ∧ ∀ m : Method, m.Asks →
          s.Resumes rows given m pos e' ((ofFile s).answer m state e') := by
  obtain ⟨orderly, tends⟩ := sparing.tends
  have hosts : e.Hosts s.file := ⟨orderly, tends, file, whole⟩
  refine ⟨_, hosts.lists, fun given state e' underway => ?_⟩
  obtain ⟨stands, listed⟩ := underway.stands hosts hosts.lists
  have ⟨hosts', pos, is, passing⟩ := stands
  refine ⟨listed, ?_, fun small n slot => hosts'.counted small, fun m restarts =>
    Operator.answer_ofFile_of_restarts restarts s state e', pos, is, fun m asks => ?_⟩
  · exact (List.prefix_append _ _).trans (passing.given_prefix hosts' listed)
  · obtain ⟨pos', is', resumes, -⟩ := stands.asked listed asks
    cases is.symm.trans is'
    exact resumes

/-- The scan of another transaction over `begun`. -/
def reader : HeapScan :=
  ⟨⟨2⟩, .numbers⟩

/-- Asked for a row, it has to wait for the page. -/
def waiting : Except Halt Answer × Option ScanPosition × Engine :=
  (ofFile reader).answer .next (some HeapScan.start) begun

/-- The row is committed, and the scan gives it. -/
theorem scan_resumes_waiting : waiting.1 = .error .wait
    ∧ ((ofFile reader).answer .next waiting.2.1 (waiting.2.2.perform (.complete ⟨1⟩ true))).1
      = .ok (.row (.number 8 (some ⟨⟨⟨1⟩, 0⟩, 0⟩)))
    ∧ ∃ rows pos, HeapFile.numbers.Lists begun rows ∧ waiting.2.1 = some pos
      ∧ reader.Resumes rows [] .next pos (waiting.2.2.perform (.complete ⟨1⟩ true))
        ((ofFile reader).answer .next waiting.2.1
          (waiting.2.2.perform (.complete ⟨1⟩ true))) := by
  have whole : HeapFile.numbers.Whole begun.volume := by unfold HeapFile.Whole; decide +kernel
  obtain ⟨rows, listed, underway⟩ := Sparing.scan_resumes (s := reader) sparing_begun rfl whole
  have stopped : waiting.1 = .error .wait := by cbv
  have waits : reader.Underway begun [] waiting.2.1 waiting.2.2 := by
    have asked : reader.Underway begun ([] ++ Answer.given waiting.1) waiting.2.1 waiting.2.2 :=
      .ask (.start none) .next (.inr rfl)
    rwa [stopped] at asked
  have hosts : begun.Hosts .numbers :=
    ⟨sparing_begun.tends.1, sparing_begun.tends.2, rfl, whole⟩
  have hosts₁ : waiting.2.2.Hosts .numbers := (waits.stands hosts listed).1.1
  have hosts₂ : (waiting.2.2.perform (.complete ⟨1⟩ true)).Hosts .numbers :=
    hosts₁.perform trivial trivial (by cbv)
  have undisturbed : HeapFile.numbers.Undisturbed waiting.2.2
      (waiting.2.2.perform (.complete ⟨1⟩ true)) :=
    hosts₁.undisturbed hosts₂ (by cbv) (by cbv)
  obtain ⟨-, -, -, -, pos, is, resumes⟩ :=
    underway _ _ _ (.meanwhile waits (.complete ⟨1⟩ true) trivial trivial hosts₂.file undisturbed)
  exact ⟨stopped, by cbv, rows, pos, listed, is, resumes .next (.inr rfl)⟩

end Engine

end Tablespace
