import Tablespace.Proofs.Heap.Agreement
import Tablespace.Proofs.Session.Call

/-!
# Calls of engines that agree

A turn of a call comes to the same over engines that agree
(`Call.matched_turn`): it answers the same – a fetch gives pages with the same
rows –, or waits at the same place, unless one of the engines has no room for a
page that the call fetches. Over files that come to `2 ^ 32` pages nothing is
promised.
-/

namespace Tablespace

/-! ## Cursors -/

namespace Operator

open Engine (Paired SameOwn)

variable {s : HeapScan} {e₁ e₂ : Engine}

/-- **A drain** collects the same rows from engines that agree. -/
theorem matched_drain (paired : Paired e₁ e₂) (file : e₁.catalog.file s.file.table = .ok s.file)
    (collected : Array Tuple) (pos : ScanPosition) (steps : Option Nat) (fuel : Nat) :
    Matched Eq SameOwn (((ofFile s steps).drain fuel).on ((collected, some pos), e₁))
      (((ofFile s steps).drain fuel).on ((collected, some pos), e₂)) := by
  induction fuel generalizing collected pos e₁ e₂ with
  | zero => exact .answers rfl ⟨rfl, paired⟩
  | succ fuel ih =>
    have asked := HeapScan.matched_hasNext paired pos file steps
    have looks := HeapScan.looks_hasNext s pos steps paired.left
    rw [on_drain, on_drain]
    generalize (s.hasNext steps).on (pos, e₁) = r₁ at asked looks ⊢
    generalize (s.hasNext steps).on (pos, e₂) = r₂ at asked ⊢
    cases asked with
    | noRoomLeft => exact .noRoomLeft
    | noRoomRight => exact .noRoomRight
    | @halts y₁ y₂ halt after => exact .halts halt ⟨by rw [after.own], after.engines⟩
    | @answers b _ y₁ y₂ same after =>
      obtain ⟨pos₁, y₁⟩ := y₁
      obtain ⟨pos₂, y₂⟩ := y₂
      obtain ⟨own, after⟩ := after
      dsimp only at own after looks
      subst same own
      cases b with
      | false => exact .answers rfl ⟨rfl, after⟩
      | true =>
        have file₁ := looks.catalog paired.left ▸ file
        have gave := HeapScan.matched_next after pos₂ file₁ steps
        have looks' := HeapScan.looks_next s pos₂ steps after.left
        dsimp only
        generalize (s.next steps).on (pos₂, y₁) = r₁ at gave looks' ⊢
        generalize (s.next steps).on (pos₂, y₂) = r₂ at gave ⊢
        cases gave with
        | noRoomLeft => exact .noRoomLeft
        | noRoomRight => exact .noRoomRight
        | @halts z₁ z₂ halt after' => exact .halts halt ⟨by rw [after'.own], after'.engines⟩
        | @answers row _ z₁ z₂ same after' =>
          obtain ⟨own, after'⟩ := after'
          subst same
          dsimp only
          rw [own]
          exact ih after' (looks'.catalog after.left ▸ file₁) _ _

end Operator

/-- **States of a cursor that are alike**: the same rows collected and the same
cursor, over engines that agree. -/
structure Cursor.SameState (s s' : Array Tuple × Cursor × Engine) : Prop where
  collected : s'.1 = s.1
  cursor : s'.2.1 = s.2.1
  engines : Engine.Paired s.2.2 s'.2.2

/-- **A method of a cursor over a file** comes to the same over engines that
agree. -/
theorem Cursor.matched_run {s : HeapScan} {e₁ e₂ : Engine} (paired : Engine.Paired e₁ e₂)
    (file : e₁.catalog.file s.file.table = .ok s.file) (m : Method) (collected : Array Tuple)
    (state : Option ScanPosition) (steps : Option Nat) :
    Matched Eq SameState ((Cursor.file s state).run m collected e₁ steps)
      ((Cursor.file s state).run m collected e₂ steps) := by
  cases m with
  | start => exact .answers rfl ⟨rfl, rfl, paired⟩
  | rewind => exact .answers rfl ⟨rfl, rfl, paired⟩
  | close => exact .answers rfl ⟨rfl, rfl, paired⟩
  | hasNext =>
    cases state with
    | none => exact .answers rfl ⟨rfl, rfl, paired⟩
    | some pos =>
      have asked := HeapScan.matched_hasNext paired pos file steps
      rw [run_hasNext_file, run_hasNext_file]
      generalize (s.hasNext steps).on (pos, e₁) = r₁ at asked ⊢
      generalize (s.hasNext steps).on (pos, e₂) = r₂ at asked ⊢
      cases asked with
      | noRoomLeft => exact .noRoomLeft
      | noRoomRight => exact .noRoomRight
      | halts halt after => exact .halts halt ⟨rfl, by rw [after.own], after.engines⟩
      | answers same after =>
        exact .answers (congrArg Answer.truth same) ⟨rfl, by rw [after.own], after.engines⟩
  | next =>
    cases state with
    | none => exact .halts _ ⟨rfl, rfl, paired⟩
    | some pos =>
      have gave := HeapScan.matched_next paired pos file steps
      rw [run_next_file, run_next_file]
      generalize (s.next steps).on (pos, e₁) = r₁ at gave ⊢
      generalize (s.next steps).on (pos, e₂) = r₂ at gave ⊢
      cases gave with
      | noRoomLeft => exact .noRoomLeft
      | noRoomRight => exact .noRoomRight
      | halts halt after => exact .halts halt ⟨rfl, by rw [after.own], after.engines⟩
      | answers same after =>
        exact .answers (congrArg Answer.row same) ⟨rfl, by rw [after.own], after.engines⟩
  | collect =>
    cases state with
    | none => exact .answers rfl ⟨rfl, rfl, paired⟩
    | some pos =>
      have bound : (Operator.ofFile s steps).bound (some pos) e₂
          = (Operator.ofFile s steps).bound (some pos) e₁ := by
        show s.bound pos e₂ = s.bound pos e₁
        rw [HeapScan.bound, HeapScan.bound, paired.pageCount file]
      have drained := Operator.matched_drain paired file collected pos steps
        ((Operator.ofFile s steps).bound (some pos) e₁ + 1)
      rw [run_collect_file, run_collect_file, bound]
      generalize ((Operator.ofFile s steps).drain
        ((Operator.ofFile s steps).bound (some pos) e₁ + 1)).on ((collected, some pos), e₁) = r₁
        at drained ⊢
      generalize ((Operator.ofFile s steps).drain
        ((Operator.ofFile s steps).bound (some pos) e₁ + 1)).on ((collected, some pos), e₂) = r₂
        at drained ⊢
      cases drained with
      | noRoomLeft => exact .noRoomLeft
      | noRoomRight => exact .noRoomRight
      | halts halt after =>
        exact .halts halt ⟨by rw [after.own], by rw [after.own], after.engines⟩
      | answers same after =>
        subst same
        exact .answers rfl ⟨by rw [after.own], by rw [after.own], after.engines⟩

/-! ## Insertion and deletion, with the mark -/

namespace Call

open Engine (Paired SameOwn)
open HeapFile (SameStage)

variable {e e₁ e₂ : Engine} {t : TxnId} {f : HeapFile} {row : Tuple} {stage : InsertionStage}
  {record : RecordId} {steps : Option Nat}

variable (t row steps) in
/-- **An insertion with its mark** comes to the same over engines that
agree. -/
theorem matched_insertRow (paired : Paired e₁ e₂) (file : e₁.catalog.file f.table = .ok f)
    (known : stage.Known f e₁.volume)
    (intact : ((insertRow t f row true steps).on (stage, e₁)).2.2.Intact) :
    Matched Eq SameOwn ((insertRow t f row true steps).on (stage, e₁))
      ((insertRow t f row true steps).on (stage, e₂)) := by
  have file₂ : e₂.catalog.file f.table = .ok f := paired.agree.catalog ▸ file
  have known₂ : stage.Known f e₂.volume :=
    known.mono (.inl (paired.agree.sizes _ f file))
  have spec₁ := insertRow_spec t row steps paired.left file known
  have spec₂ := insertRow_spec t row steps paired.right file₂ known₂
  -- the mark touches nothing but the cache
  have outcome : Matched Eq SameStage ((insertRow t f row true steps).on (stage, e₁))
      ((insertRow t f row true steps).on (stage, e₂)) := by
    have inserted := paired.insert t row steps file known
    rw [on_insertRow] at intact ⊢
    rw [on_insertRow]
    generalize (f.insert t row steps).on (stage, e₁) = r₁ at inserted intact ⊢
    generalize (f.insert t row steps).on (stage, e₂) = r₂ at inserted ⊢
    obtain ⟨outcome₁, stage₁, y₁⟩ := r₁
    cases outcome₁ with
    | error halt =>
      cases inserted intact with
      | noRoomLeft => exact .noRoomLeft
      | noRoomRight => exact .noRoomRight
      | halts _ same => exact .halts halt same
    | ok a =>
      obtain ⟨marked₁, catalog₁, volume₁, locks₁⟩ := Engine.on_install t a.2 y₁
      dsimp only at intact
      cases inserted fun p hit => intact p ((Engine.overrun_congr catalog₁ volume₁).2 hit) with
      | noRoomRight => exact .noRoomRight
      | @answers _ b _ s₂ answer same =>
        obtain ⟨marked₂, catalog₂, volume₂, locks₂⟩ := Engine.on_install t b.2 s₂.2
        have state : SameStage (stage₁, ((Engine.install t a.2).on y₁).2)
            (s₂.1, ((Engine.install t b.2).on s₂.2).2) :=
          ⟨same.stage, by rw [locks₁, locks₂, same.locks], fun table g found => by
            rw [volume₁, volume₂]
            exact same.sizes table g (catalog₁ ▸ found)⟩
        dsimp only
        rcases marked₁ with full | ok₁
        · rw [full]
          exact .noRoomLeft
        rcases marked₂ with full | ok₂
        · rw [full]
          exact .noRoomRight
        rw [ok₁, ok₂]
        exact .answers (congrArg Answer.row answer.symm) state
  generalize (insertRow t f row true steps).on (stage, e₁) = r₁ at spec₁ outcome intact ⊢
  generalize (insertRow t f row true steps).on (stage, e₂) = r₂ at spec₂ outcome ⊢
  cases outcome with
  | noRoomLeft => exact .noRoomLeft
  | noRoomRight => exact .noRoomRight
  | @halts s₁ s₂ halt same =>
    exact .halts halt ⟨same.stage, paired.moves spec₁.1.moves spec₂.1.moves same.locks same.sizes
      intact⟩
  | @answers a b s₁ s₂ answer same =>
    subst answer
    obtain ⟨_, record₁, -, rfl, rfl, -, moves₁, -, -⟩ := spec₁
    obtain ⟨_, record₂, -, same', rfl, -, moves₂, -, -⟩ := spec₂
    obtain rfl : record₁ = record₂ :=
      Option.some.inj (congrArg Tuple.record (Answer.row.inj same'))
    exact .answers rfl ⟨same.stage, paired.moves moves₁ moves₂ same.locks same.sizes intact⟩

/-- **A deletion with its mark** comes to the same over engines that agree. -/
theorem matched_deleteRow (paired : Paired e₁ e₂) (t : TxnId) (place : row.record = some record) :
    Matched Eq Paired ((deleteRow t row record true).on e₁)
      ((deleteRow t row record true).on e₂) := by
  have spec₁ := deleteRow_spec (t := t) paired.left place
  have spec₂ := deleteRow_spec (t := t) paired.right place
  have outcome : Matched Eq (fun y₁ y₂ => y₂.locks = y₁.locks) ((deleteRow t row record true).on e₁)
      ((deleteRow t row record true).on e₂) := by
    have deleted := paired.deleteAt t row record
    rw [on_deleteRow, on_deleteRow]
    generalize (Engine.deleteAt t row record).on e₁ = r₁ at deleted ⊢
    generalize (Engine.deleteAt t row record).on e₂ = r₂ at deleted ⊢
    cases deleted with
    | noRoomLeft => exact .noRoomLeft
    | noRoomRight => exact .noRoomRight
    | halts halt same => exact .halts halt same
    | @answers q₁ q₂ y₁ y₂ _ same =>
      obtain ⟨marked₁, -, -, locks₁⟩ := Engine.on_install t q₁ y₁
      obtain ⟨marked₂, -, -, locks₂⟩ := Engine.on_install t q₂ y₂
      dsimp only
      rcases marked₁ with full | ok₁
      · rw [full]
        exact .noRoomLeft
      rcases marked₂ with full | ok₂
      · rw [full]
        exact .noRoomRight
      rw [ok₁, ok₂]
      exact .answers rfl (by rw [locks₁, locks₂, same])
  generalize (deleteRow t row record true).on e₁ = r₁ at spec₁ outcome ⊢
  generalize (deleteRow t row record true).on e₂ = r₂ at spec₂ outcome ⊢
  cases outcome with
  | noRoomLeft => exact .noRoomLeft
  | noRoomRight => exact .noRoomRight
  | halts halt same => exact .halts halt (paired.looks spec₁ spec₂ same)
  | @answers a b y₁ y₂ answer same =>
    obtain ⟨moves₁, volume₁⟩ := spec₁
    obtain ⟨moves₂, volume₂⟩ := spec₂
    have catalog := (moves₁.effect paired.left).catalog
    refine .answers answer
      (paired.moves moves₁ moves₂ same (fun table g found => ?_) fun p hit => ?_)
    · rw [volume₁, volume₂, paired.agree.sizes table g (catalog ▸ found)]
    · exact paired.intact p ((Engine.overrun_congr catalog volume₁).1 hit)

end Call

/-! ## Calls -/

/-- **Answers that are alike**: the same answer, or pages with the same rows,
changed by the same transaction, and in hand under the same number. -/
inductive Answer.Same : Answer → Answer → Prop
  | page {p q : Page} (rows : p.SameRows q) (held : Option Nat) : Same (.page p held) (.page q held)
  | refl (answer : Answer) : Same answer answer

/-- **Workspaces that agree**: over engines that do, with the same transactions
and cursors, and with as many pages in hand. -/
structure Workspace.Agree (w₁ w₂ : Workspace) : Prop where
  engines : w₁.engine.Agree w₂.engine
  statuses : w₂.statuses = w₁.statuses
  cursors : w₂.cursors = w₁.cursors
  held : w₂.held.length = w₁.held.length

theorem Workspace.Agree.advance {w₁ w₂ : Workspace} {e₁ e₂ : Engine} (agree : w₁.Agree w₂)
    (engines : e₁.Agree e₂) : (w₁.advance e₁).Agree (w₂.advance e₂) :=
  ⟨engines, agree.statuses, agree.cursors, agree.held⟩

theorem Workspace.Agree.setStatus {w₁ w₂ : Workspace} (agree : w₁.Agree w₂) (t : TxnId)
    (status : TxnStatus) : (w₁.setStatus t status).Agree (w₂.setStatus t status) :=
  ⟨agree.engines, congrArg (·.set (t.number - 1) status) agree.statuses, agree.cursors, agree.held⟩

namespace Call

open Engine (Paired)

variable {w w₁ w₂ : Workspace} {c : Call} {t : TxnId} {page : PageId} {mode : LockMode}
  {steps : Option Nat}

/-- **Calls that have come equally far**, in workspaces that agree. -/
structure SameCall (x x' : Call × Workspace) : Prop where
  call : x'.1 = x.1
  workspaces : x.2.Agree x'.2

/-- **Fetching a page** through a workspace keeps it in hand if wanted, for it is
in the cache then. -/
theorem fetchPage_eq (coherent : w.engine.Coherent) (keep : Bool) :
    fetchPage t page mode keep w = match (Engine.fetch t page mode).on w.engine with
      | (.error halt, e') => (.error halt, w.advance e')
      | (.ok q, e') =>
        (.ok (.page q (if keep then some w.held.length else none)),
          if keep then ((w.advance e').hold page).2 else w.advance e') := by
  unfold fetchPage Workspace.onEngine
  cases fetched : (Engine.fetch t page mode).on w.engine with | mk outcome e' =>
  cases outcome with
  | error halt => rfl
  | ok q =>
    obtain ⟨-, -, -, frame, there, -⟩ := Engine.fetch_ok coherent fetched
    have there' : (w.advance e').engine.frame? page = some frame := there
    cases keep with
    | false => rfl
    | true =>
      dsimp only
      rw [if_pos rfl, if_pos rfl, if_pos rfl, Workspace.hold, there']
      rfl

/-- Workspaces that agree do so when a page is taken in hand in both. -/
theorem agree_hold (agree : w₁.Agree w₂) {frame₁ frame₂ : Frame}
    (there₁ : w₁.engine.frame? page = some frame₁) (there₂ : w₂.engine.frame? page = some frame₂) :
    (w₁.hold page).2.Agree (w₂.hold page).2 := by
  rw [Workspace.hold, Workspace.hold, there₁, there₂]
  exact ⟨agree.engines, agree.statuses, agree.cursors, by
    rw [List.length_append, List.length_append, agree.held]
    rfl⟩

section Turn

variable (agree : w₁.Agree w₂) (paired : Paired w₁.engine w₂.engine)

include agree paired

theorem matched_lock : Matched Answer.Same SameCall ((lock t page mode).turn w₁ steps)
    ((lock t page mode).turn w₂ steps) := by
  have after := paired.request t page mode
  rw [paired.agree.locks] at after
  unfold turn Workspace.onEngine
  dsimp only
  rw [Engine.on_lock, Engine.on_lock, paired.agree.locks]
  cases (w₁.engine.locks.request t page mode).1 with
  | granted => exact .answers (.refl _) ⟨rfl, agree.advance after.agree⟩
  | blocked => exact .halts _ ⟨rfl, agree.advance after.agree⟩
  | deadlock holder => exact .halts _ ⟨rfl, agree.advance after.agree⟩

theorem matched_fetch (keep : Bool) : Matched Answer.Same SameCall
    ((fetch t page mode keep).turn w₁ steps) ((fetch t page mode keep).turn w₂ steps) := by
  have fetched := paired.fetch t page mode
  unfold turn
  dsimp only
  rw [fetchPage_eq paired.left, fetchPage_eq paired.right, agree.held]
  cases one : (Engine.fetch t page mode).on w₁.engine with | mk outcome₁ y₁ =>
  cases two : (Engine.fetch t page mode).on w₂.engine with | mk outcome₂ y₂ =>
  rw [one, two] at fetched
  cases fetched with
  | noRoomLeft => exact .noRoomLeft
  | noRoomRight => exact .noRoomRight
  | halts halt after => exact .halts halt ⟨rfl, agree.advance after.agree⟩
  | answers rows after =>
    obtain ⟨-, -, -, frame₁, there₁, -⟩ := Engine.fetch_ok paired.left one
    obtain ⟨-, -, -, frame₂, there₂, -⟩ := Engine.fetch_ok paired.right two
    refine .answers (.page rows _) ⟨rfl, ?_⟩
    cases keep with
    | false => exact agree.advance after.agree
    | true => exact agree_hold (agree.advance after.agree) there₁ there₂

/-- **A turn of a call** comes to the same in workspaces that agree, if nothing
is overrun. -/
theorem matched_turn (files : w₁.OverFiles) (sound : c.Sound w₁.engine)
    (intact : (c.turn w₁ steps).2.2.engine.Intact) :
    Matched Answer.Same SameCall (c.turn w₁ steps) (c.turn w₂ steps) := by
  cases c with
  | lock t page mode => exact matched_lock agree paired
  | fetch t page mode keep => exact matched_fetch agree paired keep
  | insert t f row mark stage =>
    obtain ⟨rfl, file, known⟩ := sound
    have inserted := matched_insertRow t row steps paired file known intact
    unfold turn
    dsimp only
    generalize (insertRow t f row true steps).on (stage, w₁.engine) = r₁ at inserted ⊢
    generalize (insertRow t f row true steps).on (stage, w₂.engine) = r₂ at inserted ⊢
    cases inserted with
    | noRoomLeft => exact .noRoomLeft
    | noRoomRight => exact .noRoomRight
    | halts halt after =>
      exact .halts halt ⟨by rw [after.own], agree.advance after.engines.agree⟩
    | answers same after =>
      subst same
      exact .answers (.refl _) ⟨by rw [after.own], agree.advance after.engines.agree⟩
  | delete t row record mark =>
    obtain ⟨rfl, place⟩ := sound
    have deleted := matched_deleteRow paired t place
    unfold turn Workspace.onEngine
    dsimp only
    generalize (deleteRow t row record true).on w₁.engine = r₁ at deleted ⊢
    generalize (deleteRow t row record true).on w₂.engine = r₂ at deleted ⊢
    cases deleted with
    | noRoomLeft => exact .noRoomLeft
    | noRoomRight => exact .noRoomRight
    | halts halt after => exact .halts halt ⟨rfl, agree.advance after.agree⟩
    | answers same after =>
      subst same
      exact .answers (.refl _) ⟨rfl, agree.advance after.agree⟩
  | method k m collected =>
    cases found : w₁.cursors[k]? with
    | none =>
      rw [turn_method_of_none found, turn_method_of_none (agree.cursors ▸ found)]
      exact .answers (.refl _) ⟨rfl, agree⟩
    | some cursor =>
      obtain ⟨scan, state, rfl, file⟩ := cursor_of_overFiles files found
      have ran := Cursor.matched_run paired file m collected state steps
      rw [turn_method_of_some found, turn_method_of_some (agree.cursors ▸ found)]
      generalize (Cursor.file scan state).run m collected w₁.engine steps = r₁ at ran ⊢
      generalize (Cursor.file scan state).run m collected w₂.engine steps = r₂ at ran ⊢
      have moved {e₁ e₂ : Engine} (engines : e₁.Agree e₂) (cursor : Cursor) :
          ((w₁.advance e₁).setCursor k cursor).Agree ((w₂.advance e₂).setCursor k cursor) :=
        ⟨engines, agree.statuses, congrArg (·.set k cursor) agree.cursors, agree.held⟩
      cases ran with
      | noRoomLeft => exact .noRoomLeft
      | noRoomRight => exact .noRoomRight
      | halts halt after =>
        refine .halts halt ⟨by rw [after.collected], ?_⟩
        rw [after.cursor]
        exact moved after.engines.agree _
      | answers same after =>
        subst same
        refine .answers (.refl _) ⟨by rw [after.collected], ?_⟩
        rw [after.cursor]
        exact moved after.engines.agree _

end Turn

end Call

end Tablespace
