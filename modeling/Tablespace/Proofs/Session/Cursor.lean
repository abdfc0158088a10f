import Tablespace.Proofs.Heap.Scan
import Tablespace.Session.Call

/-!
# What a cursor over a file gives

A cursor over a file does what the scan of the file does. A method of it only
looks (`Cursor.looks_run`). A cursor that was started gives the rows of the
pages that it has behind it, one by one or all that are left; what it has
collected and not yet given counts as given.
-/

namespace Tablespace

namespace Operator

variable {s : HeapScan} {e e' : Engine} {pos : ScanPosition} {given : List Tuple}
  {collected : Array Tuple} {fuel : Nat} {steps : Option Nat}

/-- The state of a scan operator after a turn of its scan. -/
def rescan {α : Type} (collected : Array Tuple) (r : Except Halt α × ScanPosition × Engine) :
    Except Halt α × (Array Tuple × Option ScanPosition) × Engine :=
  (r.1, (collected, some r.2.1), r.2.2)

theorem on_hasNext_ofFile :
    (behind (ofFile s steps).hasNext).on ((collected, some pos), e)
      = rescan collected ((s.hasNext steps).on (pos, e)) :=
  rfl

theorem on_next_ofFile :
    (behind (ofFile s steps).next).on ((collected, some pos), e)
      = rescan collected ((s.next steps).on (pos, e)) :=
  rfl

/-- A drain gives row after row, until there is none. -/
theorem on_drain :
    ((ofFile s steps).drain (fuel + 1)).on ((collected, some pos), e)
      = match (s.hasNext steps).on (pos, e) with
        | (.ok true, pos₁, e₁) => match (s.next steps).on (pos₁, e₁) with
          | (.ok row, pos₂, e₂) =>
            ((ofFile s steps).drain fuel).on ((collected.push row, some pos₂), e₂)
          | (.error halt, pos₂, e₂) => (.error halt, (collected, some pos₂), e₂)
        | (.ok false, pos₁, e₁) => (.ok collected, (collected, some pos₁), e₁)
        | (.error halt, pos₁, e₁) => (.error halt, (collected, some pos₁), e₁) := by
  rw [drain, Turn.on_bind, on_hasNext_ofFile]
  cases (s.hasNext steps).on (pos, e) with | mk outcome state =>
  obtain ⟨pos₁, e₁⟩ := state
  cases outcome with
  | error halt => rfl
  | ok b =>
    cases b with
    | false => rfl
    | true =>
      dsimp only [rescan]
      rw [if_pos rfl, Turn.on_bind, on_next_ofFile]
      cases (s.next steps).on (pos₁, e₁) with | mk outcome state =>
      obtain ⟨pos₂, e₂⟩ := state
      cases outcome with
      | error halt => rfl
      | ok row => rfl

variable (e pos collected fuel steps) in
/-- All that a drain does to the engine is to fetch pages. -/
theorem drain_closed {R : Engine → Engine → Prop} (closed : Engine.FetchClosed s.txn R) :
    R e (((ofFile s steps).drain fuel).on ((collected, some pos), e)).2.2 := by
  induction fuel generalizing collected pos e with
  | zero => exact closed.refl _
  | succ fuel ih =>
    have first := HeapScan.hasNext_closed e pos steps closed
    rw [on_drain]
    cases asked : (s.hasNext steps).on (pos, e) with | mk outcome state =>
    obtain ⟨pos₁, e₁⟩ := state
    rw [asked] at first
    have second := HeapScan.next_closed e₁ pos₁ steps closed
    cases outcome with
    | error halt => exact first
    | ok b =>
      cases b with
      | false => exact first
      | true =>
        dsimp only
        cases gave : (s.next steps).on (pos₁, e₁) with | mk outcome state =>
        obtain ⟨pos₂, e₂⟩ := state
        rw [gave] at second
        cases outcome with
        | error halt => exact closed.trans _ _ _ first second
        | ok row => exact closed.trans _ _ _ (closed.trans _ _ _ first second) (ih ..)

/-- **A drain collects the rows that are left**, and then the scan is at its
end. Cut short, it keeps what it has collected. -/
theorem drain_spec (coherent : e.Coherent) (file : e.catalog.file s.file.table = .ok s.file)
    (reading : s.Reading (given ++ collected.toList) pos e) (enough : s.left pos e < fuel) :
    ∃ outcome collected' pos' e',
      ((ofFile s steps).drain fuel).on ((collected, some pos), e)
        = (outcome, (collected', some pos'), e')
      ∧ s.Reading (given ++ collected'.toList) pos' e'
      ∧ ∀ rows, outcome = .ok rows → rows = collected' ∧ s.AtEnd pos' e' := by
  induction fuel generalizing collected pos e with
  | zero => exact absurd enough (Nat.not_lt_zero _)
  | succ fuel ih =>
    have first := HeapScan.looks_hasNext s pos steps coherent
    obtain ⟨outcome, pos₁, e₁, asked, reading₁, less, -, none, -⟩ :=
      HeapScan.hasNext_spec coherent file reading
    rw [asked] at first
    have effect₁ := first.moves.effect coherent
    have file₁ := effect₁.catalog ▸ file
    rw [on_drain, asked]
    cases outcome with
    | error halt => exact ⟨_, _, _, _, rfl, reading₁, by simp⟩
    | ok b =>
      cases b with
      | false =>
        exact ⟨_, _, _, _, rfl, reading₁, fun rows eq => ⟨(Except.ok.inj eq).symm, none rfl⟩⟩
      | true =>
        have second := HeapScan.looks_next s pos₁ steps effect₁.coherent
        obtain ⟨outcome, pos₂, e₂, gave, spec⟩ :=
          HeapScan.next_spec effect₁.coherent file₁ reading₁
        rw [gave] at second
        have effect₂ := second.moves.effect effect₁.coherent
        dsimp only
        rw [gave]
        cases outcome with
        | error halt => exact ⟨_, _, _, _, rfl, spec.1, by simp⟩
        | ok row =>
          -- every row that is given leaves fewer to come
          obtain ⟨reading₂, fewer⟩ := spec
          refine ih effect₂.coherent (effect₂.catalog ▸ file₁) ?_ (by dsimp only at fewer; omega)
          rw [Array.toList_push, ← List.append_assoc]
          exact reading₂

end Operator

namespace Cursor

variable {s : HeapScan} {e : Engine} {pos : ScanPosition} {given : List Tuple}
  {collected : Array Tuple} {state : Option ScanPosition} {m : Method} {steps : Option Nat}

/-- A cursor that is asked for a row asks its scan. -/
theorem run_hasNext_file :
    (file s (some pos)).run .hasNext collected e steps
      = match (s.hasNext steps).on (pos, e) with
        | (.ok b, pos', e') => (.ok (.truth b), collected, file s (some pos'), e')
        | (.error halt, pos', e') => (.error halt, collected, file s (some pos'), e') := by
  rw [run]
  dsimp only [Operator.run]
  rw [Turn.on_bind, Operator.on_hasNext_ofFile]
  rcases (s.hasNext steps).on (pos, e) with ⟨outcome, pos', e'⟩
  cases outcome <;> rfl

/-- A cursor that gives a row takes it from its scan. -/
theorem run_next_file :
    (file s (some pos)).run .next collected e steps
      = match (s.next steps).on (pos, e) with
        | (.ok row, pos', e') => (.ok (.row row), collected, file s (some pos'), e')
        | (.error halt, pos', e') => (.error halt, collected, file s (some pos'), e') := by
  rw [run]
  dsimp only [Operator.run]
  rw [Turn.on_bind, Operator.on_next_ofFile]
  rcases (s.next steps).on (pos, e) with ⟨outcome, pos', e'⟩
  cases outcome <;> rfl

/-- A cursor that gives all that is left drains its scan. -/
theorem run_collect_file :
    (file s state).run .collect collected e steps
      = match ((Operator.ofFile s steps).drain ((Operator.ofFile s steps).bound state e + 1)).on
          ((collected, state), e) with
        | (.ok rows, own, e') => (.ok (.rows rows.toList), own.1, file s own.2, e')
        | (.error halt, own, e') => (.error halt, own.1, file s own.2, e') := by
  rw [run]
  dsimp only [Operator.run]
  rw [Turn.on_bind, Operator.collect, Turn.on_bind_ok (Turn.on_get _)]
  dsimp only
  cases ((Operator.ofFile s steps).drain ((Operator.ofFile s steps).bound state e + 1)).on
    ((collected, state), e) with | mk outcome state =>
  cases outcome <;> rfl

/-- All that a method of a cursor over a file does to the engine is to fetch
pages. -/
theorem run_closed {R : Engine → Engine → Prop} (closed : Engine.FetchClosed s.txn R) :
    R e ((file s state).run m collected e steps).2.2.2 := by
  cases m with
  | start => exact closed.refl _
  | rewind => exact closed.refl _
  | close => exact closed.refl _
  | hasNext =>
    cases state with
    | none => exact closed.refl _
    | some pos =>
      have asked := HeapScan.hasNext_closed e pos steps closed
      rw [run_hasNext_file]
      cases h : (s.hasNext steps).on (pos, e) with | mk outcome state =>
      rw [h] at asked
      cases outcome <;> exact asked
  | next =>
    cases state with
    | none => exact closed.refl _
    | some pos =>
      have gave := HeapScan.next_closed e pos steps closed
      rw [run_next_file]
      cases h : (s.next steps).on (pos, e) with | mk outcome state =>
      rw [h] at gave
      cases outcome <;> exact gave
  | collect =>
    cases state with
    | none => exact closed.refl _
    | some pos =>
      have drained := Operator.drain_closed e pos collected
        ((Operator.ofFile s steps).bound (some pos) e + 1) steps closed
      rw [run_collect_file]
      cases h : ((Operator.ofFile s steps).drain
        ((Operator.ofFile s steps).bound (some pos) e + 1)).on ((collected, some pos), e) with
      | mk outcome own =>
      rw [h] at drained
      cases outcome <;> exact drained

variable (s state m collected steps) in
/-- **A method of a cursor over a file only looks**, and the cursor stays one
over that file. -/
theorem looks_run (coherent : e.Coherent) :
    ∃ state', ((file s state).run m collected e steps).2.2.1 = file s state'
      ∧ Engine.Looks s.txn e ((file s state).run m collected e steps).2.2.2 :=
  ⟨_, rfl, run_closed (Engine.fetchClosed_looks s.txn) coherent⟩

section Reading

variable (coherent : e.Coherent) (file : e.catalog.file s.file.table = .ok s.file)

include coherent file

variable (collected steps) in
/-- A cursor that is asked for a row. -/
theorem run_hasNext (reading : s.Reading given pos e) :
    ∃ outcome pos' e', (Cursor.file s (some pos)).run .hasNext collected e steps
        = (outcome, collected, .file s (some pos'), e')
      ∧ s.Reading given pos' e'
      ∧ ∀ answer, outcome = .ok answer →
        ∃ b, answer = .truth b ∧ (b = false → s.AtEnd pos' e') := by
  obtain ⟨outcome, pos', e', asked, reading', -, -, none, -⟩ :=
    HeapScan.hasNext_spec coherent file reading
  rw [run_hasNext_file, asked]
  cases outcome with
  | error halt => exact ⟨_, _, _, rfl, reading', fun answer eq => by cases eq⟩
  | ok b =>
    refine ⟨_, _, _, rfl, reading', fun answer eq => ⟨b, (Except.ok.inj eq).symm, ?_⟩⟩
    rintro rfl
    exact none rfl

variable (collected steps) in
/-- A cursor that gives a row. -/
theorem run_next (reading : s.Reading given pos e) :
    ∃ outcome pos' e', (Cursor.file s (some pos)).run .next collected e steps
        = (outcome, collected, .file s (some pos'), e')
      ∧ match outcome with
        | .ok answer => ∃ row, answer = .row row ∧ s.Reading (given ++ [row]) pos' e'
        | .error halt =>
          s.Reading given pos' e' ∧ (halt = .fault .noSuchElement → s.AtEnd pos' e') := by
  obtain ⟨outcome, pos', e', gave, spec⟩ := HeapScan.next_spec coherent file reading
  rw [run_next_file, gave]
  cases outcome with
  | error halt => exact ⟨_, _, _, rfl, spec⟩
  | ok row => exact ⟨_, _, _, rfl, row, rfl, spec.1⟩

variable (steps) in
/-- **A cursor that gives all that is left.** -/
theorem run_collect (reading : s.Reading (given ++ collected.toList) pos e) :
    ∃ outcome collected' pos' e', (Cursor.file s (some pos)).run .collect collected e steps
        = (outcome, collected', .file s (some pos'), e')
      ∧ s.Reading (given ++ collected'.toList) pos' e'
      ∧ ∀ answer, outcome = .ok answer → answer = .rows collected'.toList ∧ s.AtEnd pos' e' := by
  have enough : s.left pos e < (Operator.ofFile s steps).bound (some pos) e + 1 := by
    show s.left pos e < s.bound pos e + 1
    rw [HeapScan.left, HeapScan.bound]
    -- the bound reckons with a full page for each page of the file
    have fewer : ((s.file.pageCount e.volume).toNat - pos.next) * Layout.maxSlots
        ≤ ((s.file.pageCount e.volume).toNat + 1) * Layout.maxSlots :=
      Nat.mul_le_mul_right _ (by omega)
    omega
  obtain ⟨outcome, collected', pos', e', drained, reading', ends⟩ :=
    Operator.drain_spec coherent file reading enough
  rw [run_collect_file, drained]
  cases outcome with
  | error halt => exact ⟨_, _, _, _, rfl, reading', by simp⟩
  | ok rows =>
    refine ⟨_, _, _, _, rfl, reading', fun answer eq => ?_⟩
    obtain ⟨same, atEnd⟩ := ends rows rfl
    exact ⟨by rw [← Except.ok.inj eq, same], atEnd⟩

end Reading

end Cursor

end Tablespace
