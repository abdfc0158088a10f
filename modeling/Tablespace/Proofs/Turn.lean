import Tablespace.Turn

/-!
# Turns, step by step

What a turn comes to from a state, for each way in which turns are put
together. With these equations the outcome of a turn is computed from the
outcomes of its parts, without opening the type of turns.
-/

namespace Tablespace.Turn

variable {σ τ α β : Type} (s : σ)

@[simp]
theorem on_get : (get : Turn σ σ).on s = (.ok s, s) :=
  rfl

@[simp]
theorem on_set (s' : σ) : (set s' : Turn σ PUnit).on s = (.ok ⟨⟩, s') :=
  rfl

@[simp]
theorem on_modify (f : σ → σ) : (modify f : Turn σ PUnit).on s = (.ok ⟨⟩, f s) :=
  rfl

@[simp]
theorem on_ofFn (f : σ → Except Halt α × σ) : (ofFn f).on s = f s :=
  rfl

/-- **One turn after another**: the second goes on from where the first
came to, unless the first was cut short. -/
theorem on_bind (x : Turn σ α) (f : α → Turn σ β) :
    (x >>= f).on s = match x.on s with
      | (.ok a, s') => (f a).on s'
      | (.error halt, s') => (.error halt, s') := by
  simp only [on, bind, ExceptT.bind, ExceptT.mk, StateT.bind, ExceptT.bindCont]
  cases x s with | mk outcome s' => cases outcome <;> rfl

/-- A turn after one that answered. -/
theorem on_bind_ok {x : Turn σ α} {f : α → Turn σ β} {s s' : σ} {a : α}
    (h : x.on s = (.ok a, s')) : (x >>= f).on s = (f a).on s' := by
  rw [on_bind, h]

/-- A turn after one that was cut short. -/
theorem on_bind_error {x : Turn σ α} {f : α → Turn σ β} {s s' : σ} {halt : Halt}
    (h : x.on s = (.error halt, s')) : (x >>= f).on s = (.error halt, s') := by
  rw [on_bind, h]

/-- **A turn that is mended**: what mends it goes on from where it was cut
short. -/
theorem on_tryCatch (x : Turn σ α) (mend : Halt → Turn σ α) :
    (tryCatch x mend).on s = match x.on s with
      | (.ok a, s') => (.ok a, s')
      | (.error halt, s') => (mend halt).on s' := by
  simp only [on, tryCatch, tryCatchThe, MonadExceptOf.tryCatch, ExceptT.tryCatch, ExceptT.mk, bind,
    StateT.bind]
  cases x s with | mk outcome s' => cases outcome <;> rfl

@[simp]
theorem on_within (part : σ → τ) (replace : τ → σ → σ) (x : Turn τ α) :
    (x.within part replace).on s = ((x.on (part s)).1, replace (x.on (part s)).2 s) :=
  rfl

@[simp]
theorem on_ofExcept_ok (a : α) : (ofExcept (.ok a) : Turn σ α).on s = (.ok a, s) :=
  rfl

@[simp]
theorem on_ofExcept_error (cause : Fault) :
    (ofExcept (.error cause) : Turn σ α).on s = (.error (.fault cause), s) :=
  rfl

/-! ## What turns yield -/

/-- **What a turn yields**: an answer and a state as `after` says, or a state to
have been cut short in, as `short` says. -/
def Yields (after : α → σ → Prop) (short : σ → Prop) : Except Halt α × σ → Prop
  | (.ok a, s) => after a s
  | (.error _, s) => short s

namespace Yields

variable {after : α → σ → Prop} {short : σ → Prop} {r : Except Halt α × σ}

/-- A state that is so in any case. -/
theorem state (h : Yields after short r) (imp : ∀ a s, after a s → short s) : short r.2 := by
  obtain ⟨outcome, s⟩ := r
  cases outcome with
  | ok a => exact imp a s h
  | error halt => exact h

/-- **One turn after another.** -/
theorem bind {x : Turn σ α} {f : α → Turn σ β} {s : σ} {last : β → σ → Prop}
    (first : Yields after short (x.on s))
    (rest : ∀ a s', after a s' → Yields last short ((f a).on s')) :
    Yields last short ((x >>= f).on s) := by
  rw [on_bind]
  cases ran : x.on s with | mk outcome s' =>
  rw [ran] at first
  cases outcome with
  | ok a => exact rest a s' first
  | error halt => exact first

end Yields

end Tablespace.Turn
