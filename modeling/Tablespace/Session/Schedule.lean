/-!
# Blocked calls

A call that has to wait, or is not to go on for now, is set aside and asked
again later. What it has done so far is in the call or in the state it works
on, so that asking again is all there is to resuming it.

A **round** asks every blocked call once, in the order in which the calls
were made; those that finish are taken out with their answers. Blocked calls
are **settled** by rounds until a round changes nothing: no call finishes,
and none gets any further.
-/

namespace Tablespace

/-- **What asking a call comes to.** -/
inductive Asked (τ α : Type) where
  /-- The call is finished. -/
  | answered (answer : α)
  /-- The call is set aside; `moved` tells whether it got any further. -/
  | blocked (moved : Bool) (call : τ)

/-- **A blocked call**, and the number by which its caller knows it. -/
structure Blocked (τ : Type) where
  /-- The caller's number for the call. -/
  ticket : Nat
  /-- The call, as far as it has come. -/
  call : τ
  deriving DecidableEq

/-- **What a round comes to.** -/
structure RoundResult (σ τ α : Type) where
  /-- The answers of the calls that finished. -/
  answers : List (Nat × α)
  /-- The calls still blocked. -/
  blocked : List (Blocked τ)
  /-- Whether some call finished or got any further. -/
  moved : Bool
  /-- The state after the round. -/
  state : σ

namespace Blocked

variable {σ τ α : Type}

/-- **Asks every blocked call once.** -/
def round (ask : τ → σ → Asked τ α × σ) : List (Blocked τ) → σ → RoundResult σ τ α
  | [], s => ⟨[], [], false, s⟩
  | b :: bs, s =>
    match ask b.call s with
    | (.answered a, s') =>
      let r := round ask bs s'
      ⟨(b.ticket, a) :: r.answers, r.blocked, true, r.state⟩
    | (.blocked moved call, s') =>
      let r := round ask bs s'
      ⟨r.answers, ⟨b.ticket, call⟩ :: r.blocked, moved || r.moved, r.state⟩

/-- **Settles blocked calls**, in at most so many rounds. -/
def settle (ask : τ → σ → Asked τ α × σ) : (rounds : Nat) → List (Blocked τ) → σ →
    RoundResult σ τ α
  | 0, bs, s => ⟨[], bs, true, s⟩
  | rounds + 1, bs, s =>
    let r := round ask bs s
    if r.moved then
      let later := settle ask rounds r.blocked r.state
      { later with answers := r.answers ++ later.answers }
    else r

end Blocked

end Tablespace
