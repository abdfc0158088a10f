import Tablespace.Assoc

/-!
# Finite maps, key by key

What the operations on a finite map do to the value of each key, and what
those on its groups do to the members. Nothing is assumed about the list of
entries.
-/

namespace Tablespace.Assoc

variable {κ α : Type} [DecidableEq κ] {m : Assoc κ α} {key q : κ} {value : α}

@[simp]
theorem get?_empty : (empty : Assoc κ α).get? key = none :=
  rfl

/-- **Erasing** a key takes away its value and no other. -/
theorem get?_erase : (m.erase key).get? q = if q = key then none else m.get? q := by
  unfold get? erase
  rw [List.find?_filter]
  split
  · rename_i same
    rw [Option.map_eq_none_iff, List.find?_eq_none]
    intro entry _ found
    simp [same] at found
  · rename_i other
    refine congrArg (fun wanted => (m.entries.find? wanted).map (·.2)) (funext fun entry => ?_)
    by_cases here : entry.1 = q
    · simp [here, other]
    · simp [here]

/-- **Inserting** a value for a key changes no other. -/
theorem get?_insert : (m.insert key value).get? q = if q = key then some value else m.get? q := by
  unfold insert
  split
  · rename_i same
    simp [get?, same]
  · rename_i other
    have rest : (m.erase key).get? q = m.get? q := by rw [get?_erase, if_neg other]
    rw [← rest, get?, get?, List.find?_cons_of_neg (by simpa using Ne.symm other)]

/-! ## Groups -/

section

variable {g : Assoc κ (List α)} {a b : α}

@[simp]
theorem group_empty : (empty : Assoc κ (List α)).group key = [] :=
  rfl

theorem group_erase : (g.erase key).group q = if q = key then [] else g.group q := by
  rw [group, get?_erase]
  split <;> rfl

theorem group_insert {members : List α} :
    (g.insert key members).group q = if q = key then members else g.group q := by
  rw [group, get?_insert]
  split <;> rfl

variable [DecidableEq α]

theorem group_add : (g.add key a).group q
    = if q = key ∧ a ∉ g.group key then a :: g.group key else g.group q := by
  unfold add
  split
  · rename_i there
    rw [if_neg fun h => h.2 there]
  · rename_i new
    rw [group_insert]
    simp [new]

theorem group_remove : (g.remove key a).group q
    = if q = key then (g.group key).filter (· ≠ a) else g.group q := by
  unfold remove
  split
  · rename_i none
    rw [group_erase, none]
  · rw [group_insert]

/-- **Adding** a member to a group adds it there and nowhere else. -/
theorem mem_group_add : b ∈ (g.add key a).group q ↔ (q = key ∧ b = a) ∨ b ∈ g.group q := by
  rw [group_add]
  grind

/-- **Removing** a member from a group removes it there and nowhere else. -/
theorem mem_group_remove : b ∈ (g.remove key a).group q ↔ b ∈ g.group q ∧ ¬(q = key ∧ b = a) := by
  rw [group_remove]
  grind

theorem nodup_group_add (distinct : ∀ q, (g.group q).Nodup) : ((g.add key a).group q).Nodup := by
  rw [group_add]
  split
  · rename_i new
    exact List.nodup_cons.2 ⟨new.2, distinct key⟩
  · exact distinct q

theorem nodup_group_remove (distinct : ∀ q, (g.group q).Nodup) :
    ((g.remove key a).group q).Nodup := by
  rw [group_remove]
  split
  · exact (distinct key).sublist List.filter_sublist
  · exact distinct q

end

end Tablespace.Assoc
