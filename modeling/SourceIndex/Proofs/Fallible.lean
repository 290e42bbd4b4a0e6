/-! Steps that can fail, one behind the other: together they give a value where the first gives
one and the others go on from it to that value. -/
namespace SourceIndex

variable {action : Except ε α} {further : α → Except ε β} {value : α}

theorem ok_bind : (Except.ok value : Except ε α) >>= further = further value := rfl

theorem bind_eq_ok_iff {result : β} : action >>= further = .ok result ↔
    ∃ middle, action = .ok middle ∧ further middle = .ok result := by
  cases action <;> simp [bind, Except.bind]

theorem map_eq_ok_iff {change : α → β} {result : β} : action.map change = .ok result ↔
    ∃ middle, action = .ok middle ∧ change middle = result := by
  cases action <;> simp [Except.map]

end SourceIndex
