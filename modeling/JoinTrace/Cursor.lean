namespace JoinTrace

-- A reader over a list that can take back the last entry it gave, once. `behind` holds what was
-- read, the latest first.
structure Cursor (ε : Type) where
  behind : List ε
  ahead : List ε
  canStepBack : Bool
  deriving DecidableEq

namespace Cursor
variable {ε : Type}

def ofList (entries : List ε) : Cursor ε := ⟨[],entries,false⟩

def peek (cursor : Cursor ε) : Option ε := cursor.ahead.head?

-- Reading at the end changes nothing, so it also leaves the permission to step back as it was.
def next (cursor : Cursor ε) : Option (ε × Cursor ε) :=
  match cursor.ahead with
  | [] => none
  | entry :: rest => some (entry,⟨entry :: cursor.behind,rest,true⟩)

def stepBack (cursor : Cursor ε) : Option (Cursor ε) :=
  match cursor.canStepBack,cursor.behind with
  | true,entry :: earlier => some ⟨earlier,entry :: cursor.ahead,false⟩
  | _,_ => none

def position (cursor : Cursor ε) : Nat := cursor.behind.length

def remaining (cursor : Cursor ε) : Nat := cursor.ahead.length

def isExhausted (cursor : Cursor ε) : Bool := cursor.remaining == 0

theorem next_eq_some {cursor after : Cursor ε} {entry : ε}
    (read : cursor.next = some (entry,after)) :
    cursor.ahead = entry :: after.ahead ∧ after.behind = entry :: cursor.behind ∧
      after.canStepBack = true := by
  unfold next at read
  split at read
  · cases read
  · rename_i equal
    cases Option.some.inj read
    exact ⟨equal,rfl,rfl⟩

theorem next_remaining {cursor after : Cursor ε} {entry : ε}
    (read : cursor.next = some (entry,after)) : after.remaining < cursor.remaining := by
  simp [remaining,(next_eq_some read).1]

theorem next_eq_none {cursor : Cursor ε} : cursor.next = none ↔ cursor.ahead = [] := by
  unfold next
  split <;> simp_all

theorem stepBack_next {cursor after : Cursor ε} {entry : ε}
    (read : cursor.next = some (entry,after)) :
    after.stepBack = some { cursor with canStepBack := false } := by
  obtain ⟨split,kept,allowed⟩ := next_eq_some read
  simp [stepBack,kept,allowed,split]

def whole (cursor : Cursor ε) : List ε := cursor.behind.reverse ++ cursor.ahead

theorem position_add_remaining (cursor : Cursor ε) :
    cursor.position+cursor.remaining = cursor.whole.length := by
  simp [position,remaining,whole]

structure Follows (earlier later : Cursor ε) : Prop where
  whole : later.whole = earlier.whole
  remaining : later.remaining ≤ earlier.remaining

theorem Follows.refl (cursor : Cursor ε) : cursor.Follows cursor := ⟨rfl,Nat.le_refl _⟩

theorem Follows.trans {first second third : Cursor ε} (one : first.Follows second)
    (two : second.Follows third) : first.Follows third :=
  ⟨two.whole.trans one.whole,Nat.le_trans two.remaining one.remaining⟩

theorem follows_next {cursor after : Cursor ε} {entry : ε}
    (read : cursor.next = some (entry,after)) : cursor.Follows after := by
  obtain ⟨ahead,behind,_⟩ := next_eq_some read
  exact ⟨by simp [whole,ahead,behind],Nat.le_of_lt (next_remaining read)⟩

end Cursor
end JoinTrace
