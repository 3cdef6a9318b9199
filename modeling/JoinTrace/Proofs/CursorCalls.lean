import Mathlib.Data.List.Basic
import JoinTrace.Cursor

namespace JoinTrace

namespace Cursor
variable {ε : Type} {entries : List ε} {cursor : Cursor ε}

inductive Call where
  | peek
  | next
  | stepBack

inductive Answer (ε : Type) where
  | shown (entry : Option ε)
  | read (entry : Option ε)
  | steppedBack
  | refused (position : Nat)
  deriving DecidableEq

namespace Answer

def isReading : Answer ε → Bool
  | .read (some _) => true
  | _ => false

def isStepBack : Answer ε → Bool
  | .steppedBack => true
  | _ => false

end Answer

-- A refused step back leaves the cursor as it was, and so does reading at the end.
def perform (cursor : Cursor ε) : Call → Answer ε × Cursor ε
  | .peek => (.shown cursor.peek,cursor)
  | .next =>
    match cursor.next with
    | none => (.read none,cursor)
    | some (entry,after) => (.read (some entry),after)
  | .stepBack =>
    match cursor.stepBack with
    | none => (.refused cursor.position,cursor)
    | some earlier => (.steppedBack,earlier)

def performAll (cursor : Cursor ε) : List Call → List (Answer ε) × Cursor ε
  | [] => ([],cursor)
  | call :: calls =>
    let (answer,after) := cursor.perform call
    let (answers,last) := after.performAll calls
    (answer :: answers,last)

theorem performAll_cons (cursor : Cursor ε) (call : Call) (calls : List Call) :
    cursor.performAll (call :: calls) =
      ((cursor.perform call).1 :: ((cursor.perform call).2.performAll calls).1,
        ((cursor.perform call).2.performAll calls).2) := rfl

theorem performAll_concat (cursor : Cursor ε) (calls : List Call) (call : Call) :
    cursor.performAll (calls ++ [call]) =
      ((cursor.performAll calls).1 ++ [((cursor.performAll calls).2.perform call).1],
        ((cursor.performAll calls).2.perform call).2) := by
  induction calls generalizing cursor with
  | nil => rfl
  | cons first calls ih =>
    rw [List.cons_append,performAll_cons,ih,performAll_cons,List.cons_append]

-- The same reader with a number for its place in a list that stays as it is.
structure Counter where
  index : Nat
  canStepBack : Bool
  deriving DecidableEq

namespace Counter

def perform (entries : List ε) (counter : Counter) : Call → Option (Answer ε × Counter)
  | .peek => some (.shown entries[counter.index]?,counter)
  | .next =>
    match entries[counter.index]? with
    | none => some (.read none,counter)
    | some entry => some (.read (some entry),⟨counter.index+1,true⟩)
  | .stepBack =>
    match counter.canStepBack,counter.index with
    | false,index => some (.refused index,counter)
    | true,0 => none
    | true,index+1 => some (.steppedBack,⟨index,false⟩)

def performAll (entries : List ε) (counter : Counter) :
    List Call → Option (List (Answer ε) × Counter)
  | [] => some ([],counter)
  | call :: calls => do
    let (answer,after) ← counter.perform entries call
    let (answers,last) ← after.performAll entries calls
    return (answer :: answers,last)

end Counter

def counter (cursor : Cursor ε) : Counter := ⟨cursor.position,cursor.canStepBack⟩

-- A cursor somewhere in a list. One that may step back has an entry to step back over.
structure Stands (entries : List ε) (cursor : Cursor ε) : Prop where
  whole : cursor.whole = entries
  room : cursor.canStepBack = true → 0 < cursor.position

theorem stands_ofList (entries : List ε) : Stands entries (ofList entries) :=
  ⟨rfl,fun allowed => by cases allowed⟩

theorem peek_eq_getElem (cursor : Cursor ε) : cursor.peek = cursor.whole[cursor.position]? := by
  rw [whole,position,List.getElem?_append_right (by simp),List.length_reverse,Nat.sub_self,peek,
    List.head?_eq_getElem?]

theorem next_eq_peek (cursor : Cursor ε) : cursor.next.map (·.1) = cursor.peek := by
  obtain ⟨behind,ahead,canStepBack⟩ := cursor
  cases ahead <;> rfl

theorem stepBack_eq_some {earlier : Cursor ε} (stepped : cursor.stepBack = some earlier) :
    cursor.canStepBack = true ∧ earlier.whole = cursor.whole ∧
      earlier.position+1 = cursor.position ∧ earlier.canStepBack = false := by
  unfold stepBack at stepped
  split at stepped
  · rename_i allowed behind
    cases Option.some.inj stepped
    exact ⟨allowed,by simp [whole,behind],by simp [position,behind],rfl⟩
  · cases stepped

theorem Stands.stepBack_eq_none (stands : Stands entries cursor)
    (refused : cursor.stepBack = none) : cursor.canStepBack = false := by
  obtain ⟨behind,ahead,canStepBack⟩ := cursor
  cases canStepBack with
  | false => rfl
  | true =>
    have room := stands.room rfl
    cases behind with
    | nil => cases room
    | cons => cases refused

theorem Stands.place (stands : Stands entries cursor) :
    cursor.position+cursor.remaining = entries.length :=
  stands.whole ▸ cursor.position_add_remaining

inductive Performs (entries : List ε) (cursor : Cursor ε) : Call → Answer ε × Cursor ε → Prop where
  | shown : Performs entries cursor .peek (.shown entries[cursor.position]?,cursor)
  | ended (missing : entries[cursor.position]? = none) :
      Performs entries cursor .next (.read none,cursor)
  | read {entry : ε} {after : Cursor ε} (found : entries[cursor.position]? = some entry)
      (placed : after.whole = entries) (further : after.position = cursor.position+1)
      (allowed : after.canStepBack = true) :
      Performs entries cursor .next (.read (some entry),after)
  | steppedBack {earlier : Cursor ε} (allowed : cursor.canStepBack = true)
      (placed : earlier.whole = entries) (back : earlier.position+1 = cursor.position)
      (spent : earlier.canStepBack = false) :
      Performs entries cursor .stepBack (.steppedBack,earlier)
  | refused (barred : cursor.canStepBack = false) :
      Performs entries cursor .stepBack (.refused cursor.position,cursor)

theorem Stands.performs (stands : Stands entries cursor) (call : Call) :
    Performs entries cursor call (cursor.perform call) := by
  have here := cursor.peek_eq_getElem
  rw [stands.whole] at here
  cases call with
  | peek =>
    rw [perform,here]
    exact .shown
  | next =>
    have seen := cursor.next_eq_peek.trans here
    rw [perform]
    cases read : cursor.next with
    | none => exact .ended (by rw [← seen,read]; rfl)
    | some given =>
      obtain ⟨entry,after⟩ := given
      obtain ⟨_,behind,allowed⟩ := next_eq_some read
      refine .read (by rw [← seen,read]; rfl) ((follows_next read).whole.trans stands.whole) ?_ allowed
      simp [position,behind]
  | stepBack =>
    rw [perform]
    cases stepped : cursor.stepBack with
    | none => exact .refused (stands.stepBack_eq_none stepped)
    | some earlier =>
      obtain ⟨allowed,placed,back,spent⟩ := stepBack_eq_some stepped
      exact .steppedBack allowed (placed.trans stands.whole) back spent

theorem Stands.nothing_iff (stands : Stands entries cursor) :
    entries[cursor.position]? = none ↔ cursor.position = entries.length := by
  have place := stands.place
  rw [List.getElem?_eq_none_iff]
  omega

theorem Stands.shows (stands : Stands entries cursor) :
    cursor.perform .peek = (.shown entries[cursor.position]?,cursor) := by
  have performs := stands.performs .peek
  generalize cursor.perform .peek = result at performs
  cases performs
  rfl

theorem Stands.reads (stands : Stands entries cursor) :
    (cursor.perform .next).1 = .read entries[cursor.position]? ∧
      ((cursor.perform .next).2 = cursor ↔ cursor.position = entries.length) := by
  rw [← stands.nothing_iff]
  have performs := stands.performs .next
  generalize cursor.perform .next = result at performs
  cases performs with
  | ended missing => exact ⟨congrArg Answer.read missing.symm,iff_of_true rfl missing⟩
  | @read entry after found _ further =>
    have moved : after ≠ cursor := fun same => by
      rw [same] at further
      omega
    exact ⟨congrArg Answer.read found.symm,iff_of_false moved (by simp [found])⟩

variable {call : Call} {answer : Answer ε} {after : Cursor ε}

theorem Performs.stands (performs : Performs entries cursor call (answer,after))
    (stands : Stands entries cursor) : Stands entries after := by
  cases performs with
  | shown => exact stands
  | ended => exact stands
  | read _ placed further => exact ⟨placed,fun _ => by omega⟩
  | steppedBack _ placed _ spent => exact ⟨placed,fun allowed => by cases spent.symm.trans allowed⟩
  | refused => exact stands

theorem Performs.counter (performs : Performs entries cursor call (answer,after)) :
    cursor.counter.perform entries call = some (answer,after.counter) := by
  cases performs with
  | shown => rfl
  | ended missing => simp [Counter.perform,Cursor.counter,missing]
  | read found _ further allowed => simp [Counter.perform,Cursor.counter,found,further,allowed]
  | steppedBack allowed _ back spent => simp [Counter.perform,Cursor.counter,allowed,← back,spent]
  | refused barred => simp [Counter.perform,Cursor.counter,barred]

theorem Stands.counter_performAll (stands : Stands entries cursor) (calls : List Call) :
    cursor.counter.performAll entries calls =
      some ((cursor.performAll calls).1,(cursor.performAll calls).2.counter) := by
  induction calls generalizing cursor with
  | nil => rfl
  | cons call calls ih =>
    have performs := stands.performs call
    rw [Counter.performAll,performs.counter]
    simp only [Option.bind_eq_bind,Option.bind_some,ih (performs.stands stands)]
    rfl

def ReadSince (answers : List (Answer ε)) : Prop :=
  ∃ earlier entry later, answers = earlier ++ .read (some entry) :: later ∧ .steppedBack ∉ later

theorem not_readSince_nil : ¬ ReadSince ([] : List (Answer ε)) := by
  rintro ⟨earlier,entry,later,same,_⟩
  simp at same

-- Only reading an entry allows a step back, and only a step back takes that away.
theorem readSince_concat {answers : List (Answer ε)} {answer : Answer ε} :
    ReadSince (answers ++ [answer]) ↔
      answer.isReading = true ∨ answer ≠ .steppedBack ∧ ReadSince answers := by
  constructor
  · rintro ⟨earlier,entry,later,same,never⟩
    -- The last answer is the reading itself, or one of those behind it.
    rcases List.eq_nil_or_concat' later with rfl | ⟨rest,last,rfl⟩
    · cases (List.append_inj' same rfl).2
      exact .inl rfl
    · rw [← List.cons_append,← List.append_assoc] at same
      obtain ⟨rfl,rfl⟩ := List.append_inj' same rfl |>.imp_right List.singleton_inj.mp
      refine .inr ⟨fun spent => never (by simp [spent]),earlier,entry,rest,rfl,?_⟩
      exact fun member => never (List.mem_append_left _ member)
  · rintro (reads | ⟨stays,earlier,entry,later,rfl,never⟩)
    · unfold Answer.isReading at reads
      split at reads
      · rename_i entry
        exact ⟨answers,entry,[],rfl,List.not_mem_nil⟩
      · cases reads
    · exact ⟨earlier,entry,later ++ [answer],by simp,by simp [never,stays.symm]⟩

structure Counted (entries : List ε) (answers : List (Answer ε)) (cursor : Cursor ε) : Prop
    extends Stands entries cursor where
  counted : cursor.position+answers.countP Answer.isStepBack = answers.countP Answer.isReading
  since : cursor.canStepBack = true ↔ ReadSince answers

theorem counted_ofList (entries : List ε) : Counted entries [] (ofList entries) :=
  ⟨stands_ofList entries,rfl,iff_of_false Bool.false_ne_true not_readSince_nil⟩

theorem Counted.perform {answers : List (Answer ε)} (before : Counted entries answers cursor)
    (performs : Performs entries cursor call (answer,after)) :
    Counted entries (answers ++ [answer]) after := by
  refine ⟨performs.stands before.toStands,?_,?_⟩
  · have counted := before.counted
    rw [List.countP_append,List.countP_append,List.countP_singleton,List.countP_singleton]
    cases performs with
    | shown => exact counted
    | ended => exact counted
    | read _ _ further =>
      change after.position+(answers.countP _+0) = answers.countP _+1
      omega
    | steppedBack _ _ back =>
      change after.position+(answers.countP _+1) = answers.countP _+0
      omega
    | refused => exact counted
  · rw [readSince_concat]
    cases performs with
    | shown => simp [Answer.isReading,before.since]
    | ended => simp [Answer.isReading,before.since]
    | read _ _ _ allowed => simp [Answer.isReading,allowed]
    | steppedBack _ _ _ spent => simp [Answer.isReading,spent]
    | refused => simp [Answer.isReading,before.since]

theorem Counted.performAll {answers : List (Answer ε)} (before : Counted entries answers cursor)
    (calls : List Call) :
    Counted entries (answers ++ (cursor.performAll calls).1) (cursor.performAll calls).2 := by
  induction calls generalizing answers cursor with
  | nil => simpa [Cursor.performAll] using before
  | cons call calls ih =>
    have next := ih (before.perform (before.performs call))
    rwa [List.append_assoc] at next

theorem Counted.stepsBack {answers : List (Answer ε)} (reached : Counted entries answers cursor) :
    (cursor.perform .stepBack = (.refused cursor.position,cursor) ↔ ¬ ReadSince answers) ∧
      ((∃ earlier, cursor.perform .stepBack = (.steppedBack,earlier) ∧
        earlier.position+1 = cursor.position) ↔ ReadSince answers) := by
  rw [← reached.since]
  have performs := reached.performs .stepBack
  generalize cursor.perform .stepBack = result at performs
  cases performs with
  | @steppedBack earlier allowed _ back =>
    exact ⟨iff_of_false (by simp) (not_not_intro allowed),iff_of_true ⟨earlier,rfl,back⟩ allowed⟩
  | refused barred =>
    have barred : ¬ cursor.canStepBack = true := by simp [barred]
    exact ⟨iff_of_true rfl barred,iff_of_false (by simp) barred⟩

theorem calls_counted (entries : List ε) (calls : List Call) :
    let answers := ((ofList entries).performAll calls).1
    let cursor := ((ofList entries).performAll calls).2
    (Counter.performAll entries ⟨0,false⟩ calls =
        some (answers,⟨cursor.position,cursor.canStepBack⟩) ∧
      ∀ call, (ofList entries).performAll (calls ++ [call]) =
        (answers ++ [(cursor.perform call).1],(cursor.perform call).2)) ∧
    (cursor.position+answers.countP Answer.isStepBack = answers.countP Answer.isReading ∧
      cursor.position ≤ entries.length ∧ cursor.position+cursor.remaining = entries.length ∧
      (cursor.isExhausted = true ↔ cursor.position = entries.length)) ∧
    ((entries[cursor.position]? = none ↔ cursor.position = entries.length) ∧
      cursor.perform .peek = (.shown entries[cursor.position]?,cursor) ∧
      (cursor.perform .next).1 = .read entries[cursor.position]? ∧
      ((cursor.perform .next).2 = cursor ↔ cursor.position = entries.length)) ∧
    (cursor.perform .stepBack = (.refused cursor.position,cursor) ↔ ¬ ReadSince answers) ∧
    ((∃ earlier, cursor.perform .stepBack = (.steppedBack,earlier) ∧
      earlier.position+1 = cursor.position) ↔ ReadSince answers) := by
  intro answers cursor
  have reached : Counted entries answers cursor := (counted_ofList entries).performAll calls
  have answered := (stands_ofList entries).counter_performAll calls
  have place := reached.place
  refine ⟨⟨answered,performAll_concat _ calls⟩,⟨reached.counted,by omega,place,?_⟩,
    ⟨reached.nothing_iff,reached.shows,reached.reads⟩,reached.stepsBack⟩
  simp only [isExhausted,beq_iff_eq]
  omega

example : ((ofList [7,8]).performAll [.next,.next,.next,.stepBack,.stepBack,.peek]).1 =
    [.read (some 7),.read (some 8),.read none,.steppedBack,.refused 1,.shown (some 8)] := rfl

end Cursor
end JoinTrace
