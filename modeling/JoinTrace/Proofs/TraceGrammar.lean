import JoinTrace.Replayer

-- The lists a replay accepts, said without a reader: what is left of the initial stage, then whole
-- joins with other heaps' restarts between them, then at most one join the trace does not end.
namespace JoinTrace

namespace Event
variable {α : Type} {event : Event α}

theorem isRestartStart_iff : event.isRestartStart = true ↔
    (event.kind = .restart ∧ event.stage = .restart) ∧ event.edge = .start := by
  simp [isRestartStart,isRestart]

theorem isRestartEnd_iff : event.isRestartEnd = true ↔
    (event.kind = .restart ∧ event.stage = .restart) ∧ event.edge = .finish := by
  simp [isRestartEnd,isRestart]

theorem isJoinStart_iff : event.isJoinStart = true ↔ event.kind = .join ∧ event.edge = .start := by
  simp [isJoinStart]

theorem isJoinEnd_iff : event.isJoinEnd = true ↔ event.kind = .join ∧ event.edge = .finish := by
  simp [isJoinEnd]

theorem isSingleThreadedStart_iff : event.isSingleThreadedStart = true ↔
    event.edge = .start ∧ (event.kind = .lastJoin ∨ event.kind = .firstRJoin) := by
  simp [isSingleThreadedStart]

-- The five classes of events exclude each other: by the edge, or else by the kind.
theorem not_isEnd (starts : event.edge = .start) :
    event.isRestartEnd = false ∧ event.isJoinEnd = false := by
  simp [isRestartEnd,isJoinEnd,starts]

theorem not_isStart (ends : event.edge = .finish) :
    event.isRestartStart = false ∧ event.isJoinStart = false := by
  simp [isRestartStart,isJoinStart,ends]

theorem not_isRestart (other : event.kind ≠ .restart) :
    event.isRestartStart = false ∧ event.isRestartEnd = false := by
  simp [isRestartStart,isRestartEnd,isRestart,other]

theorem not_isJoin (other : event.kind ≠ .join) :
    event.isJoinStart = false ∧ event.isJoinEnd = false := by
  simp [isJoinStart,isJoinEnd,other]

end Event

structure Join (α : Type) where
  start : Event α
  finish : Event α

def Join.stage {α : Type} (join : Join α) : Stage := join.start.stage

def Join.observation {α : Type} [Scalar α] (join : Join α) : Observation α :=
  ⟨join.stage,join.finish.time - join.start.time⟩

namespace TraceGrammar
variable {α : Type}

inductive MaybeRestartEnd : List (Event α) → Prop where
  | absent : MaybeRestartEnd []
  | present {event : Event α} (ends : event.isRestartEnd) : MaybeRestartEnd [event]

inductive MaybeRestart : List (Event α) → Prop where
  | absent : MaybeRestart []
  | present {event : Event α} {rest : List (Event α)} (starts : event.isRestartStart)
      (tail : MaybeRestartEnd rest) : MaybeRestart (event :: rest)

def EndsInitial (event : Event α) : Prop :=
  event.isJoinEnd ∧ event.stage = .generationDetermined

instance (event : Event α) : Decidable (EndsInitial event) := inferInstanceAs (Decidable (_ ∧ _))

inductive Opening : List (Event α) → Prop where
  | restart {event : Event α} {rest : List (Event α)} (starts : event.isRestartStart)
      (leftover : ∀ later ∈ rest, later.isRestartEnd ∨ EndsInitial later) : Opening (event :: rest)
  | whole {first last : Event α} (starts : first.isJoinStart)
      (initial : first.stage = .generationDetermined) (ends : EndsInitial last) :
      Opening [first, last]
  | lone {event : Event α} (ends : EndsInitial event) : Opening [event]

inductive Item : List (Event α) → List (Join α) → Prop where
  | foreign {event : Event α} {rest : List (Event α)} (starts : event.isRestartStart)
      (tail : MaybeRestartEnd rest) : Item (event :: rest) []
  | waited {start finish : Event α} {between rest : List (Event α)} (starts : start.isJoinStart)
      (passing : MaybeRestart between) (ends : finish.isJoinEnd)
      (same : finish.stage = start.stage) (tail : MaybeRestartEnd rest) :
      Item (start :: (between ++ finish :: rest)) [⟨start,finish⟩]
  | alone {start restart finish : Event α} (starts : start.isSingleThreadedStart)
      (restarts : restart.isRestartStart) (ends : finish.isRestartEnd) :
      Item [start, restart, finish] [⟨start,finish⟩]

inductive Items : List (Event α) → List (Join α) → Prop where
  | nil : Items [] []
  | cons {front back : List (Event α)} {joins later : List (Join α)} (first : Item front joins)
      (rest : Items back later) : Items (front ++ back) (joins ++ later)

def Tolerated : TrailingPolicy → Stage → Prop
  | .doneOnly,stage => stage = .done
  | .any,_ => True
  | .strict,_ => False

theorem tolerates_iff {policy : TrailingPolicy} {stage : Stage} :
    policy.tolerates stage = true ↔ Tolerated policy stage := by
  cases policy <;> simp [TrailingPolicy.tolerates,Tolerated]

inductive Tail (policy : TrailingPolicy) : List (Event α) → Option (Event α) → Prop where
  | ended : Tail policy [] none
  | waiting {start : Event α} {rest : List (Event α)} (starts : start.isJoinStart)
      (passing : MaybeRestart rest) (tolerated : Tolerated policy start.stage) :
      Tail policy (start :: rest) (some start)
  | alone {start : Event α} (starts : start.isSingleThreadedStart)
      (tolerated : Tolerated policy start.stage) : Tail policy [start] (some start)
  | restarting {start restart : Event α} (starts : start.isSingleThreadedStart)
      (restarts : restart.isRestartStart) (tolerated : Tolerated policy start.stage) :
      Tail policy [start, restart] (some start)

inductive Accepted (policy : TrailingPolicy) :
    List (Event α) → List (Join α) → Option (Event α) → Prop where
  | empty : Accepted policy [] [] none
  | traced {front middle back : List (Event α)} {joins : List (Join α)} {cut : Option (Event α)}
      (opening : Opening front) (items : Items middle joins) (tail : Tail policy back cut) :
      Accepted policy (front ++ (middle ++ back)) joins cut

-- Items and tails begin with a start, so an end read ahead belongs to what came before.
def Fresh (events : List (Event α)) : Prop := ∀ event ∈ events.head?, event.edge = .start

theorem fresh_nil : Fresh ([] : List (Event α)) := by simp [Fresh]

theorem fresh_cons {event : Event α} {rest : List (Event α)} :
    Fresh (event :: rest) ↔ event.edge = .start := by simp [Fresh]

theorem Item.fresh {front back : List (Event α)} {joins : List (Join α)} (item : Item front joins) :
    Fresh (front ++ back) := by
  cases item with
  | foreign starts tail => exact fresh_cons.mpr ((Event.isRestartStart_iff.mp starts).2)
  | waited starts passing ends same tail => exact fresh_cons.mpr ((Event.isJoinStart_iff.mp starts).2)
  | alone starts restarts ends => exact fresh_cons.mpr ((Event.isSingleThreadedStart_iff.mp starts).1)

theorem Tail.fresh {policy : TrailingPolicy} {back : List (Event α)} {cut : Option (Event α)}
    (tail : Tail policy back cut) : Fresh back := by
  cases tail with
  | ended => exact fresh_nil
  | waiting starts passing tolerated => exact fresh_cons.mpr ((Event.isJoinStart_iff.mp starts).2)
  | alone starts tolerated => exact fresh_cons.mpr ((Event.isSingleThreadedStart_iff.mp starts).1)
  | restarting starts restarts tolerated =>
    exact fresh_cons.mpr ((Event.isSingleThreadedStart_iff.mp starts).1)

theorem Tail.begins {policy : TrailingPolicy} {start : Event α} {back : List (Event α)}
    (tail : Tail policy back (some start)) :
    ∃ rest, back = start :: rest ∧ start.edge = .start ∧ start.kind ≠ .restart := by
  have alone (starts : start.isSingleThreadedStart) :
      start.edge = .start ∧ start.kind ≠ .restart := by
    obtain ⟨edge,kind⟩ := Event.isSingleThreadedStart_iff.mp starts
    exact ⟨edge,by rcases kind with kind | kind <;> simp [kind]⟩
  cases tail with
  | waiting starts passing tolerated =>
    obtain ⟨kind,edge⟩ := Event.isJoinStart_iff.mp starts
    exact ⟨_,rfl,edge,by simp [kind]⟩
  | alone starts tolerated => exact ⟨_,rfl,alone starts⟩
  | restarting starts restarts tolerated => exact ⟨_,rfl,alone starts⟩

theorem Tail.tolerated {policy : TrailingPolicy} {start : Event α} {back : List (Event α)}
    (tail : Tail policy back (some start)) : Tolerated policy start.stage := by
  cases tail <;> assumption

theorem Items.fresh {middle back : List (Event α)} {joins : List (Join α)}
    (items : Items middle joins) (after : Fresh back) : Fresh (middle ++ back) := by
  cases items with
  | nil => exact after
  | cons first rest =>
    rw [List.append_assoc]
    exact first.fresh

theorem Items.single {front : List (Event α)} {joins : List (Join α)} (item : Item front joins) :
    Items front joins := by
  have items := Items.cons item .nil
  rwa [List.append_nil,List.append_nil] at items

theorem Items.append {front back : List (Event α)} {joins later : List (Join α)}
    (first : Items front joins) (rest : Items back later) :
    Items (front ++ back) (joins ++ later) := by
  induction first with
  | nil => exact rest
  | cons item items ih =>
    rw [List.append_assoc,List.append_assoc]
    exact .cons item ih

end TraceGrammar
end JoinTrace
