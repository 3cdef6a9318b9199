import JoinTrace.Stage

namespace JoinTrace

abbrev HeapId := UInt32

-- A plain join waits; the last joiner and the first right-joiner go on alone until a restart.
inductive JoinKind where
  | lastJoin | join | restart | firstRJoin
  deriving DecidableEq

inductive Edge where
  | start | finish
  deriving DecidableEq

namespace JoinKind

def all : List JoinKind := [.lastJoin, .join, .restart, .firstRJoin]

def code : JoinKind → Int
  | .lastJoin => 0
  | .join => 1
  | .restart => 2
  | .firstRJoin => 3

def name : JoinKind → String
  | .lastJoin => "last_join"
  | .join => "join"
  | .restart => "restart"
  | .firstRJoin => "first_r_join"

def label : JoinKind → String
  | .lastJoin => "LastJoin"
  | .join => "Join"
  | .restart => "Restart"
  | .firstRJoin => "FirstRJoin"

def ofCode? (code : Int) : Option JoinKind := all.find? (·.code == code)

end JoinKind

namespace Edge

def all : List Edge := [.start, .finish]

def code : Edge → Int
  | .start => 0
  | .finish => 1

def name : Edge → String
  | .start => "start"
  | .finish => "end"

def label : Edge → String
  | .start => "Start"
  | .finish => "End"

def ofCode? (code : Int) : Option Edge := all.find? (·.code == code)

end Edge

instance : Named JoinKind := ⟨JoinKind.all,JoinKind.name⟩
instance : Named Edge := ⟨Edge.all,Edge.name⟩

-- One join or restart as seen by a heap. `time` is on the clock of the pause; `relative` is a
-- second clock that some traces also record.
structure Event (α : Type) where
  kind : JoinKind
  edge : Edge
  stage : Stage
  heapOrigin : HeapId
  time : α
  relative : Option α
  deriving DecidableEq

namespace Event
variable {α : Type}

def isRestart (event : Event α) : Bool := event.kind == .restart && event.stage == .restart

def isRestartStart (event : Event α) : Bool := event.isRestart && event.edge == .start
def isRestartEnd (event : Event α) : Bool := event.isRestart && event.edge == .finish
def isJoinStart (event : Event α) : Bool := event.kind == .join && event.edge == .start
def isJoinEnd (event : Event α) : Bool := event.kind == .join && event.edge == .finish

def isSingleThreadedStart (event : Event α) : Bool :=
  event.edge == .start && (event.kind == .lastJoin || event.kind == .firstRJoin)

end Event

structure RawEvent (α : Type) where
  joinType : Int32
  joinTime : Int32
  joinId : Int32
  heap : HeapId
  time : α
  relative : Option α
  deriving DecidableEq

end JoinTrace
