import JoinTrace.Error
import JoinTrace.SortedMap

namespace JoinTrace

structure PhaseTable where
  stagesByPhase : SortedMap Phase (List Stage)
  phaseByStage : SortedMap Stage Phase
  deriving DecidableEq

namespace PhaseTable
variable {α : Type}

def empty : PhaseTable := ⟨∅,∅⟩

def phaseOf (table : PhaseTable) (stage : Stage) : Option Phase := table.phaseByStage.get? stage

def stagesOf (table : PhaseTable) (phase : Phase) : List Stage :=
  (table.stagesByPhase.get? phase).getD []

def phases (table : PhaseTable) : List Phase := table.stagesByPhase.keys

def taken? (table : PhaseTable) (stages : List Stage) : Option (Stage × Phase) :=
  stages.findSome? fun stage => (table.phaseOf stage).map (stage,·)

def assign (table : PhaseTable) (phase : Phase) (stages : List Stage) : PhaseTable :=
  ⟨table.stagesByPhase.upsert phase fun listed => listed.getD [] ++ stages,
    stages.foldl (fun assigned stage => assigned.insert stage phase) table.phaseByStage⟩

-- Appends to `phase`. Every stage is checked against the table as it stood before the call, so
-- one repeated within the call is not noticed.
def insertPhase (table : PhaseTable) (phase : Phase) (stages : List Stage) :
    Except (AnalysisError α) PhaseTable :=
  match table.taken? stages with
  | some (stage,first) => .error (.phaseConflict stage first phase)
  | none => .ok (table.assign phase stages)

def ofEntries (entries : List (Phase × List Stage)) : Except (AnalysisError α) PhaseTable :=
  entries.foldlM (fun table entry => table.insertPhase entry.1 entry.2) empty

-- Stages as the collector fires them within their phase. The plan join fires slightly past the
-- end of planning, and `done` marks the start of the work after the collection, not its end.
def builtinEntries : List (Phase × List Stage) := [
  (.mark,[.beginMarkPhase, .scanSizedrefDone, .updateCardBundles, .scanDependentHandles,
    .nullDeadShortWeak, .scanFinalization, .nullDeadLongWeak, .nullDeadSyncblk]),
  (.plan,[.decideOnCompaction]),
  (.relocate,[.beginRelocatePhase, .relocatePhaseDone]),
  (.compact,[.rearrangeSegsCompaction, .adjustHandleAgeCompact]),
  (.sweep,[.adjustHandleAgeSweep]),
  (.heapVerify,[.verifyCopyTable, .verifyObjectsDone]),
  (.postGc,[.done])]

def ofEntriesSkipping (entries : List (Phase × List Stage)) : PhaseTable :=
  entries.foldl (fun table entry =>
    if (table.taken? entry.2).isSome then table else table.assign entry.1 entry.2) empty

def builtin : PhaseTable := ofEntriesSkipping builtinEntries

end PhaseTable
end JoinTrace
