import JoinTrace.Named

namespace JoinTrace

-- The joins of a collection, in the order of the collector's own numbering. `restart` is the
-- pseudo-stage that restart events carry.
inductive Stage where
  | restart | initCpuMapping | done | generationDetermined | beginMarkPhase
  | scanDependentHandles | rescanDependentHandles | scanSizedrefDone | nullDeadShortWeak
  | scanFinalization | nullDeadLongWeak | nullDeadSyncblk | decideOnCompaction
  | rearrangeSegsCompaction | adjustHandleAgeCompact | adjustHandleAgeSweep | beginRelocatePhase
  | relocatePhaseDone | verifyObjectsDone | startBgc | restartEe | concurrentOverflow | suspendEe
  | bgcAfterEphemeral | allowFgc | bgcSweep | suspendEeVerify | restartEeVerify | setStateFree
  | updateCardBundles | afterAbsorb | verifyCopyTable | afterReset | afterEphemeralSweep
  | afterProfilerHeapWalk | minimalGc | afterCommitSohNoGc | expandLohNoGc | finalNoGc
  | disableSoftwareWriteWatch
  deriving DecidableEq

namespace Stage

def all : List Stage := [
  .restart, .initCpuMapping, .done, .generationDetermined, .beginMarkPhase,
  .scanDependentHandles, .rescanDependentHandles, .scanSizedrefDone, .nullDeadShortWeak,
  .scanFinalization, .nullDeadLongWeak, .nullDeadSyncblk, .decideOnCompaction,
  .rearrangeSegsCompaction, .adjustHandleAgeCompact, .adjustHandleAgeSweep, .beginRelocatePhase,
  .relocatePhaseDone, .verifyObjectsDone, .startBgc, .restartEe, .concurrentOverflow, .suspendEe,
  .bgcAfterEphemeral, .allowFgc, .bgcSweep, .suspendEeVerify, .restartEeVerify, .setStateFree,
  .updateCardBundles, .afterAbsorb, .verifyCopyTable, .afterReset, .afterEphemeralSweep,
  .afterProfilerHeapWalk, .minimalGc, .afterCommitSohNoGc, .expandLohNoGc, .finalNoGc,
  .disableSoftwareWriteWatch]

def code : Stage → Int
  | .restart => -1
  | .initCpuMapping => 0
  | .done => 1
  | .generationDetermined => 2
  | .beginMarkPhase => 3
  | .scanDependentHandles => 4
  | .rescanDependentHandles => 5
  | .scanSizedrefDone => 6
  | .nullDeadShortWeak => 7
  | .scanFinalization => 8
  | .nullDeadLongWeak => 9
  | .nullDeadSyncblk => 10
  | .decideOnCompaction => 11
  | .rearrangeSegsCompaction => 12
  | .adjustHandleAgeCompact => 13
  | .adjustHandleAgeSweep => 14
  | .beginRelocatePhase => 15
  | .relocatePhaseDone => 16
  | .verifyObjectsDone => 17
  | .startBgc => 18
  | .restartEe => 19
  | .concurrentOverflow => 20
  | .suspendEe => 21
  | .bgcAfterEphemeral => 22
  | .allowFgc => 23
  | .bgcSweep => 24
  | .suspendEeVerify => 25
  | .restartEeVerify => 26
  | .setStateFree => 27
  | .updateCardBundles => 28
  | .afterAbsorb => 29
  | .verifyCopyTable => 30
  | .afterReset => 31
  | .afterEphemeralSweep => 32
  | .afterProfilerHeapWalk => 33
  | .minimalGc => 34
  | .afterCommitSohNoGc => 35
  | .expandLohNoGc => 36
  | .finalNoGc => 37
  | .disableSoftwareWriteWatch => 38

def name : Stage → String
  | .restart => "restart"
  | .initCpuMapping => "init_cpu_mapping"
  | .done => "done"
  | .generationDetermined => "generation_determined"
  | .beginMarkPhase => "begin_mark_phase"
  | .scanDependentHandles => "scan_dependent_handles"
  | .rescanDependentHandles => "rescan_dependent_handles"
  | .scanSizedrefDone => "scan_sizedref_done"
  | .nullDeadShortWeak => "null_dead_short_weak"
  | .scanFinalization => "scan_finalization"
  | .nullDeadLongWeak => "null_dead_long_weak"
  | .nullDeadSyncblk => "null_dead_syncblk"
  | .decideOnCompaction => "decide_on_compaction"
  | .rearrangeSegsCompaction => "rearrange_segs_compaction"
  | .adjustHandleAgeCompact => "adjust_handle_age_compact"
  | .adjustHandleAgeSweep => "adjust_handle_age_sweep"
  | .beginRelocatePhase => "begin_relocate_phase"
  | .relocatePhaseDone => "relocate_phase_done"
  | .verifyObjectsDone => "verify_objects_done"
  | .startBgc => "start_bgc"
  | .restartEe => "restart_ee"
  | .concurrentOverflow => "concurrent_overflow"
  | .suspendEe => "suspend_ee"
  | .bgcAfterEphemeral => "bgc_after_ephemeral"
  | .allowFgc => "allow_fgc"
  | .bgcSweep => "bgc_sweep"
  | .suspendEeVerify => "suspend_ee_verify"
  | .restartEeVerify => "restart_ee_verify"
  | .setStateFree => "set_state_free"
  | .updateCardBundles => "update_card_bundles"
  | .afterAbsorb => "after_absorb"
  | .verifyCopyTable => "verify_copy_table"
  | .afterReset => "after_reset"
  | .afterEphemeralSweep => "after_ephemeral_sweep"
  | .afterProfilerHeapWalk => "after_profiler_heap_walk"
  | .minimalGc => "minimal_gc"
  | .afterCommitSohNoGc => "after_commit_soh_no_gc"
  | .expandLohNoGc => "expand_loh_no_gc"
  | .finalNoGc => "final_no_gc"
  | .disableSoftwareWriteWatch => "disable_software_write_watch"

def label : Stage → String
  | .restart => "Restart"
  | .initCpuMapping => "InitCpuMapping"
  | .done => "Done"
  | .generationDetermined => "GenerationDetermined"
  | .beginMarkPhase => "BeginMarkPhase"
  | .scanDependentHandles => "ScanDependentHandles"
  | .rescanDependentHandles => "RescanDependentHandles"
  | .scanSizedrefDone => "ScanSizedrefDone"
  | .nullDeadShortWeak => "NullDeadShortWeak"
  | .scanFinalization => "ScanFinalization"
  | .nullDeadLongWeak => "NullDeadLongWeak"
  | .nullDeadSyncblk => "NullDeadSyncblk"
  | .decideOnCompaction => "DecideOnCompaction"
  | .rearrangeSegsCompaction => "RearrangeSegsCompaction"
  | .adjustHandleAgeCompact => "AdjustHandleAgeCompact"
  | .adjustHandleAgeSweep => "AdjustHandleAgeSweep"
  | .beginRelocatePhase => "BeginRelocatePhase"
  | .relocatePhaseDone => "RelocatePhaseDone"
  | .verifyObjectsDone => "VerifyObjectsDone"
  | .startBgc => "StartBgc"
  | .restartEe => "RestartEe"
  | .concurrentOverflow => "ConcurrentOverflow"
  | .suspendEe => "SuspendEe"
  | .bgcAfterEphemeral => "BgcAfterEphemeral"
  | .allowFgc => "AllowFgc"
  | .bgcSweep => "BgcSweep"
  | .suspendEeVerify => "SuspendEeVerify"
  | .restartEeVerify => "RestartEeVerify"
  | .setStateFree => "SetStateFree"
  | .updateCardBundles => "UpdateCardBundles"
  | .afterAbsorb => "AfterAbsorb"
  | .verifyCopyTable => "VerifyCopyTable"
  | .afterReset => "AfterReset"
  | .afterEphemeralSweep => "AfterEphemeralSweep"
  | .afterProfilerHeapWalk => "AfterProfilerHeapWalk"
  | .minimalGc => "MinimalGc"
  | .afterCommitSohNoGc => "AfterCommitSohNoGc"
  | .expandLohNoGc => "ExpandLohNoGc"
  | .finalNoGc => "FinalNoGc"
  | .disableSoftwareWriteWatch => "DisableSoftwareWriteWatch"

def rank (stage : Stage) : Nat := (stage.code+1).toNat

def ofRank (rank : Nat) : Stage := all[rank]?.getD .restart

theorem ofRank_rank (stage : Stage) : ofRank stage.rank = stage := by cases stage <;> rfl

theorem mem_all (stage : Stage) : stage ∈ all := by cases stage <;> decide

def ofCode? (code : Int) : Option Stage := all.find? (·.code == code)

def measured : List Stage := all.filter (· != .restart)

end Stage

instance : Named Stage := ⟨Stage.all,Stage.name⟩

instance : Ranked Stage where
  rank := Stage.rank
  rank_inj {a b} same := by rw [← Stage.ofRank_rank a,same,Stage.ofRank_rank b]

end JoinTrace
