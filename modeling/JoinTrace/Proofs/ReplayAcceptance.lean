import JoinTrace.Proofs.Exact
import JoinTrace.Proofs.ReplayGrammar

namespace JoinTrace
open TraceGrammar

namespace Replayer
variable {α : Type}

-- A replay under way over `trace`: what is left of the initial stage lies behind it.
structure Ready (replayer : Replayer α) (trace : Replay.Trace α) : Prop where
  live : replayer.state ≠ .finished
  opened : replayer.opened = .ok trace

theorem Ready.found {replayer : Replayer α} {trace : Replay.Trace α}
    (ready : replayer.Ready trace) : replayer.found = Replay.step replayer.heap trace := by
  simp [Replayer.found,ready.opened]

theorem ready_running (replayer : Replayer α) (trace : Replay.Trace α) :
    { replayer with trace := trace, state := .running }.Ready trace := ⟨by simp,rfl⟩

variable [Scalar α]

theorem run_ended {replayer after : Replayer α} (gave : replayer.next = (none,after)) :
    replayer.run = ([],none,after) := by
  rw [run]
  split <;> rename_i again <;> cases gave.symm.trans again
  rfl

theorem run_failed {replayer after : Replayer α} {e : AnalysisError α}
    (gave : replayer.next = (some (.error e),after)) : replayer.run = ([],some e,after) := by
  rw [run]
  split <;> rename_i again <;> cases gave.symm.trans again
  rfl

theorem run_observed {replayer after : Replayer α} {seen : Observation α}
    (gave : replayer.next = (some (.ok seen),after)) :
    replayer.run = (seen :: after.run.1,after.run.2) := by
  rw [run]
  split <;> rename_i again <;> cases gave.symm.trans again
  rfl

theorem run_sound {replayer : Replayer α} {trace : Replay.Trace α} (ready : replayer.Ready trace)
    (clean : replayer.run.2.1 = none) :
    ∃ middle back joins cut, Items middle joins ∧ Tail replayer.policy back cut ∧
      trace.ahead = middle ++ back := by
  fun_induction run replayer generalizing trace with
  | case1 replayer after gave =>
    rw [next,if_neg ready.live,ready.found] at gave
    split at gave
    · cases gave
    · cases gave
    · rename_i rest met
      have items := Replay.step_sound replayer.policy met
      exact ⟨_,[],[],none,items,.ended,(List.append_nil _).symm⟩
    · rename_i start rest met
      have explained := Replay.step_sound replayer.policy met
      split at gave
      · rename_i tolerated
        obtain ⟨middle,back,items,tail,same⟩ := explained (tolerates_iff.mp tolerated)
        exact ⟨middle,back,[],some start,items,tail,same⟩
      · cases gave
  | case2 => cases clean
  | case3 replayer after seen gave later failure final rest ih =>
    rw [next,if_neg ready.live,ready.found] at gave
    split at gave
    · cases gave
    · rename_i start last rest met
      obtain ⟨front,first,same⟩ := Replay.step_sound replayer.policy met
      cases gave
      obtain ⟨middle,back,joins,cut,items,tail,left⟩ := ih (ready_running _ _) (by simpa [rest] using clean)
      exact ⟨front ++ middle,back,_ :: joins,cut,first.append items,tail,by
        rw [same,left,List.append_assoc]⟩
    · cases gave
    · split at gave <;> cases gave

theorem run_tail {replayer : Replayer α} {trace : Replay.Trace α} {back : List (Event α)}
    {cut : Option (Event α)} (ready : replayer.Ready trace) (whole : replayer.truncatedStage = none)
    (tail : Tail replayer.policy back cut)
    (passed : Replay.StepsOver replayer.heap trace back []) :
    replayer.run.1 = [] ∧ replayer.run.2.1 = none ∧
      replayer.run.2.2.truncatedStage = cut.map (·.stage) := by
  obtain ⟨reached,left,equal⟩ := passed
  cases cut with
  | none =>
    cases tail
    have met := equal.trans (Replay.step_end (Cursor.next_nil left))
    have gave : replayer.next = (none,{ replayer with trace := reached, state := .finished }) := by
      rw [next,if_neg ready.live,ready.found,met]
    rw [run_ended gave]
    exact ⟨rfl,rfl,whole⟩
  | some start =>
    obtain ⟨after,unended⟩ := Replay.step_unended replayer.heap reached tail left
    have gave : replayer.next = (none,{ replayer with
        trace := after, state := .finished, truncatedStage := some start.stage }) := by
      rw [next,if_neg ready.live,ready.found,equal.trans unended]
      exact if_pos (tolerates_iff.mpr tail.tolerated)
    rw [run_ended gave]
    exact ⟨rfl,rfl,rfl⟩

theorem run_complete {replayer : Replayer α} {trace : Replay.Trace α}
    {middle back : List (Event α)} {joins : List (Join α)} {cut : Option (Event α)}
    (ready : replayer.Ready trace) (whole : replayer.truncatedStage = none)
    (items : Items middle joins) (tail : Tail replayer.policy back cut)
    (ahead : trace.ahead = middle ++ back) :
    replayer.run.1 = joins.map Join.observation ∧ replayer.run.2.1 = none ∧
      replayer.run.2.2.truncatedStage = cut.map (·.stage) := by
  induction joins generalizing replayer trace middle with
  | nil => exact run_tail ready whole tail (Replay.step_items _ _ items tail.fresh ahead)
  | cons join later ih =>
    obtain ⟨reached,left,met,rest,same⟩ := Replay.step_items replayer.heap trace items tail.fresh ahead
    have gave : replayer.next = (some (.ok join.observation),
        { replayer with trace := reached, state := .running }) := by
      rw [next,if_neg ready.live,ready.found,met]; rfl
    obtain ⟨seen,clean,dropped⟩ := ih (ready_running replayer reached) whole rest tail same
    rw [run_observed gave]
    exact ⟨congrArg (join.observation :: ·) seen,clean,dropped⟩

theorem run_opened {replayer : Replayer α} (live : replayer.state ≠ .finished)
    (clean : replayer.run.2.1 = none) : ∃ trace, replayer.Ready trace := by
  cases opened : replayer.opened with
  | ok trace => exact ⟨trace,live,opened⟩
  | error stop =>
    have gave : replayer.next =
        (some (.error stop.error),{ replayer with trace := stop.trace, state := .finished }) := by
      simp [next,live,found,opened]
    rw [run_failed gave] at clean
    cases clean

theorem run_clean {heap : HeapId} {events : List (Event α)} {policy : TrailingPolicy}
    (clean : (start heap events policy).run.2.1 = none) :
    ∃ joins cut, Accepted policy events joins cut := by
  obtain ⟨trace,ready⟩ := run_opened (by simp [start]) clean
  obtain ⟨middle,back,joins,cut,items,tail,same⟩ := run_sound ready clean
  rcases Replay.passInitial_sound ready.opened with ⟨nothing,_⟩ | ⟨front,opening,whole⟩
  · have none : events = [] := nothing
    exact ⟨[],Option.none,none ▸ .empty⟩
  · have split : events = front ++ (middle ++ back) := same ▸ whole
    exact ⟨joins,cut,split ▸ .traced opening items tail⟩

theorem run_accepted (heap : HeapId) {events : List (Event α)} {policy : TrailingPolicy}
    {joins : List (Join α)} {cut : Option (Event α)} (accepted : Accepted policy events joins cut) :
    (start heap events policy).run.1 = joins.map Join.observation ∧
      (start heap events policy).run.2.1 = none ∧
      (start heap events policy).run.2.2.truncatedStage = cut.map (·.stage) := by
  cases accepted with
  | empty =>
    have ready : (start heap ([] : List (Event α)) policy).Ready (.ofList []) := ⟨by simp [start],rfl⟩
    exact run_complete ready rfl .nil .ended rfl
  | traced opening items tail =>
    obtain ⟨trace,opened,ahead⟩ := Replay.passInitial_complete heap (.ofList _) opening
      (items.fresh tail.fresh) rfl
    exact run_complete ⟨by simp [start],opened⟩ rfl items tail ahead

end Replayer

namespace JoinTimes
variable {α : Type}

def ofStage (seen : List (Observation α)) (stage : Stage) : List α :=
  (seen.filter (·.stage = stage)).map (·.duration)

theorem ofStage_cons (first : Observation α) (rest : List (Observation α)) (stage : Stage) :
    ofStage (first :: rest) stage =
      if first.stage = stage then first.duration :: ofStage rest stage else ofStage rest stage := by
  by_cases same : first.stage = stage <;> simp [ofStage,same]

theorem get?_record (times : JoinTimes α) (seen : Observation α) (stage : Stage) :
    (times.record seen).get? stage =
      if seen.stage = stage then some ((times.get? stage).getD [] ++ [seen.duration])
      else times.get? stage := by
  rw [record,SortedMap.get?_upsert]
  by_cases same : seen.stage = stage
  · simp [same]
  · have apart : Ranked.rank seen.stage ≠ Ranked.rank stage := fun equal => same (Ranked.rank_inj equal)
    simp [same,apart]

theorem get?_foldl_record (seen : List (Observation α)) (times : JoinTimes α) (stage : Stage) :
    (seen.foldl record times).get? stage =
      if ofStage seen stage = [] then times.get? stage
      else some ((times.get? stage).getD [] ++ ofStage seen stage) := by
  induction seen generalizing times with
  | nil => simp [ofStage]
  | cons first rest ih =>
    rw [List.foldl_cons,ih,get?_record,ofStage_cons]
    by_cases same : first.stage = stage
    · by_cases nothing : ofStage rest stage = [] <;> simp [same,nothing]
    · simp [same]

theorem get?_ofObservations (seen : List (Observation α)) (stage : Stage) :
    (ofObservations seen).get? stage =
      if ofStage seen stage = [] then none else some (ofStage seen stage) := by
  rw [ofObservations,get?_foldl_record]
  simp

end JoinTimes

variable {α : Type} [Scalar α]

theorem joinTimes_clean {heap : HeapId} {events : List (Event α)} {policy : TrailingPolicy}
    (clean : (Replayer.start heap events policy).run.2.1 = none) :
    joinTimes heap events policy =
      .ok (.ofObservations (Replayer.start heap events policy).run.1) := by
  unfold joinTimes
  split
  · rename_i e _ ran
    rw [ran] at clean
    cases clean
  · rename_i ran
    rw [ran]
namespace Sample

def restart (edge : Edge) (time : ℚ) : Event ℚ := ⟨.restart,edge,.restart,0,time,none⟩
def join (edge : Edge) (stage : Stage) (time : ℚ) : Event ℚ := ⟨.join,edge,stage,0,time,none⟩
def lastJoin (stage : Stage) (time : ℚ) : Event ℚ := ⟨.lastJoin,.start,stage,0,time,none⟩
def rightJoin (stage : Stage) (time : ℚ) : Event ℚ := ⟨.firstRJoin,.start,stage,0,time,none⟩

def trace : List (Event ℚ) := [
  restart .start 1, join .finish .generationDetermined 2, restart .finish 3,
  join .start .beginMarkPhase 10, restart .start 12, join .finish .beginMarkPhase 14,
  restart .finish 15,
  lastJoin .scanSizedrefDone 20, restart .start 21, restart .finish 23,
  restart .start 25,
  rightJoin .updateCardBundles 30, restart .start 31, restart .finish 35,
  join .start .done 40, restart .start 41]

def joins : List (Join ℚ) := [
  ⟨join .start .beginMarkPhase 10,join .finish .beginMarkPhase 14⟩,
  ⟨lastJoin .scanSizedrefDone 20,restart .finish 23⟩,
  ⟨rightJoin .updateCardBundles 30,restart .finish 35⟩]

theorem trace_accepted : Accepted .doneOnly trace joins (some (join .start .done 40)) := by
  have opening : Opening
      [restart .start 1, join .finish .generationDetermined 2, restart .finish 3] :=
    .restart rfl (by decide)
  have tail : Tail .doneOnly [join .start .done 40, restart .start 41]
      (some (join .start .done 40)) := .waiting rfl (.present rfl .absent) rfl
  have marking : Item [join .start .beginMarkPhase 10, restart .start 12,
      join .finish .beginMarkPhase 14, restart .finish 15]
      [⟨join .start .beginMarkPhase 10,join .finish .beginMarkPhase 14⟩] :=
    @Item.waited _ _ _ [restart .start 12] [restart .finish 15] rfl (.present rfl .absent) rfl rfl
      (.present rfl)
  have scanning : Item [lastJoin .scanSizedrefDone 20, restart .start 21, restart .finish 23]
      [⟨lastJoin .scanSizedrefDone 20,restart .finish 23⟩] := .alone rfl rfl rfl
  have passing : Item [restart .start 25] [] := .foreign rfl .absent
  have bundling : Item [rightJoin .updateCardBundles 30, restart .start 31, restart .finish 35]
      [⟨rightJoin .updateCardBundles 30,restart .finish 35⟩] := .alone rfl rfl rfl
  exact .traced opening (.cons marking (.cons scanning (.cons passing (.cons bundling .nil)))) tail

theorem joins_observed : joins.map Join.observation =
    [⟨.beginMarkPhase,4⟩, ⟨.scanSizedrefDone,3⟩, ⟨.updateCardBundles,5⟩] := by
  norm_num [joins,Join.observation,Join.stage,join,lastJoin,rightJoin,restart]

end Sample

theorem replay_follows_grammar (heap : HeapId) (events : List (Event α)) (policy : TrailingPolicy) :
    ((Replayer.start heap events policy).run.2.1 = none ↔
      ∃ joins cut, Accepted policy events joins cut) ∧
    ∀ joins cut, Accepted policy events joins cut →
      (Replayer.start heap events policy).run.1 = joins.map Join.observation ∧
      ∃ times, joinTimes heap events policy = .ok times ∧
        ∀ stage durations, times.get? stage = some durations ↔
          durations ≠ [] ∧ durations = JoinTimes.ofStage (joins.map Join.observation) stage := by
  refine ⟨⟨Replayer.run_clean,?_⟩,?_⟩
  · rintro ⟨joins,cut,accepted⟩
    exact (Replayer.run_accepted heap accepted).2.1
  · intro joins cut accepted
    obtain ⟨seen,clean,_⟩ := Replayer.run_accepted heap accepted
    refine ⟨seen,_,joinTimes_clean clean,?_⟩
    intro stage durations
    rw [seen,JoinTimes.get?_ofObservations]
    by_cases nothing : JoinTimes.ofStage (joins.map Join.observation) stage = []
    · simp [nothing]
    · rw [if_neg nothing]
      constructor
      · intro same
        cases Option.some.inj same
        exact ⟨nothing,rfl⟩
      · rintro ⟨_,same⟩
        rw [same]

theorem replay_follows_grammar_sample :
    Accepted .doneOnly Sample.trace Sample.joins (some (Sample.join .start .done 40)) ∧
    (Replayer.start 0 Sample.trace .doneOnly).run.1 =
      [⟨.beginMarkPhase,4⟩, ⟨.scanSizedrefDone,3⟩, ⟨.updateCardBundles,5⟩] ∧
    ∃ times, joinTimes 0 Sample.trace .doneOnly = .ok times ∧
      times.get? .beginMarkPhase = some [4] ∧ times.get? .done = none := by
  have accepted := Sample.trace_accepted
  obtain ⟨seen,times,timed,held⟩ :=
    (replay_follows_grammar 0 Sample.trace .doneOnly).2 _ _ accepted
  rw [Sample.joins_observed] at seen held
  refine ⟨accepted,seen,times,timed,(held _ _).mpr ⟨by simp,rfl⟩,?_⟩
  cases found : times.get? .done with
  | none => rfl
  | some durations =>
    obtain ⟨some,none⟩ := (held _ _).mp found
    exact absurd none some

end JoinTrace
