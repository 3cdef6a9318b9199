import Mathlib.Algebra.BigOperators.Group.List.Basic
import Mathlib.Data.List.NodupEquivFin
import Mathlib.Data.List.Pairwise
import Mathlib.Tactic.Linarith
import JoinTrace.Proofs.Exact
import JoinTrace.Proofs.ReplayPrefix

-- The joins that a replay observes lie in its list one behind the other. Each takes up the events
-- from its start to its end, so that all of them together last no longer than the list does.
namespace JoinTrace
open TraceGrammar

namespace Join
variable {α : Type}

def edges (join : Join α) : List (Event α) := [join.start, join.finish]

inductive Paired : Join α → Prop where
  | waited {start finish : Event α} (starts : start.isJoinStart) (ends : finish.isJoinEnd)
      (same : finish.stage = start.stage) : Paired ⟨start,finish⟩
  | alone {start finish : Event α} (starts : start.isSingleThreadedStart)
      (ends : finish.isRestartEnd) : Paired ⟨start,finish⟩

structure Within (joins : List (Join α)) (events : List (Event α)) : Prop where
  paired : ∀ join ∈ joins, join.Paired
  edges : (joins.flatMap Join.edges).Sublist events

theorem within_nil (events : List (Event α)) : Within [] events :=
  ⟨by simp,List.nil_sublist events⟩

theorem within_item {front : List (Event α)} {joins : List (Join α)} (item : Item front joins) :
    Within joins front := by
  cases item with
  | foreign starts tail => exact within_nil _
  | @waited start finish between rest starts passing ends same tail =>
    refine ⟨by simpa using .waited starts ends same,?_⟩
    have later : [finish].Sublist (between ++ finish :: rest) :=
      List.singleton_sublist.mpr (by simp)
    exact later.cons_cons start
  | @alone start restart finish starts restarts ends =>
    refine ⟨by simpa using .alone starts ends,?_⟩
    exact ((List.Sublist.refl [finish]).cons restart).cons_cons start

theorem within_items {middle : List (Event α)} {joins : List (Join α)}
    (items : Items middle joins) : Within joins middle := by
  induction items with
  | nil => exact within_nil []
  | cons first _ ih =>
    obtain ⟨paired,edges⟩ := within_item first
    refine ⟨List.forall_mem_append.mpr ⟨paired,ih.paired⟩,?_⟩
    rw [List.flatMap_append]
    exact edges.append ih.edges

theorem Within.part {joins : List (Join α)} {middle : List (Event α)} (within : Within joins middle)
    (front back : List (Event α)) : Within joins (front ++ (middle ++ back)) := by
  refine ⟨within.paired,within.edges.trans ?_⟩
  exact (List.sublist_append_left middle back).trans (List.sublist_append_right front _)

theorem getElem?_edges (joins : List (Join α)) (k : Nat) :
    (joins.flatMap edges)[2*k]? = joins[k]?.map (·.start) ∧
      (joins.flatMap edges)[2*k+1]? = joins[k]?.map (·.finish) := by
  induction joins generalizing k with
  | nil => simp
  | cons join rest ih =>
    cases k with
    | zero => simp [edges]
    | succ k =>
      have doubled : 2*(k+1) = 2*k+1+1 := by omega
      obtain ⟨start,finish⟩ := ih k
      simp [edges,doubled,start,finish]

def Placed (joins : List (Join α)) (events : List (Event α)) : Prop :=
  ∃ place : Nat → Nat, StrictMono place ∧ ∀ k join, joins[k]? = some join →
    events[place (2*k)]? = some join.start ∧ events[place (2*k+1)]? = some join.finish

theorem Within.placed {joins : List (Join α)} {events : List (Event α)}
    (within : Within joins events) : Placed joins events := by
  obtain ⟨place,kept⟩ := List.sublist_iff_exists_orderEmbedding_getElem?_eq.mp within.edges
  refine ⟨place,place.strictMono,fun k join listed => ?_⟩
  obtain ⟨start,finish⟩ := getElem?_edges joins k
  rw [← kept,← kept,start,finish,listed]
  exact ⟨rfl,rfl⟩

-- `low` moves to the end of each join as the list of joins is gone through.
theorem durations_between {low high : ℚ} (joins : List (Join ℚ)) (least : low ≤ high)
    (sorted : ((joins.flatMap edges).map (·.time)).Pairwise (· ≤ ·))
    (between : ∀ event ∈ joins.flatMap edges, low ≤ event.time ∧ event.time ≤ high) :
    (∀ join ∈ joins, 0 ≤ join.observation.duration) ∧
      (joins.map (·.observation.duration)).sum ≤ high - low := by
  induction joins generalizing low with
  | nil => exact ⟨by simp,by simpa using least⟩
  | cons join rest ih =>
    have split :
        (join :: rest).flatMap edges = join.start :: join.finish :: rest.flatMap edges := rfl
    rw [split] at sorted between
    obtain ⟨fromStart,sortedAfter⟩ := List.pairwise_cons.mp sorted
    obtain ⟨fromFinish,sortedRest⟩ := List.pairwise_cons.mp sortedAfter
    have lasts : join.start.time ≤ join.finish.time := fromStart _ (by simp)
    have starts : low ≤ join.start.time := (between join.start (by simp)).1
    have ends : join.finish.time ≤ high := (between join.finish (by simp)).2
    have duration : join.observation.duration = join.finish.time - join.start.time := rfl
    have later : ∀ event ∈ rest.flatMap edges,
        join.finish.time ≤ event.time ∧ event.time ≤ high := by
      intro event listed
      exact ⟨fromFinish _ (List.mem_map_of_mem listed),(between event (by simp [listed])).2⟩
    obtain ⟨restLasts,restSum⟩ := ih ends sortedRest later
    refine ⟨List.forall_mem_cons.mpr ⟨by linarith,restLasts⟩,?_⟩
    rw [List.map_cons,List.sum_cons]
    linarith

theorem Within.durations {joins : List (Join ℚ)} {events : List (Event ℚ)}
    (within : Within joins events) (nonempty : events ≠ [])
    (sorted : (events.map (·.time)).Pairwise (· ≤ ·)) :
    (∀ join ∈ joins, 0 ≤ join.observation.duration) ∧
      (joins.map (·.observation.duration)).sum ≤
        (events.getLast nonempty).time - (events.head nonempty).time := by
  have ordered : events.Pairwise (·.time ≤ ·.time) := List.pairwise_map.mp sorted
  have span : ∀ event ∈ events,
      (events.head nonempty).time ≤ event.time ∧ event.time ≤ (events.getLast nonempty).time :=
    fun event listed => ⟨ordered.rel_head listed,ordered.rel_getLast listed⟩
  refine durations_between joins (span _ (List.getLast_mem nonempty)).1 ?_ ?_
  · exact sorted.sublist (within.edges.map _)
  · exact fun event listed => span event (within.edges.subset listed)

end Join

namespace Replayer
variable {α : Type} [Scalar α]

theorem run_items {replayer : Replayer α} {trace : Replay.Trace α} (ready : replayer.Ready trace) :
    ∃ middle back joins, Items middle joins ∧ trace.ahead = middle ++ back ∧
      replayer.run.1 = joins.map Join.observation := by
  rw [run_found replayer ready.live,ready.found]
  cases met : Replay.step replayer.heap trace with
  | error e => exact ⟨[],_,[],.nil,rfl,rfl⟩
  | ok finding =>
    cases finding with
    | joined start last after =>
      obtain ⟨front,first,same⟩ := Replay.step_sound replayer.policy met
      obtain ⟨middle,back,joins,items,left,seen⟩ := run_items (ready_running replayer after)
      refine ⟨front ++ middle,back,⟨start,last⟩ :: joins,first.append items,?_,?_⟩
      · rw [same,left,List.append_assoc]
      · exact congrArg (_ :: ·) seen
    | exhausted after => exact ⟨[],_,[],.nil,rfl,rfl⟩
    | unended start after =>
      refine ⟨[],_,[],.nil,rfl,?_⟩
      simp only
      split <;> rfl
termination_by replayer.trace.remaining
decreasing_by exact found_joined_remaining (ready.found.trans met)

theorem run_within (heap : HeapId) (events : List (Event α)) (policy : TrailingPolicy) :
    ∃ joins, (start heap events policy).run.1 = joins.map Join.observation ∧
      Join.Within joins events := by
  have live := start_live heap events policy
  cases opened : (start heap events policy).opened with
  | error e =>
    refine ⟨[],?_,Join.within_nil events⟩
    rw [run_found _ live,found,opened]
    rfl
  | ok trace =>
    obtain ⟨middle,back,joins,items,left,seen⟩ := run_items ⟨live,opened⟩
    refine ⟨joins,seen,?_⟩
    have within := Join.within_items items
    rcases Replay.passInitial_sound opened with ⟨nothing,rfl⟩ | ⟨front,_,whole⟩
    · have split : events = [] ++ (middle ++ back) := left
      exact split ▸ within.part [] back
    · have split : events = front ++ (middle ++ back) := left ▸ whole
      exact split ▸ within.part front back

end Replayer

theorem observations_disjoint :
    (∀ {α : Type} [Scalar α] (heap : HeapId) (events : List (Event α)) (policy : TrailingPolicy),
      ∃ joins, (Replayer.start heap events policy).run.1 = joins.map Join.observation ∧
        (∀ join ∈ joins, join.Paired) ∧ Join.Placed joins events) ∧
    ∀ (heap : HeapId) (events : List (Event ℚ)) (policy : TrailingPolicy) (nonempty : events ≠ []),
      (events.map (·.time)).Pairwise (· ≤ ·) →
      (∀ seen ∈ (Replayer.start heap events policy).run.1, 0 ≤ seen.duration) ∧
        ((Replayer.start heap events policy).run.1.map (·.duration)).sum ≤
          (events.getLast nonempty).time - (events.head nonempty).time := by
  constructor
  · intro α _ heap events policy
    obtain ⟨joins,seen,within⟩ := Replayer.run_within heap events policy
    exact ⟨joins,seen,within.paired,within.placed⟩
  · intro heap events policy nonempty sorted
    obtain ⟨joins,seen,within⟩ := Replayer.run_within heap events policy
    obtain ⟨lasts,total⟩ := within.durations nonempty sorted
    rw [seen,List.map_map]
    exact ⟨List.forall_mem_map.mpr lasts,total⟩

theorem observations_disjoint_sample :
    (∀ seen ∈ (Replayer.start 0 Sample.trace .any).run.1, 0 ≤ seen.duration) ∧
    ((Replayer.start 0 Sample.trace .any).run.1.map (·.duration)).sum ≤ 41 - 1 ∧
    (∃ joins, (Replayer.start 0 Sample.mismatched .any).run.1 = joins.map Join.observation ∧
      (∀ join ∈ joins, join.Paired) ∧ Join.Placed joins Sample.mismatched) ∧
    (Replayer.start 0 Sample.mismatched .any).run.1 = [⟨.updateCardBundles,3⟩] ∧
    (Replayer.start 0 Sample.mismatched .any).run.2.1 =
      some (.stageMismatch 0 .beginMarkPhase .done) := by
  obtain ⟨placed,lasting⟩ := observations_disjoint
  obtain ⟨lasts,total⟩ := lasting 0 Sample.trace .any (by decide) (by decide +kernel)
  exact ⟨lasts,total,placed 0 Sample.mismatched .any,by decide +kernel,by decide +kernel⟩

end JoinTrace
