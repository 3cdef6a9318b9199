import Mathlib.Data.List.Induction
import JoinTrace.Proofs.CycleReplay

namespace JoinTrace
variable {α : Type}

namespace HeapJoinTimes
variable {all : HeapJoinTimes α} {done : List (HeapHistory α)}

def Holds (all : HeapJoinTimes α) (done : List (HeapHistory α)) : Prop :=
  ∀ heap, (all.get? heap).isSome ↔ heap ∈ done.map (·.heap)

theorem holds_nil : HeapJoinTimes.Holds (∅ : HeapJoinTimes α) [] := by
  intro heap
  simp

theorem Holds.insert (holds : all.Holds done) (history : HeapHistory α) (times : JoinTimes α) :
    HeapJoinTimes.Holds (SortedMap.insert all history.heap times) (done ++ [history]) := by
  intro heap
  rw [SortedMap.get?_insert,List.map_append,List.mem_append,← holds heap]
  by_cases same : Ranked.rank history.heap = Ranked.rank heap
  · simp [Ranked.rank_inj same]
  · have different : heap ≠ history.heap := fun equal => same (congrArg _ equal.symm)
    simp [same,different]

end HeapJoinTimes

theorem Cycle.serverHeaps_ok {cycle : Cycle α} {heaps : List (HeapHistory α)}
    (server : cycle.serverHeaps = .ok heaps) : heaps = cycle.heaps := by
  unfold Cycle.serverHeaps at server
  split at server
  · cases server
  · split at server
    · cases server
    · cases server
      rfl

variable [Scalar α]

-- Why a history cannot join those listed before it. One of a heap that occurred is not replayed.
inductive HeapHistory.Refused (policy : TrailingPolicy) (before : List (HeapHistory α))
    (history : HeapHistory α) : AnalysisError α → Prop where
  | repeated (occurred : history.heap ∈ before.map (·.heap)) :
      Refused policy before history (.duplicateHeap history.heap)
  | malformed {e : AnalysisError α} (fresh : history.heap ∉ before.map (·.heap))
      (failed : JoinTrace.joinTimes history.heap history.events policy = .error e) :
      Refused policy before history e

namespace Cycle
variable {policy : TrailingPolicy} {all out : HeapJoinTimes α} {history : HeapHistory α}
  {done histories : List (HeapHistory α)} {e : AnalysisError α}

def Admits (policy : TrailingPolicy) (histories : List (HeapHistory α)) : Prop :=
  ∀ before history, before ++ [history] <+: histories → ∀ e, ¬ history.Refused policy before e

def FirstRefused (policy : TrailingPolicy) (histories : List (HeapHistory α))
    (e : AnalysisError α) : Prop :=
  ∃ before history, before ++ [history] <+: histories ∧ Admits policy before ∧
    history.Refused policy before e

theorem admits_nil : Admits policy ([] : List (HeapHistory α)) := by
  intro before history listed
  simp at listed

theorem admits_concat : Admits policy (done ++ [history]) ↔
    Admits policy done ∧ ∀ e, ¬ history.Refused policy done e := by
  constructor
  · intro admits
    refine ⟨fun before other listed => ?_,admits done history (List.prefix_refl _)⟩
    exact admits before other (listed.trans (List.prefix_append ..))
  · rintro ⟨admits,taken⟩ before other listed
    rcases List.prefix_concat_iff.mp listed with whole | listed
    · obtain ⟨rfl,same⟩ := List.append_inj' whole rfl
      cases same
      exact taken
    · exact admits before other listed

theorem replayInto_holds (holds : all.Holds done) (ran : replayInto policy all history = .ok out) :
    out.Holds (done ++ [history]) := by
  cases present : all.get? history.heap with
  | none =>
    obtain ⟨times,_,rfl⟩ := (replayInto_fresh present out).mp ran
    exact holds.insert history times
  | some times => simp [replayInto,present] at ran

theorem replayInto_error_iff (holds : all.Holds done) :
    replayInto policy all history = .error e ↔ history.Refused policy done e := by
  unfold replayInto
  split
  next present =>
    have occurred := (holds history.heap).mp present
    constructor
    · intro refused
      cases refused
      exact .repeated occurred
    · rintro (_ | ⟨fresh,_⟩)
      · rfl
      · exact absurd occurred fresh
  next absent =>
    have fresh := mt (holds history.heap).mpr absent
    constructor
    · intro refused
      split at refused
      next failed => cases refused; exact .malformed fresh failed
      next => cases refused
    · rintro (occurred | ⟨_,failed⟩)
      · exact absurd occurred fresh
      · rw [failed]

theorem replays_concat : (done ++ [history]).foldlM (replayInto policy) all =
    done.foldlM (replayInto policy) all >>= fun next => replayInto policy next history := by
  rw [List.foldlM_append]
  refine bind_congr fun next => ?_
  rw [List.foldlM_cons]
  exact bind_pure _

theorem replays_told (histories : List (HeapHistory α)) :
    (∀ out, histories.foldlM (replayInto policy) ∅ = .ok out →
      out.Holds histories ∧ Admits policy histories) ∧
    ∀ e, histories.foldlM (replayInto policy) ∅ = .error e → FirstRefused policy histories e := by
  induction histories using List.reverseRecOn with
  | nil =>
    refine ⟨fun out ran => ?_,fun e failed => ?_⟩
    · cases ran
      exact ⟨HeapJoinTimes.holds_nil,admits_nil⟩
    · cases failed
  | append_singleton done history ih =>
    obtain ⟨taken,refused⟩ := ih
    rw [replays_concat]
    cases before : done.foldlM (replayInto policy) ∅ with
    | error e' =>
      refine ⟨fun out ran => ?_,fun e failed => ?_⟩
      · cases ran
      · cases failed
        obtain ⟨earlier,first,listed,found⟩ := refused _ before
        exact ⟨earlier,first,listed.trans (List.prefix_append ..),found⟩
    | ok all =>
      obtain ⟨holds,admits⟩ := taken all before
      refine ⟨fun out ran => ⟨replayInto_holds holds ran,
        admits_concat.mpr ⟨admits,fun e refusal => ?_⟩⟩,fun e failed => ?_⟩
      · cases ran.symm.trans ((replayInto_error_iff holds).mpr refusal)
      · exact ⟨done,history,List.prefix_refl _,admits,(replayInto_error_iff holds).mp failed⟩

theorem FirstRefused.not_admits (found : FirstRefused policy histories e) :
    ¬ Admits policy histories := by
  obtain ⟨before,history,listed,_,refused⟩ := found
  exact fun admits => admits before history listed e refused

theorem replays_error_iff (histories : List (HeapHistory α)) :
    histories.foldlM (replayInto policy) ∅ = .error e ↔ FirstRefused policy histories e := by
  constructor
  · exact (replays_told histories).2 e
  · rintro ⟨before,history,⟨after,rfl⟩,admits,refused⟩
    cases ran : before.foldlM (replayInto policy) ∅ with
    | error e' => exact absurd admits ((replays_told before).2 e' ran).not_admits
    | ok all =>
      have failed : (before ++ [history]).foldlM (replayInto policy) ∅ = .error e := by
        rw [replays_concat,ran]
        exact (replayInto_error_iff ((replays_told before).1 all ran).1).mpr refused
      rw [List.foldlM_append,failed]
      rfl

theorem not_refused_iff : (∀ e, ¬ history.Refused policy done e) ↔
    history.heap ∉ done.map (·.heap) ∧ ∃ times,
      JoinTrace.joinTimes history.heap history.events policy = .ok times := by
  constructor
  · intro taken
    have fresh : history.heap ∉ done.map (·.heap) := fun occurred => taken _ (.repeated occurred)
    refine ⟨fresh,?_⟩
    cases ran : JoinTrace.joinTimes history.heap history.events policy with
    | error e => exact absurd (.malformed fresh ran) (taken e)
    | ok times => exact ⟨times,rfl⟩
  · rintro ⟨fresh,times,ran⟩ e (occurred | ⟨_,failed⟩)
    · exact fresh occurred
    · cases ran.symm.trans failed

theorem admits_iff {histories : List (HeapHistory α)} : Admits policy histories ↔
    (histories.map (·.heap)).Nodup ∧ ∀ history ∈ histories, ∃ times,
      JoinTrace.joinTimes history.heap history.events policy = .ok times := by
  induction histories using List.reverseRecOn with
  | nil => simp [admits_nil]
  | append_singleton done history ih =>
    have whole : ((done ++ [history]).map (·.heap)).Nodup ↔
        history.heap ∉ done.map (·.heap) ∧ (done.map (·.heap)).Nodup := by
      rw [List.map_append,List.map_singleton,List.nodup_append_comm,List.singleton_append,
        List.nodup_cons]
    rw [admits_concat,not_refused_iff,ih,whole,List.forall_mem_append,List.forall_mem_singleton]
    tauto

theorem joinTimes_error_iff {cycle : Cycle α} : cycle.joinTimes policy = .error e ↔
    (∃ heaps, cycle.serverHeaps = .ok heaps) ∧ FirstRefused policy cycle.heaps e := by
  unfold joinTimes
  cases server : cycle.serverHeaps with
  | error failure => simp
  | ok heaps =>
    cases serverHeaps_ok server
    rw [← replays_error_iff]
    cases replayed : cycle.heaps.foldlM (replayInto policy) ∅ <;> simp [replayed]

theorem joinTimes_admits {cycle : Cycle α} {heaps : List (HeapHistory α)}
    {all : Failable (HeapJoinTimes α)} (server : cycle.serverHeaps = .ok heaps)
    (ran : cycle.joinTimes policy = .ok all) : Admits policy cycle.heaps := by
  unfold joinTimes at ran
  cases serverHeaps_ok server
  rw [server] at ran
  cases replayed : cycle.heaps.foldlM (replayInto policy) ∅ with
  | error e => simp [replayed] at ran
  | ok out => exact ((replays_told cycle.heaps).1 out replayed).2

end Cycle
end JoinTrace
