import JoinTrace.Cycle
import JoinTrace.Proofs.SortedMapLaws

namespace JoinTrace
variable {α : Type}

structure HeapJoinTimes.Fresh (all : HeapJoinTimes α) (histories : List (HeapHistory α)) :
    Prop where
  distinct : (histories.map (·.heap)).Nodup
  absent : ∀ history ∈ histories, all.get? history.heap = none

namespace HeapJoinTimes.Fresh
variable {all : HeapJoinTimes α} {history : HeapHistory α} {rest : List (HeapHistory α)}

theorem empty {histories : List (HeapHistory α)} (distinct : (histories.map (·.heap)).Nodup) :
    HeapJoinTimes.Fresh ∅ histories := ⟨distinct,fun _ _ => rfl⟩

theorem head (fresh : HeapJoinTimes.Fresh all (history :: rest)) :
    all.get? history.heap = none := fresh.absent history List.mem_cons_self

theorem apart (fresh : HeapJoinTimes.Fresh all (history :: rest)) :
    ∀ other ∈ rest, other.heap ≠ history.heap := by
  intro other member same
  exact (List.nodup_cons.mp fresh.distinct).1 (List.mem_map.mpr ⟨other,member,same⟩)

theorem insert (fresh : HeapJoinTimes.Fresh all (history :: rest)) (times : JoinTimes α) :
    HeapJoinTimes.Fresh (SortedMap.insert all history.heap times) rest := by
  refine ⟨(List.nodup_cons.mp fresh.distinct).2,fun other member => ?_⟩
  rw [SortedMap.get?_insert,if_neg]
  · exact fresh.absent other (List.mem_cons_of_mem _ member)
  · exact fun same => fresh.apart other member (Ranked.rank_inj same).symm

end HeapJoinTimes.Fresh

variable [Scalar α]

namespace Cycle

theorem replayInto_fresh {policy : TrailingPolicy} {all : HeapJoinTimes α}
    {history : HeapHistory α} (fresh : all.get? history.heap = none) (out : HeapJoinTimes α) :
    replayInto policy all history = .ok out ↔
      ∃ times, JoinTrace.joinTimes history.heap history.events policy = .ok times ∧
        out = all.insert history.heap times := by
  unfold replayInto
  rw [fresh]
  cases JoinTrace.joinTimes history.heap history.events policy with
  | error e => simp
  | ok times => simp [eq_comm]

-- The map after the histories, told by its lookups: the order of the histories leaves no trace.
structure Replays (policy : TrailingPolicy) (histories : List (HeapHistory α))
    (all out : HeapJoinTimes α) : Prop where
  found : ∀ history ∈ histories, ∃ times,
    JoinTrace.joinTimes history.heap history.events policy = .ok times ∧
      out.get? history.heap = some times
  elsewhere : ∀ heap, (∀ history ∈ histories, history.heap ≠ heap) → out.get? heap = all.get? heap

namespace Replays
variable {policy : TrailingPolicy} {all out : HeapJoinTimes α}

theorem cons {history : HeapHistory α} {rest : List (HeapHistory α)}
    (fresh : all.Fresh (history :: rest)) {times : JoinTimes α}
    (replayed : JoinTrace.joinTimes history.heap history.events policy = .ok times)
    (later : Replays policy rest (SortedMap.insert all history.heap times) out) :
    Replays policy (history :: rest) all out := by
  refine ⟨fun other member => ?_,fun heap missing => ?_⟩
  · rcases List.mem_cons.mp member with rfl | member
    · refine ⟨times,replayed,?_⟩
      rw [later.elsewhere _ fresh.apart,SortedMap.get?_insert,if_pos rfl]
    · exact later.found other member
  · rw [later.elsewhere heap fun other member => missing other (List.mem_cons_of_mem _ member),
      SortedMap.get?_insert,if_neg]
    exact fun same => missing history List.mem_cons_self (Ranked.rank_inj same)

theorem tail {history : HeapHistory α} {rest : List (HeapHistory α)}
    (replays : Replays policy (history :: rest) all out) : ∃ times,
    JoinTrace.joinTimes history.heap history.events policy = .ok times ∧
      Replays policy rest (SortedMap.insert all history.heap times) out := by
  obtain ⟨times,replayed,here⟩ := replays.found history List.mem_cons_self
  refine ⟨times,replayed,fun other member => ?_,fun heap missing => ?_⟩
  · exact replays.found other (List.mem_cons_of_mem _ member)
  · rw [SortedMap.get?_insert]
    split
    · rename_i same
      rw [← Ranked.rank_inj same,here]
    · rename_i different
      refine replays.elsewhere heap fun other member same => ?_
      rcases List.mem_cons.mp member with rfl | member
      · exact different (congrArg _ same)
      · exact missing other member same

theorem perm {histories others : List (HeapHistory α)} (same : histories.Perm others)
    (replays : Replays policy histories all out) : Replays policy others all out where
  found history member := replays.found history (same.mem_iff.mpr member)
  elsewhere heap missing := replays.elsewhere heap fun history member =>
    missing history (same.mem_iff.mp member)

end Replays

theorem replays_iff {policy : TrailingPolicy} {histories : List (HeapHistory α)}
    {all : HeapJoinTimes α} (fresh : all.Fresh histories) (out : HeapJoinTimes α) :
    histories.foldlM (replayInto policy) all = .ok out ↔ Replays policy histories all out := by
  induction histories generalizing all with
  | nil =>
    constructor
    · intro ran
      cases ran
      exact ⟨by simp,fun _ _ => rfl⟩
    · intro replays
      refine congrArg Except.ok (SortedMap.ext_get? fun heap => ?_)
      exact (replays.elsewhere heap (by simp)).symm
  | cons history rest ih =>
    rw [List.foldlM_cons]
    constructor
    · intro ran
      cases first : replayInto policy all history with
      | error e => rw [first] at ran; cases ran
      | ok next =>
        rw [first] at ran
        obtain ⟨times,replayed,rfl⟩ := (replayInto_fresh fresh.head next).mp first
        exact .cons fresh replayed ((ih (fresh.insert times)).mp ran)
    · intro replays
      obtain ⟨times,replayed,later⟩ := replays.tail
      rw [(replayInto_fresh fresh.head _).mpr ⟨times,replayed,rfl⟩]
      exact (ih (fresh.insert times)).mpr later

theorem replays_perm {policy : TrailingPolicy} {histories others : List (HeapHistory α)}
    (distinct : (histories.map (·.heap)).Nodup) (perm : histories.Perm others)
    {out : HeapJoinTimes α} (ran : histories.foldlM (replayInto policy) ∅ = .ok out) :
    others.foldlM (replayInto policy) ∅ = .ok out := by
  have apart := (perm.map (·.heap)).nodup_iff.mp distinct
  have replays := (replays_iff (.empty distinct) out).mp ran
  exact (replays_iff (.empty apart) out).mpr (replays.perm perm)

end Cycle
end JoinTrace
