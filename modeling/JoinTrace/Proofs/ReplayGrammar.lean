import JoinTrace.Proofs.TraceGrammar

-- Each reader of the replay passes exactly the events its place in the grammar allows. A reader
-- is judged by the events still ahead of it: those behind it matter for error texts only.
namespace JoinTrace

theorem Cursor.next_cons {ε : Type} {cursor : Cursor ε} {entry : ε} {rest : List ε}
    (ahead : cursor.ahead = entry :: rest) :
    cursor.next = some (entry,⟨entry :: cursor.behind,rest,true⟩) := by
  simp [Cursor.next,ahead]

theorem Cursor.next_nil {ε : Type} {cursor : Cursor ε} (ahead : cursor.ahead = []) :
    cursor.next = none := Cursor.next_eq_none.mpr ahead

namespace Replay
open TraceGrammar
variable {α : Type} {heap : HeapId}

theorem stage_of_expected {expected : Stage} {event : Event α} {done : Unit}
    (checked : expectStage heap expected event = .ok done) : event.stage = expected := by
  unfold expectStage at checked
  split at checked
  · assumption
  · cases checked

theorem expectStage_same {expected : Stage} {event : Event α} (same : event.stage = expected) :
    expectStage heap expected event = .ok () := if_pos same

theorem giveBack_ahead {trace after : Trace α} {event : Event α}
    (read : trace.next = some (event,after)) :
    ∃ back, giveBack after = .ok back ∧ back.ahead = trace.ahead :=
  ⟨_,giveBack_read read,rfl⟩

theorem passRestartEnd_sound {trace after : Trace α} (passed : passRestartEnd trace = .ok after) :
    ∃ front, MaybeRestartEnd front ∧ trace.ahead = front ++ after.ahead := by
  unfold passRestartEnd at passed
  split at passed
  · cases passed; exact ⟨[],.absent,rfl⟩
  · rename_i event next read
    split at passed
    · rename_i ends
      cases passed
      exact ⟨[event],.present ends,(Cursor.next_eq_some read).1⟩
    · obtain ⟨back,given,same⟩ := giveBack_ahead read
      cases given.symm.trans passed
      exact ⟨[],.absent,same.symm⟩

theorem passRestartEnd_complete {trace : Trace α} {front back : List (Event α)}
    (ends : MaybeRestartEnd front) (fresh : Fresh back) (ahead : trace.ahead = front ++ back) :
    ∃ after, passRestartEnd trace = .ok after ∧ after.ahead = back := by
  cases ends with
  | @present event isEnd =>
    exact ⟨⟨event :: trace.behind,back,true⟩,
      by simp [passRestartEnd,Cursor.next_cons ahead,isEnd],rfl⟩
  | absent =>
    cases back with
    | nil => exact ⟨trace,by simp [passRestartEnd,Cursor.next_nil ahead],ahead⟩
    | cons event rest =>
      have read := Cursor.next_cons ahead
      obtain ⟨back,given,same⟩ := giveBack_ahead read
      have notEnd := (Event.not_isEnd (fresh_cons.mp fresh)).1
      exact ⟨back,by simp [passRestartEnd,read,notEnd,given],same.trans ahead⟩

theorem passOpening_sound {trace after : Trace α} (passed : passOpening heap trace = .ok after) :
    ∃ front, (∀ event ∈ front, event.isRestartEnd ∨ EndsInitial event) ∧
      trace.ahead = front ++ after.ahead := by
  fun_induction passOpening heap trace with
  | case1 => cases passed; exact ⟨[],by simp,rfl⟩
  | case2 => cases passed
  | case3 trace event next read isEnd checked ih =>
    obtain ⟨front,leftover,same⟩ := ih passed
    have initial := stage_of_expected checked
    refine ⟨event :: front,?_,by rw [(Cursor.next_eq_some read).1,same,List.cons_append]⟩
    intro later member
    rcases List.mem_cons.mp member with rfl | rest
    · exact .inr ⟨isEnd,initial⟩
    · exact leftover later rest
  | case4 trace event next read isOther isEnd ih =>
    obtain ⟨front,leftover,same⟩ := ih passed
    refine ⟨event :: front,?_,by rw [(Cursor.next_eq_some read).1,same,List.cons_append]⟩
    intro later member
    rcases List.mem_cons.mp member with rfl | rest
    · exact .inl isEnd
    · exact leftover later rest
  | case5 trace event next read =>
    obtain ⟨back,given,same⟩ := giveBack_ahead read
    cases given.symm.trans passed
    exact ⟨[],by simp,same.symm⟩

theorem passOpening_end {trace : Trace α} (ended : trace.next = none) :
    passOpening heap trace = .ok trace := by
  rw [passOpening]
  split
  · rfl
  · rename_i read
    cases ended.symm.trans read

theorem passOpening_read {trace after : Trace α} {event : Event α}
    (read : trace.next = some (event,after)) :
    passOpening heap trace =
      if event.isJoinEnd then
        match expectStage heap .generationDetermined event with
        | .error e => .error ⟨e,after⟩
        | .ok () => passOpening heap after
      else if event.isRestartEnd then passOpening heap after
      else giveBack after := by
  rw [passOpening]
  split
  · rename_i ended
    cases read.symm.trans ended
  · rename_i other reread
    cases Option.some.inj (read.symm.trans reread)
    rfl

theorem passOpening_complete (heap : HeapId) (trace : Trace α) {front back : List (Event α)}
    (leftover : ∀ event ∈ front, event.isRestartEnd ∨ EndsInitial event) (fresh : Fresh back)
    (ahead : trace.ahead = front ++ back) :
    ∃ after, passOpening heap trace = .ok after ∧ after.ahead = back := by
  induction front generalizing trace with
  | nil =>
    cases back with
    | nil => exact ⟨trace,passOpening_end (Cursor.next_nil ahead),ahead⟩
    | cons event rest =>
      have read := Cursor.next_cons ahead
      obtain ⟨notRestart,notJoin⟩ := Event.not_isEnd (fresh_cons.mp fresh)
      obtain ⟨back,given,same⟩ := giveBack_ahead read
      exact ⟨back,by simp [passOpening_read read,notRestart,notJoin,given],same.trans ahead⟩
  | cons event rest ih =>
    have read := Cursor.next_cons ahead
    obtain ⟨after,passed,same⟩ := ih ⟨event :: trace.behind,rest ++ back,true⟩
      (fun later member => leftover later (List.mem_cons_of_mem _ member)) rfl
    refine ⟨after,?_,same⟩
    rw [passOpening_read read]
    rcases leftover event (by simp) with isEnd | ⟨isEnd,initial⟩
    · have restart := (Event.isRestartEnd_iff.mp isEnd).1.1
      have other : event.kind ≠ .join := by simp [restart]
      simp [Event.not_isJoin other,isEnd,passed]
    · simp [isEnd,expectStage_same initial,passed]

theorem passInitial_sound {trace after : Trace α} (passed : passInitial heap trace = .ok after) :
    (trace.ahead = [] ∧ after = trace) ∨
      ∃ front, Opening front ∧ trace.ahead = front ++ after.ahead := by
  unfold passInitial at passed
  split at passed
  · rename_i ended
    cases passed
    exact .inl ⟨Cursor.next_eq_none.mp ended,rfl⟩
  · rename_i first next read
    have whole := (Cursor.next_eq_some read).1
    refine .inr ?_
    split at passed
    · rename_i restarts
      obtain ⟨front,leftover,same⟩ := passOpening_sound passed
      exact ⟨first :: front,.restart restarts leftover,by rw [whole,same,List.cons_append]⟩
    · split at passed
      · rename_i starts
        split at passed
        · cases passed
        · rename_i initial
          split at passed
          · cases passed
          · rename_i last rest reread
            split at passed
            · rename_i ends
              split at passed
              · cases passed
              · rename_i done
                cases passed
                refine ⟨[first, last],.whole starts (stage_of_expected initial)
                  ⟨ends,stage_of_expected done⟩,?_⟩
                rw [whole,(Cursor.next_eq_some reread).1]; rfl
            · cases passed
      · split at passed
        · rename_i ends
          split at passed
          · cases passed
          · rename_i done
            cases passed
            exact ⟨[first],.lone ⟨ends,stage_of_expected done⟩,whole⟩
        · cases passed

theorem passInitial_complete (heap : HeapId) (trace : Trace α) {front back : List (Event α)}
    (opening : Opening front) (fresh : Fresh back) (ahead : trace.ahead = front ++ back) :
    ∃ after, passInitial heap trace = .ok after ∧ after.ahead = back := by
  cases opening with
  | @restart event rest starts leftover =>
    obtain ⟨after,passed,same⟩ := passOpening_complete heap
      ⟨event :: trace.behind,rest ++ back,true⟩ leftover fresh rfl
    exact ⟨after,by simp [passInitial,Cursor.next_cons ahead,starts,passed],same⟩
  | @whole first last starts initial ends =>
    have join := (Event.isJoinStart_iff.mp starts).1
    have other : first.kind ≠ .restart := by simp [join]
    refine ⟨⟨last :: first :: trace.behind,back,true⟩,?_,rfl⟩
    simp [passInitial,Cursor.next,ahead,Event.not_isRestart other,starts,expectStage_same initial,ends.1,
      expectStage_same ends.2]
  | @lone event ends =>
    have finish := (Event.isJoinEnd_iff.mp ends.1).2
    refine ⟨⟨event :: trace.behind,back,true⟩,?_,rfl⟩
    simp [passInitial,Cursor.next_cons ahead,Event.not_isStart finish,ends.1,
      expectStage_same ends.2]

theorem nextBeyondRestart_some {trace after : Trace α} {event : Event α}
    (looked : nextBeyondRestart trace = (some event,after)) :
    ∃ between, MaybeRestart between ∧ trace.ahead = between ++ event :: after.ahead := by
  unfold nextBeyondRestart at looked
  split at looked
  · cases looked
  · rename_i first next read
    have whole := (Cursor.next_eq_some read).1
    split at looked
    · rename_i starts
      split at looked
      · cases looked
      · rename_i second rest reread
        have left := (Cursor.next_eq_some reread).1
        split at looked
        · rename_i ends
          split at looked
          · cases looked
          · rename_i third last final
            cases looked
            refine ⟨[first, second],.present starts (.present ends),?_⟩
            rw [whole,left,(Cursor.next_eq_some final).1]; rfl
        · cases looked
          exact ⟨[first],.present starts .absent,by rw [whole,left]; rfl⟩
    · cases looked
      exact ⟨[],.absent,whole⟩

theorem nextBeyondRestart_none {trace after : Trace α}
    (looked : nextBeyondRestart trace = (none,after)) : MaybeRestart trace.ahead := by
  unfold nextBeyondRestart at looked
  split at looked
  · rename_i ended
    rw [Cursor.next_eq_none.mp ended]; exact .absent
  · rename_i first next read
    rw [(Cursor.next_eq_some read).1]
    split at looked
    · rename_i starts
      split at looked
      · rename_i ended
        rw [Cursor.next_eq_none.mp ended]; exact .present starts .absent
      · rename_i second rest reread
        rw [(Cursor.next_eq_some reread).1]
        split at looked
        · rename_i ends
          split at looked
          · rename_i ended
            rw [Cursor.next_eq_none.mp ended]; exact .present starts (.present ends)
          · cases looked
        · cases looked
    · cases looked

theorem nextBeyondRestart_complete {trace : Trace α} {between back : List (Event α)}
    {event : Event α} (passing : MaybeRestart between) (ends : event.isJoinEnd)
    (ahead : trace.ahead = between ++ event :: back) :
    ∃ after, nextBeyondRestart trace = (some event,after) ∧ after.ahead = back := by
  have join := (Event.isJoinEnd_iff.mp ends).1
  have other := Event.not_isRestart (show event.kind ≠ .restart by simp [join])
  cases passing with
  | absent =>
    exact ⟨⟨event :: trace.behind,back,true⟩,by
      simp [nextBeyondRestart,Cursor.next_cons ahead,other],rfl⟩
  | @present first rest starts tail =>
    cases tail with
    | absent =>
      exact ⟨⟨event :: first :: trace.behind,back,true⟩,by
        simp [nextBeyondRestart,Cursor.next,ahead,starts,other],rfl⟩
    | @present second isEnd =>
      exact ⟨⟨event :: second :: first :: trace.behind,back,true⟩,by
        simp [nextBeyondRestart,Cursor.next,ahead,starts,isEnd],rfl⟩

theorem nextBeyondRestart_exhausted {trace : Trace α} (passing : MaybeRestart trace.ahead) :
    ∃ after, nextBeyondRestart trace = (none,after) := by
  generalize ahead : trace.ahead = events at passing
  cases passing with
  | absent => exact ⟨trace,by simp [nextBeyondRestart,Cursor.next_nil ahead]⟩
  | present starts tail =>
    cases tail with
    | absent =>
      exact ⟨_,by simp [nextBeyondRestart,Cursor.next,ahead,starts]; rfl⟩
    | present isEnd =>
      exact ⟨_,by simp [nextBeyondRestart,Cursor.next,ahead,starts,isEnd]; rfl⟩

theorem restartPairEnd_some {trace after : Trace α} {finish : Event α}
    (ended : restartPairEnd heap trace = .ok (some finish,after)) :
    ∃ restart, restart.isRestartStart ∧ finish.isRestartEnd ∧
      trace.ahead = restart :: finish :: after.ahead := by
  unfold restartPairEnd at ended
  split at ended
  · cases ended
  · rename_i first next read
    split at ended
    · rename_i starts
      split at ended
      · cases ended
      · rename_i last rest reread
        split at ended
        · rename_i ends
          cases ended
          exact ⟨first,starts,ends,by
            rw [(Cursor.next_eq_some read).1,(Cursor.next_eq_some reread).1]⟩
        · cases ended
    · cases ended

theorem restartPairEnd_none {trace after : Trace α}
    (ended : restartPairEnd heap trace = .ok (none,after)) :
    trace.ahead = [] ∨ ∃ restart, restart.isRestartStart ∧ trace.ahead = [restart] := by
  unfold restartPairEnd at ended
  split at ended
  · rename_i stopped
    exact .inl (Cursor.next_eq_none.mp stopped)
  · rename_i first next read
    split at ended
    · rename_i starts
      split at ended
      · rename_i stopped
        exact .inr ⟨first,starts,by
          rw [(Cursor.next_eq_some read).1,Cursor.next_eq_none.mp stopped]⟩
      · split at ended <;> cases ended
    · cases ended

theorem endOf_some {trace after : Trace α} {start finish : Event α} (starts : start.edge = .start)
    (ended : endOf heap start trace = .ok (some finish,after)) :
    ∃ body, Item (start :: body) [⟨start,finish⟩] ∧ trace.ahead = body ++ after.ahead := by
  have pair (alone : start.kind = .lastJoin ∨ start.kind = .firstRJoin)
      (ended : restartPairEnd heap trace = .ok (some finish,after)) :
      ∃ body, Item (start :: body) [⟨start,finish⟩] ∧ trace.ahead = body ++ after.ahead := by
    obtain ⟨restart,restarts,ends,same⟩ := restartPairEnd_some ended
    exact ⟨[restart, finish],
      .alone (Event.isSingleThreadedStart_iff.mpr ⟨starts,alone⟩) restarts ends,same⟩
  unfold endOf at ended
  split at ended
  · rename_i kind
    exact pair (.inl kind) ended
  · rename_i kind
    exact pair (.inr kind) ended
  · rename_i kind
    split at ended
    · cases ended
    · rename_i last rest looked
      obtain ⟨between,passing,same⟩ := nextBeyondRestart_some looked
      split at ended
      · rename_i ends
        split at ended
        · cases ended
        · rename_i checked
          split at ended
          · cases ended
          · rename_i passed
            cases ended
            obtain ⟨front,tail,left⟩ := passRestartEnd_sound passed
            exact ⟨between ++ finish :: front,
              .waited (Event.isJoinStart_iff.mpr ⟨kind,starts⟩) passing ends
                (stage_of_expected checked) tail,by rw [same,left]; simp⟩
      · cases ended
  · cases ended

theorem endOf_none {trace after : Trace α} {start : Event α} {policy : TrailingPolicy}
    (starts : start.edge = .start) (tolerated : Tolerated policy start.stage)
    (ended : endOf heap start trace = .ok (none,after)) :
    Tail policy (start :: trace.ahead) (some start) := by
  have pair (alone : start.kind = .lastJoin ∨ start.kind = .firstRJoin)
      (ended : restartPairEnd heap trace = .ok (none,after)) :
      Tail policy (start :: trace.ahead) (some start) := by
    have single := Event.isSingleThreadedStart_iff.mpr ⟨starts,alone⟩
    rcases restartPairEnd_none ended with nothing | ⟨restart,restarts,only⟩
    · rw [nothing]; exact .alone single tolerated
    · rw [only]; exact .restarting single restarts tolerated
  unfold endOf at ended
  split at ended
  · rename_i kind
    exact pair (.inl kind) ended
  · rename_i kind
    exact pair (.inr kind) ended
  · rename_i kind
    split at ended
    · rename_i rest looked
      exact .waiting (Event.isJoinStart_iff.mpr ⟨kind,starts⟩) (nextBeyondRestart_none looked)
        tolerated
    · rename_i last rest looked
      split at ended
      · split at ended
        · cases ended
        · split at ended <;> cases ended
      · cases ended
  · cases ended

theorem endOf_item {start finish : Event α} {body back : List (Event α)} (heap : HeapId)
    (trace : Trace α) (item : Item (start :: body) [⟨start,finish⟩]) (fresh : Fresh back)
    (ahead : trace.ahead = body ++ back) :
    ∃ after, endOf heap start trace = .ok (some finish,after) ∧ after.ahead = back := by
  cases item with
  | @waited _ _ between rest starts passing ends same tail =>
    have kind := (Event.isJoinStart_iff.mp starts).1
    obtain ⟨looked,found,left⟩ := nextBeyondRestart_complete passing ends
      (show trace.ahead = between ++ finish :: (rest ++ back) by rw [ahead]; simp)
    obtain ⟨after,passed,same'⟩ := passRestartEnd_complete tail fresh left
    exact ⟨after,by simp [endOf,kind,found,ends,expectStage_same same,passed],same'⟩
  | @alone _ restart _ starts restarts ends =>
    refine ⟨⟨finish :: restart :: trace.behind,back,true⟩,?_,rfl⟩
    have pair : restartPairEnd heap trace =
        .ok (some finish,⟨finish :: restart :: trace.behind,back,true⟩) := by
      simp [restartPairEnd,Cursor.next,ahead,restarts,ends]
    rcases (Event.isSingleThreadedStart_iff.mp starts).2 with kind | kind <;>
      simp [endOf,kind,pair]

theorem endOf_tail {start : Event α} {rest : List (Event α)} {policy : TrailingPolicy}
    (heap : HeapId) (trace : Trace α) (tail : Tail policy (start :: rest) (some start))
    (ahead : trace.ahead = rest) : ∃ after, endOf heap start trace = .ok (none,after) := by
  have pair (single : start.isSingleThreadedStart = true) {after : Trace α}
      (ended : restartPairEnd heap trace = .ok (none,after)) :
      ∃ after, endOf heap start trace = .ok (none,after) := by
    refine ⟨after,?_⟩
    rcases (Event.isSingleThreadedStart_iff.mp single).2 with kind | kind <;>
      simp [endOf,kind,ended]
  cases tail with
  | waiting starts passing tolerated =>
    have kind := (Event.isJoinStart_iff.mp starts).1
    obtain ⟨after,looked⟩ := nextBeyondRestart_exhausted (ahead ▸ passing)
    exact ⟨after,by simp [endOf,kind,looked]⟩
  | alone starts tolerated =>
    exact pair starts (by simp [restartPairEnd,Cursor.next,ahead]; rfl)
  | restarting starts restarts tolerated =>
    exact pair starts (by simp [restartPairEnd,Cursor.next,ahead,restarts]; rfl)

theorem step_end {trace : Trace α} (ended : trace.next = none) :
    step heap trace = .ok (.exhausted trace) := by
  rw [step]
  split
  · rfl
  · rename_i read
    cases ended.symm.trans read

theorem step_foreign {trace after rest : Trace α} {start : Event α}
    (read : trace.next = some (start,after)) (starts : start.isRestartStart)
    (passed : passRestartEnd after = .ok rest) : step heap trace = step heap rest := by
  rw [step]
  split
  · rename_i ended
    cases read.symm.trans ended
  · rename_i other reread
    cases Option.some.inj (read.symm.trans reread)
    rw [if_pos starts]
    split
    · rename_i refused
      cases passed.symm.trans refused
    · rename_i again
      cases Except.ok.inj (passed.symm.trans again)
      rfl

def Finding.ofEnd (start : Event α) (rest : Trace α) : Option (Event α) → Finding α
  | none => .unended start rest
  | some last => .joined start last rest

theorem step_start {trace after rest : Trace α} {start : Event α} {found : Option (Event α)}
    (read : trace.next = some (start,after)) (own : start.isRestartStart = false)
    (starts : start.edge = .start) (ended : endOf heap start after = .ok (found,rest)) :
    step heap trace = .ok (.ofEnd start rest found) := by
  rw [step]
  split
  · rename_i stopped
    cases read.symm.trans stopped
  · rename_i other reread
    cases Option.some.inj (read.symm.trans reread)
    rw [if_neg (by simp [own]),if_pos starts,ended]
    cases found <;> rfl

def Explains (policy : TrailingPolicy) (events : List (Event α)) : Finding α → Prop
  | .joined start last after => ∃ front, Items front [⟨start,last⟩] ∧ events = front ++ after.ahead
  | .unended start _ => Tolerated policy start.stage →
    ∃ middle back, Items middle [] ∧ Tail policy back (some start) ∧ events = middle ++ back
  | .exhausted _ => Items events []

theorem Explains.foreign {policy : TrailingPolicy} {front events : List (Event α)}
    {finding : Finding α} (item : Item front []) (explained : Explains policy events finding) :
    Explains policy (front ++ events) finding := by
  have first := Items.single item
  cases finding with
  | joined start last after =>
    obtain ⟨body,items,same⟩ := explained
    exact ⟨front ++ body,first.append items,by rw [same,List.append_assoc]⟩
  | unended start after =>
    intro tolerated
    obtain ⟨middle,back,items,tail,same⟩ := explained tolerated
    exact ⟨front ++ middle,back,first.append items,tail,by rw [same,List.append_assoc]⟩
  | exhausted after => exact first.append explained

theorem step_sound (policy : TrailingPolicy) {trace : Trace α} {finding : Finding α}
    (met : step heap trace = .ok finding) : Explains policy trace.ahead finding := by
  fun_induction step heap trace with
  | case1 trace ended =>
    cases met
    rw [Cursor.next_eq_none.mp ended]
    exact Items.nil
  | case2 => cases met
  | case3 trace start after read starts rest passed ih =>
    obtain ⟨front,tail,same⟩ := passRestartEnd_sound passed
    rw [(Cursor.next_eq_some read).1,same]
    exact (ih met).foreign (.foreign starts tail)
  | case4 => cases met
  | case5 trace start after read own starts rest ended =>
    cases met
    intro tolerated
    exact ⟨[],_,.nil,endOf_none starts tolerated ended,(Cursor.next_eq_some read).1⟩
  | case6 trace start after read own starts last rest ended =>
    cases met
    obtain ⟨body,item,same⟩ := endOf_some starts ended
    exact ⟨start :: body,.single item,by rw [(Cursor.next_eq_some read).1,same]; rfl⟩
  | case7 => cases met

def StepsOver (heap : HeapId) (trace : Trace α) (back : List (Event α)) : List (Join α) → Prop
  | [] => ∃ reached : Trace α, reached.ahead = back ∧ step heap trace = step heap reached
  | join :: later => ∃ (reached : Trace α) (left : List (Event α)),
    step heap trace = .ok (.joined join.start join.finish reached) ∧ Items left later ∧
      reached.ahead = left ++ back

theorem stepsOver_foreign {trace after : Trace α} {back : List (Event α)} {joins : List (Join α)}
    (same : step heap trace = step heap after) (passed : StepsOver heap after back joins) :
    StepsOver heap trace back joins := by
  cases joins with
  | nil =>
    obtain ⟨reached,left,equal⟩ := passed
    exact ⟨reached,left,same.trans equal⟩
  | cons join later =>
    obtain ⟨reached,left,met,items,ahead⟩ := passed
    exact ⟨reached,left,same.trans met,items,ahead⟩

theorem stepsOver_join {trace : Trace α} {body rest back : List (Event α)} {start finish : Event α}
    {later : List (Join α)} (item : Item (start :: body) [⟨start,finish⟩])
    (starts : start.edge = .start) (own : start.kind ≠ .restart) (items : Items rest later)
    (fresh : Fresh back) (ahead : trace.ahead = start :: body ++ (rest ++ back)) :
    StepsOver heap trace back (⟨start,finish⟩ :: later) := by
  obtain ⟨after,ended,left⟩ := endOf_item heap ⟨start :: trace.behind,body ++ (rest ++ back),true⟩
    item (items.fresh fresh) rfl
  exact ⟨after,rest,step_start (Cursor.next_cons ahead) (Event.not_isRestart own).1 starts ended,
    items,left⟩

theorem step_items {middle back : List (Event α)} {joins : List (Join α)} (heap : HeapId)
    (trace : Trace α) (items : Items middle joins) (fresh : Fresh back)
    (ahead : trace.ahead = middle ++ back) : StepsOver heap trace back joins := by
  induction items generalizing trace with
  | nil => exact ⟨trace,ahead,rfl⟩
  | @cons front rest joins later first items ih =>
    rw [List.append_assoc] at ahead
    cases first with
    | @foreign event tail starts ends =>
      obtain ⟨after,passed,same⟩ := passRestartEnd_complete ends (items.fresh fresh)
        (show (⟨event :: trace.behind,tail ++ (rest ++ back),true⟩ : Trace α).ahead = _ from rfl)
      exact stepsOver_foreign (step_foreign (Cursor.next_cons ahead) starts passed) (ih after same)
    | waited starts passing ends same tail =>
      obtain ⟨kind,edge⟩ := Event.isJoinStart_iff.mp starts
      exact stepsOver_join (.waited starts passing ends same tail) edge (by simp [kind]) items
        fresh ahead
    | alone starts restarts ends =>
      obtain ⟨edge,kind⟩ := Event.isSingleThreadedStart_iff.mp starts
      exact stepsOver_join (.alone starts restarts ends) edge
        (by rcases kind with kind | kind <;> simp [kind]) items fresh ahead

theorem step_unended {policy : TrailingPolicy} {start : Event α} {back : List (Event α)}
    (heap : HeapId) (trace : Trace α) (tail : Tail policy back (some start))
    (ahead : trace.ahead = back) : ∃ after, step heap trace = .ok (.unended start after) := by
  obtain ⟨rest,same,starts,own⟩ := tail.begins
  subst same
  obtain ⟨after,ended⟩ := endOf_tail heap ⟨start :: trace.behind,rest,true⟩ tail rfl
  exact ⟨after,step_start (Cursor.next_cons ahead) (Event.not_isRestart own).1 starts ended⟩

end Replay
end JoinTrace
