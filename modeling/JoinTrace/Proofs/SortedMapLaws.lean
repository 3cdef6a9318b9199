import Mathlib.Data.List.Nodup
import JoinTrace.Proofs.Passes
import JoinTrace.SortedMap

namespace JoinTrace
open Ranked

theorem Ranked.rank_eq_iff {κ : Type} [Ranked κ] {a b : κ} : rank a = rank b ↔ a = b :=
  ⟨rank_inj,congrArg rank⟩

namespace SortedMap
variable {κ ι ν μ ε : Type} [Ranked κ] [Ranked ι]

theorem lookup_check {f : κ → ν → Except ε μ} {entries : List (κ × ν)}
    {out : { out : List (κ × μ) // out.map (·.1) = entries.map (·.1) }}
    (checked : check f entries = .ok out) (key : κ) :
    (lookup key entries).map (f key) = (lookup key out.1).map .ok := by
  induction entries with
  | nil => cases checked; rfl
  | cons entry rest ih =>
    obtain ⟨found,value⟩ := entry
    unfold check at checked
    split at checked
    · cases checked
    · rename_i result ran
      split at checked
      · cases checked
      · rename_i later same passed
        cases checked
        by_cases wanted : rank found = rank key
        · cases rank_inj wanted
          simp [lookup,ran]
        · simp only [lookup,if_neg wanted]
          exact ih passed

theorem get?_filterMap (f : κ → ν → Option μ) (table : SortedMap κ ν) (key : κ) :
    (table.filterMap f).get? key = (table.get? key).bind (f key) := by
  refine Option.ext fun value => ?_
  rw [get?_eq_some_iff,Option.bind_eq_some_iff]
  simp only [get?_eq_some_iff,filterMap,List.mem_filterMap,Option.map_eq_some_iff,Prod.mk.injEq]
  constructor
  · rintro ⟨entry,listed,_,kept,rfl,rfl⟩
    exact ⟨_,listed,kept⟩
  · rintro ⟨found,listed,kept⟩
    exact ⟨(key,found),listed,value,kept,rfl,rfl⟩

theorem entries_eq {all : List κ} (ascend : all.Pairwise (rank · < rank ·))
    (complete : ∀ key, key ∈ all) (map : SortedMap κ ν) :
    map.entries = all.filterMap fun key => (map.get? key).map (key,·) := by
  refine entries_ext map.ordered ?_ fun key value => ?_
  · refine List.pairwise_map.mpr (ascend.filterMap _ ?_)
    intro key other lower entry first next second
    obtain ⟨_,_,rfl⟩ := Option.map_eq_some_iff.mp first
    obtain ⟨_,_,rfl⟩ := Option.map_eq_some_iff.mp second
    exact lower
  · rw [← get?_eq_some_iff,List.mem_filterMap]
    constructor
    · intro found
      exact ⟨key,complete key,by rw [found]; rfl⟩
    · rintro ⟨_,_,listed⟩
      obtain ⟨_,found,same⟩ := Option.map_eq_some_iff.mp listed
      cases same
      exact found

theorem values_eq {all : List κ} (ascend : all.Pairwise (rank · < rank ·))
    (complete : ∀ key, key ∈ all) (map : SortedMap κ ν) : map.values = all.filterMap map.get? := by
  rw [values,entries_eq ascend complete map,List.map_filterMap]
  refine congrArg (all.filterMap ·) (funext fun key => ?_)
  cases map.get? key <;> rfl

theorem mem_of_get?_ofList {entries : List (κ × ν)} {key : κ} {value : ν}
    (found : (ofList entries).get? key = some value) : (key,value) ∈ entries := by
  have kept (more : List (κ × ν)) (table : SortedMap κ ν)
      (found : (more.foldl (fun map entry => map.insert entry.1 entry.2) table).get? key = some value) :
      (key,value) ∈ more ∨ table.get? key = some value := by
    induction more generalizing table with
    | nil => exact .inr found
    | cons entry rest ih =>
      rcases ih _ found with later | held
      · exact .inl (List.mem_cons_of_mem _ later)
      · rw [get?_insert] at held
        split at held
        next same =>
          cases rank_inj same
          cases held
          exact .inl List.mem_cons_self
        next => exact .inr held
  exact (kept entries ∅ found).resolve_right (by simp)

theorem insert_comm (table : SortedMap κ ν) {key other : κ} (apart : key ≠ other) (value last : ν) :
    (table.insert key value).insert other last = (table.insert other last).insert key value := by
  refine ext_get? fun wanted => ?_
  simp only [get?_insert]
  by_cases here : rank key = rank wanted
  · have elsewhere : rank other ≠ rank wanted := fun there => apart (rank_inj (here.trans there.symm))
    simp [here,elsewhere]
  · simp [here]

theorem ofList_perm {entries others : List (κ × ν)} (distinct : (entries.map (·.1)).Nodup)
    (perm : entries.Perm others) : ofList entries = ofList others := by
  refine perm.foldl_eq' (fun entry listed other listed' table => ?_) _
  by_cases same : entry.1 = other.1
  · rw [List.inj_on_of_nodup_map distinct listed listed' same]
  · exact insert_comm table same entry.2 other.2

theorem get?_ofList_of_mem {entries : List (κ × ν)} (distinct : (entries.map (·.1)).Nodup) {key : κ}
    {value : ν} (member : (key,value) ∈ entries) : (ofList entries).get? key = some value := by
  obtain ⟨front,back,rfl⟩ := List.append_of_mem member
  have last : (front ++ (key,value) :: back).Perm ((front ++ back) ++ [(key,value)]) :=
    List.perm_middle.trans (List.perm_append_singleton _ _).symm
  rw [ofList_perm distinct last,ofList,List.foldl_append]
  simp [get?_insert]

theorem get?_traverse {f : κ → ν → Except ε μ} {table : SortedMap κ ν} {out : SortedMap κ μ}
    (done : table.traverse f = .ok out) (key : κ) :
    (table.get? key).map (f key) = (out.get? key).map .ok := by
  unfold traverse at done
  split at done
  · cases done
  · rename_i checked
    cases done
    exact lookup_check checked key

theorem traverse_some_iff {f : κ → ν → Except ε μ} {table : SortedMap κ ν} {out : SortedMap κ μ}
    (done : table.traverse f = .ok out) {key : κ} {result : μ} :
    out.get? key = some result ↔ ∃ value, table.get? key = some value ∧ f key value = .ok result := by
  have kept := get?_traverse done key
  cases found : table.get? key with
  | none =>
    rw [found] at kept
    cases held : out.get? key with
    | none => simp
    | some other => rw [held] at kept; cases kept
  | some value =>
    rw [found,Option.map_some,eq_comm,Option.map_eq_some_iff] at kept
    obtain ⟨other,held,ran⟩ := kept
    simp [held,← ran]

omit [Ranked κ] in
theorem check_error {f : κ → ν → Except ε μ} {entries : List (κ × ν)} {e : ε} :
    check f entries = .error e ↔ (entries.mapM fun entry => f entry.1 entry.2) = .error e := by
  induction entries with
  | nil => simp [check,pure,Except.pure]
  | cons entry rest ih =>
    rw [mapM_cons_error]
    unfold check
    cases f entry.1 entry.2 with
    | error refused => simp
    | ok result =>
      rw [← ih]
      cases check f rest <;> simp

theorem traverse_error_iff {f : κ → ν → Except ε μ} {table : SortedMap κ ν} {e : ε} :
    table.traverse f = .error e ↔ ∃ key value, table.get? key = some value ∧
      f key value = .error e ∧ ∀ other found, table.get? other = some found →
        rank other < rank key → ∃ result, f other found = .ok result := by
  have failed : table.traverse f = .error e ↔ check f table.entries = .error e := by
    unfold traverse
    split <;> simp_all
  rw [failed,check_error,mapM_error_iff]
  simp only [get?_eq_some_iff,Prod.exists]
  constructor
  · rintro ⟨front,key,value,back,same,passed,refused⟩
    have ordered := table.ordered
    rw [same,List.map_append,List.pairwise_append] at ordered
    refine ⟨key,value,by simp [same],refused,fun other found listed lower => ?_⟩
    rw [same,List.mem_append,List.mem_cons] at listed
    rcases listed with before | here | after
    · exact passed _ before
    · cases here
      exact absurd lower (Nat.lt_irrefl _)
    · have above := (List.pairwise_cons.mp ordered.2.1).1 other (List.mem_map_of_mem after)
      exact absurd lower (Nat.lt_asymm above)
  · rintro ⟨key,value,listed,refused,passed⟩
    obtain ⟨front,back,same⟩ := List.append_of_mem listed
    have ordered := table.ordered
    rw [same,List.map_append,List.pairwise_append] at ordered
    refine ⟨front,key,value,back,same,fun entry before => ?_,refused⟩
    have lower := ordered.2.2 entry.1 (List.mem_map_of_mem before) key (by simp)
    exact passed entry.1 entry.2 (by simp [same,before]) lower

theorem traverse_ok {f : κ → ν → Except ε μ} {table : SortedMap κ ν}
    (each : ∀ key value, table.get? key = some value → ∃ result, f key value = .ok result) :
    ∃ out, table.traverse f = .ok out := by
  cases ran : table.traverse f with
  | ok out => exact ⟨out,rfl⟩
  | error e =>
    obtain ⟨key,value,found,refused,_⟩ := traverse_error_iff.mp ran
    obtain ⟨result,done⟩ := each key value found
    cases refused.symm.trans done

theorem mem_values {table : SortedMap κ ν} {value : ν} :
    value ∈ table.values ↔ ∃ key, table.get? key = some value := by
  simp only [get?_eq_some_iff]
  simp [values]

theorem lookup_absent {key : κ} {entries : List (κ × ν)}
    (absent : ∀ other ∈ entries.map (·.1), rank other ≠ rank key) : lookup key entries = none := by
  induction entries with
  | nil => rfl
  | cons entry rest ih =>
    rw [lookup,if_neg (absent entry.1 (by simp))]
    exact ih fun other member => absent other (List.mem_cons_of_mem _ member)

theorem lookup_behind {entry : κ × ν} {rest : List (κ × ν)} {key : κ}
    (ordered : ((entry :: rest).map (·.1)).Pairwise (rank · < rank ·))
    (reached : rank entry.1 = rank key) : lookup key rest = none := by
  have above := (List.pairwise_cons.mp ordered).1
  refine lookup_absent fun other member => ?_
  have far := above other member
  simp only at far
  omega

def cell (table : SortedMap ι (SortedMap κ ν)) (inner : ι) (outer : κ) : Option ν :=
  (table.get? inner).bind (·.get? outer)

theorem cell_eq_some_iff {table : SortedMap ι (SortedMap κ ν)} {inner : ι} {outer : κ} {value : ν} :
    table.cell inner outer = some value ↔
      ∃ row, table.get? inner = some row ∧ row.get? outer = some value :=
  Option.bind_eq_some_iff

-- The failure of a pass over all cells is that of the least inner key with one, and of the least
-- outer key there.
theorem traverse_cells_error_iff {f : ι → κ → ν → Except ε μ}
    {table : SortedMap ι (SortedMap κ ν)} {e : ε} :
    (table.traverse fun inner row => row.traverse (f inner)) = .error e ↔
      ∃ inner outer value, table.cell inner outer = some value ∧ f inner outer value = .error e ∧
        ∀ inner' outer' found, table.cell inner' outer' = some found →
          (rank inner' < rank inner ∨ inner' = inner ∧ rank outer' < rank outer) →
          ∃ result, f inner' outer' found = .ok result := by
  rw [traverse_error_iff]
  constructor
  · rintro ⟨inner,row,held,failed,passed⟩
    obtain ⟨outer,value,found,refused,before⟩ := traverse_error_iff.mp failed
    refine ⟨inner,outer,value,cell_eq_some_iff.mpr ⟨row,held,found⟩,refused,?_⟩
    intro inner' outer' found' listed lower
    obtain ⟨row',held',listed⟩ := cell_eq_some_iff.mp listed
    rcases lower with earlier | ⟨rfl,lower⟩
    · obtain ⟨out,done⟩ := passed inner' row' held' earlier
      have kept := get?_traverse done outer'
      rw [listed,Option.map_some,eq_comm,Option.map_eq_some_iff] at kept
      obtain ⟨result,_,ran⟩ := kept
      exact ⟨result,ran.symm⟩
    · cases held.symm.trans held'
      exact before outer' found' listed lower
  · rintro ⟨inner,outer,value,listed,refused,passed⟩
    obtain ⟨row,held,found⟩ := cell_eq_some_iff.mp listed
    refine ⟨inner,row,held,traverse_error_iff.mpr ⟨outer,value,found,refused,?_⟩,?_⟩
    · intro outer' found' listed' lower
      exact passed inner outer' found' (cell_eq_some_iff.mpr ⟨row,held,listed'⟩) (.inr ⟨rfl,lower⟩)
    · intro inner' row' held' earlier
      cases ran : row'.traverse (f inner') with
      | ok out => exact ⟨out,rfl⟩
      | error e' =>
        obtain ⟨outer',found',listed',refused',_⟩ := traverse_error_iff.mp ran
        obtain ⟨result,done⟩ := passed inner' outer' found'
          (cell_eq_some_iff.mpr ⟨row',held',listed'⟩) (.inl earlier)
        cases refused'.symm.trans done

theorem cell_put (table : SortedMap ι (SortedMap κ ν)) (inner other : ι) (outer key : κ) (value : ν) :
    (table.upsert inner fun column => (column.getD ∅).insert outer value).cell other key =
      if rank inner = rank other ∧ rank outer = rank key then some value else table.cell other key := by
  rw [cell,get?_upsert]
  by_cases column : rank inner = rank other
  · cases rank_inj column
    cases found : table.get? inner <;> simp [cell,found,get?_insert]
  · simp [column,cell]

def putRow (outer : κ) (cells : List (ι × ν)) (table : SortedMap ι (SortedMap κ ν)) :
    SortedMap ι (SortedMap κ ν) :=
  cells.foldl (fun out cell => out.upsert cell.1 fun column =>
    (column.getD ∅).insert outer cell.2) table

theorem cell_putRow (outer key : κ) (inner : ι) {cells : List (ι × ν)}
    (ordered : (cells.map (·.1)).Pairwise (rank · < rank ·)) (table : SortedMap ι (SortedMap κ ν)) :
    (putRow outer cells table).cell inner key =
      if rank outer = rank key then (lookup inner cells).or (table.cell inner key)
      else table.cell inner key := by
  induction cells generalizing table with
  | nil => simp [putRow,lookup]
  | cons first rest ih =>
    obtain ⟨above,tail⟩ := List.pairwise_cons.mp ordered
    rw [putRow,List.foldl_cons,← putRow,ih tail,cell_put]
    by_cases row : rank outer = rank key
    · by_cases here : rank first.1 = rank inner
      · simp [row,here,lookup,lookup_behind ordered here]
      · simp [row,here,lookup]
    · simp [row]

theorem cell_transpose (table : SortedMap κ (SortedMap ι ν)) (inner : ι) (outer : κ) :
    table.transpose.cell inner outer = table.cell outer inner := by
  have put (rows : List (κ × SortedMap ι ν))
      (ordered : (rows.map (·.1)).Pairwise (rank · < rank ·)) (out : SortedMap ι (SortedMap κ ν)) :
      (rows.foldl (fun out row => putRow row.1 row.2.entries out) out).cell inner outer =
        ((lookup outer rows).bind (·.get? inner)).or (out.cell inner outer) := by
    induction rows generalizing out with
    | nil => simp [lookup]
    | cons row rest ih =>
      rw [List.foldl_cons,ih (List.pairwise_cons.mp ordered).2,cell_putRow _ _ _ row.2.ordered]
      by_cases here : rank row.1 = rank outer
      · simp [here,lookup,lookup_behind ordered here,get?]
      · simp [here,lookup]
  have nothing : (∅ : SortedMap ι (SortedMap κ ν)).cell inner outer = none := rfl
  refine (put table.entries table.ordered ∅).trans ?_
  rw [nothing,Option.or_none]
  rfl

theorem ext_entries {left right : SortedMap κ ν} (same : left.entries = right.entries) :
    left = right := by
  cases left
  cases same
  rfl

theorem place_last {key : κ} {change : Option ν → ν} {entries : List (κ × ν)}
    (above : ∀ other ∈ entries.map (·.1), rank other < rank key) :
    place key change entries = entries ++ [(key,change none)] := by
  induction entries with
  | nil => rfl
  | cons entry rest ih =>
    have lower := above entry.1 (by simp)
    have later := ih fun other member => above other (List.mem_cons_of_mem _ member)
    rw [place,if_neg (by omega),if_neg (by omega),later]
    rfl

theorem ofList_entries (map : SortedMap κ ν) : ofList map.entries = map := by
  have put (more : List (κ × ν)) (out : SortedMap κ ν)
      (ordered : ((out.entries ++ more).map (·.1)).Pairwise (rank · < rank ·)) :
      (more.foldl (fun out entry => out.insert entry.1 entry.2) out).entries =
        out.entries ++ more := by
    induction more generalizing out with
    | nil => simp
    | cons entry rest ih =>
      have split := ordered
      rw [List.map_append,List.pairwise_append] at split
      have last : (out.insert entry.1 entry.2).entries = out.entries ++ [entry] :=
        place_last fun other member => split.2.2 other member entry.1 List.mem_cons_self
      rw [List.foldl_cons,ih _ (by simpa [last] using ordered),last]
      simp
  exact ext_entries (put map.entries ∅ map.ordered)

def Filled (table : SortedMap ι (SortedMap κ ν)) : Prop :=
  ∀ inner row, table.get? inner = some row → row.values ≠ []

theorem insert_values (row : SortedMap κ ν) (key : κ) (value : ν) :
    (row.insert key value).values ≠ [] :=
  List.ne_nil_of_mem (mem_values.mpr ⟨key,by rw [get?_insert,if_pos rfl]⟩)

theorem Filled.putRow {table : SortedMap ι (SortedMap κ ν)} (filled : table.Filled) (outer : κ)
    (cells : List (ι × ν)) : (putRow outer cells table).Filled := by
  induction cells generalizing table with
  | nil => exact filled
  | cons cell rest ih =>
    refine ih fun inner row found => ?_
    rw [get?_upsert] at found
    split at found
    · cases found
      exact insert_values ((table.get? cell.1).getD ∅) outer cell.2
    · exact filled inner row found

theorem filled_transpose (table : SortedMap κ (SortedMap ι ν)) : table.transpose.Filled := by
  have rows (rows : List (κ × SortedMap ι ν)) (out : SortedMap ι (SortedMap κ ν))
      (filled : out.Filled) :
      (rows.foldl (fun out row => SortedMap.putRow row.1 row.2.entries out) out).Filled := by
    induction rows generalizing out with
    | nil => exact filled
    | cons row rest ih => exact ih _ (filled.putRow row.1 row.2.entries)
  exact rows table.entries ∅ fun _ _ found => nomatch found

theorem get?_transpose_iff {table : SortedMap κ (SortedMap ι ν)} {inner : ι}
    {column : SortedMap κ ν} : table.transpose.get? inner = some column ↔
      column.values ≠ [] ∧ (table.filterMap fun _ row => row.get? inner) = column := by
  have same {row : SortedMap κ ν} (found : table.transpose.get? inner = some row) :
      (table.filterMap fun _ row => row.get? inner) = row := by
    refine ext_get? fun outer => ?_
    have placed := cell_transpose table inner outer
    rw [cell,found] at placed
    rw [get?_filterMap]
    exact placed.symm
  constructor
  · intro found
    exact ⟨filled_transpose table inner column found,same found⟩
  · rintro ⟨present,rfl⟩
    obtain ⟨value,listed⟩ := List.exists_mem_of_ne_nil _ present
    obtain ⟨outer,found⟩ := mem_values.mp listed
    have placed : table.transpose.cell inner outer = some value := by
      rw [cell_transpose,← found,get?_filterMap]
      rfl
    obtain ⟨row,held,_⟩ := cell_eq_some_iff.mp placed
    rw [held,same held]

theorem map_upsert {f : κ → ν → μ} {key : κ} {change : Option ν → ν} {change' : Option μ → μ}
    (agree : ∀ found, f key (change found) = change' (found.map (f key))) (table : SortedMap κ ν) :
    (table.upsert key change).map f = (table.map f).upsert key change' := by
  refine ext_get? fun wanted => ?_
  rw [get?_map,get?_upsert,get?_upsert]
  by_cases here : rank key = rank wanted
  · cases rank_inj here
    simp [agree,get?_map]
  · simp [here,get?_map]

theorem map_insert (f : κ → ν → μ) (table : SortedMap κ ν) (key : κ) (value : ν) :
    (table.insert key value).map f = (table.map f).insert key (f key value) := by
  unfold insert
  apply map_upsert
  intro found
  rfl

theorem map_ofList (f : κ → ν → μ) (entries : List (κ × ν)) :
    (ofList entries).map f = ofList (entries.map fun entry => (entry.1,f entry.1 entry.2)) := by
  unfold ofList
  rw [List.foldl_map]
  exact (List.foldl_hom (SortedMap.map f) fun table entry =>
    (map_insert f table entry.1 entry.2).symm).symm

theorem map_putRow (f : ν → μ) (outer : κ) (cells : List (ι × ν))
    (out : SortedMap ι (SortedMap κ ν)) :
    (putRow outer cells out).map (fun _ column => column.map fun _ => f) =
      putRow outer (cells.map fun cell => (cell.1,f cell.2))
        (out.map fun _ column => column.map fun _ => f) := by
  induction cells generalizing out with
  | nil => rfl
  | cons cell rest ih =>
    refine (ih _).trans (congrArg (putRow outer _) (map_upsert (fun found => ?_) out))
    rw [map_insert]
    cases found <;> rfl

theorem map_transpose (f : ν → μ) (table : SortedMap κ (SortedMap ι ν)) :
    table.transpose.map (fun _ column => column.map fun _ => f) =
      (table.map fun _ row => row.map fun _ => f).transpose := by
  have whole (rows : List (κ × SortedMap ι ν)) (out : SortedMap ι (SortedMap κ ν)) :
      (rows.foldl (fun out row => putRow row.1 row.2.entries out) out).map
          (fun _ column => column.map fun _ => f) =
        (rows.map fun row => (row.1,row.2.map fun _ => f)).foldl
          (fun out row => putRow row.1 row.2.entries out)
          (out.map fun _ column => column.map fun _ => f) := by
    induction rows generalizing out with
    | nil => rfl
    | cons row rest ih => rw [List.foldl_cons,ih,map_putRow]; rfl
  exact whole table.entries ∅

omit [Ranked κ] in
theorem check_map {f : κ → ν → Except ε μ} {before : ν → ν} {after : μ → μ}
    (agree : ∀ key value, f key (before value) = (f key value).map after)
    (entries : List (κ × ν)) :
    (check f (entries.map fun entry => (entry.1,before entry.2))).map (·.1) =
      (check f entries).map fun out => out.1.map fun entry => (entry.1,after entry.2) := by
  induction entries with
  | nil => rfl
  | cons entry rest ih =>
    change (check f ((entry.1,before entry.2) :: rest.map _)).map (·.1) = _
    unfold check
    rw [agree]
    cases f entry.1 entry.2 with
    | error e => rfl
    | ok value =>
      generalize check f (rest.map fun entry => (entry.1,before entry.2)) = changed at ih
      generalize check f rest = kept at ih
      rcases changed with e | ⟨out,same⟩ <;> rcases kept with e' | ⟨out',same'⟩
      · exact congrArg Except.error (Except.error.inj ih)
      · cases ih
      · cases ih
      · have later : out = out'.map fun entry => (entry.1,after entry.2) := Except.ok.inj ih
        exact congrArg (fun later => Except.ok ((entry.1,after value) :: later)) later

theorem traverse_map {f : κ → ν → Except ε μ} {before : ν → ν} {after : μ → μ}
    (agree : ∀ key value, f key (before value) = (f key value).map after) (table : SortedMap κ ν) :
    (table.map fun _ => before).traverse f =
      (table.traverse f).map (SortedMap.map fun _ => after) := by
  have checked := check_map agree table.entries
  unfold traverse
  rw [show table.entries.map (fun entry => (entry.1,before entry.2)) =
    (table.map fun _ => before).entries from rfl] at checked
  generalize check f (table.map fun _ => before).entries = changed at checked
  generalize check f table.entries = kept at checked
  rcases changed with e | ⟨out,same⟩ <;> rcases kept with e' | ⟨out',same'⟩
  · exact congrArg Except.error (Except.error.inj checked)
  · cases checked
  · cases checked
  · have equal : out = out'.map fun entry => (entry.1,after entry.2) := Except.ok.inj checked
    subst equal
    rfl

end SortedMap
end JoinTrace
