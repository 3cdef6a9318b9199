import JoinTrace.Named

namespace JoinTrace
open Ranked

-- A finite map kept in the order of its keys' ranks. The order is part of the value, so two maps
-- with the same lookups are equal (`ext_get?`).
structure SortedMap (κ ν : Type) [Ranked κ] where
  entries : List (κ × ν)
  ordered : (entries.map (·.1)).Pairwise (rank · < rank ·)
  deriving DecidableEq

namespace SortedMap

theorem filterMap_keys_sublist {κ ν μ : Type} (f : κ → ν → Option μ) (entries : List (κ × ν)) :
    ((entries.filterMap fun entry => (f entry.1 entry.2).map (entry.1,·)).map (·.1)).Sublist
      (entries.map (·.1)) := by
  induction entries with
  | nil => simp
  | cons entry rest ih =>
    rw [List.filterMap_cons]
    cases f entry.1 entry.2 with
    | none => exact ih.cons _
    | some kept => simpa using ih.cons_cons entry.1

variable {κ ι ν μ ε : Type} [Ranked κ] [Ranked ι]

def empty : SortedMap κ ν := ⟨[],.nil⟩

instance : EmptyCollection (SortedMap κ ν) := ⟨empty⟩
instance : Inhabited (SortedMap κ ν) := ⟨empty⟩

def keys (map : SortedMap κ ν) : List κ := map.entries.map (·.1)
def values (map : SortedMap κ ν) : List ν := map.entries.map (·.2)

def lookup (key : κ) : List (κ × ν) → Option ν
  | [] => none
  | (found,value) :: rest => if rank found = rank key then some value else lookup key rest

def get? (map : SortedMap κ ν) (key : κ) : Option ν := lookup key map.entries

def place (key : κ) (change : Option ν → ν) : List (κ × ν) → List (κ × ν)
  | [] => [(key,change none)]
  | (found,value) :: rest =>
    if rank key < rank found then (key,change none) :: (found,value) :: rest
    else if rank key = rank found then (found,change (some value)) :: rest
    else (found,value) :: place key change rest

theorem mem_keys_place {key other : κ} {change : Option ν → ν} {entries : List (κ × ν)}
    (member : other ∈ (place key change entries).map (·.1)) :
    other = key ∨ other ∈ entries.map (·.1) := by
  induction entries with
  | nil => left; simpa [place] using member
  | cons entry rest ih =>
    obtain ⟨found,value⟩ := entry
    simp only [place] at member
    split at member
    · simpa using member
    · split at member
      · exact .inr (by simpa using member)
      · rcases List.mem_cons.mp member with here | later
        · exact .inr (by simp [here])
        · rcases ih later with new | old
          · exact .inl new
          · exact .inr (by simp only [List.map_cons,List.mem_cons]; exact .inr old)

theorem place_ordered {key : κ} {change : Option ν → ν} {entries : List (κ × ν)}
    (ordered : (entries.map (·.1)).Pairwise (rank · < rank ·)) :
    ((place key change entries).map (·.1)).Pairwise (rank · < rank ·) := by
  induction entries with
  | nil => simp [place]
  | cons entry rest ih =>
    obtain ⟨found,value⟩ := entry
    obtain ⟨above,tail⟩ := List.pairwise_cons.mp ordered
    simp only [place]
    split
    next lower =>
      refine List.pairwise_cons.mpr ⟨fun other member => ?_,ordered⟩
      rcases List.mem_cons.mp member with here | later
      · exact here ▸ lower
      · exact Nat.lt_trans lower (above other later)
    next notLower =>
      split
      next same => exact List.pairwise_cons.mpr ⟨above,tail⟩
      next apart =>
        refine List.pairwise_cons.mpr ⟨fun other member => ?_,ih tail⟩
        rcases mem_keys_place member with new | old
        · subst new
          exact Nat.lt_of_le_of_ne (Nat.le_of_not_lt notLower) (Ne.symm apart)
        · exact above other old

def upsert (map : SortedMap κ ν) (key : κ) (change : Option ν → ν) : SortedMap κ ν :=
  ⟨place key change map.entries,place_ordered map.ordered⟩

def insert (map : SortedMap κ ν) (key : κ) (value : ν) : SortedMap κ ν :=
  map.upsert key fun _ => value

def ofList (entries : List (κ × ν)) : SortedMap κ ν :=
  entries.foldl (fun map entry => map.insert entry.1 entry.2) empty

def map (f : κ → ν → μ) (map : SortedMap κ ν) : SortedMap κ μ :=
  ⟨map.entries.map fun entry => (entry.1,f entry.1 entry.2),by
    simpa [List.map_map,Function.comp_def] using map.ordered⟩

def filterMap (f : κ → ν → Option μ) (map : SortedMap κ ν) : SortedMap κ μ :=
  ⟨map.entries.filterMap fun entry => (f entry.1 entry.2).map (entry.1,·),
    map.ordered.sublist (filterMap_keys_sublist f map.entries)⟩

def check (f : κ → ν → Except ε μ) :
    (entries : List (κ × ν)) → Except ε { out : List (κ × μ) // out.map (·.1) = entries.map (·.1) }
  | [] => .ok ⟨[],rfl⟩
  | (key,value) :: rest =>
    match f key value with
    | .error e => .error e
    | .ok result =>
      match check f rest with
      | .error e => .error e
      | .ok ⟨out,same⟩ => .ok ⟨(key,result) :: out,by simp [same]⟩

def traverse (f : κ → ν → Except ε μ) (map : SortedMap κ ν) : Except ε (SortedMap κ μ) :=
  match check f map.entries with
  | .error e => .error e
  | .ok ⟨out,same⟩ => .ok ⟨out,same ▸ map.ordered⟩

def transpose (table : SortedMap κ (SortedMap ι ν)) : SortedMap ι (SortedMap κ ν) :=
  table.entries.foldl (fun out row => row.2.entries.foldl (fun out cell =>
    out.upsert cell.1 fun column => (column.getD ∅).insert row.1 cell.2) out) ∅

@[simp] theorem get?_empty (key : κ) : (∅ : SortedMap κ ν).get? key = none := rfl

theorem lookup_place (key other : κ) (change : Option ν → ν) {entries : List (κ × ν)}
    (ordered : (entries.map (·.1)).Pairwise (rank · < rank ·)) :
    lookup other (place key change entries) =
      if rank key = rank other then some (change (lookup key entries)) else lookup other entries := by
  induction entries with
  | nil => simp [place,lookup]
  | cons entry rest ih =>
    obtain ⟨found,value⟩ := entry
    obtain ⟨above,tail⟩ := List.pairwise_cons.mp ordered
    have missing (lower : rank key < rank found) : lookup key rest = none := by
      clear ih ordered
      induction rest with
      | nil => rfl
      | cons next rest ih =>
        have far := above next.1 (by simp)
        have apart : rank next.1 ≠ rank key := by simp only at far; omega
        simp only [lookup,if_neg apart]
        exact ih (fun k member => above k (by simp only [List.map_cons,List.mem_cons]; exact .inr member))
          (List.pairwise_cons.mp tail).2
    by_cases lower : rank key < rank found
    · have apart : rank found ≠ rank key := by omega
      simp [place,lookup,lower,apart,missing lower]
    · by_cases same : rank key = rank found
      · by_cases wanted : rank found = rank other <;> simp [place,lookup,same,wanted]
      · have apart : rank found ≠ rank key := by omega
        simp only [place,if_neg lower,if_neg same,lookup,if_neg apart,ih tail]
        by_cases wanted : rank found = rank other
        · have : rank key ≠ rank other := by omega
          simp [wanted,this]
        · simp [wanted]

theorem get?_upsert (map : SortedMap κ ν) (key other : κ) (change : Option ν → ν) :
    (map.upsert key change).get? other =
      if rank key = rank other then some (change (map.get? key)) else map.get? other :=
  lookup_place key other change map.ordered

theorem get?_insert (map : SortedMap κ ν) (key other : κ) (value : ν) :
    (map.insert key value).get? other = if rank key = rank other then some value else map.get? other :=
  get?_upsert ..

theorem get?_map (f : κ → ν → μ) (table : SortedMap κ ν) (key : κ) :
    (table.map f).get? key = (table.get? key).map (f key) := by
  simp only [get?,map]
  induction table.entries with
  | nil => rfl
  | cons entry rest ih =>
    by_cases same : rank entry.1 = rank key
    · simp [lookup,rank_inj same]
    · simp [lookup,same,ih]

theorem mem_entries_of_lookup {key : κ} {value : ν} {entries : List (κ × ν)}
    (found : lookup key entries = some value) : (key,value) ∈ entries := by
  induction entries with
  | nil => cases found
  | cons entry rest ih =>
    obtain ⟨head,first⟩ := entry
    simp only [lookup] at found
    split at found
    next same => cases found; simp [rank_inj same]
    next => exact List.mem_cons_of_mem _ (ih found)

theorem lookup_of_mem_entries {key : κ} {value : ν} {entries : List (κ × ν)}
    (ordered : (entries.map (·.1)).Pairwise (rank · < rank ·)) (member : (key,value) ∈ entries) :
    lookup key entries = some value := by
  induction entries with
  | nil => cases member
  | cons entry rest ih =>
    obtain ⟨above,tail⟩ := List.pairwise_cons.mp ordered
    rcases List.mem_cons.mp member with here | later
    · subst here; simp [lookup]
    · have far := above key (List.mem_map.mpr ⟨_,later,rfl⟩)
      have apart : rank entry.1 ≠ rank key := by simp only at far; omega
      simp only [lookup,if_neg apart,ih tail later]

theorem get?_eq_some_iff (map : SortedMap κ ν) (key : κ) (value : ν) :
    map.get? key = some value ↔ (key,value) ∈ map.entries :=
  ⟨mem_entries_of_lookup,lookup_of_mem_entries map.ordered⟩

theorem entries_ext {left right : List (κ × ν)}
    (first : (left.map (·.1)).Pairwise (rank · < rank ·))
    (second : (right.map (·.1)).Pairwise (rank · < rank ·))
    (same : ∀ key value, (key,value) ∈ left ↔ (key,value) ∈ right) : left = right := by
  induction left generalizing right with
  | nil =>
    cases right with
    | nil => rfl
    | cons entry rest => simpa using (same entry.1 entry.2).mpr (by simp)
  | cons entry rest ih =>
    cases right with
    | nil => simpa using (same entry.1 entry.2).mp (by simp)
    | cons other others =>
      obtain ⟨above,tail⟩ := List.pairwise_cons.mp first
      obtain ⟨beyond,tails⟩ := List.pairwise_cons.mp second
      have rises {a b : κ × ν} {l : List (κ × ν)} (low : ∀ k ∈ l.map (·.1), rank b.1 < rank k)
          (member : a ∈ b :: l) : a = b ∨ rank b.1 < rank a.1 := by
        rcases List.mem_cons.mp member with here | later
        · exact .inl here
        · exact .inr (low _ (List.mem_map.mpr ⟨_,later,rfl⟩))
      have equal : entry = other := by
        rcases rises beyond ((same entry.1 entry.2).mp (by simp)) with here | higher
        · exact here
        · rcases rises above ((same other.1 other.2).mpr (by simp)) with here | lower
          · exact here.symm
          · simp only at higher lower; omega
      subst equal
      refine congrArg _ (ih tail tails fun key value => ?_)
      have shrink {l : List (κ × ν)} (low : ∀ k ∈ l.map (·.1), rank entry.1 < rank k)
          (member : (key,value) ∈ l) : (key,value) ≠ entry := by
        rintro rfl
        exact Nat.lt_irrefl _ (low key (List.mem_map.mpr ⟨_,member,rfl⟩))
      constructor
      · intro member
        have := (same key value).mp (List.mem_cons_of_mem _ member)
        exact (List.mem_cons.mp this).resolve_left (shrink above member)
      · intro member
        have := (same key value).mpr (List.mem_cons_of_mem _ member)
        exact (List.mem_cons.mp this).resolve_left (shrink beyond member)

theorem ext_get? {left right : SortedMap κ ν} (same : ∀ key, left.get? key = right.get? key) :
    left = right := by
  have equal : left.entries = right.entries :=
    entries_ext left.ordered right.ordered fun key value => by
      rw [← get?_eq_some_iff,← get?_eq_some_iff,same]
  cases left; cases right
  simp_all

end SortedMap
end JoinTrace
