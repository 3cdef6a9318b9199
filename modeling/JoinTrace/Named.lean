namespace JoinTrace

-- A closed vocabulary: every member once, in its fixed order, under its written name.
class Named (α : Type) where
  all : List α
  name : α → String

namespace Named
variable {α : Type} [Named α]

def ofName? (text : String) : Option α := (all : List α).find? (name · == text)

end Named

class Ranked (κ : Type) where
  rank : κ → Nat
  rank_inj : ∀ {a b : κ}, rank a = rank b → a = b

instance : Ranked UInt32 := ⟨UInt32.toNat,UInt32.toNat.inj⟩

def firstRepeatAfter {τ : Type} [BEq τ] (seen : List τ) : List τ → Option τ
  | [] => none
  | item :: rest => if seen.contains item then some item else firstRepeatAfter (item :: seen) rest

def firstRepeat? {τ : Type} [BEq τ] (items : List τ) : Option τ := firstRepeatAfter [] items

theorem firstRepeatAfter_eq_none {τ : Type} [BEq τ] [LawfulBEq τ] {seen items : List τ} :
    firstRepeatAfter seen items = none ↔ items.Nodup ∧ ∀ item ∈ items, item ∉ seen := by
  induction items generalizing seen with
  | nil => simp [firstRepeatAfter]
  | cons item rest ih =>
    simp only [firstRepeatAfter,List.contains_iff_mem,List.nodup_cons,List.mem_cons]
    split
    next present => simp [present]
    next absent =>
      rw [ih]
      constructor
      · rintro ⟨distinct,fresh⟩
        refine ⟨⟨fun again => fresh item again (by simp),distinct⟩,?_⟩
        rintro other (rfl | later)
        · exact absent
        · exact fun old => fresh other later (by simp [old])
      · rintro ⟨⟨once,distinct⟩,fresh⟩
        refine ⟨distinct,fun other later => ?_⟩
        intro present
        rcases List.mem_cons.mp present with same | old
        · exact once (same ▸ later)
        · exact fresh other (.inr later) old

theorem firstRepeat?_eq_none {τ : Type} [BEq τ] [LawfulBEq τ] {items : List τ} :
    firstRepeat? items = none ↔ items.Nodup := by
  simp [firstRepeat?,firstRepeatAfter_eq_none]

end JoinTrace
