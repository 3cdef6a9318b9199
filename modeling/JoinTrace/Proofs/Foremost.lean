import Mathlib.Data.List.Induction
import JoinTrace.Proofs.NumberOrder

-- What is left of a list by a scan that holds one item and lets each next one replace it or not.
namespace JoinTrace
open Scalar (Number)

def Foremost {τ : Type} (before : τ → τ → Prop) (items : List τ) : Option τ → Prop
  | none => items = []
  | some first => first ∈ items ∧ ∀ item ∈ items, before first item

theorem Foremost.mem {τ : Type} {before : τ → τ → Prop} {items : List τ} {held : Option τ}
    (foremost : Foremost before items held) {first : τ} (found : first ∈ held) : first ∈ items := by
  cases found
  exact foremost.1

def consider {τ : Type} (choose : τ → τ → τ) (held : Option τ) (item : τ) : Option τ :=
  some (held.elim item (choose · item))

-- The choice need only be right between an item and a later one.
theorem foremost_scan {τ : Type} {before : τ → τ → Prop} {choose : τ → τ → τ} {items : List τ}
    (trans : ∀ {a b c}, before a b → before b c → before a c)
    (refl : ∀ item ∈ items, before item item)
    (right : items.Pairwise fun held item => choose held item = held ∧ before held item ∨
      choose held item = item ∧ before item held) :
    Foremost before items (items.foldl (consider choose) none) := by
  -- On the end of the list: the item held before the last one stands before all earlier ones.
  induction items using List.reverseRecOn with
  | nil => rfl
  | append_singleton front last ih =>
    obtain ⟨sooner,_,across⟩ := List.pairwise_append.mp right
    have first := ih (fun item member => refl item (List.mem_append_left _ member)) sooner
    have same := refl last (List.mem_append_right _ List.mem_cons_self)
    rw [List.foldl_append]
    cases scanned : front.foldl (consider choose) none with
    | none =>
      rw [scanned] at first
      have nothing : front = [] := first
      subst nothing
      exact ⟨List.mem_cons_self,List.forall_mem_singleton.mpr same⟩
    | some held =>
      rw [scanned] at first
      obtain ⟨member,ahead⟩ := first
      change Foremost before _ (some (choose held last))
      rcases across held member last List.mem_cons_self with ⟨kept,sooner⟩ | ⟨replaced,sooner⟩
      · rw [kept]
        exact ⟨List.mem_append_left _ member,
          List.forall_mem_append.mpr ⟨ahead,List.forall_mem_singleton.mpr sooner⟩⟩
      · rw [replaced]
        have all : ∀ item ∈ front, before last item := fun item listed => trans sooner (ahead item listed)
        exact ⟨List.mem_append_right _ List.mem_cons_self,
          List.forall_mem_append.mpr ⟨all,List.forall_mem_singleton.mpr same⟩⟩

variable {α : Type} [Scalar α]

def earliest (times : List α) : Option α := times.foldl (consider Scalar.min) none
def latest (times : List α) : Option α := times.foldl (consider Scalar.max) none

variable [OrderedScalar α] {times : List α}

theorem earliest_foremost (numbers : ∀ time ∈ times, Number time) :
    Foremost (fun a b => Scalar.le a b) times (earliest times) := by
  refine foremost_scan OrderedScalar.le_trans (fun _ member => OrderedScalar.le_refl (numbers _ member)) ?_
  exact List.pairwise_of_forall_mem_list fun a first b second =>
    OrderedScalar.min_choice (numbers a first) (numbers b second)

theorem latest_foremost (numbers : ∀ time ∈ times, Number time) :
    Foremost (fun a b => Scalar.le b a) times (latest times) := by
  refine foremost_scan (fun near far => OrderedScalar.le_trans far near)
    (fun _ member => OrderedScalar.le_refl (numbers _ member)) ?_
  exact List.pairwise_of_forall_mem_list fun a first b second =>
    OrderedScalar.max_choice (numbers a first) (numbers b second)

end JoinTrace
