import Mathlib.Algebra.BigOperators.Group.List.Basic
import JoinTrace.Proofs.Passes
import JoinTrace.Proofs.SortOrder

namespace JoinTrace

inductive Rearranged {τ : Type} : Failable (List τ) → Failable (List τ) → Prop where
  | values {items others : List τ} (perm : items.Perm others) : Rearranged (.ok items) (.ok others)
  | failed (failure : Failure) : Rearranged (.error failure) (.error failure)

-- Whatever it fails on, it fails for one reason.
def FailsAlike {τ ν : Type} (read : τ → Failable ν) : Prop :=
  ∀ {item other failure reason}, read item = .error failure → read other = .error reason →
    failure = reason

namespace Rearranged
variable {τ ν : Type} {left right : Failable (List τ)}

theorem bind {next after : List τ → Failable (List ν)} (same : Rearranged left right)
    (blind : ∀ items others, items.Perm others → Rearranged (next items) (after others)) :
    Rearranged (left >>= next) (right >>= after) := by
  cases same with
  | values perm => exact blind _ _ perm
  | failed failure => exact .failed failure

theorem bind_eq {next after : List τ → Failable ν} (same : Rearranged left right)
    (blind : ∀ items others, items.Perm others → next items = after others) :
    left >>= next = right >>= after := by
  cases same with
  | values perm => exact blind _ _ perm
  | failed failure => rfl

theorem mapM {read : τ → Failable ν} (alike : FailsAlike read) {items others : List τ}
    (perm : items.Perm others) : Rearranged (items.mapM read) (others.mapM read) := by
  cases ran : items.mapM read with
  | ok values =>
    obtain ⟨values',ran',perm⟩ := mapM_perm perm ran
    rw [ran']
    exact .values perm
  | error failure =>
    cases ran' : others.mapM read with
    | ok values =>
      obtain ⟨_,ran',_⟩ := mapM_perm perm.symm ran'
      cases ran.symm.trans ran'
    | error reason =>
      obtain ⟨item,_,failed⟩ := mapM_error ran
      obtain ⟨other,_,failed'⟩ := mapM_error ran'
      cases alike failed failed'
      exact .failed failure

end Rearranged

namespace Exact
variable {values others : List ℚ}

theorem sorted_ascending (ascend : values.Pairwise (· ≤ ·)) : Scalar.sorted values = values :=
  List.mergeSort_of_pairwise (ascend.imp decide_eq_true)

theorem sum_perm (perm : values.Perm others) : Scalar.sum values = Scalar.sum others := by
  rw [sum_eq,sum_eq,perm.sum_eq]

theorem mean_perm (perm : values.Perm others) : Aggregate.mean values = Aggregate.mean others := by
  simp only [Aggregate.mean,perm.isEmpty_eq,perm.length_eq,sum_perm perm]

theorem foldFirst_perm (pick : ℚ → ℚ → ℚ) {fold : List ℚ → Failable ℚ}
    (comm : ∀ a b, pick a b = pick b a) (assoc : ∀ a b c, pick (pick a b) c = pick a (pick b c))
    (folds : ∀ first rest, fold (first :: rest) = .ok (rest.foldl pick first))
    (perm : values.Perm others) : fold values = fold others := by
  induction perm with
  | nil => rfl
  | cons first perm _ =>
    rw [folds,folds]
    refine congrArg _ (perm.foldl_eq' (fun a _ b _ held => ?_) first)
    rw [assoc,comm a b,← assoc]
  | swap first second rest =>
    rw [folds,folds,List.foldl_cons,List.foldl_cons,comm second first]
  | trans _ _ left right => exact left.trans right

theorem max_perm (perm : values.Perm others) : Aggregate.max values = Aggregate.max others := by
  refine foldFirst_perm Scalar.max ?_ ?_ (fun _ _ => rfl) perm
  · intro a b
    rw [max_eq,max_eq,max_comm]
  · intro a b c
    simp only [max_eq,max_assoc]

theorem min_perm (perm : values.Perm others) : Aggregate.min values = Aggregate.min others := by
  refine foldFirst_perm Scalar.min ?_ ?_ (fun _ _ => rfl) perm
  · intro a b
    rw [min_eq,min_eq,min_comm]
  · intro a b c
    simp only [min_eq,min_assoc]

theorem variance_perm (perm : values.Perm others) :
    Aggregate.variance values = Aggregate.variance others := by
  simp only [Aggregate.variance,perm.length_eq,mean_perm perm]
  cases Aggregate.mean others with
  | error failure => rfl
  | ok centre => simp only [sum_perm (perm.map _)]

theorem apply_perm (aggregate : AggregateFn) (perm : values.Perm others) :
    aggregate.apply values = aggregate.apply others := by
  cases aggregate with
  | mean => exact mean_perm perm
  | max => exact max_perm perm
  | min => exact min_perm perm
  | sum => exact congrArg Except.ok (sum_perm perm)
  | p95 => exact Aggregate.percentile_perm perm _
  | stdev => exact congrArg (Except.map Scalar.sqrt) (variance_perm perm)

end Exact
end JoinTrace
