import JoinTrace.Proofs.CatalogFamilies
import JoinTrace.Proofs.CatalogValues
import JoinTrace.Proofs.NumberRounding

-- How many elements a bool metric holds of, and what share that is. The two are found by separate
-- passes over a filter's elements, one of which asks first whether there are any.
namespace JoinTrace
variable {α C E : Type}

section Percentage
variable [Scalar α]

def percentage (part whole : Nat) : α :=
  Scalar.ofNat 100 * Scalar.ofNat part / Scalar.ofNat whole

def Within (share : α) : Prop :=
  Scalar.le (Scalar.ofNat 0) share ∧ Scalar.le share (Scalar.ofNat 100)

instance (share : α) : Decidable (Within share) := inferInstanceAs (Decidable (_ ∧ _))

end Percentage

theorem Exact.percentage_eq (part whole : Nat) :
    (percentage part whole : ℚ) = 100 * part / whole := rfl

theorem Exact.percentage_within {part whole : Nat} (some : 0 < whole) (less : part ≤ whole) :
    Within (percentage part whole : ℚ) := by
  have positive : (0 : ℚ) < whole := by exact_mod_cast some
  have below : (part : ℚ) ≤ whole := by exact_mod_cast less
  constructor
  · refine decide_eq_true ?_
    change ((0 : ℕ) : ℚ) ≤ 100 * part / whole
    positivity
  · refine decide_eq_true ?_
    change 100 * part / whole ≤ (100 : ℚ)
    rw [div_le_iff₀ positive]
    linarith

-- Up to this size the product of the part with a hundred has few enough bits to be exact.
theorem Binary64.percentage_within {part whole : Nat} (some : 0 < whole) (less : part ≤ whole)
    (fits : 25 * whole < 2 ^ 53) : Within (percentage part whole : Float) := by
  obtain ⟨_,_,wholes⟩ := Holds.ofNat some (by omega)
  obtain ⟨_,_,hundred⟩ := Holds.ofNat (by norm_num : 0 < 100) (by norm_num)
  rcases Nat.eq_zero_or_pos part with rfl | positive
  · have nothing : (percentage 0 whole : Float) = Scalar.ofNat 0 :=
      wholes.zero_div (x := Scalar.ofNat 100 * Scalar.ofNat 0) rfl
    rw [nothing]
    exact ⟨by decide,by decide⟩
  · obtain ⟨_,_,parts⟩ := Holds.ofNat positive (by omega)
    obtain ⟨_,_,product⟩ := hundred.mul parts (by omega : 0 < 25 * part) (by omega)
      (by norm_num : 2 ≤ 11) (by ring)
    exact product.div_le wholes hundred (by omega) (by omega) some (by omega) (by norm_num)
      (by norm_num) (by omega)

namespace Measurement
variable {get : ElementGetter C E Bool} {container : C} {elements : List E}

theorem count_le {counted : Nat} (ran : count get container elements = .ok counted) :
    counted ≤ elements.length := by
  obtain ⟨flags,looked⟩ := get.looks_exists container elements
  rw [count_looks looked] at ran
  cases flags with
  | error failure => cases ran
  | ok flag =>
    cases ran
    exact List.count_le_length.trans (List.length_ofFn (f := flag)).le

end Measurement

structure CountShare [Scalar α] (filter : Filter C E) (container : C)
    (counted share : Failable (MetricValue α)) : Prop where
  failed : ∀ failure, counted = .error failure → share = .error failure
  measured : ∀ elements, filter.elements container = .ok elements → elements ≠ [] →
    ∀ value, counted = .ok value → ∃ part : Nat, part ≤ elements.length ∧ value = .int part ∧
      share = .ok (.float (percentage part elements.length))
  nothing : filter.elements container = .ok [] →
    counted = .ok (.int 0) ∧ share = fail "can't get pct with no elements"

theorem countShare [Scalar α] (filter : Filter C E) (get : ElementGetter C E Bool) (container : C) :
    CountShare (α := α) filter container (Measurement.countOf filter get container)
      (Measurement.pctOf filter get container) := by
  refine ⟨fun failure failed => ?_,fun elements selected some value ran => ?_,fun selected => ?_⟩
  · cases kept : filter.elements container with
    | error missing =>
      rw [Measurement.countOf_missing kept] at failed
      rw [Measurement.pctOf_missing kept]
      exact congrArg _ (Except.error.inj failed)
    | ok elements =>
      rw [Measurement.countOf_elements kept] at failed
      -- An empty list has a count, so this one has an element whose reading failed.
      have some : elements ≠ [] := by
        rintro rfl
        cases failed
      rw [Measurement.pctOf_elements kept some]
      cases ran : Measurement.count get container elements with
      | error reason =>
        rw [ran] at failed
        exact congrArg _ (Except.error.inj failed)
      | ok counted =>
        rw [ran] at failed
        cases failed
  · rw [Measurement.countOf_elements selected] at ran
    rw [Measurement.pctOf_elements selected some]
    cases counts : Measurement.count get container elements with
    | error reason =>
      rw [counts] at ran
      cases ran
    | ok counted =>
      rw [counts] at ran
      cases ran
      exact ⟨counted,Measurement.count_le counts,rfl,rfl⟩
  · rw [Measurement.countOf_elements selected,Measurement.pctOf_nothing selected]
    exact ⟨rfl,rfl⟩

theorem count_pct_agree {C E : Type} :
    (∀ {α : Type} [Scalar α] {builder : CatalogBuilder α C E} {made : Catalog α C},
      builder.build = .ok made → ∀ name get, ⟨name,.bool get⟩ ∈ builder.metrics →
      ∀ filter ∈ builder.allFilters, ∀ container, ∃ counted share,
        made.evaluate container ("Count" ++ filteredName name filter.name) = .ok counted ∧
        made.evaluate container ("Pct" ++ filteredName name filter.name) = .ok share ∧
        CountShare filter container counted share) ∧
    (∀ part whole : Nat, 0 < whole → part ≤ whole →
      (percentage part whole : ℚ) = 100 * part / whole ∧ Within (percentage part whole : ℚ)) ∧
    ∀ part whole : Nat, 0 < whole → part ≤ whole → 25 * whole < 2 ^ 53 →
      Within (percentage part whole : Float) := by
  refine ⟨?_,?_,?_⟩
  · intro α _ builder made built name get measured filter kept container
    exact ⟨_,_,CatalogBuilder.evaluate_count built measured kept container,
      CatalogBuilder.evaluate_pct built measured kept container,countShare filter get container⟩
  · intro part whole some less
    exact ⟨Exact.percentage_eq part whole,Exact.percentage_within some less⟩
  · intro part whole some less fits
    exact Binary64.percentage_within some less fits

namespace Sample

def oddities : CatalogBuilder Float (List Nat) Nat where
  elements numbers := .ok numbers
  metrics := [⟨"Odd",.bool fun _ numbers place =>
    if numbers.get place = 0 then fail "zero" else .ok (numbers.get place % 2 == 1)⟩]
  filters := [⟨"None",fun _ => .ok []⟩]
  specials := []

end Sample

theorem count_pct_agree_sample : ∃ made, Sample.oddities.build = .ok made ∧
    made.evaluate [1,0] "PctOdd" = .ok (fail "zero") ∧
    made.evaluate [1,2,3,5] "PctOdd" = .ok (.ok (.float (percentage 3 4))) ∧
    Within (percentage 3 4 : Float) ∧ Within (percentage 3 4 : ℚ) ∧
    made.evaluate [1] "PctOddWhereNone" = .ok (fail "can't get pct with no elements") := by
  have built : Sample.oddities.build = .ok Sample.oddities.catalog :=
    (Sample.oddities.build_registers.ok_iff _).mpr ⟨by decide,rfl⟩
  obtain ⟨agree,exact,rounded⟩ := count_pct_agree (C := List Nat) (E := Nat)
  have odd := agree built "Odd" _ List.mem_cons_self
  have all := odd _ CatalogBuilder.allElements_listed
  obtain ⟨_,_,counts,shares,missing⟩ := all [1,0]
  obtain ⟨_,_,counts',shares',whole⟩ := all [1,2,3,5]
  obtain ⟨_,_,_,shares'',nothing⟩ := odd _ (CatalogBuilder.caller_listed List.mem_cons_self) [1]
  have failed : Sample.oddities.catalog.evaluate [1,0] "CountOdd" = .ok (fail "zero") := rfl
  have three : Sample.oddities.catalog.evaluate [1,2,3,5] "CountOdd" = .ok (.ok (.int 3)) := rfl
  cases failed.symm.trans counts
  cases three.symm.trans counts'
  cases missing.failed _ rfl
  obtain ⟨part,_,counted,share⟩ := whole.measured [1,2,3,5] rfl (by decide) _ rfl
  cases MetricValue.int.inj counted
  cases share
  cases (nothing.nothing rfl).2
  exact ⟨_,built,shares,shares',rounded 3 4 (by decide) (by decide) (by decide),
    (exact 3 4 (by decide) (by decide)).2,shares''⟩

namespace Sample

def any : ElementGetter Nat Unit Bool := fun _ _ _ => .ok true

def crowd : CatalogBuilder Float Nat Unit where
  elements many := .ok (List.replicate many ())
  metrics := [⟨"First",.bool fun _ _ place => .ok (place.val == 0)⟩,⟨"Any",.bool any⟩]
  filters := []
  specials := []

theorem crowd_built : crowd.build = .ok crowd.catalog :=
  (crowd.build_registers.ok_iff _).mpr ⟨by decide,rfl⟩

theorem crowd_any (many : Nat) (some : many ≠ 0) :
    crowd.catalog.evaluate many "CountAny" = .ok (.ok (.int many)) ∧
    crowd.catalog.evaluate many "PctAny" = .ok (.ok (.float (percentage many many))) := by
  have measured : ⟨"Any",.bool any⟩ ∈ crowd.metrics :=
    List.mem_cons_of_mem _ (List.mem_singleton_self _)
  have holds : any.Looks many (List.replicate many ()) (.ok fun _ => true) := .found fun _ => rfl
  have counted : Measurement.count any many (List.replicate many ()) = .ok many := by
    rw [Measurement.count_looks holds]
    refine congrArg Except.ok ?_
    simp only [List.ofFn_const,List.count_replicate_self,List.length_replicate]
  have counts := CatalogBuilder.evaluate_count crowd_built measured
    CatalogBuilder.allElements_listed many
  have shares := CatalogBuilder.evaluate_pct crowd_built measured
    CatalogBuilder.allElements_listed many
  rw [Measurement.countOf_elements rfl,counted] at counts
  have filled : List.replicate many () ≠ [] := by simpa using some
  rw [Measurement.pctOf_elements rfl filled,counted,List.length_replicate] at shares
  exact ⟨counts,shares⟩

end Sample

-- One of three is not exactly a hundred thirds in binary64. All of enough elements come out above a
-- hundred, as their product with a hundred is rounded up before it is divided.
theorem count_pct_rounds : ∃ made, Sample.crowd.build = .ok made ∧
    (made.evaluate 3 "CountFirst" = .ok (.ok (.int 1)) ∧
      made.evaluate 3 "PctFirst" = .ok (.ok (.float (percentage 1 3))) ∧
      ∃ value : ℚ, Binary64.Holds (percentage 1 3) value 4691249611844267 (-47) ∧
        value ≠ 100 * 1 / 3) ∧
    made.evaluate 360287970189643 "CountAny" = .ok (.ok (.int 360287970189643)) ∧
    made.evaluate 360287970189643 "PctAny" =
      .ok (.ok (.float (percentage 360287970189643 360287970189643))) ∧
    ¬ Within (percentage 360287970189643 360287970189643 : Float) := by
  obtain ⟨counts,shares⟩ := Sample.crowd_any 360287970189643 (by decide)
  have third : Binary64.Holds (percentage 1 3) (4691249611844267 * 2 ^ (-47 : ℤ))
      4691249611844267 (-47) := ⟨⟨by decide,rfl⟩,⟨by decide,by decide⟩,rfl⟩
  exact ⟨_,Sample.crowd_built,⟨rfl,rfl,_,third,by norm_num⟩,counts,shares,by decide⟩

end JoinTrace
