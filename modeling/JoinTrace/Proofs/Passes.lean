import Mathlib.Data.List.Forall2

namespace JoinTrace

theorem mapM_cons_ok {τ ν ε : Type} {f : τ → Except ε ν} {item : τ} {rest : List τ} {out : List ν} :
    (item :: rest).mapM f = .ok out ↔
      ∃ value values, f item = .ok value ∧ rest.mapM f = .ok values ∧ out = value :: values := by
  rw [List.mapM_cons]
  constructor
  · intro ran
    cases first : f item with
    | error e => rw [first] at ran; cases ran
    | ok value =>
      rw [first] at ran
      cases later : rest.mapM f with
      | error e => rw [later] at ran; cases ran
      | ok values =>
        rw [later] at ran
        cases ran
        exact ⟨value,values,rfl,rfl,rfl⟩
  · rintro ⟨value,values,first,later,rfl⟩
    rw [first,later]
    rfl

theorem mapM_ok {τ ν ε : Type} {f : τ → Except ε ν} {items : List τ}
    (each : ∀ item ∈ items, ∃ value, f item = .ok value) : ∃ out, items.mapM f = .ok out := by
  induction items with
  | nil => exact ⟨[],rfl⟩
  | cons item rest ih =>
    obtain ⟨value,first⟩ := each item List.mem_cons_self
    obtain ⟨values,later⟩ := ih fun other member => each other (List.mem_cons_of_mem _ member)
    exact ⟨_,mapM_cons_ok.mpr ⟨value,values,first,later,rfl⟩⟩

theorem mapM_ok_iff {τ ν ε : Type} {f : τ → Except ε ν} {items : List τ} {out : List ν} :
    items.mapM f = .ok out ↔ List.Forall₂ (fun item value => f item = .ok value) items out := by
  induction items generalizing out with
  | nil =>
    rw [List.forall₂_nil_left_iff,List.mapM_nil]
    exact ⟨fun ran => (Except.ok.inj ran).symm,congrArg Except.ok ∘ Eq.symm⟩
  | cons item rest ih =>
    rw [mapM_cons_ok,List.forall₂_cons_left_iff]
    constructor
    · rintro ⟨value,values,first,later,rfl⟩
      exact ⟨value,values,first,ih.mp later,rfl⟩
    · rintro ⟨value,values,first,later,rfl⟩
      exact ⟨value,values,first,ih.mpr later,rfl⟩

theorem mapM_ok_mem {τ ν ε : Type} {f : τ → Except ε ν} {items : List τ} {out : List ν}
    (ran : items.mapM f = .ok out) : ∀ item ∈ items, ∃ value, f item = .ok value := by
  induction mapM_ok_iff.mp ran with
  | nil => simp
  | cons first later ih => exact List.forall_mem_cons.mpr ⟨⟨_,first⟩,ih (mapM_ok_iff.mpr later)⟩

theorem mapM_mem_iff {τ ν ε : Type} {f : τ → Except ε ν} {items : List τ} {out : List ν}
    (ran : items.mapM f = .ok out) {value : ν} :
    value ∈ out ↔ ∃ item ∈ items, f item = .ok value := by
  induction mapM_ok_iff.mp ran with
  | nil => simp
  | cons first later ih =>
    rw [List.mem_cons,ih (mapM_ok_iff.mpr later)]
    simp [first,eq_comm]

theorem mapM_map {τ ν ε κ : Type} {f : τ → Except ε ν} {items : List τ} {out : List ν}
    (ran : items.mapM f = .ok out) {given : ν → κ} {read : τ → κ}
    (each : ∀ item value, f item = .ok value → given value = read item) :
    out.map given = items.map read := by
  induction mapM_ok_iff.mp ran with
  | nil => rfl
  | cons first later ih => rw [List.map_cons,List.map_cons,each _ _ first,ih (mapM_ok_iff.mpr later)]

theorem mapM_cons_error {τ ν ε : Type} {f : τ → Except ε ν} {item : τ} {rest : List τ} {e : ε} :
    (item :: rest).mapM f = .error e ↔
      f item = .error e ∨ (∃ value, f item = .ok value) ∧ rest.mapM f = .error e := by
  rw [List.mapM_cons]
  cases first : f item with
  | error other => simp [bind,Except.bind]
  | ok value => cases later : rest.mapM f <;> simp [bind,Except.bind,pure,Except.pure]

-- A pass fails as the first item does that fails.
theorem mapM_error_iff {τ ν ε : Type} {f : τ → Except ε ν} {items : List τ} {e : ε} :
    items.mapM f = .error e ↔ ∃ before item after, items = before ++ item :: after ∧
      (∀ earlier ∈ before, ∃ value, f earlier = .ok value) ∧ f item = .error e := by
  constructor
  · intro ran
    induction items with
    | nil => cases ran
    | cons item rest ih =>
      rcases mapM_cons_error.mp ran with failed | ⟨first,later⟩
      · exact ⟨[],item,rest,rfl,by simp,failed⟩
      · obtain ⟨before,failing,after,rfl,passed,failed⟩ := ih later
        refine ⟨item :: before,failing,after,rfl,?_,failed⟩
        rintro earlier (_ | ⟨_,member⟩)
        · exact first
        · exact passed earlier member
  · rintro ⟨before,item,after,rfl,passed,failed⟩
    induction before with
    | nil => exact mapM_cons_error.mpr (.inl failed)
    | cons earlier rest ih =>
      obtain ⟨first,passed⟩ := List.forall_mem_cons.mp passed
      exact mapM_cons_error.mpr (.inr ⟨first,ih passed⟩)

theorem mapM_error {τ ν ε : Type} {f : τ → Except ε ν} {items : List τ} {e : ε}
    (ran : items.mapM f = .error e) : ∃ item ∈ items, f item = .error e := by
  obtain ⟨before,item,after,rfl,_,failed⟩ := mapM_error_iff.mp ran
  exact ⟨item,by simp,failed⟩

theorem mapM_perm {τ ν ε : Type} {f : τ → Except ε ν} {items others : List τ} {out : List ν}
    (perm : items.Perm others) (ran : items.mapM f = .ok out) :
    ∃ out', others.mapM f = .ok out' ∧ out.Perm out' := by
  induction perm generalizing out with
  | nil => exact ⟨out,ran,.refl out⟩
  | cons item _ ih =>
    obtain ⟨value,values,first,later,rfl⟩ := mapM_cons_ok.mp ran
    obtain ⟨values',ran,perm⟩ := ih later
    exact ⟨value :: values',mapM_cons_ok.mpr ⟨value,values',first,ran,rfl⟩,perm.cons value⟩
  | swap item other rest =>
    obtain ⟨value,_,first,more,rfl⟩ := mapM_cons_ok.mp ran
    obtain ⟨next,values,second,later,rfl⟩ := mapM_cons_ok.mp more
    have front := mapM_cons_ok.mpr ⟨value,values,first,later,rfl⟩
    exact ⟨next :: value :: values,mapM_cons_ok.mpr ⟨next,_,second,front,rfl⟩,.swap ..⟩
  | trans _ _ first last =>
    obtain ⟨middle,ran,perm⟩ := first ran
    obtain ⟨out',ran,more⟩ := last ran
    exact ⟨out',ran,perm.trans more⟩

end JoinTrace
