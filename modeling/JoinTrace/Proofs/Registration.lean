import JoinTrace.Catalog

-- Names are claimed one after another, each for one kind of thing. What a run of claims gives
-- depends on their order alone: its value when no claim repeats, else the first that does.
namespace JoinTrace

def FirstRepeat {τ : Type} (items : List τ) (item : τ) : Prop :=
  ∃ before after, items = before ++ item :: after ∧ before.Nodup ∧ item ∈ before

namespace FirstRepeat
variable {τ : Type} {items : List τ} {item other : τ}

theorem concat (distinct : items.Nodup) (present : item ∈ items) :
    FirstRepeat (items ++ [item]) item := ⟨items,[],rfl,distinct,present⟩

theorem append (found : FirstRepeat items item) (more : List τ) :
    FirstRepeat (items ++ more) item := by
  obtain ⟨before,after,rfl,distinct,present⟩ := found
  exact ⟨before,after ++ more,by simp,distinct,present⟩

theorem not_nodup (found : FirstRepeat items item) : ¬ items.Nodup := by
  obtain ⟨before,after,rfl,_,present⟩ := found
  intro distinct
  have apart := (List.nodup_append.mp distinct).2.2
  exact apart item present item List.mem_cons_self rfl

theorem unique (found : FirstRepeat items item) (again : FirstRepeat items other) :
    item = other := by
  obtain ⟨before,after,rfl,distinct,present⟩ := found
  obtain ⟨earlier,later,same,distinct',present'⟩ := again
  rcases List.append_eq_append_iff.mp same with ⟨gap,rfl,rest⟩ | ⟨gap,rfl,rest⟩
  -- Were a claim between the two repeats, the longer list of claims before would repeat.
  · cases gap with
    | nil => exact (List.cons.inj rest).1
    | cons head gap =>
      obtain rfl := (List.cons.inj rest).1
      exact absurd distinct' ((concat distinct present).append gap |>.not_nodup <| by simpa using ·)
  · cases gap with
    | nil => exact (List.cons.inj rest).1.symm
    | cons head gap =>
      obtain rfl := (List.cons.inj rest).1
      exact absurd distinct ((concat distinct' present').append gap |>.not_nodup <| by simpa using ·)

end FirstRepeat

abbrev Claim := NameKind × String

namespace Claim

def names (kind : NameKind) (claims : List Claim) : List String :=
  claims.filterMap fun claim => if claim.1 = kind then some claim.2 else none

@[simp] theorem names_nil (kind : NameKind) : names kind [] = [] := rfl

@[simp] theorem names_append (kind : NameKind) (claims more : List Claim) :
    names kind (claims ++ more) = names kind claims ++ names kind more :=
  List.filterMap_append

@[simp] theorem names_cons (kind other : NameKind) (name : String) (claims : List Claim) :
    names kind ((other,name) :: claims) =
      if other = kind then name :: names kind claims else names kind claims := by
  by_cases same : other = kind <;> simp [names,same]

@[simp] theorem names_flatMap {τ : Type} (kind : NameKind) (claims : τ → List Claim)
    (items : List τ) :
    names kind (items.flatMap claims) = items.flatMap fun item => names kind (claims item) := by
  induction items with
  | nil => rfl
  | cons item rest ih => simp [ih]

@[simp] theorem names_map {τ : Type} (kind other : NameKind) (name : τ → String)
    (items : List τ) :
    names kind (items.map fun item => (other,name item)) =
      if other = kind then items.map name else [] := by
  rw [names,List.filterMap_map]
  change items.filterMap (fun item => if other = kind then some (name item) else none) = _
  by_cases same : other = kind
  · simp [same]
  · simp [same]

theorem mem_names {kind : NameKind} {name : String} {claims : List Claim} :
    name ∈ names kind claims ↔ (kind,name) ∈ claims := by
  induction claims with
  | nil => simp
  | cons claim rest ih =>
    obtain ⟨other,held⟩ := claim
    by_cases same : other = kind
    · simp [same,ih]
    · simp [same,ih,Ne.symm same]

theorem nodup_iff_names {claims : List Claim} :
    claims.Nodup ↔ ∀ kind, (names kind claims).Nodup := by
  induction claims with
  | nil => simp
  | cons claim rest ih =>
    obtain ⟨own,name⟩ := claim
    rw [List.nodup_cons,ih]
    constructor
    · rintro ⟨fresh,distinct⟩ kind
      rw [names_cons]
      split
      · rename_i same
        subst same
        exact List.nodup_cons.mpr ⟨mt mem_names.mp fresh,distinct own⟩
      · exact distinct kind
    · intro distinct
      refine ⟨?_,fun kind => ?_⟩
      · have held := distinct own
        rw [names_cons,if_pos rfl] at held
        exact mt mem_names.mpr (List.nodup_cons.mp held).1
      · have held := distinct kind
        rw [names_cons] at held
        split at held
        · exact (List.nodup_cons.mp held).2
        · exact held

end Claim

inductive Registers {α β : Type} (claims : List Claim) (value : β) :
    Except (AnalysisError α) β → Prop where
  | taken (distinct : claims.Nodup) : Registers claims value (.ok value)
  | refused {kind : NameKind} {name : String} (found : FirstRepeat claims (kind,name)) :
      Registers claims value (.error (.duplicateName kind name))

namespace Registers
variable {α β γ σ τ : Type} {claims : List Claim} {value : β}
  {result : Except (AnalysisError α) β}

theorem ok_iff (registers : Registers claims value result) (got : β) :
    result = .ok got ↔ claims.Nodup ∧ got = value := by
  cases registers with
  | taken distinct => simp [distinct,eq_comm]
  | refused found => simp [found.not_nodup]

theorem error_iff (registers : Registers claims value result) (error : AnalysisError α) :
    result = .error error ↔
      ∃ kind name, error = .duplicateName kind name ∧ FirstRepeat claims (kind,name) := by
  cases registers with
  | taken distinct =>
    constructor
    · intro refused
      cases refused
    · rintro ⟨kind,name,_,found⟩
      exact absurd distinct found.not_nodup
  | @refused kind name found =>
    constructor
    · intro same
      cases same
      exact ⟨kind,name,rfl,found⟩
    · rintro ⟨kind',name',rfl,again⟩
      cases found.unique again
      rfl

theorem bind {more : List Claim} {last : γ} {next : β → Except (AnalysisError α) γ}
    (first : Registers claims value result)
    (rest : claims.Nodup → Registers (claims ++ more) last (next value)) :
    Registers (claims ++ more) last (result >>= next) := by
  cases first with
  | taken distinct => exact rest distinct
  | refused found => exact .refused (found.append more)

theorem map (f : β → γ) (first : Registers claims value result) :
    Registers claims (f value) (result >>= fun got => pure (f got)) := by
  cases first with
  | taken distinct => exact .taken distinct
  | refused found => exact .refused found

-- A fold registers what its steps do; `after` says where it stands once some items are done.
theorem foldlM {step : σ → τ → Except (AnalysisError α) σ} (after : List τ → σ)
    (own : τ → List Claim)
    (stepwise : ∀ done item, (claims ++ done.flatMap own).Nodup →
      Registers (claims ++ done.flatMap own ++ own item) (after (done ++ [item]))
        (step (after done) item))
    (done items : List τ) (distinct : (claims ++ done.flatMap own).Nodup) :
    Registers (claims ++ done.flatMap own ++ items.flatMap own) (after (done ++ items))
      (items.foldlM step (after done)) := by
  induction items generalizing done with
  | nil =>
    rw [List.flatMap_nil,List.append_nil,List.append_nil]
    exact .taken distinct
  | cons item rest ih =>
    have first := stepwise done item distinct
    have whole : claims ++ done.flatMap own ++ own item =
        claims ++ (done ++ [item]).flatMap own := by simp
    rw [List.foldlM_cons,List.flatMap_cons,← List.append_assoc]
    refine first.bind fun fresh => ?_
    rw [whole] at fresh ⊢
    rw [List.append_cons done item rest]
    exact ih (done ++ [item]) fresh

theorem addUnique {kind : NameKind} {name : τ → String} {held : List τ} (item : τ)
    (known : Claim.names kind claims = held.map name) (distinct : claims.Nodup) :
    Registers (α := α) (claims ++ [(kind,name item)]) (held ++ [item])
      (JoinTrace.addUnique kind name held item) := by
  have agree : (held.any fun other => name other == name item) = true ↔
      (kind,name item) ∈ claims := by
    rw [← Claim.mem_names,known]
    simp
  unfold JoinTrace.addUnique
  split
  · rename_i present
    exact .refused (.concat distinct (agree.mp present))
  · rename_i absent
    refine .taken ?_
    refine List.nodup_append.mpr ⟨distinct,by simp,?_⟩
    intro old held new own same
    rw [List.mem_singleton.mp own] at same
    exact absent (agree.mpr (same ▸ held))

theorem addAll {kind : NameKind} {name : τ → String} {held : List τ}
    (known : Claim.names kind claims = held.map name) (distinct : claims.Nodup) (items : List τ) :
    Registers (α := α) (claims ++ items.map fun item => (kind,name item)) (held ++ items)
      (items.foldlM (JoinTrace.addUnique kind name) held) := by
  let own (item : τ) : List Claim := [(kind,name item)]
  have stepwise (done : List τ) (item : τ) (fresh : (claims ++ done.flatMap own).Nodup) :
      Registers (α := α) (claims ++ done.flatMap own ++ own item) (held ++ (done ++ [item]))
        (JoinTrace.addUnique kind name (held ++ done) item) := by
    have listed : Claim.names kind (claims ++ done.flatMap own) = (held ++ done).map name := by
      simp [own,known,List.map_eq_flatMap]
    rw [← List.append_assoc]
    exact addUnique item listed fresh
  have whole := foldlM (held ++ ·) own stepwise [] items (by simpa using distinct)
  simpa [own,List.map_eq_flatMap] using whole

end Registers
end JoinTrace
