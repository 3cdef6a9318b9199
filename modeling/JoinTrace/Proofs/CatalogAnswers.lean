import Mathlib.Data.List.Nodup
import JoinTrace.Catalog
import JoinTrace.Proofs.Rearranged

namespace JoinTrace

theorem eraseDups_of_nodup {τ : Type} [BEq τ] [LawfulBEq τ] {items : List τ}
    (distinct : items.Nodup) : items.eraseDups = items := by
  induction items with
  | nil => rfl
  | cons item rest ih =>
    obtain ⟨fresh,apart⟩ := List.nodup_cons.mp distinct
    have kept : rest.filter (fun other => !other == item) = rest := by
      refine List.filter_eq_self.mpr fun other member => ?_
      simpa using ne_of_mem_of_not_mem member fresh
    rw [List.eraseDups_cons,kept,ih apart]

theorem mapM_filter_error {τ ν ε : Type} {f : τ → Except ε ν} {keep : τ → Bool}
    (passing : ∀ item, keep item = false → ∃ value, f item = .ok value) {items : List τ} {e : ε} :
    (items.filter keep).mapM f = .error e ↔ items.mapM f = .error e := by
  induction items with
  | nil => rfl
  | cons item rest ih =>
    cases kept : keep item with
    | true => rw [List.filter_cons_of_pos kept,mapM_cons_error,mapM_cons_error,ih]
    | false =>
      obtain ⟨value,passed⟩ := passing item kept
      rw [List.filter_cons_of_neg (by simp [kept]),mapM_cons_error,ih]
      simp [passed]

theorem mapM_eraseDups_error {τ ν ε : Type} [BEq τ] [LawfulBEq τ] {f : τ → Except ε ν}
    {e : ε} (items : List τ) : items.eraseDups.mapM f = .error e ↔ items.mapM f = .error e := by
  match items with
  | [] => rfl
  | item :: rest =>
    have shorter := List.length_filter_le (fun other => !other == item) rest
    rw [List.eraseDups_cons,mapM_cons_error,mapM_cons_error,mapM_eraseDups_error]
    refine or_congr_right (and_congr_right fun passed => mapM_filter_error ?_)
    intro other repeated
    simp only [Bool.not_eq_false',beq_iff_eq] at repeated
    exact repeated ▸ passed
termination_by items.length

namespace Catalog
variable {α C : Type} {catalog : Catalog α C} {container : C}

def Answers (catalog : Catalog α C) (container : C) (names : List String)
    (answers : List (String × Failable (MetricValue α))) : Prop :=
  List.Forall₂ (fun name answer =>
    answer.1 = name ∧ catalog.evaluate container name = .ok answer.2) names answers

theorem Answers.names {names : List String} {answers : List (String × Failable (MetricValue α))}
    (answered : catalog.Answers container names answers) : answers.map (·.1) = names := by
  unfold Answers at answered
  induction answered with
  | nil => rfl
  | cons first _ ih => rw [List.map_cons,first.1,ih]

theorem Answers.value {names : List String} {answers : List (String × Failable (MetricValue α))}
    (answered : catalog.Answers container names answers) :
    ∀ answer ∈ answers, catalog.evaluate container answer.1 = .ok answer.2 := by
  unfold Answers at answered
  induction answered with
  | nil => simp
  | cons first _ ih => exact List.forall_mem_cons.mpr ⟨first.1 ▸ first.2,ih⟩

theorem get?_eq_some_iff (distinct : catalog.names.Nodup) {name : String}
    {entry : CatalogEntry α C} :
    catalog.get? name = some entry ↔ entry ∈ catalog.entries ∧ entry.metric.name = name := by
  constructor
  · intro found
    exact ⟨List.mem_of_find?_eq_some found,by simpa using List.find?_some found⟩
  · rintro ⟨listed,rfl⟩
    cases found : catalog.get? entry.metric.name with
    | none => simpa using List.find?_eq_none.mp found entry listed
    | some other =>
      have named : other.metric.name = entry.metric.name := by simpa using List.find?_some found
      rw [List.inj_on_of_nodup_map distinct (List.mem_of_find?_eq_some found) listed named]

theorem get?_eq_none_iff {name : String} : catalog.get? name = none ↔ name ∉ catalog.names := by
  simp [get?,names]

theorem evaluate_ok_iff {name : String} {value : Failable (MetricValue α)} :
    catalog.evaluate container name = .ok value ↔
      ∃ entry, catalog.get? name = some entry ∧ entry.evaluate container = value := by
  unfold evaluate
  cases catalog.get? name <;> simp

theorem evaluate_error_iff (container : C) {name : String} {error : AnalysisError α} :
    catalog.evaluate container name = .error error ↔
      name ∉ catalog.names ∧ error = .unknownMetric name := by
  rw [← get?_eq_none_iff]
  unfold evaluate
  cases catalog.get? name <;> simp [eq_comm]

theorem evaluate_known (container : C) {name : String} :
    (∃ value, catalog.evaluate container name = .ok value) ↔ name ∈ catalog.names := by
  cases evaluated : catalog.evaluate container name with
  | ok value =>
    have known : name ∈ catalog.names := by
      by_contra missing
      cases evaluated.symm.trans ((evaluate_error_iff container).mpr ⟨missing,rfl⟩)
    simp [known]
  | error e =>
    have missing := ((evaluate_error_iff container).mp evaluated).1
    simp [missing]

theorem evaluateAll_answers (distinct : catalog.names.Nodup) :
    catalog.Answers container catalog.names (catalog.evaluateAll container) := by
  unfold Answers evaluateAll names
  rw [List.forall₂_map_left_iff,List.forall₂_map_right_iff,List.forall₂_same]
  intro entry listed
  exact ⟨rfl,evaluate_ok_iff.mpr ⟨entry,(get?_eq_some_iff distinct).mpr ⟨listed,rfl⟩,rfl⟩⟩

theorem evaluateSelected_ok_iff {wanted : List String}
    {answers : List (String × Failable (MetricValue α))} :
    catalog.evaluateSelected container wanted = .ok answers ↔
      catalog.Answers container wanted.eraseDups answers := by
  have each (name : String) (answer : String × Failable (MetricValue α)) :
      (do return (name,← catalog.evaluate container name)) = Except.ok answer ↔
        answer.1 = name ∧ catalog.evaluate container name = .ok answer.2 := by
    obtain ⟨own,value⟩ := answer
    cases catalog.evaluate container name with
    | error e => simp [bind,Except.bind]
    | ok found => simp [bind,Except.bind,pure,Except.pure,eq_comm]
  unfold evaluateSelected Answers
  rw [mapM_ok_iff]
  simp only [each]

theorem evaluateSelected_error_iff {wanted : List String} {error : AnalysisError α} :
    catalog.evaluateSelected container wanted = .error error ↔
      ∃ before name after, wanted = before ++ name :: after ∧
        (∀ known ∈ before, known ∈ catalog.names) ∧ name ∉ catalog.names ∧
        error = .unknownMetric name := by
  have each (name : String) :
      (do return (name,← catalog.evaluate container name)) = Except.error error ↔
        name ∉ catalog.names ∧ error = .unknownMetric name := by
    rw [← evaluate_error_iff container]
    cases catalog.evaluate container name <;> simp [bind,Except.bind,pure,Except.pure]
  have passes (name : String) :
      (∃ answer : String × Failable (MetricValue α),
        (do return (name,← catalog.evaluate container name)) = Except.ok answer) ↔
        name ∈ catalog.names := by
    rw [← evaluate_known container]
    cases catalog.evaluate container name <;> simp [bind,Except.bind,pure,Except.pure]
  unfold evaluateSelected
  rw [mapM_eraseDups_error,mapM_error_iff]
  simp only [each,passes]

theorem lookup_evaluateAll (container : C) (name : String) :
    (catalog.evaluateAll container).lookup name =
      (catalog.get? name).map (·.evaluate container) := by
  unfold evaluateAll get?
  induction catalog.entries with
  | nil => rfl
  | cons entry rest ih =>
    rw [List.map_cons,List.lookup_cons,List.find?_cons,ih,BEq.comm]
    cases entry.metric.name == name <;> rfl

theorem evaluateSelected_among {wanted : List String} (distinct : wanted.Nodup)
    (known : ∀ name ∈ wanted, name ∈ catalog.names) (container : C) :
    ∃ answers, catalog.evaluateSelected container wanted = .ok answers ∧
      answers.map (·.1) = wanted ∧
      ∀ answer ∈ answers, (catalog.evaluateAll container).lookup answer.1 = some answer.2 := by
  cases selected : catalog.evaluateSelected container wanted with
  | error e =>
    obtain ⟨before,name,after,rfl,_,missing,_⟩ := evaluateSelected_error_iff.mp selected
    exact absurd (known name (by simp)) missing
  | ok answers =>
    have answered := evaluateSelected_ok_iff.mp selected
    rw [eraseDups_of_nodup distinct] at answered
    refine ⟨answers,rfl,answered.names,fun answer member => ?_⟩
    obtain ⟨entry,found,valued⟩ := evaluate_ok_iff.mp (answered.value answer member)
    rw [lookup_evaluateAll,found,← valued]
    rfl

structure Consistent (catalog : Catalog α C) (container : C) : Prop where
  entry : ∀ name value, catalog.evaluate container name = .ok value ↔
    ∃ entry, catalog.get? name = some entry ∧ entry.evaluate container = value
  unknown : ∀ name error, catalog.evaluate container name = .error error ↔
    name ∉ catalog.names ∧ error = .unknownMetric name
  all : catalog.Answers container catalog.names (catalog.evaluateAll container)
  selected : ∀ wanted answers, catalog.evaluateSelected container wanted = .ok answers ↔
    catalog.Answers container wanted.eraseDups answers
  refused : ∀ wanted error, catalog.evaluateSelected container wanted = .error error ↔
    ∃ before name after, wanted = before ++ name :: after ∧
      (∀ known ∈ before, known ∈ catalog.names) ∧ name ∉ catalog.names ∧
      error = .unknownMetric name

theorem consistent (distinct : catalog.names.Nodup) (container : C) :
    catalog.Consistent container where
  entry _ _ := evaluate_ok_iff
  unknown _ _ := evaluate_error_iff container
  all := evaluateAll_answers distinct
  selected _ _ := evaluateSelected_ok_iff
  refused _ _ := evaluateSelected_error_iff

end Catalog
end JoinTrace
