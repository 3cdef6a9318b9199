import JoinTrace.Proofs.NumberLimits
import JoinTrace.Proofs.TimelineHeaps
import JoinTrace.Toml.Reader

-- No loaded configuration raises a false alarm. Where a heap's second clock runs with the first, a
-- stage is as long on either of them, whichever events its edges were read from.
namespace JoinTrace
open Scalar (Number)

namespace Config

structure Sound (config : Config Float) : Prop where
  relative : 0 ≤ config.relativeTolerance ∧ config.relativeTolerance.isNaN = false
  absolute : 0 ≤ config.absoluteTolerance ∧ config.absoluteTolerance.isNaN = false

theorem sound_standard : Sound standard := ⟨by decide,by decide⟩

def rational? (config : Config Float) : Option (Config ℚ) := do
  return ⟨config.policy,← Binary64.rational? config.relativeTolerance,
    ← Binary64.rational? config.absoluteTolerance⟩

structure Nonneg (config : Config ℚ) : Prop where
  relative : 0 ≤ config.relativeTolerance
  absolute : 0 ≤ config.absoluteTolerance

theorem Sound.rational {config : Config Float} (sound : config.Sound)
    (relative : config.relativeTolerance.isFinite) (absolute : config.absoluteTolerance.isFinite) :
    ∃ exactly, config.rational? = some exactly ∧ exactly.Nonneg := by
  obtain ⟨r,first⟩ := Binary64.rational_of_finite relative
  obtain ⟨a,second⟩ := Binary64.rational_of_finite absolute
  refine ⟨⟨config.policy,r,a⟩,?_,?_⟩
  · simp [rational?,first,second]
  · exact ⟨Binary64.rational_nonneg sound.relative.1 first,
      Binary64.rational_nonneg sound.absolute.1 second⟩

theorem Nonneg.agree_self {config : Config ℚ} (nonneg : config.Nonneg) (span : ℚ) :
    config.clocksAgree span span := by
  have none : (0 : ℚ) ≤ config.absoluteTolerance := nonneg.absolute
  simp [clocksAgree,Scalar.le,Scalar.abs,none]

end Config

namespace ConfigFile

variable {toml : TomlReader} {files : Files} {config : Config Float}

-- The configurations that a program can have read, from texts and files of any content.
inductive Loaded (toml : TomlReader) (files : Files) : Config Float → Prop where
  | text {source : String} {config : Config Float} :
    ofText toml source = .ok config → Loaded toml files config
  | file {path : String} {config : Config Float} :
    load toml files path = .ok config → Loaded toml files config
  | optional (path : String) : Loaded toml files (loadOptional toml files path)

theorem notNaN_of_nonneg {x : Float} (nonneg : 0 ≤ x) : x.isNaN = false :=
  Binary64.number_iff_notNaN.mp (NumericScalar.le_numbers (show Scalar.le 0 x from nonneg)).2

theorem validate_ok {config validated : Config Float} (passed : validate config = .ok validated) :
    validated = config ∧ config.Sound := by
  unfold validate at passed
  split at passed
  · rename_i nonneg
    cases passed
    exact ⟨rfl,⟨nonneg.1,notNaN_of_nonneg nonneg.1⟩,⟨nonneg.2,notNaN_of_nonneg nonneg.2⟩⟩
  · cases passed

theorem ofText_sound {source : String} (read : ofText toml source = .ok config) :
    config.Sound := by
  unfold ofText at read
  split at read
  · cases read
  · obtain ⟨rfl,sound⟩ := validate_ok read
    exact sound

theorem load_sound {path : String} (loaded : load toml files path = .ok config) :
    config.Sound := by
  unfold load at loaded
  split at loaded
  · cases loaded
  · exact ofText_sound loaded

theorem Loaded.sound (loaded : Loaded toml files config) : config.Sound := by
  cases loaded with
  | text read => exact ofText_sound read
  | file read => exact load_sound read
  | optional path =>
    unfold loadOptional
    split
    · rename_i read
      exact load_sound read
    · exact Config.sound_standard

end ConfigFile

section InStep

def InStep (events : List (Event ℚ)) : Prop :=
  ∃ behind, ∀ event ∈ events, ∀ relative ∈ event.relative, relative = event.time - behind

theorem mem_of_stageStarts {α : Type} {events : List (Event α)} {stage : Stage} {event : Event α}
    (starts : event ∈ stageStarts events stage) : event ∈ events := (List.mem_filter.mp starts).1

theorem mem_of_stageEnds {α : Type} {events : List (Event α)} {stage : Stage} {event : Event α}
    (ends : event ∈ stageEnds events stage) : event ∈ events := by
  obtain ⟨⟨_,_⟩,kept,rfl⟩ := List.mem_map.mp ends
  exact List.fst_mem_of_mem_zipIdx (List.mem_filter.mp kept).1

-- What the clocks are apart drops out of a span, though its edges come from any two events.
theorem InStep.spans_eq {events : List (Event ℚ)} (inStep : InStep events)
    {stage : Stage} {absolute relative : ℚ}
    (clocked : ClockedSpans (stageStarts events stage) (stageEnds events stage) absolute relative) :
    absolute = relative := by
  obtain ⟨behind,follows⟩ := inStep
  obtain ⟨first,last,started,ended,head,read,final,read',rfl,rfl⟩ := clocked
  have begun := follows first (mem_of_stageStarts (List.mem_of_head? head)) started read
  have ceased := follows last (mem_of_stageEnds (List.mem_of_getLast? final)) ended read'
  rw [begun,ceased]
  ring

theorem StageTimeline.reconstruct_inStep {config : Config ℚ} (nonneg : config.Nonneg)
    {heaps : List (HeapId × List (Event ℚ))} (distinct : (heaps.map (·.1)).Nodup)
    (inStep : ∀ heap ∈ heaps, InStep heap.2) :
    ∃ timeline, reconstruct config heaps = .ok timeline := by
  refine (reconstruct_ok_iff distinct).mpr fun heap listed stage absolute relative disagree => ?_
  obtain ⟨clocked,apart⟩ := disagree
  cases (inStep heap listed).spans_eq clocked
  cases apart.symm.trans (nonneg.agree_self absolute)

end InStep

-- For every reader of TOML, hence for one that gives the floats as they are written, the infinite
-- ones and NaN among them: what passes the check of a loaded configuration is a tolerance.
theorem ConfigFile.Loaded.clocks_pass {toml : TomlReader} {files : Files} {config : Config Float}
    (loaded : ConfigFile.Loaded toml files config) :
    config.Sound ∧
    (config.relativeTolerance.isFinite → config.absoluteTolerance.isFinite →
      ∃ exactly, config.rational? = some exactly ∧
        ∀ heaps : List (HeapId × List (Event ℚ)), (heaps.map (·.1)).Nodup →
          (∀ heap ∈ heaps, InStep heap.2) →
          ∃ timeline, StageTimeline.reconstruct exactly heaps = .ok timeline) := by
  refine ⟨loaded.sound,fun relative absolute => ?_⟩
  obtain ⟨exactly,converted,nonneg⟩ := loaded.sound.rational relative absolute
  exact ⟨exactly,converted,fun _ distinct inStep =>
    StageTimeline.reconstruct_inStep nonneg distinct inStep⟩

namespace Sample

def behindByThree : List (Event ℚ) := [
  ⟨.join,.finish,.beginMarkPhase,0,4,some 1⟩, ⟨.join,.start,.beginMarkPhase,0,9,some 6⟩,
  ⟨.lastJoin,.start,.done,0,5,some 2⟩, ⟨.join,.start,.done,0,1,none⟩,
  ⟨.restart,.finish,.restart,0,8,some 5⟩, ⟨.join,.finish,.scanSizedrefDone,0,2,none⟩]

def files : Files
  | "gcjoin.toml" => .ok "clock_rel_tolerance = 0"
  | _ => .error ⟨"NotFound","No such file or directory (os error 2)"⟩

theorem behindByThree_inStep : InStep behindByThree := ⟨3,by decide +kernel⟩

end Sample

theorem ConfigFile.Loaded.clocks_pass_sample : ∃ config exactly timeline,
    ConfigFile.load Toml.read? Sample.files "gcjoin.toml" = .ok config ∧ config.Sound ∧
    config.rational? = some exactly ∧
    StageTimeline.reconstruct exactly [(2,Sample.behindByThree), (0,[])] = .ok timeline := by
  obtain ⟨config,read,limits⟩ := Sample.ran
    (fun config : Config Float =>
      (config.relativeTolerance.isFinite,config.absoluteTolerance.isFinite))
    (show (ConfigFile.load Toml.read? Sample.files "gcjoin.toml").toOption.map _ =
      some (true,true) by decide +kernel)
  obtain ⟨relative,absolute⟩ := Prod.mk.inj limits
  obtain ⟨sound,pass⟩ := ConfigFile.Loaded.clocks_pass (.file read)
  obtain ⟨exactly,converted,pass⟩ := pass relative absolute
  have inStep : ∀ heap ∈ [((2 : HeapId),Sample.behindByThree), (0,[])], InStep heap.2 := by
    simp only [List.forall_mem_cons]
    exact ⟨Sample.behindByThree_inStep,⟨0,by simp⟩,by simp⟩
  obtain ⟨timeline,built⟩ := pass _ (by decide) inStep
  exact ⟨config,exactly,timeline,read,sound,converted,built⟩

end JoinTrace
