import JoinTrace.Config
import JoinTrace.Error

-- The configuration file. Settings are optional and unknown keys are ignored. What reads TOML and
-- what reads files are parameters: both belong to others.
namespace JoinTrace

inductive TomlValue where
  | text (value : String)
  | int (value : Int)
  | float (value : Float)
  | bool (value : Bool)
  | time (written : String)
  | list (items : List TomlValue)
  | table (fields : List (String × TomlValue))

abbrev TomlReader := String → Option (List (String × TomlValue))

abbrev Files := String → Except FileFault String

namespace ConfigFile

def float? : TomlValue → Option Float
  | .float value => some value
  | .int value => some (Float.ofInt value)
  | _ => none

def isVacant : TomlValue → Bool
  | .table [] => true
  | .list [] => true
  | _ => false

def policy? : TomlValue → Option TrailingPolicy
  | .text name => Named.ofName? name
  | .table [(name,content)] => if isVacant content then Named.ofName? name else none
  | _ => none

def setting? {α : Type} (fields : List (String × TomlValue)) (key : String)
    (read? : TomlValue → Option α) (standard : α) : Option α :=
  match fields.lookup key with
  | none => some standard
  | some item => read? item

def ofFields? (fields : List (String × TomlValue)) : Option (Config Float) := do
  let standard : Config Float := .standard
  return ⟨← setting? fields "trailing_stage_policy" policy? standard.policy,
    ← setting? fields "clock_rel_tolerance" float? standard.relativeTolerance,
    ← setting? fields "clock_abs_tolerance" float? standard.absoluteTolerance⟩

-- A NaN is no tolerance either.
def validate (config : Config Float) : Except (AnalysisError Float) (Config Float) :=
  if config.relativeTolerance ≥ 0 ∧ config.absoluteTolerance ≥ 0 then .ok config
  else .error (.negativeTolerance config.relativeTolerance config.absoluteTolerance)

variable (toml : TomlReader) (files : Files)

def ofText (source : String) : Except (AnalysisError Float) (Config Float) :=
  match (toml source).bind ofFields? with
  | none => .error .toml
  | some config => validate config

def load (path : String) : Except (AnalysisError Float) (Config Float) :=
  match files path with
  | .error fault => .error (.file fault)
  | .ok source => ofText toml source

def loadOptional (path : String) : Config Float :=
  match load toml files path with
  | .ok config => config
  | .error _ => .standard

end ConfigFile
end JoinTrace
