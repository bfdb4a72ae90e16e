import BicepForge.Conversion.Plan

/-!
# Conversion sessions

A template is analysed first and converted then; the last analysis counts.
-/

namespace BicepForge.Conversion

inductive ConversionError where
  | notAnalyzed
  | configuration (error : ConfigurationError)
deriving DecidableEq

def ConversionError.message : ConversionError → String
  | notAnalyzed => "Template has not been analyzed; run analysis before conversion"
  | configuration error => "Core error: " ++ error.message

/-- Converts an analysis. The configuration is checked before anything is made. -/
def convertAnalysis (now : Instant) (config : Configuration) (analysis : Analysis) :
    Except ConversionError Bicep.Document :=
  match config.checkForConversion with
  | .error e => .error (.configuration e)
  | .ok () => .ok (Plan.document ⟨config, analysis.vmName⟩ now)

/-- A converter with the analysis it holds, if any. -/
structure Session where
  config : Configuration
  now : Instant
  analysis? : Option Analysis := none

namespace Session

def analyze (s : Session) (t : DeploymentTemplate) : Session :=
  { s with analysis? := some (.ofTemplate t) }

/-- Converts the template analysed last. -/
def convert (s : Session) : Except ConversionError Bicep.Document :=
  match s.analysis? with
  | none => .error .notAnalyzed
  | some analysis => convertAnalysis s.now s.config analysis

end Session

end BicepForge.Conversion
