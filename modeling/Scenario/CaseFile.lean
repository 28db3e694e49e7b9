import Scenario.Host
import Scenario.Run.Case
import Scenario.Yaml.Node
import Scenario.Yaml.Printer

/-!
# Case files

A case file holds all that a run of a case needs: the case itself, the base addresses of its
environments, variables to start from, cases that may be included, and settings.

* `CaseFile.options` completes the options of a caller: a variable or an environment that the caller
  gives wins over the one of the file, and settings of the file replace the caller's as a whole.
* `CaseFile.site` is the site that serves a file's environments.
-/

namespace Scenario

/-- What is stored of a case that can be run. -/
structure CaseFile where
  case : CaseHeader := {}
  environment : Option String := none
  /-- Base addresses by project, then by environment. -/
  environments : Keyed (Keyed String) := []
  /-- The variables to start from. -/
  session : Json.Members := []
  library : Library := []
  steps : List Step := []
  settings : Option Settings := none

namespace CaseFile

open Record

/-- Case files as records. -/
def codec : Codec CaseFile where
  title := "CaseFile"
  start := {}
  fields := [
    .holding "case" .required CaseHeader.codec.ofData CaseHeader.codec.write (·.case) fun v f =>
      { f with case := v },
    optionalText "environment" (·.environment) fun v f => { f with environment := v },
    .holding "environments" .defaulted (Data.readKeyed (Data.readKeyed Data.readText))
      (fun es => .object (Keyed.mapValues textsToJson es)) (·.environments) fun v f =>
        { f with environments := v },
    .holding "variables" .defaulted Data.readMembers Json.Value.object (·.session) fun v f =>
      { f with session := v },
    .holding "library" .defaulted (Data.readList CaseRecord.ofData)
      (fun records => .array (records.map CaseRecord.write)) (·.library) fun v f =>
        { f with library := v },
    .holding "steps" .defaulted (Data.readList Step.ofData)
      (fun steps => .array (Step.writeAll steps)) (·.steps) fun v f => { f with steps := v },
    .holding "settings" .defaulted (Data.readOption Settings.codec.ofData)
      (Json.Value.ofOption Settings.codec.write) (·.settings) fun v f => { f with settings := v }]

/-- The case file that a JSON text holds. -/
def ofJsonText? (text : String) : Option CaseFile :=
  (Json.read text).toOption.bind fun v => (codec.ofData (Data.ofJson v)).toOption

/-- The case file that a document holds. -/
def ofYamlText? (text : String) : Option CaseFile :=
  (Yaml.dataOfText? text).bind fun d => (codec.ofData d).toOption

/-- A case file as data. -/
def toData (file : CaseFile) : Data :=
  let settings := match file.settings with
    | some settings => settings.toData
    | none => .scalar .null none
  .map ((codec.members file).map fun (key, v) =>
    (key, if key = "settings" then settings else Data.ofJson v))

/-- **The document of a case file.** -/
def toYamlText (file : CaseFile) : String :=
  Yaml.render file.toData

/-- What a file is called: the name of its case, or the code of a case without a name. -/
def name (file : CaseFile) : String :=
  if file.case.name.isEmpty then file.case.code else file.case.name

/-- **The options for a run of a file.** -/
def options (file : CaseFile) (base : RunOptions) : RunOptions :=
  { base with
    session := Keyed.extend file.session base.session
    environment := base.environment <|> file.environment
    settings := file.settings.getD base.settings }

/-- The base addresses of a file as a list. -/
def baseAddresses (environments : Keyed (Keyed String)) : List ((String × String) × String) :=
  environments.flatMap fun (project, hosts) =>
    hosts.map fun (environment, base) => ((project, environment), base)

/-- The site of a file. -/
def site (file : CaseFile) : Site where
  environments := baseAddresses file.environments

/-- The cases of a file that can be included: those that have an id. -/
def inclusions (file : CaseFile) : Library :=
  file.library.filter fun record => record.header.id.isSome

/-- Runs the case of a file. -/
def run {ρ σ : Type} (w : World ρ σ) (file : CaseFile) (base : RunOptions)
    (client : Option Http.Client) (outside : ρ) (records : σ) :
    Except (BrokenRun σ) (Finished ρ σ) :=
  runCase w file.case file.steps (file.options base) client outside records

end CaseFile

end Scenario
