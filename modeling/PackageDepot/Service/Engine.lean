import PackageDepot.Config
import PackageDepot.Function.Builtin

/-!
# Engines

An engine is what stays the same for all calls: the configuration, the path of manifests that are
looked for in git, and an evaluator that runs functions.
-/

namespace PackageDepot

open Package

/-- What running a function comes to: the time that it takes, which may be for ever, and the bundle
that it makes or its error. -/
structure Evaluation where
  duration : Option Nat
  result : Except Error Bundle

/-- Runs functions: the image, what the function is given, and the bundle that it is run on. -/
abbrev Evaluator := String → Dict String → Bundle → Evaluation

/-- Runs the built-in functions, which take no time. -/
def Runtime.evaluator (runtime : Runtime) : Evaluator := fun image config files =>
  ⟨some 0, (runtime.evaluate image config files).mapError .function⟩

/-- What stays the same for all calls. -/
structure Engine where
  config : Config := {}
  evaluator : Evaluator := Runtime.standard.evaluator
  /-- The path of the manifests that packages in git are found by. -/
  indexManifest : String := Kptfile.defaultPath

/-- The engine of a configuration. -/
def Engine.ofConfig (config : Config) (evaluator : Evaluator) : Engine :=
  { config, evaluator, indexManifest := config.manifestFile }

end PackageDepot
