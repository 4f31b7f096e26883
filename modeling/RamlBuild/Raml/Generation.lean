import RamlBuild.Program.Command
import RamlBuild.Sources.Layout

/-!
# Generating sources

Sources are generated from an API definition by the generator. They are generated from scratch: what
was generated before is removed, so that no sources of types that are gone stay behind.

## Main definitions

* `GeneratorTool.command` — the command that generates sources
* `GeneratorTool.run` — generates the sources of a layout
-/

namespace RamlBuild

open Build

/-- The generator and more arguments for it. -/
structure GeneratorTool where
  /-- Its jar. -/
  jar : Path
  /-- More arguments. -/
  extraArguments : List String
  deriving DecidableEq, Repr

namespace GeneratorTool

/-- The command that generates the sources of a layout. -/
def command (tool : GeneratorTool) (api : Path) (layout : Layout) : Command :=
  Command.of "java" <|
    ["-jar", tool.jar.text, api.text, "--directory", layout.sourceDir.text,
      "--generate-types-with", "jackson", "--model-package", layout.modelPackage,
      "--resource-package", layout.resourcePackage, "--support-package", layout.supportPackage] ++
    tool.extraArguments

/-- Generates the sources of a layout from scratch. -/
def run (tool : GeneratorTool) (api : Path) (layout : Layout) : Build Unit := do
  if !(← isFile tool.jar) then
    failWith s!"generator {tool.jar} is not installed"
  else if !(← isFile api) then
    failWith s!"api definition {api} does not exist"
  else
    if ← holds layout.root then
      within s!"removing {layout.root}" (removeTree layout.root)
    let _ ← within "raml-to-jaxrs generation failed" (tool.command api layout).run
    if ← isDirectory layout.root then pure ()
    else failWith s!"generator finished but produced no sources under {layout.root}"

end GeneratorTool

end RamlBuild
