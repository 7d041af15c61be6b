import JarAtlas.Archive.Open
import JarAtlas.Command.Basic
import JarAtlas.Command.Report
import JarAtlas.Dot.ManifestDiagram
import JarAtlas.Dot.ModuleDiagram
import JarAtlas.Manifest.Table
import JarAtlas.Modules.Synthesis
import JarAtlas.Render.Renderer
import JarAtlas.Settings

/-! Running the commands. Results are printed, and what happens on the way is noted down. -/
namespace JarAtlas
namespace Command

variable {m : Type → Type} [Monad m] [Machine m]

def failWith {α : Type} (top : String) (causes : List String) : ExceptT Failure m α :=
  throw (.reported ⟨top, causes⟩)

def openArchive (path : String) : ExceptT Failure m Archive := do
  match ← Archive.load path with
  | .ok archive => return archive
  | .error e => failWith ("Failed to read archive " ++ path) (e.message :: e.causes)

def manifestOrEmpty (a : Archive) : m Manifest := do
  if a.manifest.isNone then Machine.info ("MANIFEST.MF not found in " ++ a.name)
  return a.manifestOrEmpty

def synthesize (root : String) (a : Archive) : m ModuleGraph := do
  (Classification.outsiders root a).forM fun c =>
    Machine.trace ("Outside root namespace: " ++ c)
  let c := Classification.ofArchive root a
  Machine.debug ("Classified " ++ toString c.classes.size ++ " classes into " ++
    toString c.modules.size ++ " modules")
  let g := ModuleGraph.ofArchive root a
  Machine.info ("Module graph: " ++ toString g.size ++ " modules, " ++ toString g.edgeCount ++
    " edges")
  return g

def emit (d : Dot.ModuleDiagram) (g : ModuleGraph) (path : String) : m (Except Fault String) := do
  let dot := d.render g
  match ← Machine.writeFile path (Utf8.encode dot) with
  | .error f => return .error f
  | .ok () =>
    Machine.info ("DOT written: " ++ path)
    return .ok dot

def writeModuleDiagram (a : Archive) (root output : String) : ExceptT Failure m ModuleGraph := do
  let g ← synthesize root a
  match ← emit { title := some a.name } g output with
  | .ok _ => return g
  | .error f => failWith ("Failed to write " ++ output) ["IO error: " ++ f.message, f.message]

def writeManifestDiagram (a : Archive) (manifest : Manifest) (output : String) :
    ExceptT Failure m Unit := do
  let dot := ({} : Dot.ManifestDiagram).render manifest a.name
  match ← Machine.writeFile output (Utf8.encode dot) with
  | .ok () => return ()
  | .error f => failWith ("Failed to write " ++ output) [f.message]

/-- The format that a command names goes before the one that is set. -/
def renderer (s : Settings) (format? : Option String) : Renderer :=
  ⟨s.renderTool, format?.getD s.imageFormat⟩

/-- A diagram that cannot be drawn is no failure: its description is there. -/
def draw (r : Renderer) (description : String) : ExceptT Failure m Unit := do
  match ← r.renderBeside description with
  | .error e => throw (.aborted e.format)
  | .ok (.rendered image) => Machine.printLine ("Image saved to: " ++ image)
  | .ok .toolUnavailable =>
    Machine.printLine ("Graphviz (" ++ r.tool ++
      ") not found in PATH, skipping image. Install it, e.g. `sudo apt install graphviz`.")
  | .ok (.failed message) =>
    Machine.warn ("Rendering " ++ description ++ " failed: " ++ message)

def printManifest (manifest : Manifest) : m Unit := do
  Machine.printLine "=== MANIFEST.MF attributes ==="
  Machine.print manifest.table

def graphLine (e : String × NameSet) : String :=
  if e.2.isEmpty then "  " ++ e.1 else "  " ++ e.1 ++ " -> " ++ Text.join ", " e.2.toList

def graphSummary (g : ModuleGraph) : String :=
  "\nFound " ++ toString g.size ++ " modules, " ++ toString g.edgeCount ++ " dependencies:\n\n" ++
    Text.unlines (g.entries.map graphLine) ++ "\n"

def runGraph (s : Settings) (o : GraphOptions) : ExceptT Failure m Unit := do
  let archive ← openArchive o.jar
  Machine.info ("Analyzing " ++ o.jar)
  let g ← writeModuleDiagram archive (o.root?.getD s.rootNamespace) o.output
  if o.json then Machine.printLine g.toJson.indented
  else
    Machine.print (graphSummary g)
    Machine.printLine ("Saved to: " ++ o.output)
  if o.render then draw (renderer s o.format?) o.output

def runManifest (s : Settings) (o : ManifestOptions) : ExceptT Failure m Unit := do
  let archive ← openArchive o.jar
  let manifest ← manifestOrEmpty archive
  if o.json then Machine.printLine manifest.toJson.indented
  else printManifest manifest
  match o.output? with
  | none => return ()
  | some output =>
    writeManifestDiagram archive manifest output
    Machine.printLine ("Saved to: " ++ output)
    if o.render then draw (renderer s o.format?) output

/-- A directory that the command names goes before all settings. -/
def fetchSettings (e : Environment) (s : FetchSettings) (localRepo? : Option String) :
    Except Report FetchSettings :=
  match localRepo? with
  | none => .ok s
  | some value => match LocalRepository.resolveRoot? e.home? value with
    | some root => .ok { s with localRoot? := some root }
    | none => .error ⟨"Cannot locate the home directory for ~/.m2/repository", []⟩

def ofFetch {α : Type} : Except Repository.Error α → ExceptT Failure m α
  | .ok a => return a
  | .error e => failWith e.message e.causes

def printArtifact (a : Artifact) : m Unit := do
  Machine.printLine ("Saved to: " ++ a.path)
  Machine.printLine ("Size: " ++ toString a.size ++ " bytes")
  Machine.printLine ("SHA-256: " ++ a.digest)

def fetchReport (c : Coordinate) (a : Artifact) : Json :=
  .object [("coordinate", c.toJson), ("artifact", a.toJson)]

def manifestDiagramPath (dir : String) (c : Coordinate) : String :=
  Path.append dir (c.stem ++ "-manifest.dot")

def moduleDiagramPath (dir : String) (c : Coordinate) : String :=
  Path.append dir (c.stem ++ "-modules.dot")

variable [Url.HostNames]

def fetchArtifact (e : Environment) (s : Settings) (c : Coordinate) (dir : String)
    (localRepo? : Option String) : ExceptT Failure m Artifact := do
  match fetchSettings e s.fetch localRepo? with
  | .error r => throw (.reported r)
  | .ok settings =>
    let source ← ofFetch settings.source
    Machine.info ("Fetching " ++ c.toString ++ " from " ++ source.describe)
    ofFetch (← source.fetch c dir)

def runFetch (e : Environment) (s : Settings) (o : FetchOptions) : ExceptT Failure m Unit := do
  let c ← ofFetch (Coordinate.parse o.coordinate)
  let a ← fetchArtifact e s c o.dir o.localRepo?
  if o.json then Machine.printLine (fetchReport c a).indented
  else printArtifact a

def runInspect (e : Environment) (s : Settings) (o : InspectOptions) : ExceptT Failure m Unit := do
  let c ← ofFetch (Coordinate.parse o.coordinate)
  let a ← fetchArtifact e s c o.dir o.localRepo?
  printArtifact a
  let archive ← openArchive a.path
  let manifest ← manifestOrEmpty archive
  printManifest manifest
  writeManifestDiagram archive manifest (manifestDiagramPath o.dir c)
  Machine.printLine ("Saved to: " ++ manifestDiagramPath o.dir c)
  let g ← writeModuleDiagram archive (o.root?.getD s.rootNamespace) (moduleDiagramPath o.dir c)
  Machine.printLine ("Saved to: " ++ moduleDiagramPath o.dir c ++ " (" ++
    toString g.size ++ " modules, " ++ toString g.edgeCount ++ " dependencies)")
  if o.render then
    draw (renderer s o.format?) (manifestDiagramPath o.dir c)
    draw (renderer s o.format?) (moduleDiagramPath o.dir c)

def run (e : Environment) (s : Settings) : Command → ExceptT Failure m Unit
  | .graph o => runGraph s o
  | .manifest o => runManifest s o
  | .fetch o => runFetch e s o
  | .inspect o => runInspect e s o

end Command
end JarAtlas
