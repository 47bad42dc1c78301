/-
The commands of the program. Each takes its options, with the settings for what is not given, and
prints what it does. A command that cannot go on ends with an exit code.
-/
import Docsmith.Build
import Docsmith.Hosting.Deploy
import Docsmith.Remote.Server
import Docsmith.Starter
import Docsmith.Version
import Docsmith.Watch

namespace Docsmith.Command

def orSetting (option : Option String) (setting : Value) : Value :=
  match option with
  | some s => if s.isEmpty then setting else .str s
  | none => setting

def loadSettings (file : Option String) : Action Settings :=
  Action.ofFiles fun t =>
    Settings.load t ((file.map Path.ofString).getD (Settings.defaultPath t))

def absolute (v : Value) : Action Path := do
  let p ← Action.ofExcept (Path.ofValue v)
  Action.resolve p

variable [Console]

def banner (command : String) (lines : List String) : Action Unit :=
  let text := "\n".intercalate lines
  Action.renderAs text (.panel text ("[bold cyan]autoredocs " ++ command ++ "[/bold cyan]") "cyan")

def labelled (label text : String) : String := "[bold]" ++ label ++ ":[/bold] " ++ text

def needSource (p : Path) : Action Unit := do
  let isThere ← Action.onFiles fun t => t.has p
  if !isThere then
    Action.render ("[red]Error:[/red] Source directory not found: " ++ p.text)
    throw (.exit 1)

structure Place where
  source : Option String := none
  output : Option String := none
  format : Option String := none
  config : Option String := none

def Place.build (o : Place) : Action Build := do
  let settings ← loadSettings o.config
  let source ← absolute (orSetting o.source settings.source)
  let output ← absolute (orSetting o.output settings.output)
  pure { source, output, format := orSetting o.format settings.format, settings }

/-! ## Building -/

structure GenerateOptions where
  place : Place := {}
  isIncremental : Bool := false
  isAssisted : Bool := false
  deploy : Option String := none

def GenerateOptions.mode (o : GenerateOptions) : String :=
  let target := o.deploy.getD ""
  let parts :=
    (if o.isIncremental then ["incremental"] else []) ++
    (if o.isAssisted then ["AI-assisted"] else []) ++
    (if target.isEmpty then [] else ["deploy:" ++ target])
  if parts.isEmpty then "full" else " | ".intercalate parts

def deployBuilt (target : String) (output : Path) : Action Unit := do
  let w ← get
  let sending : Action Value := do
    let h ← Action.ofExcept (Hosting.Host.ofName target [] w.env)
    Action.render ("\n[cyan]Deploying to " ++ target ++ "...[/cyan]")
    Hosting.deploy h output
  match ← sending.attempt with
  | .ok url => Action.render ("[green]Deployed:[/green] " ++ url.display)
  | .error e => Action.render ("[red]Deploy failed:[/red] " ++ e.message)

def generate (o : GenerateOptions) : Action Unit := do
  let b ← o.place.build
  banner "generate"
    [labelled "Source" b.source.text, labelled "Output" b.output.text,
      labelled "Format" b.format.display, labelled "Mode" o.mode]
  needSource b.source
  { b with isIncremental := o.isIncremental, isAssisted := o.isAssisted }.run
  let target := o.deploy.getD ""
  if !target.isEmpty then deployBuilt target b.output

def watch (o : Place) (batches : List (Action (List Event))) (isInterrupted : Bool) : Action Unit := do
  let b ← o.build
  needSource b.source
  Action.say "[bold cyan]autoredocs watch[/bold cyan]\n"
  let build := { b with isIncremental := true }.run
  build
  Watch.run b.source Language.allExtensions build batches isInterrupted

def portOr (port : Option Int) (setting : Value) : Value :=
  match port with
  | some n => if n = 0 then setting else .int n
  | none => setting

structure PreviewOptions where
  place : Place := {}
  port : Option Int := none

def preview (o : PreviewOptions) : Action Unit := do
  let b ← { o.place with format := some "html" }.build
  let port := portOr o.port b.settings.port
  needSource b.source
  Action.say "[bold cyan]autoredocs preview[/bold cyan]\n"
  b.run
  Action.launch (.pages "localhost" port b.output.text)
  let url := "http://localhost:" ++ port.display
  Action.say ("\n[bold green]Preview server running at[/bold green] [link=" ++ url ++ "]" ++ url ++
    "[/link]")
  Action.say "   Press [bold]Ctrl+C[/bold] to stop.\n"
  Action.launch .timer
  Action.launch (.browser url)
  Action.say "\n[bold cyan]Server stopped.[/bold cyan]"
  Action.launch .closed

/-! ## Starting a project -/

structure InitOptions where
  path : String := "."
  source : String := "./src"
  hasWorkflow : Bool := true
  isAssisted : Bool := true

/-- Something that a start made or found: its name, what there is to say about it if it was made,
what if it was there, and which is the case. -/
structure StartItem where
  name : String
  made : String := ""
  present : String := " (already exists)"
  isMade : Bool

def configure (project : Path) (o : InitOptions) : Action Bool := do
  let config := project / Settings.fileName
  if ← Action.onFiles fun t => t.has config then pure true
  else
    ({ title := .str (project.name ++ " Documentation"), source := .str o.source } : Settings).save
      config
    pure false

def optionalItem (isWanted : Bool) (name : String) (make : Action (Option Path)) :
    Action (List StartItem) :=
  if isWanted then do
    let p ← make
    pure [{ name, isMade := p.isSome }]
  else pure []

def startItems (project : Path) (o : InitOptions) : Action (List StartItem) := do
  let isThere ← configure project o
  let workflow ← optionalItem o.hasWorkflow ".github/workflows/autoredocs.yml"
    (Starter.writeWorkflow project o.source)
  let environment ← optionalItem o.isAssisted ".env.example" (Starter.writeEnvironment project)
  let isUpdated ← Starter.updateIgnored project
  pure ({ name := Settings.fileName, isMade := !isThere } :: workflow ++ environment ++
    [⟨".gitignore", " (updated)", " (already configured)", isUpdated⟩])

def nextSteps (o : InitOptions) : List String :=
  ["\n[bold]Next steps:[/bold]\n",
    "  1. [cyan]autoredocs generate --source " ++ o.source ++
      " --output docs --format html[/cyan]",
    "     Generate docs locally to preview\n",
    "  2. [cyan]autoredocs preview --source " ++ o.source ++ "[/cyan]",
    "     Open a live preview in your browser\n"] ++
  (if o.isAssisted then
    ["  3. [cyan]cp .env.example .env[/cyan]  →  add your GROQ_API_KEY",
      "     Get a free key at [link=https://console.groq.com]console.groq.com[/link]\n"]
  else []) ++
  (if o.hasWorkflow then
    ["  4. Enable GitHub Pages: [cyan]Settings → Pages → Source → GitHub Actions[/cyan]",
      "     Add [cyan]GROQ_API_KEY[/cyan] as a repo secret: " ++
        "[cyan]Settings → Secrets → Actions[/cyan]\n"]
  else []) ++
  ["  Push to [bold]main[/bold] — docs auto-deploy to GitHub Pages! 🚀\n"]

def showStart (project : Path) (o : InitOptions) (items : List StartItem) : Action Unit := do
  Action.say ""
  Action.notify (.panel
    ("[bold cyan]autoredocs[/bold cyan] initialized in [green]" ++ project.text ++ "[/green]")
    "✨ Project Ready" "cyan")
  let made := items.filter fun i => i.isMade
  let present := items.filter fun i => !i.isMade
  if !made.isEmpty then
    Action.say "\n[green]✓ Created:[/green]"
    made.forM fun i => Action.say ("  • " ++ i.name ++ i.made)
  if !present.isEmpty then
    Action.say "\n[yellow]⊘ Skipped:[/yellow]"
    present.forM fun i => Action.say ("  • " ++ i.name ++ i.present)
  (nextSteps o).forM Action.say

def init (o : InitOptions) : Action Unit := do
  let project ← Action.resolve (.ofString o.path)
  let items ← startItems project o
  showStart project o items

/-! ## The assistant -/

structure FillOptions where
  source : Option String := none
  config : Option String := none
  isTrial : Bool := false
  style : Option String := none

def previewLimit : Nat := 120

def shortened (doc : String) : String :=
  let cs := doc.toList
  String.ofList (cs.take previewLimit) ++ (if previewLimit < cs.length then "..." else "")

def previewLine (s : Assistant.Suggestion) : String := "    [dim]" ++ shortened s.text ++ "[/dim]"

def showSuggestion (isTrial : Bool) (s : Assistant.Suggestion) : Action Unit := do
  let icon := if isTrial then "[yellow]~[/yellow]" else "[green]+[/green]"
  Action.say ("  " ++ icon ++ " " ++ s.kind ++ " [bold]" ++ s.name ++ "[/bold] (line " ++
    toString s.line ++ ")")
  if isTrial then Action.render (previewLine s)

structure FillJob where
  assistant : Assistant
  source : Path
  excluded : List String

def FillJob.files (job : FillJob) (t : FileTree) : List Path :=
  Project.filesWith t job.source job.excluded ".py"

def FillOptions.job (o : FillOptions) : Action FillJob := do
  let settings ← loadSettings o.config
  let source ← absolute (orSetting o.source settings.source)
  needSource source
  let w ← get
  let key := settings.assistant.key w.env
  let style := orSetting o.style settings.assistant.style
  if !key.isGiven then
    Action.say ("[red]Error:[/red] No Groq API key found.\n" ++
      "  Set [cyan]GROQ_API_KEY[/cyan] in .env or autoredocs.yaml")
    throw (.exit 1)
  banner "ai-fill"
    [labelled "Source" source.text, labelled "Style" style.display,
      labelled "Mode" (if o.isTrial then "dry-run (preview)" else "write")]
  let excluded ←
    if settings.exclude.isGiven then Action.ofExcept (Build.namesIn settings.exclude) else pure []
  pure ⟨⟨key, settings.assistant.model, style, settings.assistant.maxTokens⟩, source, excluded⟩

def FillJob.fillFile [Machine] (job : FillJob) (isTrial : Bool) (p : Path) :
    Action (List Assistant.Suggestion) := do
  let rel := ((p.relativeTo? job.source).map Path.text).getD p.text
  Action.render ("[dim]Scanning " ++ rel ++ "...[/dim]")
  let ss ← job.assistant.fillDocstrings p isTrial
  ss.forM (showSuggestion isTrial)
  pure ss

def sayFilled (isTrial : Bool) (total : Nat) : Action Unit :=
  if total = 0 then Action.say "\n[dim]All functions and classes already have docstrings.[/dim]"
  else
    Action.say ("\n[green]✓[/green] " ++ (if isTrial then "Would fill" else "Filled") ++
      " [bold]" ++ toString total ++ "[/bold] docstring(s)")

def fill [Machine] (o : FillOptions) : Action Unit := do
  let job ← o.job
  let files ← Action.onFiles job.files
  let found ← files.mapM (job.fillFile o.isTrial)
  sayFilled o.isTrial found.flatten.length

/-! ## Serving and sending -/

structure ServeOptions where
  place : Place := {}
  port : Option Int := none
  secret : String := ""

def serve (o : ServeOptions) : Action Unit := do
  let settings ← loadSettings o.place.config
  let source := orSetting o.place.source settings.source
  let output := orSetting o.place.output settings.output
  let format := orSetting o.place.format settings.format
  let port := portOr o.port settings.port
  banner "serve"
    [labelled "Source" source.display, labelled "Output" output.display,
      labelled "Format" format.display, labelled "Port" port.display]
  let server ← Remote.Server.create source output format o.secret
  let w ← get
  if w.missing.contains .webServer then
    Action.say ("[red]Error:[/red] uvicorn is required for server mode.\n" ++
      "  Install with: [cyan]pip install autoredocs\\[server][/cyan]")
    throw (.exit 1)
  Action.say ("\n[green]Starting server at http://localhost:" ++ port.display ++ "[/green]")
  Action.say "[dim]Press Ctrl+C to stop[/dim]\n"
  Action.launch (.service "0.0.0.0" port "info" server.service)

structure DeployOptions where
  output : Option String := none
  target : String := ""
  config : Option String := none

def deploy (o : DeployOptions) : Action Unit := do
  let settings ← loadSettings o.config
  let output ← absolute (orSetting o.output settings.output)
  let hasPages ← Action.ofFiles fun t => Remote.Server.hasPages t output
  if !hasPages then
    Action.render ("[red]Error:[/red] No docs found at " ++ output.text ++
      "\n  Run [cyan]autoredocs generate[/cyan] first.")
    throw (.exit 1)
  banner "deploy" [labelled "Source" output.text, labelled "Target" o.target]
  match ← (Hosting.deployTo o.target output).attempt with
  | .ok url =>
    Action.render ("\n[green]Deployed successfully![/green]\n  [cyan]" ++ url.display ++ "[/cyan]")
  | .error e =>
    let what := if e.isInvalid then "Error" else "Deploy failed"
    Action.render ("[red]" ++ what ++ ":[/red] " ++ e.message)
    throw (.exit 1)

def showVersion : Action Unit :=
  Action.say ("[bold cyan]autoredocs[/bold cyan] v" ++ version)

end Docsmith.Command
