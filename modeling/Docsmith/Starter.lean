/-
The files that a project starts with: a workflow that publishes its pages, a sample of the
environment, and what version control leaves alone. Nothing that is there already is lost.
-/
import Docsmith.World

namespace Docsmith.Starter

def reference (name : String) : String := "$\x7b\x7b " ++ name ++ " \x7d\x7d"

def workflow (source : String) : String := "\n".intercalate [
  "# Auto-generated by: autoredocs init",
  "# Builds documentation and deploys to GitHub Pages on every push to main.",
  "#",
  "# Setup required:",
  "#   1. Go to repo Settings → Pages → Source → \"GitHub Actions\"",
  "#   2. Add GROQ_API_KEY as a repository secret (Settings → Secrets → Actions)",
  "#      Get a free key at https://console.groq.com",
  "",
  "name: Deploy Docs",
  "",
  "on:",
  "  push:",
  "    branches: [main]",
  "  workflow_dispatch:",
  "",
  "permissions:",
  "  contents: read",
  "  pages: write",
  "  id-token: write",
  "",
  "concurrency:",
  "  group: \"pages\"",
  "  cancel-in-progress: true",
  "",
  "jobs:",
  "  build:",
  "    runs-on: ubuntu-latest",
  "    steps:",
  "      - uses: actions/checkout@v4",
  "",
  "      - name: Set up Python",
  "        uses: actions/setup-python@v5",
  "        with:",
  "          python-version: \"3.12\"",
  "",
  "      - name: Install autoredocs",
  "        run: pip install \"autoredocs[ai]\"",
  "",
  "      - name: Generate documentation",
  "        run: autoredocs generate --source " ++ source ++ " --output _site --format html --ai --incremental",
  "        env:",
  "          GROQ_API_KEY: " ++ reference "secrets.GROQ_API_KEY",
  "",
  "      - name: Upload Pages artifact",
  "        uses: actions/upload-pages-artifact@v3",
  "        with:",
  "          path: _site",
  "",
  "  deploy:",
  "    needs: build",
  "    runs-on: ubuntu-latest",
  "    environment:",
  "      name: github-pages",
  "      url: " ++ reference "steps.deployment.outputs.page_url",
  "    steps:",
  "      - name: Deploy to GitHub Pages",
  "        id: deployment",
  "        uses: actions/deploy-pages@v4",
  ""]

def environment : String := "\n".intercalate [
  "# autoredocs environment variables",
  "# Copy this file to .env and fill in your values.",
  "",
  "# Required for AI-powered docstring generation (free at https://console.groq.com)",
  "GROQ_API_KEY=",
  "",
  "# Optional: for Netlify deployment",
  "# NETLIFY_TOKEN=",
  "# NETLIFY_SITE_ID=",
  ""]

def ignoreMark : String := "# autoredocs output"

def ignored : List String :=
  [ignoreMark, "_site/", "docs/", "build_report.json", ".autoredocs_state.json"]

def writeWorkflow (project : Path) (source : String) : Action (Option Path) := do
  let dir := project / ".github" / "workflows"
  let file := dir / "autoredocs.yml"
  if ← Action.onFiles fun t => t.has file then pure none
  else
    Action.makeFolders dir
    Action.writeText file (workflow source)
    pure (some file)

def writeEnvironment (project : Path) : Action (Option Path) := do
  let file := project / ".env.example"
  if ← Action.onFiles fun t => t.has file then pure none
  else
    Action.writeText file environment
    pure (some file)

def addedLines : String := "\n" ++ "\n".intercalate ignored ++ "\n"

def addLines (file : Path) (old : List UInt8) : Action Bool := do
  Action.changeFiles fun t => t.writeBytes file (old ++ addedLines.toUTF8.toList)
  pure true

def updateIgnored (project : Path) : Action Bool := do
  let file := project / ".gitignore"
  if ← Action.onFiles fun t => t.has file then
    if Text.occurs ignoreMark.toList (← Action.readText file) then pure false
    else addLines file (← Action.readBytes file)
  else addLines file []

end Docsmith.Starter
