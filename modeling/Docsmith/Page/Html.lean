/-
Pages in HTML: one for the project and one for each module, each with the same frame around it.
-/
import Docsmith.Page.Markdown
import Docsmith.Page.Markup
import Docsmith.Page.Style

namespace Docsmith.Page

def statCard (count : Nat) (label : String) : List Markup :=
  ["    <div class=\"stat-card\">",
    "        <span class=\"stat-value\">" ++ toString count ++ "</span>",
    "        <span class=\"stat-label\">" ++ label ++ "</span>",
    "    </div>"]

def moduleCard (m : ModuleDoc) : List Markup :=
  ["<div class=\"module-card\">",
    "    <div class=\"module-card-header\">",
    "        <span class=\"module-icon\">📦</span>",
    "        <a href=\"" ++ shown m.pagePath ++ ".html\">" ++ shown m.name ++ "</a>",
    "    </div>",
    if m.doc.isEmpty then "    <div class=\"description muted\">No description available</div>"
    else "    <div class=\"description\">" ++ shown m.summary ++ "</div>",
    "    <div class=\"module-meta\">",
    "        <span>" ++ toString m.functions.length ++ " functions</span>",
    "        <span>·</span>",
    "        <span>" ++ toString m.types.length ++ " classes</span>",
    "    </div>",
    "</div>"]

def htmlIndex (p : ProjectDoc) : Markup :=
  lines (blocks
    [["<div class=\"hero\">",
      "    <h1>" ++ shown p.title ++ "</h1>",
      "    <p class=\"hero-sub\">Auto-generated API documentation</p>",
      "</div>",
      "",
      "<div class=\"stats\">"],
    statCard p.moduleCount "modules",
    statCard p.functionCount "functions",
    statCard p.typeCount "classes",
    ["</div>",
      "",
      "<h2>Modules</h2>",
      "",
      "<div class=\"module-grid\">"],
    p.modules.flatMap moduleCard]) ++
  "</div>"

def tocEntry (kind letter name : String) (isDeprecated : Bool) : List Markup :=
  ["        <a href=\"#" ++ kind ++ "-" ++ shown name ++ "\" class=\"toc-item toc-" ++ kind ++ "\">",
    "            <span class=\"toc-badge " ++ kind ++ "\">" ++ letter ++ "</span> " ++ shown name,
    on isDeprecated "<span class=\"badge-deprecated-sm\">deprecated</span>" ++ "        </a>"]

def toc (m : ModuleDoc) : List Markup :=
  linesIf (!(m.types.isEmpty && m.functions.isEmpty)) (blocks
    [["<div class=\"toc-card\">",
      "    <h3>Contents</h3>",
      "    <div class=\"toc-list\">"],
    m.types.flatMap fun t => tocEntry "class" "C" t.name t.isDeprecated,
    m.functions.flatMap fun f => tocEntry "func" "F" f.name f.isDeprecated,
    ["    </div>",
      "</div>"]])

def blockHead (margin kind word : String) (isDeprecated : Bool) : List Markup :=
  blocks
    [[margin ++ "    <div class=\"doc-block-header\">",
      margin ++ "        <span class=\"type-badge " ++ kind ++ "\">" ++ word ++ "</span>"],
    linesIf isDeprecated [margin ++ "        <span class=\"badge-deprecated\">DEPRECATED</span>"],
    [margin ++ "    </div>", ""]]

def blockBody (margin : String) (marks : List String) (signature doc : String) : List Markup :=
  blocks
    [marks.map fun m => margin ++ "    <span class=\"decorator\">@" ++ shown m ++ "</span>",
    ["", margin ++ "    <div class=\"signature\">" ++ shown signature ++ "</div>", ""],
    linesIf (!doc.isEmpty) [margin ++ "    <div class=\"docstring\">" ++ shown doc ++ "</div>"]]

def htmlMethod (f : Callable) : List Markup :=
  blocks
    [["        <div class=\"doc-block method-block" ++ on f.isDeprecated " deprecated" ++ "\">"],
    blockHead "        " "method" "def" f.isDeprecated,
    blockBody "        " f.marks f.signature f.doc,
    ["        </div>"]]

def htmlType (t : TypeDecl) : List Markup :=
  blocks
    [["<div class=\"doc-block" ++ on t.isDeprecated " deprecated" ++ "\" id=\"class-" ++
      shown t.name ++ "\">"],
    blockHead "" "class" "class" t.isDeprecated,
    blockBody "" t.marks t.signature t.doc,
    ["", "    <div class=\"meta\">📍 Line " ++ toString t.line ++ "</div>", ""],
    linesIf (!t.methods.isEmpty) (blocks
      [["    <div class=\"methods-section\">", "        <h4>Methods</h4>"],
      t.methods.flatMap htmlMethod,
      ["    </div>"]]),
    ["</div>"]]

def htmlFunction (f : Callable) : List Markup :=
  blocks
    [["<div class=\"doc-block" ++ on f.isDeprecated " deprecated" ++ "\" id=\"func-" ++
      shown f.name ++ "\">"],
    blockHead "" "func" "def" f.isDeprecated,
    blockBody "" f.marks f.signature f.doc,
    ["", "    <div class=\"meta\">📍 Line " ++ toString f.line ++ "</div>", "</div>"]]

def breadcrumb (name : String) : String :=
  if name.toList.contains '.' then
    String.join (List.replicate (Text.cut '.' name.toList).length "../")
  else ""

def htmlModule (m : ModuleDoc) : Markup :=
  lines (blocks
    [["<div class=\"module-header\">",
      "    <div class=\"breadcrumb\">",
      "        <a href=\"" ++ breadcrumb m.name ++ "index.html\">Index</a>",
      "        <span class=\"breadcrumb-sep\">›</span>",
      "        <span>" ++ shown m.name ++ "</span>",
      "    </div>",
      "    <h1>" ++ shown m.name ++ "</h1>"],
    linesIf (!m.doc.isEmpty) ["    <p class=\"module-desc\">" ++ shown m.doc ++ "</p>"],
    ["    <p class=\"meta-line\">📄 <code>" ++ shown m.path ++ "</code></p>",
      "</div>",
      "",
      "<!-- Table of contents -->"],
    toc m,
    [""],
    linesIf (!m.types.isEmpty) (blocks [["<h2>Classes</h2>", ""], m.types.flatMap htmlType]),
    [""],
    linesIf (!m.functions.isEmpty) (blocks
      [["<h2>Functions</h2>", ""], m.functions.flatMap htmlFunction])])

/-- A module in the list of all modules, from a page that is `up` away from the index. -/
def navEntry (up : String) (current : Option String) (m : ModuleDoc) : List Markup :=
  ["            <a href=\"" ++ up ++ shown m.pagePath ++ ".html\"",
    on (current == some m.name) "class=\"active\"" ++ "               data-module=\"" ++
      shown m.name ++ "\">",
    "                <span class=\"nav-icon\">📦</span> " ++ shown m.name,
    "            </a>"]

def script : List Markup :=
  ["<script>",
    "// Module search",
    "const search = document.getElementById('module-search');",
    "const links = document.querySelectorAll('#module-list a[data-module]');",
    "if (search) \x7b",
    "    search.addEventListener('input', function() \x7b",
    "        const q = this.value.toLowerCase();",
    "        links.forEach(a => \x7b",
    "            a.style.display = a.dataset.module.toLowerCase().includes(q) ? '' : 'none';",
    "        \x7d);",
    "    \x7d);",
    "\x7d",
    "",
    "// Mobile sidebar toggle",
    "const toggle = document.getElementById('sidebar-toggle');",
    "const sidebar = document.getElementById('sidebar');",
    "if (toggle) \x7b",
    "    toggle.addEventListener('click', () => sidebar.classList.toggle('open'));",
    "\x7d",
    "",
    "// Smooth scroll for anchor links",
    "document.querySelectorAll('a[href^=\"#\"]').forEach(a => \x7b",
    "    a.addEventListener('click', e => \x7b",
    "        const target = document.querySelector(a.getAttribute('href'));",
    "        if (target) \x7b e.preventDefault(); target.scrollIntoView(\x7bbehavior: 'smooth'\x7d); \x7d",
    "    \x7d);",
    "\x7d);",
    "</script>"]

/-- The frame before the body. `current` is the module that the page shows, and `up` leads from the
page to the index. -/
def frameHead (p : ProjectDoc) (title : String) (current : Option String) (up : String) : Markup :=
  lines (blocks
    [["<!DOCTYPE html>",
      "<html lang=\"en\">",
      "<head>",
      "    <meta charset=\"UTF-8\">",
      "    <meta name=\"viewport\" content=\"width=device-width, initial-scale=1.0\">",
      "    <meta name=\"description\" content=\"" ++ shown title ++
        " — auto-generated documentation by autoredocs\">",
      "    <title>" ++ shown title ++ "</title>",
      "    <style>" ++ style ++ "</style>",
      "</head>",
      "<body>",
      "<div class=\"layout\">",
      "    <!-- Sidebar -->",
      "    <nav class=\"sidebar\" id=\"sidebar\">",
      "        <div class=\"sidebar-header\">",
      "            <div class=\"sidebar-logo\">⚡</div>",
      "            <h1>" ++ shown p.title ++ "</h1>",
      "            <span class=\"badge\">autoredocs v0.3.0</span>",
      "        </div>",
      "        <div class=\"sidebar-search\">",
      "            <input type=\"text\" id=\"module-search\" placeholder=\"Search modules…\" " ++
        "autocomplete=\"off\">",
      "        </div>",
      "        <div class=\"sidebar-nav\" id=\"module-list\">",
      "            <a href=\"" ++ up ++ "index.html\" " ++ on current.isNone "class=\"active\"" ++ ">",
      "                <span class=\"nav-icon\">📋</span> Index",
      "            </a>"],
    p.modules.flatMap (navEntry up current),
    ["        </div>",
      "        <div class=\"sidebar-footer\">",
      "            <span>Generated by <strong>autoredocs</strong></span>",
      "        </div>",
      "    </nav>",
      "",
      "    <!-- Mobile toggle -->",
      "    <button class=\"sidebar-toggle\" id=\"sidebar-toggle\" " ++
        "aria-label=\"Toggle sidebar\">☰</button>",
      "",
      "    <!-- Main content -->",
      "    <main class=\"main-content\">",
      "        <div class=\"content-wrapper\">"]]) ++
  "            "

def frameTail : Markup :=
  lines (blocks
    [["",
      "        </div>",
      "",
      "        <div class=\"footer\">",
      "            <div class=\"footer-inner\">",
      "                <span>Generated by <strong>autoredocs</strong> v0.3.0</span>",
      "                <span>·</span>",
      "                <a href=\"https://github.com/ShivamBwaj/autoredocs\" target=\"_blank\" " ++
        "rel=\"noopener\">GitHub</a>",
      "            </div>",
      "        </div>",
      "    </main>",
      "</div>",
      ""],
    script,
    ["</body>"]]) ++
  "</html>"

def frame (p : ProjectDoc) (title body : String) (current : Option String) (up : String) : Markup :=
  frameHead p title current up ++ body ++ frameTail

/-! ## Pages as they are written -/

/-- A page: a body from a template, and the frame around it. `escapes` says for each template
whether texts are escaped in it. -/
def htmlPage (escapes : Template → Bool) (p : ProjectDoc) (title : String) (template : Template)
    (body : Markup) (current : Option String) (up : String) : String :=
  render (escapes .page) (frame p title (render (escapes template) body) current up)

def htmlIndexPage (escapes : Template → Bool) (p : ProjectDoc) : String :=
  htmlPage escapes p p.title .index (htmlIndex p) none ""

def htmlModulePage (escapes : Template → Bool) (p : ProjectDoc) (m : ModuleDoc) (up : String) :
    String :=
  htmlPage escapes p (m.name ++ " — " ++ p.title) .module (htmlModule m) (some m.name) up

end Docsmith.Page
