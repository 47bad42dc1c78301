/-
What the writing assistant is told: how documentation looks in each language, and what to answer.
-/
import Docsmith.Value

namespace Docsmith.Assistant

/-- How documentation looks in a language: the language's name, a sample, and the name of the
style. -/
structure DocStyle where
  language : String
  sample : String
  style : String
  deriving DecidableEq, Repr

def docStyles : List (String × DocStyle) :=
  [(".py", ⟨"Python", "\"\"\"docstring\"\"\"", "docstring"⟩),
    (".java", ⟨"Java", "/** Javadoc */", "javadoc"⟩),
    (".ts", ⟨"TypeScript", "/** JSDoc */", "jsdoc"⟩),
    (".tsx", ⟨"TypeScript", "/** JSDoc */", "jsdoc"⟩),
    (".js", ⟨"JavaScript", "/** JSDoc */", "jsdoc"⟩),
    (".jsx", ⟨"JavaScript", "/** JSDoc */", "jsdoc"⟩),
    (".go", ⟨"Go", "// GoDoc", "godoc"⟩),
    (".rs", ⟨"Rust", "/// rustdoc", "rustdoc"⟩),
    (".cs", ⟨"C#", "/// XML doc", "xmldoc"⟩),
    (".c", ⟨"C", "/** Doxygen */", "doxygen"⟩),
    (".cpp", ⟨"C++", "/** Doxygen */", "doxygen"⟩),
    (".cc", ⟨"C++", "/** Doxygen */", "doxygen"⟩),
    (".h", ⟨"C/C++", "/** Doxygen */", "doxygen"⟩),
    (".hpp", ⟨"C++", "/** Doxygen */", "doxygen"⟩),
    (".rb", ⟨"Ruby", "# RDoc", "rdoc"⟩),
    (".kt", ⟨"Kotlin", "/** KDoc */", "kdoc"⟩),
    (".kts", ⟨"Kotlin", "/** KDoc */", "kdoc"⟩)]

def googleGuide : String :=
  "Write a Google-style Python docstring. Include:\n" ++
  "- A one-line summary\n" ++
  "- Args section with type descriptions\n" ++
  "- Returns section describing the return value\n" ++
  "- Raises section if exceptions are raised\n"

def numpyGuide : String :=
  "Write a NumPy-style Python docstring. Include:\n" ++
  "- A one-line summary\n" ++
  "- Parameters section with type\n" ++
  "- Returns section\n"

def sphinxGuide : String :=
  "Write a Sphinx-style Python docstring. Include:\n" ++
  "- A one-line summary\n" ++
  "- :param name: description lines\n" ++
  "- :returns: description\n" ++
  "- :raises ExcType: description (if applicable)\n"

/-- The guide to a style of docstrings; to a style that is not known it is the one to Google's. -/
def guide (style : Value) : String :=
  if style == .str "numpy" then numpyGuide
  else if style == .str "sphinx" then sphinxGuide
  else googleGuide

def docstringSystem : String :=
  "You are a documentation expert. " ++
  "Given a function or class signature and its source body, " ++
  "write a clear, accurate, and concise docstring. " ++
  "Return ONLY the docstring text (no triple quotes, no code fences). " ++
  "Do not explain your reasoning."

def bodyLimit : Nat := 1500

def docstringRequest (style : Value) (signature body : List Char) : String :=
  let text (cs : List Char) : String := String.ofList cs
  guide style ++ "\n\nSignature:\n```python\n" ++ text signature ++ "\n```\n" ++
    (if body.isEmpty then ""
    else "\nBody:\n```python\n" ++ text (body.take bodyLimit) ++ "\n```\n") ++
    "\nWrite the docstring now:"

def commentSystem (s : DocStyle) : String :=
  "You are an expert code documentation writer. " ++
  "Given source code in " ++ s.language ++ ", add missing documentation comments " ++
  "to all public functions, methods, classes, and types that lack them. " ++
  "Use the " ++ s.style ++ " comment style (" ++ s.sample ++ "). " ++
  "Return the COMPLETE modified source code with documentation added. " ++
  "Do NOT remove any existing code or comments. " ++
  "Do NOT wrap the output in code fences. " ++
  "Do NOT add any explanation."

def fileLimit : Nat := 6000

def commentRequest (s : DocStyle) (source : List Char) : String :=
  "Add documentation comments to this " ++ s.language ++ " code:\n\n" ++
    String.ofList (source.take fileLimit) ++
    (if fileLimit < source.length then "\n\n(File was truncated. Only document what you see.)"
    else "")

end Docsmith.Assistant
