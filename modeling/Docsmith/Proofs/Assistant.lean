/-
What the writing assistant does to files: it asks first, which changes none, and then writes what
came of it (`fill_eq`). So filling a file writes at most that file (`grows_fill`), also if it fails,
and nothing at all if there is nothing to suggest (`grown_of_fill_nil`).

Asking is more than not writing: what comes of it depends on the text of the file and on the replies
alone (`Talks`), so that two runs on one text go the same way whatever else lies in their trees.
-/
import Docsmith.Assistant.Fill
import Docsmith.Proofs.FileTree

namespace Docsmith

open Text

/-! ## Talking -/

/-- What comes of talking to the chat service: what it gives, the replies that are left, and the
calls that were made. -/
structure Talk (α : Type) where
  result : Except Fault α
  left : List Reply
  calls : List ChatCall

/-- One talk, and another that goes on with what it gave. -/
def Talk.andThen {α β : Type} (t : Talk α) (next : α → List Reply → Talk β) : Talk β :=
  match t.result with
  | .ok x => { next x t.left with calls := t.calls ++ (next x t.left).calls }
  | .error e => ⟨.error e, t.left, t.calls⟩

/-- A world after talking. -/
def World.after {α : Type} (w : World) (t : Talk α) : World :=
  { w with replies := t.left, chatCalls := w.chatCalls ++ t.calls }

namespace Action

variable {α β : Type}

/-- An action that does nothing but talk to the chat service, and goes by nothing but the replies
and whether there is a client. -/
def Talks (a : Action α) : Prop :=
  ∃ talk : List Package → List Reply → Talk α, ∀ w,
    a.exec w = ((talk w.missing w.replies).result, w.after (talk w.missing w.replies))

namespace Talks

theorem ofExcept (r : Except Fault α) : Talks (Action.ofExcept r) :=
  ⟨fun _ replies => ⟨r, replies, []⟩, fun w => by simp [World.after]⟩

theorem pure (x : α) : Talks (Pure.pure x : Action α) := ofExcept (.ok x)

theorem throw (e : Fault) : Talks (MonadExcept.throw e : Action α) := ofExcept (.error e)

variable {a : Action α}

theorem bind {f : α → Action β} (ha : Talks a) (hf : ∀ x, Talks (f x)) : Talks (a >>= f) := by
  obtain ⟨talk, htalk⟩ := ha
  refine ⟨fun missing replies =>
    (talk missing replies).andThen fun x => (hf x).choose missing, fun w => ?_⟩
  rw [exec_bind, htalk w]
  dsimp only
  rcases talk w.missing w.replies with ⟨e | x, left, calls⟩
  · rfl
  · simp only [(hf x).choose_spec, Talk.andThen, World.after, List.append_assoc]

theorem mapM {f : α → Action β} {xs : List α} (h : ∀ x ∈ xs, Talks (f x)) : Talks (xs.mapM f) := by
  induction xs with
  | nil => exact pure _
  | cons x xs ih =>
    rw [List.mapM_cons]
    exact bind (h x List.mem_cons_self) fun y =>
      bind (ih fun z hz => h z (List.mem_cons_of_mem _ hz)) fun ys => pure _

theorem files (h : Talks a) (w : World) : (a.exec w).2.files = w.files := by
  obtain ⟨talk, htalk⟩ := h
  rw [htalk]
  rfl

theorem grows (h : Talks a) {cwd : Path} {P Q : List String → Prop} : Grows cwd P Q a :=
  .of_files h.files

end Talks

end Action

namespace Assistant

open Action (Grows Talks)

variable {cwd : Path} {P Q : List String → Prop}

def answer : Reply → Option (List Char)
  | .text s => some s.toList
  | .nothing | .failure _ => none

/-- One question: without a client there is none, and without a reply no answer. -/
def question (call : ChatCall) (missing : List Package) (replies : List Reply) :
    Talk (Option (List Char)) :=
  if missing.contains .chatClient then ⟨.ok none, replies, []⟩
  else ⟨.ok (replies.head?.bind answer), replies.tail, [call]⟩

theorem talks_ask (a : Assistant) (system user : String) (limit : Value) (temperature : Double) :
    Talks (a.ask system user limit temperature) := by
  refine ⟨question ⟨a.key, serviceUrl, a.model, system, user, limit, temperature⟩, fun w => ?_⟩
  simp only [ask, Action.exec_bind, Action.exec_get, question]
  split
  · simp [World.after]
  · simp only [Action.exec_set, nextReply, Action.exec_bind, Action.exec_get, World.after]
    rcases w.replies with _ | ⟨_ | _ | _, rest⟩ <;> rfl

theorem talks_docstring (a : Assistant) (signature body : List Char) :
    Talks (a.docstring signature body) := by
  rw [docstring]
  split
  iterate 3 exact .throw _
  exact .bind (talks_ask _ _ _ _ _) fun _ => .pure _

theorem talks_suggest (a : Assistant) (lines : List (List Char)) (d : Declaration) :
    Talks (a.suggest lines d) :=
  .bind (.ofExcept _) fun _ => .bind (talks_docstring _ _ _) fun _ => .pure _

/-! ## Asking and writing -/

/-- What the assistant would put into a Python text: its suggestions, and the text with them. -/
def docstringsFor [Machine] (a : Assistant) (source : List Char) :
    Action (List Suggestion × List Char) := do
  match ← Action.ofExcept (Syntax.readTree source) with
  | none => pure ([], [])
  | some body => do
    let ds := declarations body
    let found ← (ds.filter Declaration.needsDoc).mapM (a.suggest (linesWithEnds source))
    let ss := found.filterMap id
    pure (ss, insertDocs source ds ss)

theorem talks_docstringsFor [Machine] (a : Assistant) (source : List Char) :
    Talks (a.docstringsFor source) := by
  refine .bind (.ofExcept _) fun body? => ?_
  cases body? with
  | none => exact .pure _
  | some body => exact .bind (.mapM fun d _ => talks_suggest _ _ _) fun found => .pure _

def planDocstrings [Machine] (a : Assistant) (p : Path) :
    Action (List Suggestion × List Char) := do
  let source ← Action.readText p
  a.docstringsFor source

def planComments (a : Assistant) (p : Path) : Action (List Suggestion × List Char) := do
  match docStyles.lookup (String.ofList (foldCase p.suffix.toList)) with
  | none => pure ([], [])
  | some style =>
    let source ← Action.readText p
    if (trim source).isEmpty then pure ([], [])
    else
      let reply ← a.ask (commentSystem style) (commentRequest style source) (.int 4096)
        (.ofDecimal false 2 (-1))
      match reply with
      | none => pure ([], [])
      | some reply =>
        let result ← Action.ofExcept (unfenced (trim reply))
        if trim result = trim source then pure ([], [])
        else pure (newBlocks source result style.language, result ++ source.drop fileLimit)

def plan (a : Assistant) (p : Path) : Action (List Suggestion × List Char) :=
  if p.suffix = ".py" then a.planDocstrings p else a.planComments p

/-- Writes a plan to its file, unless it is empty or on trial. -/
def carryOut (p : Path) (onTrial : Bool) (plan : List Suggestion × List Char) :
    Action (List Suggestion) := do
  if !onTrial && !plan.1.isEmpty then
    Action.writeText p (String.ofList plan.2)
  pure plan.1

theorem carryOut_nil (p : Path) (onTrial : Bool) (text : List Char) :
    carryOut p onTrial ([], text) = pure [] := by
  rw [carryOut, List.isEmpty_nil, Bool.not_true, Bool.and_false, if_neg Bool.false_ne_true]

variable {p : Path}

theorem carryOut_ok {onTrial : Bool} {plan : List Suggestion × List Char} {ss : List Suggestion}
    {w w' : World} (h : (carryOut p onTrial plan).exec w = (.ok ss, w')) : plan.1 = ss := by
  simp only [carryOut] at h
  split at h
  · obtain ⟨-, w₁, -, h⟩ := Action.exec_bind_ok.1 h
    cases h
    rfl
  · cases h
    rfl

theorem fillDocstrings_eq [Machine] (a : Assistant) (p : Path) (onTrial : Bool) :
    a.fillDocstrings p onTrial = a.planDocstrings p >>= carryOut p onTrial := by
  simp only [fillDocstrings, planDocstrings, docstringsFor, bind_assoc]
  refine bind_congr fun source => bind_congr fun body? => ?_
  cases body? with
  | none => rw [pure_bind, carryOut_nil]
  | some body =>
    simp only [bind_assoc, pure_bind]
    rfl

theorem fillComments_eq (a : Assistant) (p : Path) (onTrial : Bool) :
    a.fillComments p onTrial = a.planComments p >>= carryOut p onTrial := by
  delta fillComments planComments
  cases docStyles.lookup (String.ofList (foldCase p.suffix.toList)) with
  | none => rw [pure_bind, carryOut_nil]
  | some style =>
    dsimp only
    rw [bind_assoc]
    refine bind_congr fun source => ?_
    split
    · rw [pure_bind, carryOut_nil]
    · rw [bind_assoc]
      refine bind_congr fun reply => ?_
      cases reply with
      | none => rw [pure_bind, carryOut_nil]
      | some reply =>
        dsimp only
        rw [bind_assoc]
        refine bind_congr fun result => ?_
        split
        · rw [pure_bind, carryOut_nil]
        · rw [pure_bind]
          rfl

/-- **To fill a file** is to ask first, and then to write what came of it. -/
theorem fill_eq (a : Assistant) (p : Path) (onTrial : Bool) :
    a.fill p onTrial = a.plan p >>= carryOut p onTrial := by
  rw [fill, plan]
  split
  · exact fillDocstrings_eq a p onTrial
  · exact fillComments_eq a p onTrial

theorem grows_planDocstrings (a : Assistant) (p : Path) : Grows cwd P Q (a.planDocstrings p) :=
  .bind (.ofFiles _) fun source => (talks_docstringsFor a source).grows

theorem grows_planComments (a : Assistant) (p : Path) : Grows cwd P Q (a.planComments p) := by
  delta planComments
  split
  · exact .pure _
  · refine .bind (.ofFiles _) fun source => ?_
    split
    · exact .pure _
    · refine .bind (talks_ask _ _ _ _ _).grows fun reply => ?_
      split
      · exact .pure _
      · refine .bind (.ofExcept _) fun result => ?_
        split <;> exact .pure _

theorem grows_plan (a : Assistant) (p : Path) : Grows cwd P Q (a.plan p) := by
  rw [plan]
  split
  · exact grows_planDocstrings a p
  · exact grows_planComments a p

/-- The assistant writes nothing but the file that it is to fill. -/
theorem grows_fill (hp : p.Proper) (hP : ∀ t : FileTree, t.cwd = cwd → P (t.place p))
    (a : Assistant) (onTrial : Bool) : Grows cwd P Q (a.fill p onTrial) := by
  rw [fill_eq]
  refine .bind (grows_plan a p) fun plan => ?_
  rw [carryOut]
  split
  · exact .bind (.writeText hp hP _) fun _ => .pure _
  · exact .pure _

theorem grown_of_fill_nil {a : Assistant} {onTrial : Bool} {w w' : World} (hw : w.files.WellFormed)
    (h : (a.fill p onTrial).exec w = (.ok [], w')) :
    w'.files.WellFormed ∧ FileTree.Grown P Q w.files w'.files := by
  rw [fill_eq] at h
  obtain ⟨⟨ss, text⟩, w₁, hplan, hput⟩ := Action.exec_bind_ok.1 h
  have hgrows := grows_plan (P := P) (Q := Q) a p w hw rfl
  rw [hplan] at hgrows
  obtain rfl : ss = [] := carryOut_ok hput
  rw [carryOut_nil] at hput
  obtain ⟨-, rfl⟩ := Prod.mk.inj hput
  exact hgrows

end Assistant

end Docsmith
