/-
A trial of filling gaps and the real run, side by side. The real run rewrites the files that it goes
through, yet it asks the same, is suggested the same and fails at the same file: what it asks about a
file depends on the text of that file alone, and no file is gone through twice. Only a trial shows
what it is suggested, as markup, and where the console refuses that the trial ends.

`Agree` relates two actions in two worlds; the rules follow the steps of an action. `Checks` is the
same where what the first gives may be refused. `Alongside` is the relation that is kept from file to
file.
-/
import Docsmith.Command.Run
import Docsmith.Proofs.Assistant
import Docsmith.Proofs.Project

namespace Docsmith

namespace Action

variable {α β : Type} {R S T : World → World → Prop}

/-! ## Two actions side by side -/

/-- Two actions give the same in worlds that `R` relates, and leave worlds that `S` relates, whether
they fail or not. -/
def Agree (R S : World → World → Prop) (a a' : Action α) : Prop :=
  ∀ w w', R w w' → (a.exec w).1 = (a'.exec w').1 ∧ S (a.exec w).2 (a'.exec w').2

namespace Agree

theorem ofExcept (r : Except Fault α) : Agree R R (ofExcept r) (ofExcept r) := by
  intro w w' h
  rw [exec_ofExcept, exec_ofExcept]
  exact ⟨rfl, h⟩

theorem pure (x : α) : Agree R R (Pure.pure x : Action α) (Pure.pure x) := ofExcept (.ok x)

theorem throw (e : Fault) : Agree R R (MonadExcept.throw e : Action α) (MonadExcept.throw e) :=
  ofExcept (.error e)

/-- Where the first of two steps fails, its worlds are the last ones: `S` has to be enough then. -/
theorem bind {a a' : Action α} {f f' : α → Action β} (ha : Agree R S a a')
    (hf : ∀ x, Agree S T (f x) (f' x)) (hST : ∀ w w', S w w' → T w w') :
    Agree R T (a >>= f) (a' >>= f') := by
  intro w w' h
  obtain ⟨hresult, hworlds⟩ := ha w w' h
  rw [exec_bind, exec_bind]
  rcases hw : a.exec w with ⟨e | x, w₁⟩
  · rcases hw' : a'.exec w' with ⟨e' | x', w₁'⟩
    · rw [hw, hw'] at hresult hworlds
      obtain rfl := Except.error.inj hresult
      exact ⟨rfl, hST _ _ hworlds⟩
    · rw [hw, hw'] at hresult
      cases hresult
  · rcases hw' : a'.exec w' with ⟨e' | x', w₁'⟩
    · rw [hw, hw'] at hresult
      cases hresult
    · rw [hw, hw'] at hresult hworlds
      obtain rfl := Except.ok.inj hresult
      exact hf x w₁ w₁' hworlds

theorem bind_same {a a' : Action α} {f f' : α → Action β} (ha : Agree R R a a')
    (hf : ∀ x, Agree R R (f x) (f' x)) : Agree R R (a >>= f) (a' >>= f') :=
  ha.bind hf fun _ _ h => h

theorem get_bind {f f' : World → Action β} (hf : ∀ w w', R w w' → Agree R S (f w) (f' w')) :
    Agree R S (get >>= f) (get >>= f') := by
  intro w w' h
  rw [exec_bind, exec_bind, exec_get, exec_get]
  exact hf w w' h w w' h

end Agree

/-! ## Printing -/

/-- An action that does nothing but print, if it is not refused. -/
def Prints (a : Action PUnit) (r : Except Fault PUnit) : Prop :=
  ∀ w, ∃ out, a.exec w = (r, { w with printed := out })

namespace Prints

variable {a a' : Action PUnit} {r r' : Except Fault PUnit}

theorem notify (n : Notice) : Prints (notify n) (.ok ⟨⟩) := fun w => ⟨w.printed ++ [n], rfl⟩

theorem say (markup : String) : Prints (say markup) (.ok ⟨⟩) := notify _

theorem pure : Prints (Pure.pure ⟨⟩) (.ok ⟨⟩) := fun w => ⟨w.printed, rfl⟩

theorem bind {f : PUnit → Action PUnit} (ha : Prints a r) (hf : ∀ x, Prints (f x) r') :
    Prints (a >>= f) (r >>= fun _ => r') := by
  intro w
  obtain ⟨out, hout⟩ := ha w
  rw [exec_bind, hout]
  cases r with
  | error e => exact ⟨out, rfl⟩
  | ok x => exact hf x _

theorem renderAs [Console] (markup : String) (n : Notice) :
    Prints (renderAs markup n) (Console.check markup) := by
  intro w
  rw [Action.renderAs, exec_bind, exec_ofExcept]
  cases Console.check markup with
  | error e => exact ⟨w.printed, rfl⟩
  | ok x => exact ⟨w.printed ++ [n], rfl⟩

theorem forM {f : α → Action PUnit} {g : α → Except Fault PUnit} (hf : ∀ x, Prints (f x) (g x))
    (xs : List α) : Prints (xs.forM f) (xs.forM g) := by
  induction xs with
  | nil => exact pure
  | cons x xs ih => exact bind (hf x) fun _ => ih

theorem forM_ok {f : α → Action PUnit} (hf : ∀ x, Prints (f x) (.ok ⟨⟩)) (xs : List α) :
    Prints (xs.forM f) (.ok ⟨⟩) := by
  induction xs with
  | nil => exact pure
  | cons x xs ih => exact bind (hf x) fun _ => ih

theorem agree (ha : Prints a r) (ha' : Prints a' r)
    (hR : ∀ w w' out out', R w w' → R { w with printed := out } { w' with printed := out' }) :
    Agree R R a a' := by
  intro w w' h
  obtain ⟨out, hout⟩ := ha w
  obtain ⟨out', hout'⟩ := ha' w'
  rw [hout, hout']
  exact ⟨rfl, hR w w' out out' h⟩

/-- What is printed in the end changes neither what was done before nor whether it failed. -/
theorem after {b : Action β} {f : β → Action PUnit} (hf : ∀ x, Prints (f x) (.ok ⟨⟩)) (w : World) :
    ∃ out, (b >>= f).exec w =
      ((b.exec w).1.map fun _ => ⟨⟩, { (b.exec w).2 with printed := out }) := by
  rw [exec_bind]
  rcases b.exec w with ⟨e | x, w₁⟩
  · exact ⟨w₁.printed, rfl⟩
  · exact hf x w₁

end Prints

/-! ## Calls -/

/-- An action that takes back no call. -/
def Calls (a : Action α) : Prop := ∀ w, w.chatCalls <+: (a.exec w).2.chatCalls

namespace Calls

theorem pure (x : α) : Calls (Pure.pure x : Action α) := fun w => w.chatCalls.prefix_rfl

theorem bind {a : Action α} {f : α → Action β} (ha : Calls a) (hf : ∀ x, Calls (f x)) :
    Calls (a >>= f) := by
  intro w
  have hcalls := ha w
  rw [exec_bind]
  rcases hw : a.exec w with ⟨e | x, w₁⟩
  · rwa [hw] at hcalls
  · rw [hw] at hcalls
    exact hcalls.trans (hf x w₁)

theorem mapM {f : α → Action β} (hf : ∀ x, Calls (f x)) (xs : List α) : Calls (xs.mapM f) := by
  induction xs with
  | nil => exact pure _
  | cons x xs ih =>
    rw [List.mapM_cons]
    exact bind (hf x) fun y => bind ih fun ys => pure _

end Calls

theorem Prints.calls {a : Action PUnit} {r : Except Fault PUnit} (h : Prints a r) : Calls a := by
  intro w
  obtain ⟨out, hout⟩ := h w
  rewrite [hout]
  exact List.prefix_rfl

theorem Talks.calls {a : Action α} (h : Talks a) : Calls a := by
  obtain ⟨talk, htalk⟩ := h
  intro w
  rw [htalk]
  exact List.prefix_append _ _

/-! ## Going through a list -/

/-- What comes of each element that a run through a list reaches. Behind one that fails none is
reached. -/
def visits (f : α → Action β) : List α → World → List (α × Except Fault β)
  | [], _ => []
  | x :: xs, w =>
    (x, ((f x).exec w).1) ::
      match ((f x).exec w).1 with
      | .ok _ => visits f xs ((f x).exec w).2
      | .error _ => []

theorem exec_mapM_of_visit {f : α → Action β} {xs : List α} {w : World} {x : α} {e : Fault}
    (h : (x, .error e) ∈ visits f xs w) : ((xs.mapM f).exec w).1 = .error e := by
  induction xs generalizing w with
  | nil => cases h
  | cons y xs ih =>
    rw [visits] at h
    rw [List.mapM_cons, exec_bind]
    rcases hy : (f y).exec w with ⟨e' | z, w₁⟩
    · simp only [hy, List.mem_singleton, Prod.mk.injEq, Except.error.injEq] at h
      rw [h.2]
    · simp only [hy, List.mem_cons, Prod.mk.injEq, reduceCtorEq, and_false, false_or] at h
      dsimp only
      rw [exec_bind]
      rcases hrest : (xs.mapM f).exec w₁ with ⟨r, w₂⟩
      obtain rfl : r = .error e := by simpa [hrest] using ih h
      rfl

/-- What comes of two actions, if what the first gives may be refused. -/
inductive Outcome (S : World → World → Prop) (check : β → Except Fault PUnit) :
    Except Fault β × World → Except Fault β × World → Prop
  | failed {e : Fault} {w w' : World} : S w w' → Outcome S check (.error e, w) (.error e, w')
  | passed {y : β} {w w' : World} : check y = .ok ⟨⟩ → S w w' →
      Outcome S check (.ok y, w) (.ok y, w')
  | refused {y : β} {e : Fault} {w w' : World} : check y = .error e → S w w' →
      Outcome S check (.error e, w) (.ok y, w')

/-- The first action does what the second does, and then what it gives may be refused. -/
def Checks (R S : World → World → Prop) (check : β → Except Fault PUnit) (a a' : Action β) : Prop :=
  ∀ w w', R w w' → Outcome S check (a.exec w) (a'.exec w')

theorem Agree.bind_checks {a a' : Action α} {f f' : α → Action β} {check : β → Except Fault PUnit}
    (ha : Agree R S a a') (hf : ∀ x, Checks S T check (f x) (f' x)) (hST : ∀ w w', S w w' → T w w') :
    Checks R T check (a >>= f) (a' >>= f') := by
  intro w w' h
  have hrun := ha w w' h
  rw [exec_bind, exec_bind]
  generalize a.exec w = run, a'.exec w' = run' at hrun
  obtain ⟨r, w₁⟩ := run
  obtain ⟨r', w₁'⟩ := run'
  obtain ⟨rfl, hworlds⟩ := hrun
  cases r with
  | error e => exact .failed (hST _ _ hworlds)
  | ok x => exact hf x w₁ w₁' hworlds

/-- Where two actions agree and then both print, the one what may be refused. -/
theorem Agree.checks {a a' : Action β} {f f' : β → Action PUnit} {check : β → Except Fault PUnit}
    (ha : Agree R S a a') (hf : ∀ y, Prints (f y) (check y)) (hf' : ∀ y, Prints (f' y) (.ok ⟨⟩))
    (hS : ∀ w w' out out', S w w' → S { w with printed := out } { w' with printed := out' }) :
    Checks R S check (a >>= fun y => f y >>= fun _ => Pure.pure y)
      (a' >>= fun y => f' y >>= fun _ => Pure.pure y) := by
  refine ha.bind_checks (fun y w w' hw => ?_) fun _ _ h => h
  obtain ⟨out, hout⟩ := hf y w
  obtain ⟨out', hout'⟩ := hf' y w'
  rw [exec_bind, exec_bind, hout, hout']
  cases hy : check y with
  | error e => exact .refused hy (hS _ _ _ _ hw)
  | ok u => exact .passed hy (hS _ _ _ _ hw)

/-- What elements come to, up to the first for which what it gives is refused. -/
def upTo (check : β → Except Fault PUnit) : List (α × Except Fault β) → List (α × Except Fault β)
  | [] => []
  | (x, .error e) :: vs => (x, .error e) :: upTo check vs
  | (x, .ok y) :: vs =>
    match check y with
    | .ok _ => (x, .ok y) :: upTo check vs
    | .error e => [(x, .error e)]

def Unrefused (check : β → Except Fault PUnit) (vs : List (α × Except Fault β)) : Prop :=
  ∀ x y, (x, .ok y) ∈ vs → check y = .ok ⟨⟩

theorem upTo_eq_self {check : β → Except Fault PUnit} {vs : List (α × Except Fault β)}
    (h : Unrefused check vs) : upTo check vs = vs := by
  induction vs with
  | nil => rfl
  | cons v vs ih =>
    have hrest := ih fun x y hxy => h x y (List.mem_cons_of_mem _ hxy)
    obtain ⟨x, e | y⟩ := v
    · rw [upTo, hrest]
    · rw [upTo, h x y List.mem_cons_self, hrest]

/-! Two runs through a list, step by step: `I` relates the worlds by the elements that are still to
come. -/

namespace Checks

variable {f f' : α → Action β} {check : β → Except Fault PUnit} {I : List α → World → World → Prop}
  {xs : List α} {w w' : World}
  (hstep : ∀ x xs, Checks (I (x :: xs)) (I xs) check (f x) (f' x))

include hstep

theorem visits_eq (h : I xs w w') : visits f xs w = upTo check (visits f' xs w') := by
  induction xs generalizing w w' with
  | nil => rfl
  | cons x xs ih =>
    have hx := hstep x xs w w' h
    rw [visits, visits]
    generalize (f x).exec w = run, (f' x).exec w' = run' at hx
    cases hx with
    | failed => rfl
    | passed hy hworlds => simp only [upTo, hy, ih hworlds]
    | refused hy => simp only [upTo, hy]

/-- Wherever the first run ends, the second was there, and from then on it only makes more calls. As
long as nothing is refused they end in the same way. -/
theorem mapM (hcalls : ∀ x, Calls (f' x)) (h : I xs w w') :
    ∃ ys w₁, I ys ((xs.mapM f).exec w).2 w₁ ∧
      w₁.chatCalls <+: ((xs.mapM f').exec w').2.chatCalls ∧
      (Unrefused check (visits f' xs w') →
        ((xs.mapM f).exec w).1 = ((xs.mapM f').exec w').1 ∧ w₁ = ((xs.mapM f').exec w').2) := by
  induction xs generalizing w w' with
  | nil => exact ⟨[], w', h, List.prefix_rfl, fun _ => ⟨rfl, rfl⟩⟩
  | cons x xs ih =>
    have hx := hstep x xs w w' h
    rw [visits, List.mapM_cons, List.mapM_cons, exec_bind, exec_bind]
    generalize (f x).exec w = run, (f' x).exec w' = run' at hx
    cases hx with
    | failed hworlds => exact ⟨xs, _, hworlds, List.prefix_rfl, fun _ => ⟨rfl, rfl⟩⟩
    | @refused y e w₁ w₁' hy hworlds =>
      refine ⟨xs, w₁', hworlds, Calls.bind (.mapM hcalls xs) (fun ys => .pure (y :: ys)) w₁',
        fun hcheck => ?_⟩
      cases hy.symm.trans (hcheck x _ List.mem_cons_self)
    | passed hy hworlds =>
      have hrest := ih hworlds
      dsimp only
      rw [exec_bind, exec_bind]
      generalize (xs.mapM f).exec _ = run, (xs.mapM f').exec _ = run' at hrest
      obtain ⟨r, w₁⟩ := run
      obtain ⟨r', w₁'⟩ := run'
      obtain ⟨ys, w₂, hlast, hmore, hsame⟩ := hrest
      refine ⟨ys, w₂, ?_, ?_, fun hcheck => ?_⟩
      · cases r <;> exact hlast
      · cases r' <;> exact hmore
      · obtain ⟨rfl, rfl⟩ := hsame fun x y hxy => hcheck x y (List.mem_cons_of_mem _ hxy)
        cases r <;> exact ⟨rfl, rfl⟩

end Checks

end Action

open Action

theorem Project.pairwise_place_filesWith {t : FileTree} (ht : t.WellFormed) (dir : Path)
    (out : List String) (ext : String) :
    (filesWith t dir out ext).Pairwise fun p q => t.place p ≠ t.place q := by
  have hnodup : (filesWith t dir out ext).Nodup := (FileTree.nodup_search ht dir _).filter _
  refine hnodup.imp_of_mem fun {p q} hp hq hne he => hne ?_
  obtain ⟨-, -, names, e, -, rfl, ha, -⟩ := (mem_filesWith ht).1 hp
  obtain ⟨-, -, names', e', -, rfl, ha', -⟩ := (mem_filesWith ht).1 hq
  rw [place_source ht ha, place_source ht ha'] at he
  rw [List.append_cancel_left he]

/-- A file that is there can be written to. The tree stays well formed, and what stands elsewhere
stays. -/
theorem FileTree.writeText_file {t : FileTree} (ht : t.WellFormed) {p : Path} {old : List UInt8}
    (hp : t.find? p = some (.file old)) (s : String) :
    ∃ t', t.writeText p s = .ok t' ∧ t'.WellFormed ∧ t'.cwd = t.cwd ∧
      ∀ q e, t.place q ≠ t.place p → t.find? q = some e → t'.find? q = some e := by
  obtain ⟨-, ha⟩ := find?_eq_some.1 hp
  have hfolder : t.at? (t.place p) ≠ some .folder := by simp [ha]
  have hne := ne_nil_of_at? hfolder
  have hgrown : Grown (· = t.place p) (fun _ => False) t
      (t.put (t.place p) (.file s.toUTF8.toList)) := .put_file hne rfl hfolder
  refine ⟨_, by rw [writeText, writeBytes, hp], ?_, put_cwd .., fun q e hq => hgrown.find? hq⟩
  exact ht.put hne (fun _ => ht.isName ha) (ht.nested ha) fun hf => absurd hf hfolder

namespace Command

/-! ## A trial and the real run -/

/-- Two worlds of a trial and a real run, with some files still to come. The files of the trial are
those of a tree, and in the other world what is still to come is the same; what can be asked and what
was asked is the same in both. -/
structure Alongside (t : FileTree) (ps : List Path) (w w' : World) : Prop where
  files : w.files = t
  env : w'.env = w.env
  missing : w'.missing = w.missing
  replies : w'.replies = w.replies
  chatCalls : w'.chatCalls = w.chatCalls
  wellFormed : w'.files.WellFormed
  cwd : w'.files.cwd = t.cwd
  there : ∀ p ∈ ps, ∃ e, t.find? p = some e ∧ w'.files.find? p = some e
  apart : ps.Pairwise fun p q => t.place p ≠ t.place q

namespace Alongside

variable {t : FileTree} {p : Path} {ps qs : List Path} {w w' : World}

theorem printed (h : Alongside t ps w w') (out out' : List Notice) :
    Alongside t ps { w with printed := out } { w' with printed := out' } :=
  ⟨h.files, h.env, h.missing, h.replies, h.chatCalls, h.wellFormed, h.cwd, h.there, h.apart⟩

theorem sublist (h : Alongside t ps w w') (hqs : qs.Sublist ps) : Alongside t qs w w' :=
  { h with
    there := fun p hp => h.there p (hqs.subset hp)
    apart := h.apart.sublist hqs }

theorem after {α : Type} (h : Alongside t ps w w') (talk : Talk α) :
    Alongside t ps (w.after talk) (w'.after talk) :=
  { h with
    replies := rfl
    chatCalls := by simp only [World.after, h.chatCalls] }

/-- The same is read from a file that is still to come. -/
theorem readText_eq (h : Alongside t (p :: ps) w w') :
    w'.files.readText p = w.files.readText p := by
  obtain ⟨e, he, he'⟩ := h.there p List.mem_cons_self
  rw [h.files, FileTree.readText, FileTree.readText, FileTree.readBytes, FileTree.readBytes, he, he']
  cases e <;> rfl

end Alongside

section Files

variable {t : FileTree} {p : Path} {ps : List Path}

theorem agree_print {a a' : Action PUnit} {r : Except Fault PUnit} (ha : Prints a r)
    (ha' : Prints a' r) : Agree (Alongside t ps) (Alongside t ps) a a' :=
  ha.agree ha' fun _ _ out out' h => h.printed out out'

theorem agree_talk {α : Type} {a : Action α} (h : Talks a) :
    Agree (Alongside t ps) (Alongside t ps) a a := by
  obtain ⟨talk, htalk⟩ := h
  intro w w' hw
  rw [htalk w, htalk w', hw.missing, hw.replies]
  exact ⟨rfl, hw.after _⟩

theorem agree_readText : Agree (Alongside t (p :: ps)) (Alongside t (p :: ps)) (readText p)
    (readText p) := by
  intro w w' hw
  rw [readText, exec_ofFiles, exec_ofFiles, hw.readText_eq]
  exact ⟨rfl, hw⟩

theorem agree_carryOut {old : List UInt8} (hp : t.find? p = some (.file old))
    (plan : List Assistant.Suggestion × List Char) :
    Agree (Alongside t (p :: ps)) (Alongside t ps) (Assistant.carryOut p true plan)
      (Assistant.carryOut p false plan) := by
  intro w w' hw
  have hrest := hw.sublist (List.sublist_cons_self p ps)
  simp only [Assistant.carryOut, Bool.not_true, Bool.false_and, Bool.false_eq_true, if_false,
    Bool.not_false, Bool.true_and, exec_pure]
  split
  · obtain ⟨e, he, he'⟩ := hw.there p List.mem_cons_self
    obtain rfl : e = .file old := Option.some.inj (he.symm.trans hp)
    obtain ⟨t', hwrite, hwf, hcwd, hkept⟩ :=
      FileTree.writeText_file hw.wellFormed he' (String.ofList plan.2)
    rw [exec_bind, writeText, exec_changeFiles, hwrite]
    refine ⟨rfl, { hrest with wellFormed := hwf, cwd := hcwd.trans hw.cwd, there := ?_ }⟩
    intro q hq
    obtain ⟨e, he, he'⟩ := hrest.there q hq
    have hplace : w'.files.place q ≠ w'.files.place p := by
      simp only [FileTree.place, hw.cwd]
      exact ((List.pairwise_cons.1 hw.apart).1 q hq).symm
    exact ⟨e, he, hkept q e hplace he'⟩
  · exact ⟨rfl, hrest⟩

theorem agree_fillDocstrings [Machine] (a : Assistant) :
    Agree (Alongside t (p :: ps)) (Alongside t ps) (a.fillDocstrings p true)
      (a.fillDocstrings p false) := by
  rw [Assistant.fillDocstrings_eq, Assistant.fillDocstrings_eq, Assistant.planDocstrings, bind_assoc,
    bind_assoc]
  have hdrop : ∀ w w', Alongside t (p :: ps) w w' → Alongside t ps w w' :=
    fun w w' h => h.sublist (List.sublist_cons_self p ps)
  -- A folder is not read in either run, so there is a text only where there is a file to write to.
  by_cases hp : ∃ old, t.find? p = some (.file old)
  · obtain ⟨old, hp⟩ := hp
    refine agree_readText.bind (fun source => ?_) hdrop
    exact (agree_talk (a.talks_docstringsFor source)).bind (fun plan => agree_carryOut hp plan) hdrop
  · intro w w' hw
    have hread : ∃ e, w.files.readText p = .error e := by
      rw [hw.files, FileTree.readText, FileTree.readBytes]
      rcases hfind : t.find? p with _ | _ | old
      · exact ⟨_, rfl⟩
      · exact ⟨_, rfl⟩
      · exact absurd ⟨old, hfind⟩ hp
    obtain ⟨e, he⟩ := hread
    rw [exec_bind, exec_bind, readText, exec_ofFiles,
      exec_ofFiles, hw.readText_eq, he]
    exact ⟨rfl, hdrop w w' hw⟩

theorem calls_fillDocstrings [Machine] (a : Assistant) (onTrial : Bool) :
    Calls (a.fillDocstrings p onTrial) := by
  have hcarry (plan : List Assistant.Suggestion × List Char) :
      Calls (Assistant.carryOut p onTrial plan) := by
    intro w
    rw [Assistant.carryOut]
    split
    · rw [exec_bind, writeText, exec_changeFiles]
      cases w.files.writeText p (String.ofList plan.2) <;> exact List.prefix_rfl
    · exact List.prefix_rfl
  have hread : Calls (readText p) := fun w => by
    rewrite [readText, exec_ofFiles]
    exact List.prefix_rfl
  rw [Assistant.fillDocstrings_eq, Assistant.planDocstrings]
  exact .bind (.bind hread fun source => (a.talks_docstringsFor source).calls) hcarry

/-- Whether all of some suggestions can be shown. -/
def checkPreviews [Console] (ss : List Assistant.Suggestion) : Except Fault PUnit :=
  ss.forM fun s => Console.check (previewLine s)

theorem prints_previews [Console] (ss : List Assistant.Suggestion) :
    Prints (ss.forM (showSuggestion true)) (checkPreviews ss) := by
  refine .forM (fun s => ?_) ss
  exact .bind (r := .ok ⟨⟩) (.say _) fun _ => .renderAs (previewLine s) _

theorem prints_filled [Console] (ss : List Assistant.Suggestion) :
    Prints (ss.forM (showSuggestion false)) (.ok ⟨⟩) :=
  .forM_ok (fun _ => .bind (.say _) fun _ => .pure) ss

/-- **One file**: the same is suggested, or it fails the same, and the files behind it are as before.
Then a trial shows what is suggested, if the console lets it. -/
theorem checks_fillFile [Machine] [Console] (job : FillJob) :
    Checks (Alongside t (p :: ps)) (Alongside t ps) checkPreviews (job.fillFile true p)
      (job.fillFile false p) := by
  refine (agree_print (.renderAs _ _) (.renderAs _ _)).bind_checks (fun _ => ?_) fun w w' h =>
    h.sublist (List.sublist_cons_self p ps)
  exact (agree_fillDocstrings job.assistant).checks prints_previews prints_filled
    fun _ _ out out' h => h.printed out out'

theorem calls_fillFile [Machine] [Console] (job : FillJob) (p : Path) :
    Calls (job.fillFile false p) :=
  .bind (Prints.renderAs _ _).calls fun _ => .bind (calls_fillDocstrings _ _) fun ss =>
    .bind (prints_filled ss).calls fun _ => .pure ss

end Files

/-! ## The whole run -/

/-- Two worlds that differ in what is printed at most, with the files of a tree. -/
structure Twins (t : FileTree) (w w' : World) : Prop extends Alongside t [] w w' where
  files' : w'.files = t

section Job

variable {t : FileTree}

theorem agree_print_twins {a a' : Action PUnit} {r : Except Fault PUnit} (ha : Prints a r)
    (ha' : Prints a' r) : Agree (Twins t) (Twins t) a a' :=
  ha.agree ha' fun _ _ out out' h => ⟨h.toAlongside.printed out out', h.files'⟩

theorem agree_ofFiles {α : Type} (f : FileTree → Except Fault α) :
    Agree (Twins t) (Twins t) (ofFiles f) (ofFiles f) := by
  intro w w' h
  rw [exec_ofFiles, exec_ofFiles, h.files, h.files']
  exact ⟨rfl, h⟩

theorem agree_onFiles {α : Type} (f : FileTree → α) :
    Agree (Twins t) (Twins t) (onFiles f) (onFiles f) :=
  .get_bind fun w w' h => by
    rw [h.files, h.files']
    exact .pure _

theorem agree_absolute (v : Value) : Agree (Twins t) (Twins t) (absolute v) (absolute v) :=
  .bind_same (.ofExcept _) fun _ => agree_onFiles _

theorem agree_needSource [Console] (p : Path) :
    Agree (Twins t) (Twins t) (needSource p) (needSource p) := by
  refine .bind_same (agree_onFiles _) fun isThere => ?_
  cases isThere with
  | true => exact .pure _
  | false =>
    exact .bind_same (agree_print_twins (.renderAs _ _) (.renderAs _ _)) fun _ => .throw _

/-- The banners of the two runs differ in a word that is no markup. -/
theorem agree_banner [Console] (source style : String) : Agree (Twins t) (Twins t)
    (banner "ai-fill" [source, style, labelled "Mode" "dry-run (preview)"])
    (banner "ai-fill" [source, style, labelled "Mode" "write"]) := by
  have hcheck (mode : String) (hmode : mode.toList.all (fun c => c != '[' && c != ']')) :
      Console.check ("\n".intercalate [source, style, labelled "Mode" mode]) =
        Console.check (source ++ "\n" ++ style ++ "\n" ++ "[bold]Mode:[/bold] ") := by
    have htext : "\n".intercalate [source, style, labelled "Mode" mode] =
        source ++ "\n" ++ style ++ "\n" ++ "[bold]Mode:[/bold] " ++ mode := by
      rw [String.append_assoc]
      rfl
    rw [htext, Console.check, Console.plain, Console.check]
    intro c hc
    simpa using List.all_eq_true.1 hmode c hc
  refine agree_print_twins (.renderAs _ _) ?_
  rw [hcheck "dry-run (preview)" (by decide), ← hcheck "write" (by decide)]
  exact .renderAs _ _

theorem agree_job [Console] (o : FillOptions) :
    Agree (Twins t) (Twins t) { o with isTrial := true }.job { o with isTrial := false }.job := by
  refine .bind_same (agree_ofFiles _) fun settings => ?_
  refine .bind_same (agree_absolute _) fun source => ?_
  refine .bind_same (agree_needSource source) fun _ => ?_
  refine .get_bind fun w w' h => ?_
  rw [h.env]
  dsimp only
  split
  · exact .bind_same (agree_print_twins (.say _) (.say _)) fun _ => .throw _
  · refine .bind_same (agree_banner _ _) fun _ => ?_
    split
    · exact .bind_same (.ofExcept _) fun excluded => .pure _
    · exact .pure _

end Job

/-- What comes of the files that a run goes through: what is suggested for each, up to the first
that fails. -/
def FillOptions.visits [Machine] [Console] (o : FillOptions) (w : World) :
    List (Path × Except Fault (List Assistant.Suggestion)) :=
  match o.job.exec w with
  | (.ok job, w₁) => Action.visits (job.fillFile o.isTrial) (job.files w₁.files) w₁
  | (.error _, _) => []

theorem Twins.alongside {t : FileTree} {w w' : World} (h : Twins t w w') (job : FillJob) :
    Alongside t (job.files t) w w' := by
  have ht : t.WellFormed := h.files' ▸ h.wellFormed
  refine { h.toAlongside with there := fun p hp => ?_, apart := ?_ }
  · obtain ⟨hdir, -, names, e, -, rfl, ha, -⟩ := (Project.mem_filesWith ht).1 hp
    have hfind := FileTree.find?_below ht hdir ha
    exact ⟨e, hfind, by rw [h.files', hfind]⟩
  · exact Project.pairwise_place_filesWith ht _ _ _

theorem prints_sayFilled (isTrial : Bool) (total : Nat) :
    Prints (sayFilled isTrial total) (.ok ⟨⟩) := by
  rw [sayFilled]
  split <;> exact .say _

/-- A run goes through its files, if it comes to that, and then only prints. -/
theorem exec_fill [Machine] [Console] (o : FillOptions) (w : World) :
    (∃ e w₁, o.job.exec w = (.error e, w₁) ∧ o.visits w = [] ∧ (fill o).exec w = (.error e, w₁)) ∨
    ∃ job w₁ out, o.job.exec w = (.ok job, w₁) ∧
      o.visits w = visits (job.fillFile o.isTrial) (job.files w₁.files) w₁ ∧
      (fill o).exec w =
        ((((job.files w₁.files).mapM (job.fillFile o.isTrial)).exec w₁).1.map fun _ => ⟨⟩,
          { (((job.files w₁.files).mapM (job.fillFile o.isTrial)).exec w₁).2 with
            printed := out }) := by
  rw [fill, exec_bind, FillOptions.visits]
  rcases hjob : o.job.exec w with ⟨e | job, w₁⟩
  · exact .inl ⟨e, w₁, rfl, rfl, rfl⟩
  · obtain ⟨out, hout⟩ := Prints.after (b := (job.files w₁.files).mapM (job.fillFile o.isTrial))
      (fun found => prints_sayFilled o.isTrial found.flatten.length) w₁
    refine .inr ⟨job, w₁, out, rfl, rfl, ?_⟩
    rw [← hout]
    rfl

theorem fill_of_visit [Machine] [Console] {o : FillOptions} {w : World} {p : Path} {e : Fault}
    (h : (p, .error e) ∈ o.visits w) : ((fill o).exec w).1 = .error e := by
  obtain ⟨e', w₁, -, hvisits, -⟩ | ⟨job, w₁, out, -, hvisits, hfill⟩ := exec_fill o w
  · rw [hvisits] at h
    cases h
  · rw [hvisits] at h
    rw [hfill, exec_mapM_of_visit h]
    rfl

section Shown

/-- A text up to its last bracket. -/
def bracketed (s : String) : List Char :=
  (s.toList.reverse.dropWhile fun c => c != '[' && c != ']').reverse

/-- A console that takes `[/tmp]` for the end of something, and has nothing to end. -/
local instance rendering : Console where
  refusal? markup :=
    if Text.occurs "[/tmp]".toList (bracketed markup) then
      some "closing tag '[/tmp]' at position 15 doesn't match any open tag"
    else none
  plain a b h := by
    have hb : bracketed (a ++ b) = bracketed a := by
      rw [bracketed, String.toList_append, List.reverse_append, List.dropWhile_append_of_pos]
      · rfl
      · intro c hc
        simpa using h c (List.mem_reverse.1 hc)
    rw [hb]

def gapped : World where
  files := ⟨.ofString "/w", [(["w"], .folder), (["w", "src"], .folder),
    (["w", "src", "a.py"], .file "def f():\n    pass\n".toUTF8.toList)]⟩
  env := [("GROQ_API_KEY", "k")]
  replies := [.text "Doc."]

def marked : World := { gapped with replies := [.text "Reads [/tmp] and returns it."] }

theorem unrefused_of_all {vs : List (Path × Except Fault (List Assistant.Suggestion))}
    (h : vs.all (fun v => v.2.toOption.all fun ss => (checkPreviews ss).isOk) = true) :
    Unrefused checkPreviews vs := by
  intro p ss hmem
  have hok : (checkPreviews ss).isOk = true := List.all_eq_true.1 h (p, .ok ss) hmem
  cases hss : checkPreviews ss with
  | error e => rw [hss] at hok; cases hok
  | ok u => rfl

end Shown

end Command

end Docsmith
