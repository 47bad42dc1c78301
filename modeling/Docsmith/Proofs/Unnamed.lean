/-
Parameters without a name. In Java and C# such a parameter is a fault, and the only one: a file is
documented unless a method that is shown has one (`isOk_document`). `unnamed` lists the methods of a
file with such a parameter, each with its type, private ones included.
-/
import Docsmith.Language
import Docsmith.Proofs.Action

namespace Docsmith

theorem keepsName_false (name : List Char) : keepsName false name = true := by
  unfold keepsName
  split <;> rfl

section Except

variable {α β : Type} {xs : List α} {f : α → Except Fault β}

theorem isOk_mapM_iff : (xs.mapM f).isOk = true ↔ ∀ x ∈ xs, (f x).isOk = true := by
  constructor
  · intro h x hx
    cases hall : xs.mapM f with
    | error e => rw [hall] at h; cases h
    | ok ys =>
      obtain ⟨y, -, hy⟩ := Except.exists_of_mapM hall hx
      rw [hy]
      rfl
  · intro h
    have hex : ∀ x ∈ xs, ∃ y, f x = .ok y := by
      intro x hx
      have hx := h x hx
      cases hfx : f x with
      | error e => rw [hfx] at hx; cases hx
      | ok y => exact ⟨y, rfl⟩
    obtain ⟨ys, hys⟩ := Except.mapM_ok hex
    rw [hys]
    rfl

variable {r : Except Fault α}

theorem isOk_bind_pure {g : α → β} :
    (r >>= fun x => pure (g x) : Except Fault β).isOk = r.isOk := by
  cases r <;> rfl

theorem isOk_bind {g : α → Except Fault β} {ok : Bool}
    (h : ∀ a, (g a).isOk = ok) : (r >>= g).isOk = (r.isOk && ok) := by
  cases r with
  | error e => rfl
  | ok a => exact h a

theorem bind_eq_error {g : α → Except Fault β} {e : Fault} (h : r >>= g = .error e) :
    r = .error e ∨ ∃ a, g a = .error e := by
  cases r with
  | error e' => cases h; exact .inl rfl
  | ok a => exact .inr ⟨a, h⟩

theorem eq_error_of_bind_pure {g : α → β} {e : Fault}
    (h : (r >>= fun x => pure (g x) : Except Fault β) = .error e) : r = .error e := by
  cases r with
  | error e' => cases h; rfl
  | ok a => cases h

end Except

/-! ## Methods that are shown -/

/-- Whether a method of a type is shown, given by their names. -/
def shows (ep : Bool) (u : String × String) : Bool :=
  keepsName ep u.1.toList && keepsName ep u.2.toList

theorem eq_nil_of_shown {unnamed : List (String × String)}
    (h : ∀ u ∈ unnamed, shows false u = false) : unnamed = [] := by
  rw [List.eq_nil_iff_forall_not_mem]
  intro u hu
  have hhidden := h u hu
  rw [shows, keepsName_false, keepsName_false] at hhidden
  cases hhidden

/-- No method of some types that is shown is a bad one, and as much of the bad ones by name. -/
theorem forall_unnamed_iff {ep : Bool} {types : List Match} {methods : Match → List Match}
    {bad : Match → Bool} :
    (∀ u ∈ types.flatMap fun c => ((methods c).filter bad).map fun m => (c.name 1, m.name 2),
        shows ep u = false) ↔
      ∀ c ∈ types, keepsName ep (c.group 1) = true →
        ∀ m ∈ methods c, keepsName ep (m.group 2) = true → bad m = false := by
  simp only [List.mem_flatMap, List.mem_map, List.mem_filter]
  constructor
  · intro h c hc hkeepc m hm hkeepm
    rw [Bool.eq_false_iff]
    intro hbad
    have hhidden := h (c.name 1, m.name 2) ⟨c, hc, m, ⟨hm, hbad⟩, rfl⟩
    rw [shows, Match.name, Match.name, String.toList_ofList, String.toList_ofList, hkeepc,
      hkeepm] at hhidden
    cases hhidden
  · rintro h u ⟨c, hc, m, ⟨hm, hbad⟩, rfl⟩
    rw [Bool.eq_false_iff]
    intro hkeep
    rw [shows, Match.name, Match.name, String.toList_ofList, String.toList_ofList,
      Bool.and_eq_true] at hkeep
    rw [h c hc hkeep.1 m hm hkeep.2] at hbad
    cases hbad

/-! ## The two languages -/

namespace Java

def unnamed (source : List Char) : List (String × String) :=
  (classPattern.findAll source).flatMap fun c =>
    ((methodPattern.findAll (Text.braceBody c.stop.rest)).filter fun m =>
      !(params (m.group 3)).isOk).map fun m => (c.name 1, m.name 2)

variable {e : Fault} {ep : Bool}

theorem params_error {raw : List Char} (h : params raw = .error e) : e = .unnamedParam := by
  obtain ⟨part, -, hpart⟩ := Except.exists_of_mapM_error h
  unfold param at hpart
  dsimp only at hpart
  split at hpart <;> cases hpart
  rfl

theorem isOk_methods {body : List Char} : (methods ep body).isOk = true ↔
    ∀ m ∈ methodPattern.findAll body, keepsName ep (m.group 2) = true →
      (params (m.group 3)).isOk = true := by
  simp only [methods, isOk_mapM_iff, List.mem_filter, isOk_bind_pure, and_imp]

theorem methods_error {body : List Char} (h : methods ep body = .error e) : e = .unnamedParam := by
  obtain ⟨m, -, hm⟩ := Except.exists_of_mapM_error h
  exact params_error (eq_error_of_bind_pure hm)

theorem document_error {path : Path} {source : List Char} (h : document ep path source = .error e) :
    e = .unnamedParam := by
  obtain ⟨c, -, hc⟩ := Except.exists_of_mapM_error (eq_error_of_bind_pure h)
  exact methods_error (eq_error_of_bind_pure hc)

theorem isOk_document {path : Path} {source : List Char} : (document ep path source).isOk = true ↔
      ∀ u ∈ unnamed source, shows ep u = false := by
  simp only [document, isOk_bind_pure, isOk_mapM_iff, List.mem_filter, isOk_methods, and_imp,
    unnamed, forall_unnamed_iff, Bool.not_eq_false']

end Java

namespace CSharp

def unnamed (source : List Char) : List (String × String) :=
  (classPattern.findAll source ++ structPattern.findAll source).flatMap fun c =>
    ((methodPattern.findAll (Text.braceBody (source.drop c.stop.pos))).filter fun m =>
      !reserved.contains (m.name 2) && !(params (m.group 3)).isOk).map fun m =>
        (c.name 1, m.name 2)

variable {e : Fault}

theorem params_error {raw : List Char} (h : params raw = .error e) : e = .unnamedParam := by
  obtain ⟨part, -, hpart⟩ := Except.exists_of_mapM_error h
  unfold param at hpart
  dsimp only at hpart
  split at hpart <;> cases hpart
  rfl

variable {ep : Bool} {path : Path} {source : List Char} {start : Nat}

theorem isOk_methods : (methods ep source start).isOk = true ↔
    ∀ m ∈ methodPattern.findAll (Text.braceBody (source.drop start)),
      reserved.contains (m.name 2) = false → keepsName ep (m.group 2) = true →
        (params (m.group 3)).isOk = true := by
  simp only [methods, isOk_mapM_iff, List.mem_filter, isOk_bind_pure, and_imp, Bool.and_eq_true,
    Bool.not_eq_true']

theorem methods_error (h : methods ep source start = .error e) : e = .unnamedParam := by
  obtain ⟨m, -, hm⟩ := Except.exists_of_mapM_error h
  exact params_error (eq_error_of_bind_pure hm)

theorem document_error (h : document ep path source = .error e) : e = .unnamedParam := by
  have hmethods {p : Pattern} {f : Match → List Callable → TypeDecl}
      (h : ((p.findAll source).filter fun m => keepsName ep (m.group 1)).mapM (fun m => do
        pure (f m (← methods ep source m.stop.pos))) = .error e) : e = .unnamedParam := by
    obtain ⟨c, -, hc⟩ := Except.exists_of_mapM_error h
    exact methods_error (eq_error_of_bind_pure hc)
  rcases bind_eq_error h with h | ⟨classes, h⟩
  · exact hmethods h
  · exact hmethods (eq_error_of_bind_pure h)

theorem isOk_document : (document ep path source).isOk = true ↔
    ∀ u ∈ unnamed source, shows ep u = false := by
  have hmethods (c : Match) : (methods ep source c.stop.pos).isOk = true ↔
      ∀ m ∈ methodPattern.findAll (Text.braceBody (source.drop c.stop.pos)),
        keepsName ep (m.group 2) = true →
          (!reserved.contains (m.name 2) && !(params (m.group 3)).isOk) = false := by
    rw [isOk_methods]
    refine forall₂_congr fun m _ => ?_
    cases reserved.contains (m.name 2) <;> simp
  rw [unnamed, forall_unnamed_iff, document, isOk_bind fun _ => isOk_bind_pure]
  simp only [Bool.and_eq_true, isOk_mapM_iff, List.mem_filter, isOk_bind_pure, hmethods,
    and_imp, List.mem_append, or_imp, forall_and]

end CSharp

namespace Language

def unnamed : Language → List Char → List (String × String)
  | java, source => Java.unnamed source
  | csharp, source => CSharp.unnamed source
  | _, _ => []

/-- The methods of a file with a parameter that has no name, with their types. -/
def unnamedIn (lang : Language) (tree : FileTree) (path : Path) : List (String × String) :=
  match tree.readText path with
  | .ok source => lang.unnamed source
  | .error _ => []

theorem isOk_of_map_ok {α β : Type} {r : Except Fault α} {f : α → β} {b : β}
    (h : r.map f = .ok b) : r.isOk = true := by
  cases r with
  | error e => cases h
  | ok a => rfl

theorem unnamed_eq_nil [Machine] {lang : Language} {path : Path} {source : List Char}
    {d : Option ModuleDoc} (h : lang.document false path source = .ok d) :
    lang.unnamed source = [] := by
  cases lang with
  | csharp => exact eq_nil_of_shown (CSharp.isOk_document.1 (isOk_of_map_ok h))
  | java => exact eq_nil_of_shown (Java.isOk_document.1 (isOk_of_map_ok h))
  | _ => rfl

end Language

end Docsmith
