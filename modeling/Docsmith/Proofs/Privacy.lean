/-
What leaving out private names does: a file then documents the same without its private functions,
types and methods (`withoutPrivate`), and a project the same without the modules of which nothing is
left. In Java and C# this holds unless a parameter without a name is hidden with its method, and
with it the fault that it is otherwise.
-/
import Docsmith.Proofs.Project
import Docsmith.Proofs.Unnamed

namespace Docsmith

open ModuleDoc Language.Python

/-- Whether a name is private: it begins with one underscore, and not with two. -/
def isPrivate (name : String) : Bool :=
  ['_'].isPrefixOf name.toList && !(['_', '_'].isPrefixOf name.toList)

theorem keepsName_true (name : List Char) :
    keepsName true name = !isPrivate (String.ofList name) := by
  have hother {c : Char} (hc : c = '_' → False) : ('_' == c) = false :=
    beq_eq_false_iff_ne.2 fun h => hc h.symm
  rw [isPrivate, String.toList_ofList]
  unfold keepsName
  split
  · rfl
  next rest h =>
    cases rest with
    | nil => rfl
    | cons c rest => simp [List.isPrefixOf, hother fun hc => h rest (hc ▸ rfl)]
  next h₁ h₂ =>
    cases name with
    | nil => rfl
    | cons c rest => simp [List.isPrefixOf, hother fun hc => h₂ rest (hc ▸ rfl)]

abbrev publicOf (fs : List Callable) : List Callable := fs.filter fun f => !isPrivate f.name

/-- A type without its private methods. -/
def TypeDecl.withoutPrivate (t : TypeDecl) : TypeDecl := { t with methods := publicOf t.methods }

/-- Types without those that are private, and without private methods. -/
def publicTypes (ts : List TypeDecl) : List TypeDecl :=
  (ts.filter fun t => !isPrivate t.name).map TypeDecl.withoutPrivate

/-- What a module documents without private functions, types and methods. -/
def ModuleDoc.withoutPrivate (m : ModuleDoc) : ModuleDoc :=
  { m with
    functions := publicOf m.functions
    types := publicTypes m.types }

theorem publicTypes_append {ts ts' us us' : List TypeDecl} (h : ts = publicTypes us)
    (h' : ts' = publicTypes us') : ts ++ ts' = publicTypes (us ++ us') := by
  simp only [h, h', publicTypes, List.filter_append, List.map_append]

theorem ModuleDoc.eq_withoutPrivate {d d' : ModuleDoc} (hpath : d.path = d'.path)
    (hname : d.name = d'.name) (hdoc : d.doc = d'.doc) (hfunctions : d.functions = publicOf d'.functions)
    (htypes : d.types = publicTypes d'.types) : d = d'.withoutPrivate := by
  cases d
  cases hpath
  cases hname
  cases hdoc
  cases hfunctions
  cases htypes
  rfl

/-! ## Choosing from what is found -/

section Found

variable {α : Type} {xs : List α} {p p' : α → Bool}

/-- Choosing before is choosing afterwards, if the choice can be seen in what is made. -/
theorem map_filter_eq {β : Type} {f : α → β} {q : β → Bool} (h : ∀ x, p x = (p' x && q (f x))) :
    (xs.filter p).map f = ((xs.filter p').map f).filter q := by
  rw [List.filter_map, List.filter_filter]
  congr 2
  funext x
  rw [h, Bool.and_comm]
  rfl

variable {name : α → List Char}

theorem keeps_eq {other : α → Bool} (hp : ∀ x, p x = (other x && keepsName true (name x)))
    (hp' : ∀ x, p' x = (other x && keepsName false (name x))) (x : α) :
    p x = (p' x && !isPrivate (String.ofList (name x))) := by
  rw [hp, hp', keepsName_true, keepsName_false, Bool.and_true]

theorem keepsName_eq (name : α → List Char) (x : α) :
    keepsName true (name x) =
      (keepsName false (name x) && !isPrivate (String.ofList (name x))) := by
  rw [keepsName_true, keepsName_false, Bool.true_and]

theorem functions_filter (name : α → List Char) (other : α → Bool) {f : α → Callable}
    (hp : ∀ x, p x = (other x && keepsName true (name x)))
    (hp' : ∀ x, p' x = (other x && keepsName false (name x)))
    (hname : ∀ x, (f x).name = String.ofList (name x)) :
    (xs.filter p).map f = publicOf ((xs.filter p').map f) :=
  map_filter_eq fun x => by rw [keeps_eq hp hp', hname]

theorem types_filter (name : α → List Char) (other : α → Bool) {f f' : α → TypeDecl}
    (hp : ∀ x, p x = (other x && keepsName true (name x)))
    (hp' : ∀ x, p' x = (other x && keepsName false (name x)))
    (hname : ∀ x, (f' x).name = String.ofList (name x)) (hf : ∀ x, f x = (f' x).withoutPrivate) :
    (xs.filter p).map f = publicTypes ((xs.filter p').map f') := by
  have hshown : (xs.filter p).map f' =
      ((xs.filter p').map f').filter fun t => !isPrivate t.name :=
    map_filter_eq fun x => by rw [keeps_eq hp hp', hname]
  rw [publicTypes, ← hshown, List.map_map]
  exact List.map_congr_left fun x _ => hf x

theorem named_functions {f : α → Callable}
    (hname : ∀ x, (f x).name = String.ofList (name x)) :
    (xs.filter fun x => keepsName true (name x)).map f =
      publicOf ((xs.filter fun x => keepsName false (name x)).map f) :=
  functions_filter name (fun _ => true) (fun _ => rfl) (fun _ => rfl) hname

theorem named_types {f f' : α → TypeDecl}
    (h : ∀ x, (f' x).name = String.ofList (name x) ∧ f x = (f' x).withoutPrivate) :
    (xs.filter fun x => keepsName true (name x)).map f =
      publicTypes ((xs.filter fun x => keepsName false (name x)).map f') :=
  types_filter name (fun _ => true) (fun _ => rfl) (fun _ => rfl) (fun x => (h x).1) fun x => (h x).2

end Found

/-! ## The languages -/

section Languages

variable (path : Path) (source : List Char)

theorem Kotlin.document_public :
    document true path source = (document false path source).withoutPrivate := by
  have hmethods (body : List Char) :
      methods true body = publicOf (methods false body) :=
    named_functions fun _ => rfl
  refine eq_withoutPrivate rfl rfl rfl (named_functions fun _ => rfl) ?_
  refine publicTypes_append (publicTypes_append ?_ (named_types fun _ => ⟨rfl, rfl⟩))
    (named_types fun _ => ⟨rfl, rfl⟩)
  exact named_types fun _ => ⟨rfl, by rw [hmethods]; rfl⟩

theorem Cpp.document_public :
    document true path source = (document false path source).withoutPrivate := by
  have hmethods (body : List Char) :
      methods true body = publicOf (methods false body) :=
    functions_filter (fun m => m.group 2) (fun m => !reserved.contains (m.name 2)) (fun _ => rfl)
      (fun _ => rfl) fun _ => rfl
  have hcomm (a b c : Bool) : (a && b && c) = (b && c && a) := by
    rw [Bool.and_assoc, Bool.and_comm]
  refine eq_withoutPrivate rfl rfl rfl ?_ (publicTypes_append ?_ (named_types fun _ => ⟨rfl, rfl⟩))
  · exact functions_filter (fun m => m.group 2)
      (fun m =>
        !(reserved ++ ["sizeof", "typedef"]).contains (m.name 2) && !Text.allUpper (m.group 2))
      (fun _ => hcomm _ _ _) (fun _ => hcomm _ _ _) fun _ => rfl
  · exact named_types fun _ => ⟨rfl, by rw [hmethods]; rfl⟩

theorem TypeScript.document_public :
    document true path source = (document false path source).withoutPrivate := by
  have hmethods (body : List Char) :
      methods true body = publicOf (methods false body) :=
    functions_filter (fun m => m.group 1) (fun m => !reserved.contains (m.name 1)) (fun _ => rfl)
      (fun _ => rfl) fun _ => rfl
  refine eq_withoutPrivate rfl rfl rfl ?_ (publicTypes_append ?_ (named_types fun _ => ⟨rfl, rfl⟩))
  · exact (congr (congrArg _ (named_functions fun _ => rfl)) (named_functions fun _ => rfl)).trans
      (List.filter_append ..).symm
  · exact named_types fun _ => ⟨rfl, by rw [hmethods]; rfl⟩

theorem Ruby.document_public :
    document true path source = (document false path source).withoutPrivate := by
  have hmethods (isMethod : Bool) (body : List Char) : methods true isMethod body =
      publicOf (methods false isMethod body) :=
    named_functions fun _ => rfl
  refine eq_withoutPrivate rfl rfl rfl (hmethods false source)
    (publicTypes_append (named_types fun _ => ⟨rfl, rfl⟩) ?_)
  exact named_types fun _ => ⟨rfl, by rw [hmethods]; rfl⟩

theorem Rust.document_public :
    document true path source = (document false path source).withoutPrivate := by
  have hmethods (type : List Char) : methods true source type =
      publicOf (methods false source type) := by
    rw [methods, methods, publicOf, List.filter_flatMap]
    congr 1
    funext m
    exact named_functions fun _ => rfl
  refine eq_withoutPrivate rfl rfl rfl (named_functions fun _ => rfl) ?_
  refine publicTypes_append (publicTypes_append ?_ (named_types fun _ => ⟨rfl, rfl⟩))
    (named_types fun _ => ⟨rfl, rfl⟩)
  exact named_types fun _ => ⟨rfl, by rw [hmethods]; rfl⟩

/-- Go leaves the methods of a type to another test: what is exported is not private. -/
theorem Go.not_private_of_exported {name : List Char} (h : isExported name = true) :
    isPrivate (String.ofList name) = false := by
  rw [← Bool.not_eq_true', ← keepsName_true]
  cases name with
  | nil => rfl
  | cons c rest =>
    have hc : c ≠ '_' := by
      rintro rfl
      have hupper : Text.isUpper '_' = false := by decide
      simp only [isExported, List.head?_cons, Option.any_some, hupper, Bool.false_eq_true] at h
    unfold keepsName
    split
    · rfl
    next heq => exact absurd (List.cons.inj heq).1 hc
    · rfl

theorem Go.document_public :
    document true path source = (document false path source).map withoutPrivate := by
  have hmethods (type : List Char) :
      publicOf (methods source type) = methods source type := by
    rw [List.filter_eq_self]
    intro f hf
    obtain ⟨m, hm, rfl⟩ := List.mem_map.1 hf
    have hexported : isExported (m.group 3) = true := by
      have := (List.mem_filter.1 hm).2
      simp only [Bool.and_eq_true] at this
      exact this.2
    rw [Bool.not_eq_true']
    exact not_private_of_exported hexported
  have hcomm (ep : Bool) (m : Match) : (keepsName ep (m.group 1) && isExported (m.group 1)) =
      (isExported (m.group 1) && keepsName ep (m.group 1)) := Bool.and_comm _ _
  rw [document, document]
  split
  · rfl
  · refine congrArg some (eq_withoutPrivate rfl rfl rfl ?_ (publicTypes_append ?_ ?_))
    · exact functions_filter _ _ (hcomm true) (hcomm false) fun _ => rfl
    · exact types_filter _ _ (hcomm true) (hcomm false) (fun _ => rfl) fun m => by
        simp only [TypeDecl.withoutPrivate, hmethods]
    · exact types_filter _ _ (hcomm true) (hcomm false) (fun _ => rfl) fun _ => rfl

theorem Python.keeps_false {α : Type} (name : α → List Char) (xs : List α) :
    xs.filter (fun x => keepsName false (name x)) = xs :=
  List.filter_eq_self.2 fun x _ => keepsName_false (name x)

theorem Python.typeDecl?_public (s : Syntax.Stmt) :
    typeDecl? true s =
      (typeDecl? false s).map TypeDecl.withoutPrivate := by
  unfold typeDecl?
  split
  · simp only [Option.map_some, TypeDecl.withoutPrivate, keepsName_true, keeps_false,
      String.ofList_toList]
  · rfl

theorem Python.document_public [Machine] :
    document true path source =
      (document false path source).map (Option.map withoutPrivate) := by
  have htypes (body : List Syntax.Stmt) : body.filterMap (typeDecl? true) =
      (body.filterMap (typeDecl? false)).map TypeDecl.withoutPrivate := by
    rw [List.map_filterMap]
    congr 1
    funext s
    exact typeDecl?_public s
  cases h : Syntax.readTree source with
  | error e => simp only [document, h]; rfl
  | ok body? =>
    simp only [document, h, Except.map, bind, Except.bind, pure, Except.pure, Option.map_map,
      Function.comp_def, withoutPrivate, publicTypes, keepsName_true, keeps_false,
      String.ofList_toList, htypes, List.filter_map]
    rfl

end Languages

/-! ## Java and C#

These read the parameters of a method once it is chosen, so that a parameter without a name is no
fault where the method is hidden. -/

section Chosen

variable {α β : Type} {xs : List α} {f f' : α → Except Fault β} {p p' : α → Bool}

/-- Choosing before is choosing afterwards, if nothing fails. -/
theorem mapM_filter_ok {q : β → Bool} {g : β → β} {r : α → Bool} (hp : ∀ x, p x = (p' x && r x))
    (hf : ∀ x y, f' x = .ok y → q y = r x ∧ f x = .ok (g y)) {ys : List β}
    (h : (xs.filter p').mapM f' = .ok ys) : (xs.filter p).mapM f = .ok ((ys.filter q).map g) := by
  induction xs generalizing ys with
  | nil =>
    obtain rfl := Except.pure_ok_iff.1 h
    rfl
  | cons x xs ih =>
    rw [List.filter_cons] at h ⊢
    rw [hp x]
    cases hx : p' x with
    | false =>
      rw [hx, if_neg Bool.false_ne_true] at h
      exact ih h
    | true =>
      rw [hx, if_pos rfl, List.mapM_cons] at h
      simp only [Except.bind_ok_iff, Except.pure_ok_iff] at h
      obtain ⟨y, hy, zs, hzs, rfl⟩ := h
      obtain ⟨hq, hfx⟩ := hf x y hy
      rw [List.filter_cons, hq]
      cases hr : r x with
      | false => exact ih hzs
      | true =>
        rw [Bool.and_self, if_pos rfl, if_pos rfl, List.mapM_cons, hfx, ih hzs]
        rfl

theorem functions_mapM (name : α → List Char) (other : α → Bool) {f : α → Except Fault Callable}
    (hp : ∀ x, p x = (other x && keepsName true (name x)))
    (hp' : ∀ x, p' x = (other x && keepsName false (name x)))
    (hname : ∀ x c, f x = .ok c → c.name = String.ofList (name x)) {cs : List Callable}
    (h : (xs.filter p').mapM f = .ok cs) :
    (xs.filter p).mapM f = .ok (publicOf cs) := by
  have hchoice := mapM_filter_ok (f := f) (q := fun c => !isPrivate c.name) (g := id)
    (keeps_eq hp hp') (fun x c hc => ⟨by rw [hname x c hc], hc⟩) h
  rwa [List.map_id] at hchoice

/-- Types that are chosen by their names, if the methods of none of them fail. -/
theorem types_mapM {name : α → List Char} {g g' : α → Except Fault (List Callable)}
    {decl : α → List Callable → TypeDecl} (hname : ∀ x ms, (decl x ms).name = String.ofList (name x))
    (hdecl : ∀ x ms, decl x (publicOf ms) = (decl x ms).withoutPrivate)
    (hg : ∀ x ms, g' x = .ok ms → g x = .ok (publicOf ms))
    {ts : List TypeDecl} (h : (xs.filter fun x => keepsName false (name x)).mapM
      (fun x => g' x >>= fun ms => pure (decl x ms)) = .ok ts) :
    (xs.filter fun x => keepsName true (name x)).mapM
      (fun x => g x >>= fun ms => pure (decl x ms)) = .ok (publicTypes ts) := by
  refine mapM_filter_ok (keepsName_eq name) (fun x t ht => ?_) h
  obtain ⟨ms, hms, ht⟩ := Except.bind_ok_iff.1 ht
  obtain rfl := Except.pure_ok_iff.1 ht
  rw [hname, ← hdecl]
  exact ⟨rfl, Except.bind_ok_iff.2 ⟨_, hg x ms hms, rfl⟩⟩

end Chosen

theorem shows_true {u : String × String} : shows true u = (!isPrivate u.1 && !isPrivate u.2) := by
  simp only [shows, keepsName_true, String.ofList_toList]

/-- Two runs that are chosen from the same: leaving private names out is a choice afterwards exactly
if nothing is unnamed or something unnamed is shown. -/
theorem public_iff_shown {α : Type} {r : Bool → Except Fault α} {strip : α → α}
    {unnamed : List (String × String)}
    (hok : ∀ a, r false = .ok a → r true = .ok (strip a))
    (hfault : ∀ ep e, r ep = .error e → e = .unnamedParam)
    (hshown : ∀ ep, (r ep).isOk = true ↔
      ∀ u ∈ unnamed, shows ep u = false) :
    r true = (r false).map strip ↔
      unnamed = [] ∨ ∃ u ∈ unnamed, shows true u = true := by
  cases hfalse : r false with
  | ok a =>
    rw [hok a hfalse]
    exact ⟨fun _ => .inl (eq_nil_of_shown ((hshown false).1 (by rw [hfalse]; rfl))), fun _ => rfl⟩
  | error e =>
    obtain rfl := hfault false e hfalse
    constructor
    · intro h
      refine .inr ?_
      have hbad : ¬ ∀ u ∈ unnamed, shows true u = false := by
        intro hall
        have := (hshown true).2 hall
        rw [h] at this
        cases this
      simpa using hbad
    · rintro (hnil | ⟨u, hu, hkeep⟩)
      · have := (hshown false).2 (by simp [hnil])
        rw [hfalse] at this
        cases this
      · cases htrue : r true with
        | error e =>
          rw [hfault true e htrue]
          rfl
        | ok a =>
          have := (hshown true).1 (by rw [htrue]; rfl) u hu
          rw [hkeep] at this
          cases this

namespace Java

theorem methods_public {body : List Char} {ms : List Callable} (h : methods false body = .ok ms) :
    methods true body = .ok (publicOf ms) := by
  refine functions_mapM (fun m : Match => m.group 2) (fun _ => true) (fun _ => rfl)
    (fun _ => rfl) ?_ h
  intro m f hf
  obtain ⟨ps, -, hps⟩ := Except.bind_ok_iff.1 hf
  obtain rfl := Except.pure_ok_iff.1 hps
  rfl

theorem document_public {path : Path} {source : List Char} {d : ModuleDoc}
    (h : document false path source = .ok d) :
    document true path source = .ok d.withoutPrivate := by
  obtain ⟨classes, hclasses, hd⟩ := Except.bind_ok_iff.1 h
  obtain rfl := Except.pure_ok_iff.1 hd
  refine Except.bind_ok_iff.2 ⟨publicTypes classes, types_mapM (fun _ _ => rfl) (fun _ _ => rfl)
    (fun _ _ => methods_public) hclasses, ?_⟩
  refine Except.pure_ok_iff.2 (eq_withoutPrivate rfl rfl rfl rfl ?_)
  exact publicTypes_append (publicTypes_append rfl (named_types fun _ => ⟨rfl, rfl⟩))
    (named_types fun _ => ⟨rfl, rfl⟩)

end Java

namespace CSharp

variable {ep : Bool} {path : Path} {source : List Char} {start : Nat}

theorem methods_public {ms : List Callable} (h : methods false source start = .ok ms) :
    methods true source start = .ok (publicOf ms) := by
  refine functions_mapM (fun m : Match => m.group 2) (fun m => !reserved.contains (m.name 2))
    (fun _ => rfl) (fun _ => rfl) ?_ h
  intro m f hf
  obtain ⟨ps, -, hps⟩ := Except.bind_ok_iff.1 hf
  obtain rfl := Except.pure_ok_iff.1 hps
  rfl

theorem document_public {d : ModuleDoc} (h : document false path source = .ok d) :
    document true path source = .ok d.withoutPrivate := by
  obtain ⟨classes, hclasses, h⟩ := Except.bind_ok_iff.1 h
  obtain ⟨structs, hstructs, hd⟩ := Except.bind_ok_iff.1 h
  obtain rfl := Except.pure_ok_iff.1 hd
  have hmethods {start : Nat} (ms : List Callable) (hms : methods false source start = .ok ms) :=
    methods_public hms
  refine Except.bind_ok_iff.2 ⟨publicTypes classes, types_mapM (fun _ _ => rfl) (fun _ _ => rfl)
    (fun _ => hmethods) hclasses, Except.bind_ok_iff.2 ⟨publicTypes structs,
      types_mapM (fun _ _ => rfl) (fun _ _ => rfl) (fun _ => hmethods) hstructs, ?_⟩⟩
  refine Except.pure_ok_iff.2 (eq_withoutPrivate rfl rfl rfl rfl ?_)
  exact publicTypes_append (publicTypes_append (publicTypes_append rfl
    (named_types fun _ => ⟨rfl, rfl⟩)) rfl) (named_types fun _ => ⟨rfl, rfl⟩)

end CSharp

/-! ## Files and projects -/

namespace Language

/-- Whether a file has methods with a parameter that has no name, and leaving out what is private
leaves out all of them. -/
def HidesUnnamed (lang : Language) (tree : FileTree) (path : Path) : Prop :=
  lang.unnamedIn tree path ≠ [] ∧
    ∀ u ∈ lang.unnamedIn tree path, isPrivate u.1 = true ∨ isPrivate u.2 = true

theorem map_map_some {r : Except Fault ModuleDoc} :
    (r.map some).map (Option.map withoutPrivate) =
      (r.map withoutPrivate).map some := by
  cases r <;> rfl

theorem map_some_inj {α : Type} {r r' : Except Fault α} : r.map some = r'.map some ↔ r = r' := by
  cases r <;> cases r' <;> simp [Except.map]

theorem document_public_iff [Machine] (lang : Language) (path : Path) (source : List Char) :
    lang.document true path source =
        (lang.document false path source).map (Option.map withoutPrivate) ↔
      lang.unnamed source = [] ∨ ∃ u ∈ lang.unnamed source, shows true u = true := by
  cases lang with
  | cpp => simp [document, unnamed, Cpp.document_public, Except.map]
  | csharp =>
    rw [document, document, map_map_some, map_some_inj]
    exact public_iff_shown (fun _ => CSharp.document_public) (fun _ _ => CSharp.document_error)
      fun _ => CSharp.isOk_document
  | go => simp [document, unnamed, Go.document_public, Except.map]
  | java =>
    rw [document, document, map_map_some, map_some_inj]
    exact public_iff_shown (fun _ => Java.document_public) (fun _ _ => Java.document_error)
      fun _ => Java.isOk_document
  | kotlin => simp [document, unnamed, Kotlin.document_public, Except.map]
  | python => simp [document, unnamed, Python.document_public]
  | ruby => simp [document, unnamed, Ruby.document_public, Except.map]
  | rust => simp [document, unnamed, Rust.document_public, Except.map]
  | typescript => simp [document, unnamed, TypeScript.document_public, Except.map]

theorem not_hidesUnnamed [Machine] {lang : Language} {tree : FileTree} {path : Path}
    {d : Option ModuleDoc} (h : lang.documentFile false tree path = .ok d) :
    ¬ lang.HidesUnnamed tree path := by
  rintro ⟨hne, -⟩
  refine hne ?_
  rw [unnamedIn]
  rw [documentFile] at h
  split at h
  next hpython =>
    obtain ⟨rfl, -⟩ := hpython
    split <;> rfl
  next =>
    cases hsource : tree.readText path with
    | error e => rfl
    | ok source =>
      rw [hsource] at h
      exact unnamed_eq_nil h

theorem documentFile_public_iff [Machine] (lang : Language) (tree : FileTree) (path : Path) :
    lang.documentFile true tree path =
        (lang.documentFile false tree path).map (Option.map withoutPrivate) ↔
      ¬ lang.HidesUnnamed tree path := by
  have hshown (u : String × String) :
      shows true u = true ↔ ¬ (isPrivate u.1 = true ∨ isPrivate u.2 = true) := by
    rw [shows_true]
    cases isPrivate u.1 <;> cases isPrivate u.2 <;> decide
  rw [documentFile, documentFile, HidesUnnamed, unnamedIn]
  split
  next h =>
    obtain ⟨rfl, -⟩ := h
    refine ⟨fun _ hunnamed => hunnamed.1 ?_, fun _ => rfl⟩
    split <;> rfl
  next =>
    cases tree.readText path with
    | error e => simp [Except.map]
    | ok source =>
      simp only [document_public_iff, hshown, not_and, Classical.not_forall, ne_eq]
      constructor
      · rintro (h | ⟨u, hu, h⟩)
        · exact fun hne => absurd h hne
        · exact fun _ => ⟨u, hu, h⟩
      · intro h
        by_cases hnil : lang.unnamed source = []
        · exact .inl hnil
        · obtain ⟨u, hu, h⟩ := h hnil
          exact .inr ⟨u, hu, h⟩

end Language

/-- What a project documents without what is private, and without the modules of which nothing is
left to show. -/
def ProjectDoc.withoutPrivate (p : ProjectDoc) : ProjectDoc :=
  { p with modules := (p.modules.map ModuleDoc.withoutPrivate).filter fun m => !m.isEmpty }

namespace Project

/-- A module without what is private, if something of it is left to show. -/
def shown? (m : ModuleDoc) : Option ModuleDoc :=
  if m.withoutPrivate.isEmpty then none else some m.withoutPrivate

theorem filterMap_shown? (ms : List ModuleDoc) :
    ms.filterMap shown? = (ms.map withoutPrivate).filter fun m => !m.isEmpty := by
  rw [List.filter_map, ← List.filterMap_eq_filter, List.map_filterMap]
  congr 1
  funext m
  cases h : m.withoutPrivate.isEmpty <;> simp [shown?, Option.guard, h]

theorem isEmpty_withoutPrivate {m : ModuleDoc} (h : m.isEmpty = true) :
    m.withoutPrivate.isEmpty = true := by
  simp only [isEmpty, Bool.and_eq_true, List.isEmpty_iff] at h
  obtain ⟨⟨hfunctions, htypes⟩, hdoc⟩ := h
  simp [isEmpty, withoutPrivate, publicTypes, hfunctions, htypes, hdoc]

theorem moduleOf_public [Machine] {lang : Language} {tree : FileTree} {dir file : Path}
    (h : lang.documentFile true tree file =
      (lang.documentFile false tree file).map (Option.map withoutPrivate)) :
    moduleOf lang true tree dir file =
      (moduleOf lang false tree dir file).map fun m => m.bind shown? := by
  rw [moduleOf, moduleOf, h]
  rcases lang.documentFile false tree file with e | (_ | m)
  · rfl
  · rfl
  · cases hempty : m.isEmpty with
    | true =>
      simp [Except.map, bind, Except.bind, pure, Except.pure, hempty, isEmpty_withoutPrivate hempty]
    | false =>
      simp only [Except.map, bind, Except.bind, pure, Except.pure, Option.map_some, hempty,
        Bool.false_eq_true, if_false, Option.bind_some, shown?]
      rfl

variable {exts : List (String × Language)} {tree : FileTree} {dir : Path} {out : List String}

theorem read_public [Machine]
    (h : ∀ e ∈ exts, ∀ f ∈ filesWith tree dir out e.1, e.2.documentFile true tree f =
      (e.2.documentFile false tree f).map (Option.map withoutPrivate)) :
    read exts true tree dir out = (read exts false tree dir out).map ProjectDoc.withoutPrivate := by
  have hmodules (f : Path × Language) (hf : f ∈ order exts tree dir out) :
      moduleOf f.2 true tree dir f.1 =
        (moduleOf f.2 false tree dir f.1).map fun m => m.bind shown? := by
    obtain ⟨e, he, hmem⟩ := List.mem_flatMap.1 hf
    obtain ⟨g, hg, rfl⟩ := List.mem_map.1 hmem
    exact moduleOf_public (h e he g hg)
  rw [read_eq, read_eq, collect_map hmodules]
  rcases collect _ _ with e | ms
  · rfl
  · simp only [Except.map, Functor.map, ProjectDoc.withoutPrivate, filterMap_shown?]

theorem documentFile_ok_of_read [Machine] {p : ProjectDoc}
    (h : read exts false tree dir out = .ok p) {e : String × Language} (he : e ∈ exts) {f : Path}
    (hf : f ∈ filesWith tree dir out e.1) :
    ∃ d, e.2.documentFile false tree f = .ok d := by
  obtain ⟨groups, hgroups, -⟩ := Except.bind_ok_iff.1 h
  obtain ⟨ms, -, hms⟩ := Except.exists_of_mapM hgroups he
  obtain ⟨ds, hds, -⟩ := Except.bind_ok_iff.1 hms
  obtain ⟨m, -, hm⟩ := Except.exists_of_mapM hds hf
  obtain ⟨d, hd, -⟩ := Except.bind_ok_iff.1 hm
  exact ⟨d, hd⟩

/-- **Leaving out what is private is a choice from what is documented otherwise**, of the functions,
types and methods of a file exactly if no parameter without a name is hidden with it. It is so for a
project if it is so for its files, and whenever the project is documented without the choice. -/
theorem filters_unless_unnamed_hidden [Machine] (lang : Language)
    (exts : List (String × Language)) (tree : FileTree) (path dir : Path) (out : List String) :
    (lang.documentFile true tree path =
        (lang.documentFile false tree path).map (Option.map withoutPrivate) ↔
      ¬ lang.HidesUnnamed tree path) ∧
    ((∀ e ∈ exts, ∀ f ∈ filesWith tree dir out e.1, ¬ e.2.HidesUnnamed tree f) →
      read exts true tree dir out =
        (read exts false tree dir out).map ProjectDoc.withoutPrivate) ∧
    ∀ p, read exts false tree dir out = .ok p →
      read exts true tree dir out = .ok p.withoutPrivate := by
  refine ⟨lang.documentFile_public_iff tree path, fun h => ?_, fun p hp => ?_⟩
  · exact read_public fun e he f hf => (e.2.documentFile_public_iff tree f).2 (h e he f hf)
  · have hfiles : ∀ e ∈ exts, ∀ f ∈ filesWith tree dir out e.1, ¬ e.2.HidesUnnamed tree f := by
      intro e he f hf
      obtain ⟨d, hd⟩ := documentFile_ok_of_read hp he hf
      exact Language.not_hidesUnnamed hd
    rw [read_public fun e he f hf => (e.2.documentFile_public_iff tree f).2 (hfiles e he f hf), hp]
    rfl

/-- Two projects with a Java file each. A private method of the first has a parameter without a
name. -/
def twoFiles : FileTree :=
  ⟨⟨"/", []⟩,
    [(["src"], .folder),
      (["src", "A.java"], .file
        "class A \x7b\n  int g(int a) \x7b\x7d\n  void _f(@X) \x7b\x7d\n\x7d\n".toUTF8.toList),
      (["ok"], .folder),
      (["ok", "B.java"], .file
        "class B \x7b\n  int g(int a) \x7b\x7d\n  void _f() \x7b\x7d\n\x7d\n".toUTF8.toList)]⟩

theorem unnamed_hidden :
    Language.java.HidesUnnamed twoFiles (.ofString "/src/A.java") ∧
    Language.java.documentFile true twoFiles (.ofString "/src/A.java") ≠
      (Language.java.documentFile false twoFiles (.ofString "/src/A.java")).map
        (Option.map withoutPrivate) ∧
    (∀ e ∈ [(".java", Language.java)], ∀ f ∈ filesWith twoFiles (.ofString "/ok") [] e.1,
      ¬ e.2.HidesUnnamed twoFiles f) ∧
    read [(".java", .java)] true twoFiles (.ofString "/ok") [] =
      (read [(".java", .java)] false twoFiles (.ofString "/ok") []).map ProjectDoc.withoutPrivate ∧
    ∃ p, read [(".java", .java)] false twoFiles (.ofString "/ok") [] = .ok p ∧
      read [(".java", .java)] true twoFiles (.ofString "/ok") [] = .ok p.withoutPrivate := by
  have hunnamed : Language.java.unnamedIn twoFiles (.ofString "/src/A.java") = [("A", "_f")] := by
    decide +kernel
  have hides : Language.java.HidesUnnamed twoFiles (.ofString "/src/A.java") := by
    rw [Language.HidesUnnamed, hunnamed]
    decide
  have hread : ∃ p, read [(".java", .java)] false twoFiles (.ofString "/ok") [] = .ok p := by
    have hok : (read [(".java", .java)] false twoFiles (.ofString "/ok") []).isOk = true := by
      decide +kernel
    generalize read [(".java", .java)] false twoFiles (.ofString "/ok") [] = r at hok
    cases r with
    | error e => cases hok
    | ok p => exact ⟨p, rfl⟩
  obtain ⟨p, hp⟩ := hread
  have hfiles : ∀ e ∈ [(".java", Language.java)], ∀ f ∈ filesWith twoFiles (.ofString "/ok") [] e.1,
      ¬ e.2.HidesUnnamed twoFiles f := by
    intro e he f hf
    obtain ⟨d, hd⟩ := documentFile_ok_of_read hp he hf
    exact Language.not_hidesUnnamed hd
  obtain ⟨hfile, hfiltered, hdocumented⟩ := filters_unless_unnamed_hidden .java [(".java", .java)]
    twoFiles (.ofString "/src/A.java") (.ofString "/ok") []
  exact ⟨hides, fun h => hfile.1 h hides, hfiles, hfiltered hfiles, p, hp, hdocumented p hp⟩

end Project

end Docsmith
