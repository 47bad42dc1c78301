/-
Starting a project: nothing that is there is lost, and a second start changes no file.

Each step makes a file unless it is there (`Adds`), and the last adds lines to the file for version
control unless its text has their mark (`Started`). A step `Settles`: it leaves the files such that
it only prints when it is done again, and this goes on from step to step (`Settles.bind`), since no
later step takes away what an earlier one looks for.
-/
import Docsmith.Proofs.Preview
import Docsmith.Proofs.Settings

namespace Docsmith

open Path FileTree

/-! ## Trees that are added to -/

namespace FileTree

variable {New : List String → Prop} {t t' u v : FileTree} {p : Path} {loc : List String}

/-- A tree with new entries at places in `New`, where nothing was. -/
def Adds (New : List String → Prop) (t t' : FileTree) : Prop :=
  Grown (fun loc => New loc ∧ t.at? loc = none) New t t'

namespace Adds

theorem refl (New : List String → Prop) (t : FileTree) : Adds New t t := Grown.refl _ _ t

theorem kept (h : Adds New t u) {e : Entry} (he : t.at? loc = some e) : u.at? loc = some e :=
  Grown.kept h (fun hnew => by rw [he] at hnew; cases hnew.2) he

theorem trans (h : Adds New t u) (h' : Adds New u v) : Adds New t v := by
  refine Grown.trans h (h'.mono (fun loc hnew => ⟨hnew.1, ?_⟩) fun _ => id)
  cases ht : t.at? loc with
  | none => rfl
  | some e => cases hnew.2.symm.trans (h.kept ht)

theorem mono {New' : List String → Prop} (h : Adds New t u) (hnew : ∀ loc, New loc → New' loc) :
    Adds New' t u :=
  Grown.mono h (fun _ hloc => ⟨hnew _ hloc.1, hloc.2⟩) hnew

theorem elsewhere (h : Adds New t u) (hloc : ¬ New loc) : u.at? loc = t.at? loc := by
  rcases h.entry loc with he | ⟨hnew, -⟩ | ⟨⟨hnew, -⟩, -⟩
  · exact he
  · exact absurd hnew hloc
  · exact absurd hnew hloc

end Adds

theorem has_of_kept (h : ∀ e, t.at? p.parts = some e → u.at? p.parts = some e) (hp : p.Normal)
    (hhas : t.has p = true) : u.has p = true := by
  rw [has, hp.find?_eq] at hhas ⊢
  obtain ⟨e, he⟩ := Option.isSome_iff_exists.1 hhas
  rw [h e he]
  rfl

theorem adds_of_makeFolders (ht : t.WellFormed) (hp : p.Normal)
    (h : t.makeFolders p = .ok t') : t'.WellFormed ∧ Adds (· <+: p.parts) t t' := by
  obtain ⟨hgrown, -, ht'⟩ := makeFolders_spec ht hp.proper h
  refine ⟨ht', hgrown.mono (fun _ => False.elim) ?_⟩
  rintro _ ⟨-, parts, hparts, rfl⟩
  have hnormal : Normal ⟨p.root, parts⟩ := ⟨hp.1, fun x hx => hp.2 x (hparts.subset hx)⟩
  rw [hnormal.place]
  exact hparts

theorem adds_of_writeBytes {bytes : List UInt8} (ht : t.WellFormed) (hp : p.Normal)
    (hnew : New p.parts) (hfree : t.has p = false) (h : t.writeBytes p bytes = .ok t') :
    t'.WellFormed ∧ Adds New t t' ∧ t'.has p = true := by
  rw [has, hp.find?_eq, Option.isSome_eq_false_iff, Option.isNone_iff_eq_none] at hfree
  refine ⟨ht.writeBytes hp.proper h, grown_of_writeBytes ht ?_ h, ?_⟩
  · rw [hp.place]
    exact ⟨hnew, hfree⟩
  · rw [has, find?_of_writeBytes h]
    rfl

end FileTree

/-! ## Actions that settle -/

namespace Action

variable {α β : Type} {a : Action α} {f : α → Action β} {R R' S : FileTree → FileTree → Prop}
  {Done Done' : FileTree → Prop}

/-- An action that leaves the files done, and only prints if they are. -/
structure Settles (R : FileTree → FileTree → Prop) (Done : FileTree → Prop) (a : Action α) :
    Prop where
  once : ∀ {w w' : World} {x : α}, w.files.WellFormed → a.exec w = (.ok x, w') →
    w'.files.WellFormed ∧ R w.files w'.files ∧ Done w'.files
  again : ∀ w, Done w.files → ∃ x out, a.exec w = (.ok x, { w with printed := out })

namespace Settles

theorem bind (ha : Settles R Done a) (hf : ∀ x, Settles R' Done' (f x))
    (hR : ∀ {t u v}, R t u → R' u v → S t v) (hDone : ∀ {t u}, R' t u → Done t → Done u) :
    Settles S (fun t => Done t ∧ Done' t) (a >>= f) := by
  refine ⟨fun {w w' y} hw h => ?_, fun w hdone => ?_⟩
  · obtain ⟨x, w₁, hfirst, hsecond⟩ := exec_bind_ok.1 h
    obtain ⟨hw₁, hR₁, hdone₁⟩ := ha.once hw hfirst
    obtain ⟨hw', hR', hdone'⟩ := (hf x).once hw₁ hsecond
    exact ⟨hw', hR hR₁ hR', hDone hR' hdone₁, hdone'⟩
  · obtain ⟨x, out, hfirst⟩ := ha.again w hdone.1
    obtain ⟨y, out', hsecond⟩ := (hf x).again { w with printed := out } hdone.2
    exact ⟨y, out', exec_bind_ok.2 ⟨x, _, hfirst, hsecond⟩⟩

theorem of_prints {a : Action PUnit} (h : Prints a (.ok ⟨⟩)) : Settles Eq (fun _ => True) a := by
  refine ⟨fun {w w' x} hw hexec => ?_, fun w _ => ?_⟩
  · obtain ⟨out, hout⟩ := h w
    cases hout.symm.trans hexec
    exact ⟨hw, rfl, trivial⟩
  · obtain ⟨out, hout⟩ := h w
    exact ⟨_, out, hout⟩

theorem map (g : α → β) (ha : Settles R Done a) :
    Settles R Done (a >>= fun x => pure (g x)) := by
  refine ⟨fun hw h => ?_, fun w hdone => ?_⟩
  · obtain ⟨x, w₁, hfirst, ⟨⟩⟩ := exec_bind_ok.1 h
    exact ha.once hw hfirst
  · obtain ⟨x, out, hfirst⟩ := ha.again w hdone
    exact ⟨g x, out, exec_bind_ok.2 ⟨x, _, hfirst, rfl⟩⟩

theorem onDemand (b : Bool) (y : α) (hrefl : ∀ t, R t t) (ha : Settles R Done a) :
    Settles R (fun t => b = true → Done t) (if b then a else pure y) := by
  cases b with
  | true => exact ⟨fun hw h => (ha.once hw h).imp_right fun hr => ⟨hr.1, fun _ => hr.2⟩,
      fun w hdone => ha.again w (hdone rfl)⟩
  | false => exact ⟨fun hw h => by cases h; exact ⟨hw, hrefl _, nofun⟩,
      fun w _ => ⟨y, w.printed, rfl⟩⟩

theorem unlessThere {New : List String → Prop} {file : Path} (y : α)
    (hmake : ∀ {w w' x}, w.files.WellFormed → w.files.has file = false → a.exec w = (.ok x, w') →
      w'.files.WellFormed ∧ Adds New w.files w'.files ∧ w'.files.has file = true) :
    Settles (Adds New) (fun t => t.has file = true)
      (onFiles (fun t => t.has file) >>= fun isThere => if isThere then pure y else a) := by
  have hexec (w : World) : (onFiles (fun t => t.has file) >>= fun isThere =>
      if isThere then pure y else a).exec w =
        (if w.files.has file then pure y else a).exec w := rfl
  refine ⟨fun {w w' x} hw h => ?_, fun w hthere => ⟨y, w.printed, ?_⟩⟩
  · rw [hexec] at h
    cases hthere : w.files.has file with
    | true =>
      rw [hthere] at h
      cases h
      exact ⟨hw, .refl _ _, hthere⟩
    | false =>
      rw [hthere] at h
      exact hmake hw hthere h
  · rw [hexec, hthere]
    rfl

end Settles

end Action

/-! ## What version control leaves alone -/

namespace Starter

open Action (Settles exec_bind_ok)

variable {project : Path} {t t' u : FileTree}

/-- What is in a project, by the names on the way to it. -/
def fileAt (project : Path) (names : List String) : Path := ⟨project.root, project.parts ++ names⟩

def ignoreFile (project : Path) : Path := fileAt project [".gitignore"]

/-- Whether that file names the output already. -/
def IsMarked (project : Path) (t : FileTree) : Prop :=
  ∃ text, t.readText (ignoreFile project) = .ok text ∧ ignoreMark.toList <:+: text

/-- What a start does to the files of a project: those that were there stay, except that lines are
added for version control, unless they are there, and each of them stands on a line of its own. -/
structure Started (project : Path) (t t' : FileTree) : Prop where
  cwd : t'.cwd = t.cwd
  kept : ∀ {loc e}, loc ≠ (ignoreFile project).parts → t.at? loc = some e → t'.at? loc = some e
  ignore : IsMarked project t ∧
      t'.at? (ignoreFile project).parts = t.at? (ignoreFile project).parts ∨
    ∃ old text, (t.at? (ignoreFile project).parts = some (.file old) ∨
        t.at? (ignoreFile project).parts = none ∧ old = []) ∧
      t'.at? (ignoreFile project).parts = some (.file (old ++ addedLines.toUTF8.toList)) ∧
      t'.readText (ignoreFile project) = .ok text ∧
      ∀ line ∈ ignored, line.toList ∈ Text.cut '\n' text

theorem normal_fileAt (h : project.Normal) {names : List String}
    (hnames : ∀ x ∈ names, IsName x) : (fileAt project names).Normal :=
  ⟨h.1, fun x hx => (List.mem_append.1 hx).elim (h.2 x) (hnames x)⟩

theorem normal_ignoreFile (h : project.Normal) : (ignoreFile project).Normal :=
  normal_fileAt h (by decide)

/-- What is added ends up behind a line end, whatever was there. -/
theorem readText_added {file : Path} {old : List UInt8} {cs : List Char}
    (hold : Text.Utf8.decode old = .ok cs)
    (hfile : t.find? file = some (.file (old ++ addedLines.toUTF8.toList))) :
    ∃ front, t.readText file = .ok (front ++ addedLines.toList) := by
  obtain ⟨ds, hds, hr⟩ : ∃ ds, addedLines.toList = '\n' :: ds ∧ '\r' ∉ ds :=
    ⟨_, rfl, by decide⟩
  obtain ⟨front, hfront⟩ := Text.unifyLineEnds_append cs ds
  refine ⟨front, readText_ok.2 ⟨_, _, hfile, Text.Utf8.decode_append hold _, ?_⟩⟩
  rw [hds, hfront, Text.unifyLineEnds_eq hr]

theorem mem_cut_added (front : List Char) {line : String} (h : line ∈ ignored) :
    line.toList ∈ Text.cut '\n' (front ++ addedLines.toList) := by
  obtain ⟨lead, a, b, lines, -, hadded, happ⟩ := Text.cut_append '\n' front addedLines.toList
  have hcut : Text.cut '\n' addedLines.toList = [] :: (ignored ++ [""]).map String.toList := by
    decide
  obtain ⟨-, rfl⟩ := List.cons.inj (hadded.symm.trans hcut)
  rw [happ]
  refine List.mem_append_right _ (List.mem_cons_of_mem _ (List.mem_map_of_mem ?_))
  exact List.mem_append_left _ h

theorem mark_infix (front : List Char) : ignoreMark.toList <:+: front ++ addedLines.toList :=
  (Text.occurs_iff.1 (by decide)).trans (List.suffix_append front _).isInfix

/-- Lines are added to what there is, if it is a text. -/
theorem started_of_writeBytes (hp : project.Normal) (ht : t.WellFormed) {old : List UInt8}
    {cs : List Char} (hold : t.at? (ignoreFile project).parts = some (.file old) ∨
      t.at? (ignoreFile project).parts = none ∧ old = [])
    (hcs : Text.Utf8.decode old = .ok cs)
    (h : t.writeBytes (ignoreFile project) (old ++ addedLines.toUTF8.toList) = .ok t') :
    t'.WellFormed ∧ Started project t t' ∧ IsMarked project t' := by
  have hfile := normal_ignoreFile hp
  have hgrown : Grown (· = (ignoreFile project).parts) (fun _ => False) t t' :=
    grown_of_writeBytes ht (hfile.place t) h
  have hfind := find?_of_writeBytes h
  obtain ⟨front, htext⟩ := readText_added hcs hfind
  rw [hfile.find?_eq] at hfind
  exact ⟨ht.writeBytes hfile.proper h, ⟨hgrown.cwd, fun hloc he => hgrown.kept hloc he,
    .inr ⟨old, _, hold, hfind, htext, fun line hline => mem_cut_added front hline⟩⟩,
    _, htext, mark_infix front⟩

theorem exec_updateIgnored (project : Path) (w : World) : (updateIgnored project).exec w =
    if w.files.has (ignoreFile project) then
      (Action.readText (ignoreFile project) >>= fun present =>
        if Text.occurs ignoreMark.toList present then pure false
        else Action.readBytes (ignoreFile project) >>= addLines (ignoreFile project)).exec w
    else (addLines (ignoreFile project) []).exec w := by
  rw [← apply_ite (fun a : Action Bool => a.exec w)]
  rfl

theorem updateIgnored_ok {w w' : World} {isUpdated : Bool}
    (h : (updateIgnored project).exec w = (.ok isUpdated, w')) :
    IsMarked project w.files ∧ w' = w ∨ ∃ old cs t',
      (w.files.find? (ignoreFile project) = some (.file old) ∨
        w.files.find? (ignoreFile project) = none ∧ old = []) ∧
      Text.Utf8.decode old = .ok cs ∧
      w.files.writeBytes (ignoreFile project) (old ++ addedLines.toUTF8.toList) = .ok t' ∧
      w' = { w with files := t' } := by
  have hadd {old : List UInt8}
      (hex : (addLines (ignoreFile project) old).exec w = (.ok isUpdated, w')) : ∃ t',
        w.files.writeBytes (ignoreFile project) (old ++ addedLines.toUTF8.toList) = .ok t' ∧
        w' = { w with files := t' } := by
    obtain ⟨_, _, hchange, ⟨⟩⟩ := exec_bind_ok.1 hex
    exact Action.exec_changeFiles_ok.1 hchange
  rw [exec_updateIgnored] at h
  split at h
  next =>
    obtain ⟨present, _, hread, h⟩ := exec_bind_ok.1 h
    rw [Action.readText, Action.exec_ofFiles, Prod.mk.injEq] at hread
    obtain ⟨hread, rfl⟩ := hread
    split at h
    next hmark =>
      cases h
      exact .inl ⟨⟨present, hread, Text.occurs_iff.1 hmark⟩, rfl⟩
    next =>
      obtain ⟨old, cs, hfind, hcs, -⟩ := readText_ok.1 hread
      obtain ⟨old', _, hbytes, h⟩ := exec_bind_ok.1 h
      rw [Action.readBytes, Action.exec_ofFiles, readBytes, hfind] at hbytes
      cases hbytes
      obtain ⟨t', hwrite⟩ := hadd h
      exact .inr ⟨old, cs, t', .inl hfind, hcs, hwrite⟩
  next hthere =>
    obtain ⟨t', hwrite⟩ := hadd h
    rw [has, Option.not_isSome_iff_eq_none] at hthere
    exact .inr ⟨[], [], t', .inr ⟨hthere, rfl⟩, rfl, hwrite⟩

theorem settles_updateIgnored (hp : project.Normal) :
    Settles (Started project) (IsMarked project) (updateIgnored project) := by
  refine ⟨fun {w w' x} hw h => ?_, fun w hmarked => ⟨false, w.printed, ?_⟩⟩
  · rcases updateIgnored_ok h with ⟨hmarked, rfl⟩ | ⟨old, cs, t', hold, hcs, hwrite, rfl⟩
    · exact ⟨hw, ⟨rfl, fun _ he => he, .inl ⟨hmarked, rfl⟩⟩, hmarked⟩
    · rw [(normal_ignoreFile hp).find?_eq] at hold
      exact started_of_writeBytes hp hw hold hcs hwrite
  · obtain ⟨text, hread, hmark⟩ := hmarked
    obtain ⟨bytes, cs, hfind, -⟩ := readText_ok.1 hread
    rw [exec_updateIgnored, if_pos (by rw [has, hfind]; rfl), Action.exec_bind,
      Action.readText, Action.exec_ofFiles, hread]
    simp only [Text.occurs_iff.2 hmark]
    rfl

theorem Started.of_adds {v : FileTree} (hp : project.Normal)
    (h : Adds (· ≠ (ignoreFile project).parts) t u) (h' : Started project u v) :
    Started project t v := by
  have hfile := normal_ignoreFile hp
  have hsame : u.at? (ignoreFile project).parts = t.at? (ignoreFile project).parts :=
    h.elsewhere fun hne => hne rfl
  refine ⟨h'.cwd.trans h.cwd, fun hne he => h'.kept hne (h.kept he), ?_⟩
  rw [← hsame]
  refine h'.ignore.imp_left fun ⟨⟨text, hread, hmark⟩, hkept⟩ => ⟨⟨text, ?_, hmark⟩, hkept⟩
  rw [readText_ok, hfile.find?_eq] at hread ⊢
  rwa [← hsame]

/-! ## The other files -/

def workflowFolder (project : Path) : Path := fileAt project [".github", "workflows"]

def workflowFile (project : Path) : Path :=
  fileAt project [".github", "workflows", "autoredocs.yml"]

theorem settles_writeWorkflow (hp : project.Normal) (source : String) :
    Settles (Adds (· ≠ (ignoreFile project).parts)) (fun t => t.has (workflowFile project) = true)
      (writeWorkflow project source) := by
  have hdir : (workflowFolder project).Normal := normal_fileAt hp (by decide)
  have hfile : (workflowFile project).Normal := normal_fileAt hp (by decide)
  have hfolder : project / ".github" / "workflows" = workflowFolder project := by
    rw [div_name _ (by decide), div_name _ (by decide), List.append_assoc]
    rfl
  have hbelow : workflowFolder project / "autoredocs.yml" = workflowFile project := by
    rw [div_name _ (by decide), workflowFolder, fileAt, List.append_assoc]
    rfl
  rw [writeWorkflow, hfolder, hbelow]
  refine Settles.unlessThere none fun {w w' x} hw hfree h => ?_
  obtain ⟨_, w₁, hmake, h⟩ := exec_bind_ok.1 h
  obtain ⟨_, w₂, hwrite, ⟨⟩⟩ := exec_bind_ok.1 h
  obtain ⟨t₁, hfolders, rfl⟩ := Page.exec_makeFolders_ok.1 hmake
  obtain ⟨t₂, hbytes, rfl⟩ := Page.exec_writeText_ok.1 hwrite
  obtain ⟨hw₁, hway⟩ := adds_of_makeFolders hw hdir hfolders
  have hlong : ¬ (workflowFile project).parts <+: (workflowFolder project).parts := fun hpre => by
    simpa [workflowFile, workflowFolder, fileAt] using hpre.length_le
  have hignore : ¬ (ignoreFile project).parts <+: (workflowFolder project).parts := by
    simp [ignoreFile, workflowFolder, fileAt]
  have hfree₁ : t₁.has (workflowFile project) = false := by
    rw [has, hfile.find?_eq] at hfree ⊢
    rw [hway.elsewhere hlong, hfree]
  have hway' : Adds (· ≠ (ignoreFile project).parts) w.files t₁ := hway.mono fun loc hloc => by
    rintro rfl
    exact hignore hloc
  refine (adds_of_writeBytes hw₁ hfile ?_ hfree₁ hbytes).imp_right
    fun hr => ⟨hway'.trans hr.1, hr.2⟩
  simp [ignoreFile, workflowFile, fileAt]

theorem settles_writeEnvironment (hp : project.Normal) :
    Settles (Adds (· ≠ (ignoreFile project).parts))
      (fun t => t.has (fileAt project [".env.example"]) = true) (writeEnvironment project) := by
  refine Settles.unlessThere none fun {w w' x} hw hfree h => ?_
  obtain ⟨_, w₁, hwrite, ⟨⟩⟩ := exec_bind_ok.1 h
  obtain ⟨t₁, hbytes, rfl⟩ := Page.exec_writeText_ok.1 hwrite
  exact adds_of_writeBytes hw (normal_fileAt hp (by decide)) (by simp [ignoreFile, fileAt])
    hfree hbytes

end Starter

/-! ## The whole start -/

namespace Command

open Action (Settles Prints exec_bind_ok)
open Starter

variable {project : Path}

theorem settles_configure (hp : project.Normal) (o : InitOptions) :
    Settles (Adds (· ≠ (ignoreFile project).parts))
      (fun t => t.has (fileAt project [Settings.fileName]) = true) (configure project o) := by
  refine Settles.unlessThere true fun {w w' x} hw hfree h => ?_
  obtain ⟨_, w₁, hsave, ⟨⟩⟩ := exec_bind_ok.1 h
  obtain ⟨-, t₁, hwrite, rfl⟩ := TypedSettings.exec_save_ok.1 hsave
  exact adds_of_writeBytes hw (normal_fileAt hp (by decide))
    (by simp [ignoreFile, fileAt, Settings.fileName]) hfree hwrite

theorem prints_showStart (project : Path) (o : InitOptions) (items : List StartItem) :
    Prints (showStart project o items) (.ok ⟨⟩) := by
  have hforM {xs : List StartItem} {f : StartItem → String} :
      Prints (xs.forM fun i => Action.say (f i)) (.ok ⟨⟩) := .forM_ok (fun _ => .say _) xs
  have hnext : Prints ((nextSteps o).forM Action.say) (.ok ⟨⟩) := .forM_ok (fun _ => .say _) _
  refine .bind (.say _) fun _ => .bind (.notify _) fun _ => ?_
  dsimp only
  split
  · refine .bind (.say _) fun _ => .bind hforM fun _ => ?_
    split
    · exact .bind (.say _) fun _ => .bind hforM fun _ => hnext
    · exact hnext
  · split
    · exact .bind (.say _) fun _ => .bind hforM fun _ => hnext
    · exact hnext

/-- Whether a project has all that a start makes. -/
def IsStarted (project : Path) (o : InitOptions) (t : FileTree) : Prop :=
  t.has (fileAt project [Settings.fileName]) = true ∧
    (o.hasWorkflow = true → t.has (workflowFile project) = true) ∧
    (o.isAssisted = true → t.has (fileAt project [".env.example"]) = true) ∧ IsMarked project t

theorem settles_startItems (hp : project.Normal) (o : InitOptions) :
    Settles (Started project) (IsStarted project o) (startItems project o) := by
  have hhas {names : List String} (hnames : ∀ x ∈ names, IsName x)
      (hne : names ≠ [".gitignore"]) {t u : FileTree} (h : Started project t u) :
      t.has (fileAt project names) = true → u.has (fileAt project names) = true :=
    has_of_kept (fun e => h.kept fun he => hne (List.append_cancel_left he))
      (normal_fileAt hp hnames)
  have hadds {t u v : FileTree} (h : Adds (· ≠ (ignoreFile project).parts) t u)
      (h' : Started project u v) : Started project t v := h'.of_adds hp h
  refine .bind (settles_configure hp o) (fun _ => ?_) hadds (hhas (by decide) (by decide))
  refine .bind (.onDemand _ _ (.refl _) (.map _ (settles_writeWorkflow hp o.source))) (fun _ => ?_)
    hadds fun h hdone hw => hhas (by decide) (by decide) h (hdone hw)
  refine .bind (.onDemand _ _ (.refl _) (.map _ (settles_writeEnvironment hp))) (fun _ => ?_)
    hadds fun h hdone ha => hhas (by decide) (by decide) h (hdone ha)
  exact .map _ (settles_updateIgnored hp)

theorem settles_start (hp : project.Normal) (o : InitOptions) :
    Settles (Started project) (IsStarted project o)
      (startItems project o >>= showStart project o) := by
  have hshow := (settles_startItems hp o).bind
    (fun items => .of_prints (prints_showStart project o items)) (fun hs he => he ▸ hs)
    fun he hd => he ▸ hd
  exact ⟨fun hw h => (hshow.once hw h).imp_right fun hr => ⟨hr.1, hr.2.1⟩,
    fun w hdone => hshow.again w ⟨hdone, trivial⟩⟩

theorem exec_init (o : InitOptions) (w : World) {project : Path}
    (hproject : (ofString o.path).resolve w.files.cwd = project) :
    (init o).exec w = (startItems project o >>= showStart project o).exec w := by
  subst hproject
  rw [init, Action.exec_bind]
  rfl

/-- **A start loses nothing and is done once.** What was there stays as it is, except that the file
for version control gets lines of its own behind what it held, unless its text has the mark of these
lines. A second start succeeds and changes no file. -/
theorem init_init (o : InitOptions) {w w' : World} (hw : w.files.WellFormed)
    (h : (init o).exec w = (.ok (), w')) :
    Started ((ofString o.path).resolve w.files.cwd) w.files w'.files ∧
      ∃ w'', (init o).exec w' = (.ok (), w'') ∧ w''.files = w'.files := by
  have hp : ((ofString o.path).resolve w.files.cwd).Normal :=
    ⟨rfl, fun _ hx => hw.isName_place (proper_ofString o.path) hx⟩
  obtain ⟨-, hstarted, hdone⟩ := (settles_start hp o).once hw (exec_init o w rfl ▸ h)
  obtain ⟨_, out, hagain⟩ := (settles_start hp o).again w' hdone
  exact ⟨hstarted, _, (exec_init o w' (by rw [hstarted.cwd])).trans hagain, rfl⟩

/-- A folder with a file that is no text and one that ends with a carriage return. -/
def halfEnded : World where
  files := ⟨.ofString "/w", [(["w"], .folder), (["w", ".gitignore"], .file [120, 13]),
    (["w", "a"], .file [255])]⟩

theorem init_init_halfEnded : ∃ w' text, (init {}).exec halfEnded = (.ok (), w') ∧
    w'.files.at? ["w", "a"] = some (.file [255]) ∧
    w'.files.at? ["w", ".gitignore"] = some (.file ([120, 13] ++ addedLines.toUTF8.toList)) ∧
    w'.files.readText (.ofString "/w/.gitignore") = .ok text ∧
    (∀ line ∈ ignored, line.toList ∈ Text.cut '\n' text) ∧
    ∃ w'', (init {}).exec w' = (.ok (), w'') ∧ w''.files = w'.files := by
  obtain ⟨hw, hok, hread⟩ : halfEnded.files.WellFormed ∧
      ((init {}).exec halfEnded).1.isOk = true ∧
      halfEnded.files.readText (ignoreFile (.ofString "/w")) = .ok ['x', '\n'] := by
    decide +kernel
  have hexec := exec_eq_of_isOk hok
  obtain ⟨⟨-, hkept, hignore⟩, htwice⟩ := init_init {} hw hexec
  rcases hignore with ⟨⟨text, htext, hmark⟩, -⟩ | ⟨old, text, hold, hadded, htext, hlines⟩
  · cases htext.symm.trans hread
    exact absurd hmark.length_le (by decide)
  · obtain rfl : old = [120, 13] := by
      rcases hold with hold | ⟨hold, -⟩
      · cases hold
        rfl
      · cases hold
    exact ⟨_, text, hexec, hkept (by decide) rfl, hadded, htext, hlines, htwice⟩

end Command

end Docsmith
