/-
What is sent to the host of a site: one request that announces the digests of all files below a
folder, and after its answer one for each file whose digest the answer requires, as long as none is
refused.

`exec_ask` is what comes of a request and its answer, `exec_netlifyUpload` of one file, and
`exec_uploads` of all files, one after the other.
-/
import Docsmith.Hosting.Deploy
import Docsmith.Proofs.FileTree
import Docsmith.Proofs.Text

namespace Docsmith

namespace Hosting

open Action FileTree List

/-- A file below a folder by the path that a service knows it by. -/
def relative (f : List String × List UInt8) : PageFile := ⟨"/".intercalate f.1, f.2⟩

def isWanted (required : Value) (f : PageFile) : Bool :=
  match isIn (Digest.Sha1.hexDigest f.bytes) required with
  | .ok wanted => wanted
  | .error _ => false

/-- The request for a new site, unless there is one. -/
def siteRequests (h : Host) (dir : Path) : List Request :=
  if h.detail.isGiven then []
  else [⟨"POST", netlifyUrl ++ "/sites", [bearer h.credential], 30,
    .json (.object [("name", .str ("autoredocs-" ++ dir.name))])⟩]

def digestRequest (h : Host) (site : Value) (digests : List (String × Value)) : Request :=
  ⟨"POST", netlifyUrl ++ "/sites/" ++ site.display ++ "/deploys",
    [bearer h.credential, typed "application/json"], 30,
    .json (.object [("files", .object digests)])⟩

def fileRequest (h : Host) (dir : Path) (id : Value) (f : PageFile) : Request :=
  ⟨"PUT", netlifyUrl ++ "/deploys/" ++ id.display ++ "/files/" ++ f.place,
    [bearer h.credential, typed (contentType (dir / f.place))], 60, .bytes f.bytes⟩

/-- What the first of some answers says, if it is a success: its value, the `id` in it, and the other
answers. -/
def answer? : List Response → Option (Value × Value × List Response)
  | [] => none
  | r :: rest =>
    if isSuccess r.status then
      match Json.read r.body.toList with
      | .ok v => (entry v "id").toOption.map fun id => (v, id, rest)
      | .error _ => none
    else none

/-- The site, given or made, and the answers that are left. -/
def site? (h : Host) (rs : List Response) : Option (Value × List Response) :=
  if h.detail.isGiven then some (h.detail, rs) else (answer? rs).map fun a => (a.2.1, a.2.2)

/-- The requests up to the first that is refused, by the statuses of their answers. -/
def untilRefused : List Int → List Request → List Request
  | _, [] => []
  | statuses, r :: rs =>
    r :: if isSuccess (statuses.head?.getD 200) then untilRefused statuses.tail rs else []

def Granted (statuses : List Int) (rs : List Request) : Prop :=
  ∀ s ∈ statuses.take rs.length, isSuccess s = true

variable {α : Type} {w : World} {h : Host} {dir : Path} {v id required : Value}
  {rest : List Response}

/-! ## Requests and their answers -/

/-- The world after requests, with some answers left. -/
def after (w : World) (rs : List Request) (rest : List Response) : World :=
  { w with requests := w.requests ++ rs, responses := rest }

theorem exec_ask (url : String) (headers : List (String × String)) (timeout : Nat) (sent : Value)
    (w : World) :
    (∃ v id rest, answer? w.responses = some (v, id, rest) ∧ (ask url headers timeout sent).exec w =
      (.ok (v, id), after w [⟨"POST", url, headers, timeout, .json sent⟩] rest)) ∨
    answer? w.responses = none ∧ ∃ e rest, (ask url headers timeout sent).exec w =
      (.error e, after w [⟨"POST", url, headers, timeout, .json sent⟩] rest) := by
  cases hw : w.responses with
  | nil =>
    refine .inr ⟨rfl, .noResponse, [], ?_⟩
    simp only [ask, post, exec_bind, exec_get, exec_set, hw]
    rfl
  | cons r rest =>
    have hpost : (post url headers timeout sent).exec w =
        (if isSuccess r.status then .ok r.body else .error (.badStatus r.status url),
          after w [⟨"POST", url, headers, timeout, .json sent⟩] rest) := by
      cases hs : isSuccess r.status <;>
        simp only [post, exec_bind, exec_get, exec_set, hw, hs] <;> rfl
    rw [ask, exec_bind, hpost, answer?]
    cases isSuccess r.status with
    | false => exact .inr ⟨rfl, _, _, rfl⟩
    | true =>
      simp only [if_true, exec_bind, bodyValue]
      cases Json.read r.body.toList with
      | error e => exact .inr ⟨rfl, _, _, rfl⟩
      | ok v =>
        simp only [exec_pure, exec_ofExcept]
        cases entry v "id" with
        | error e => exact .inr ⟨rfl, _, _, rfl⟩
        | ok id => exact .inl ⟨v, id, rest, rfl, rfl⟩

theorem exec_netlifySite (h : Host) (dir : Path) (w : World) :
    (∃ site rest, site? h w.responses = some (site, rest) ∧ (netlifySite h dir).exec w =
      (.ok site, after w (siteRequests h dir) rest)) ∨
    site? h w.responses = none ∧ ∃ e rest,
      (netlifySite h dir).exec w = (.error e, after w (siteRequests h dir) rest) := by
  rw [site?, siteRequests, netlifySite]
  cases h.detail.isGiven with
  | true => exact .inl ⟨_, _, rfl, by simp [after]⟩
  | false =>
    rcases exec_ask (netlifyUrl ++ "/sites") [bearer h.credential] 30
        (.object [("name", .str ("autoredocs-" ++ dir.name))]) w with
      ⟨v, id, rest, ha, hexec⟩ | ⟨ha, e, rest, hexec⟩
    · exact .inl ⟨id, rest, by rw [ha]; rfl, by simp [exec_map, hexec, Except.map]⟩
    · exact .inr ⟨by rw [ha]; rfl, e, rest, by simp [exec_map, hexec, Except.map]⟩

/-! ## Files -/

theorem isWanted_of_error {e : Fault} {s : String} (he : isIn s required = .error e)
    (f : PageFile) : isWanted required f = false := by
  rw [isWanted]
  cases required <;> first | rfl | cases he

/-- A file can be read at its path. -/
structure IsAt (t : FileTree) (dir : Path) (f : PageFile) : Prop where
  bytes : t.readBytes (dir / f.place) = .ok f.bytes
  start : f.place.toList.head? ≠ some '/'

def uploads (h : Host) (dir : Path) (id required : Value) (fs : List PageFile) : List Request :=
  (fs.filter (isWanted required)).map (fileRequest h dir id)

theorem granted_cons {statuses : List Int} {r : Request} {rs : List Request} :
    Granted statuses (r :: rs) ↔
      isSuccess (statuses.head?.getD 200) = true ∧ Granted statuses.tail rs := by
  cases statuses with
  | nil => simp only [Granted, take_nil, tail_nil]; decide
  | cons s statuses => simp [Granted]

theorem untilRefused_of_granted {statuses : List Int} {rs : List Request}
    (h : Granted statuses rs) : untilRefused statuses rs = rs := by
  induction rs generalizing statuses with
  | nil => rfl
  | cons r rs ih =>
    obtain ⟨hr, hrs⟩ := granted_cons.1 h
    rw [untilRefused, if_pos hr, ih hrs]

theorem exec_put (url : String) (headers : List (String × String)) (timeout : Nat)
    (bytes : List UInt8) (w : World) : (put url headers timeout bytes).exec w =
      (if isSuccess (w.putStatuses.head?.getD 200) then .ok ()
        else .error (.badStatus (w.putStatuses.head?.getD 200) url),
      { w with
        requests := w.requests ++ [⟨"PUT", url, headers, timeout, .bytes bytes⟩]
        putStatuses := w.putStatuses.tail }) := by
  cases hs : isSuccess (w.putStatuses.head?.getD 200) <;>
    simp only [put, exec_bind, exec_get, exec_set, hs] <;> rfl

/-- A file is passed over, or what is required cannot be told of any file, or it is sent. -/
theorem exec_netlifyUpload (h : Host) (id required : Value) {f : PageFile}
    (hf : IsAt w.files dir f) :
    isWanted required f = false ∧ (netlifyUpload h dir id required f).exec w = (.ok (), w) ∨
    (∀ f, isWanted required f = false) ∧
      (∃ e, (netlifyUpload h dir id required f).exec w = (.error e, w)) ∨
    isWanted required f = true ∧ (netlifyUpload h dir id required f).exec w =
      (put (fileRequest h dir id f).url (fileRequest h dir id f).headers 60 f.bytes).exec w := by
  have hplace : String.ofList (f.place.toList.dropWhile (· == '/')) = f.place := by
    have hstart : f.place.toList.head?.any (· == '/') = false := by
      have := hf.start
      cases hhead : f.place.toList.head? <;> simp_all
    rw [Text.dropWhile_eq_self.2 hstart, String.ofList_toList]
  rw [netlifyUpload, exec_bind, exec_ofExcept, hplace]
  cases hin : isIn (Digest.Sha1.hexDigest f.bytes) required with
  | error e => exact .inr (.inl ⟨fun f => isWanted_of_error hin f, e, rfl⟩)
  | ok wanted =>
    have hwanted : isWanted required f = wanted := by rw [isWanted, hin]
    cases wanted with
    | false => exact .inl ⟨hwanted, rfl⟩
    | true =>
      refine .inr (.inr ⟨hwanted, ?_⟩)
      simp only [if_true, exec_bind, Action.readBytes, exec_ofFiles, hf.bytes]
      rfl

/-- All files, one after the other: those that are required are sent, up to the first that is
refused, and the uploads end well only if none is. -/
theorem exec_uploads (h : Host) (id required : Value) {fs : List PageFile}
    (hfs : ∀ f ∈ fs, IsAt w.files dir f) :
    ((fs.forM (netlifyUpload h dir id required)).exec w).2.requests =
      w.requests ++ untilRefused w.putStatuses (uploads h dir id required fs) ∧
    (((fs.forM (netlifyUpload h dir id required)).exec w).1.isOk = true →
      Granted w.putStatuses (uploads h dir id required fs)) := by
  induction fs generalizing w with
  | nil => simp [uploads, untilRefused, Granted]
  | cons f fs ih =>
    obtain ⟨hf, hfs⟩ := forall_mem_cons.1 hfs
    rw [forM_eq_forM, forM_cons, exec_bind]
    rcases exec_netlifyUpload h id required hf with ⟨hnot, hexec⟩ | ⟨hnone, e, hexec⟩ |
      ⟨hwanted, hexec⟩
    · have hskip : uploads h dir id required (f :: fs) = uploads h dir id required fs := by
        rw [uploads, filter_cons, hnot]
        rfl
      rw [hexec, hskip]
      exact ih hfs
    · have hnil : uploads h dir id required (f :: fs) = [] := by
        rw [uploads, filter_eq_nil_iff.2 fun f _ => by simp [hnone f]]
        rfl
      rw [hexec, hnil]
      exact ⟨(append_nil _).symm, nofun⟩
    · have hcons : uploads h dir id required (f :: fs) =
          fileRequest h dir id f :: uploads h dir id required fs := by
        rw [uploads, filter_cons, hwanted]
        rfl
      rw [hexec, exec_put, hcons, untilRefused, granted_cons]
      cases isSuccess (w.putStatuses.head?.getD 200) with
      | false => exact ⟨rfl, nofun⟩
      | true =>
        obtain ⟨hsent, hgranted⟩ := ih (w := { w with
          requests := w.requests ++ [fileRequest h dir id f]
          putStatuses := w.putStatuses.tail }) hfs
        exact ⟨hsent.trans (append_assoc _ _ _), fun hok => ⟨rfl, hgranted hok⟩⟩

theorem exists_map_of_answer? {rs : List Response} (ha : answer? rs = some (v, id, rest)) :
    ∃ entries, v = .map entries := by
  cases rs with
  | nil => cases ha
  | cons r rs =>
    rw [answer?] at ha
    split at ha
    · split at ha
      next v' _ =>
        cases v' with
        | map entries =>
          obtain ⟨_, -, heq⟩ := Option.map_eq_some_iff.1 ha
          exact ⟨entries, (congrArg Prod.fst heq).symm⟩
        | _ => cases ha
      next => cases ha
    · cases ha

theorem exec_announce (h : Host) (site : Value) {fs : List PageFile}
    (hfs : ∀ f ∈ fs, IsAt w.files dir f) :
    ∃ sent, ((announce h dir site fs).exec w).2.requests =
        w.requests ++ digestRequest h site (fs.map digestOf) :: sent ∧
      (answer? w.responses = none → sent = []) ∧
      ∀ v id rest, answer? w.responses = some (v, id, rest) → ∃ required,
        v.member "required" (.list []) = .ok required ∧
        sent = untilRefused w.putStatuses (uploads h dir id required fs) ∧
        (((announce h dir site fs).exec w).1.isOk = true →
          Granted w.putStatuses (uploads h dir id required fs)) := by
  rw [announce, exec_bind]
  rcases exec_ask (netlifyUrl ++ "/sites/" ++ site.display ++ "/deploys")
      [bearer h.credential, typed "application/json"] 30
      (.object [("files", .object (fs.map digestOf))]) w with
    ⟨v, id, rest, ha, hexec⟩ | ⟨ha, e, rest, hexec⟩
  · obtain ⟨entries, rfl⟩ := exists_map_of_answer? ha
    obtain ⟨required, hrequired⟩ : ∃ required,
        (Value.map entries).member "required" (.list []) = .ok required := ⟨_, rfl⟩
    obtain ⟨hsent, hgranted⟩ := exec_uploads
      (w := after w [digestRequest h site (fs.map digestOf)] rest) h id required hfs
    rw [hexec, ← digestRequest]
    simp only [exec_bind, exec_ofExcept, hrequired]
    rcases huploads : (fs.forM (netlifyUpload h dir id required)).exec
      (after w [digestRequest h site (fs.map digestOf)] rest) with ⟨r, w'⟩
    rw [huploads] at hsent hgranted
    refine ⟨untilRefused w.putStatuses (uploads h dir id required fs), ?_, fun hnone => ?_, ?_⟩
    · cases r with
      | error e => exact hsent.trans (append_assoc _ _ _)
      | ok u =>
        cases (Value.map entries).member "url" (.str "") <;>
          exact hsent.trans (append_assoc _ _ _)
    · cases ha.symm.trans hnone
    · intro v' id' rest' ha'
      cases ha.symm.trans ha'
      refine ⟨required, hrequired, rfl, fun hok => hgranted ?_⟩
      cases r with
      | error e => exact hok
      | ok u => rfl
  · refine ⟨[], by rw [hexec]; rfl, fun _ => rfl, fun v id rest ha' => ?_⟩
    cases ha.symm.trans ha'

variable {t : FileTree}

theorem isAt_relative (ht : t.WellFormed) {f : List String × List UInt8} (hf : f ∈ t.files dir) :
    IsAt t dir (relative f) := by
  obtain ⟨hfolder, -, hat⟩ := (mem_below ht).1 (mem_files.1 hf)
  have hnames : ∀ x ∈ f.1, Path.IsName x := fun x hx => ht.isName hat (mem_append_right _ hx)
  refine ⟨?_, Path.head?_intercalate hnames⟩
  rw [relative, Path.div_intercalate dir hnames, FileTree.readBytes, find?_below ht hfolder hat]

theorem perm_pageFiles (hnames : ∀ f ∈ t.files dir, ∀ name ∈ f.1, '\\' ∉ name.toList) :
    (pageFiles t dir).Perm ((t.files dir).map relative) := by
  refine (mergeSort_perm _ _).trans (.of_eq (map_congr_left fun f hf => ?_))
  have hslash : '\\' ∉ ("/".intercalate f.1).toList := by
    rw [String.toList_intercalate]
    intro hmem
    rcases Text.mem_intercalate hmem with h | ⟨l, hl, h⟩
    · exact absurd h (by decide)
    · obtain ⟨name, hname, rfl⟩ := mem_map.1 hl
      exact hnames f hf name hname h
  have hself : Text.subst ['\\'] ['/'] ("/".intercalate f.1).toList =
      ("/".intercalate f.1).toList := Text.subst_append hslash []
  show PageFile.mk (String.ofList (Text.subst ['\\'] ['/'] _)) _ = _
  rw [hself]
  exact congrArg (PageFile.mk · f.2) (String.ofList_toList)

theorem nodup_digests (ht : t.WellFormed) :
    ((((t.files dir).map relative).map digestOf).map Prod.fst).Nodup := by
  have hfiles := nodup_files ht dir
  rw [Nodup, pairwise_map] at hfiles
  rw [map_map, map_map, Nodup, pairwise_map]
  have hnames : ∀ f ∈ t.files dir, ∀ x ∈ f.1, Path.IsName x := fun f hf x hx =>
    ht.isName ((mem_below ht).1 (mem_files.1 hf)).2.2 (mem_append_right _ hx)
  refine hfiles.imp_of_mem fun {f g} hf hg hne heq => hne ?_
  refine Path.text_ofPlace_inj (hnames f hf) (hnames g hg) ?_
  rw [Path.text_ofPlace, Path.text_ofPlace]
  exact heq

theorem isAt_pageFiles (ht : t.WellFormed)
    (hnames : ∀ f ∈ t.files dir, ∀ name ∈ f.1, '\\' ∉ name.toList) :
    ∀ f ∈ pageFiles t dir, IsAt t dir f := by
  intro f hf
  obtain ⟨g, hg, rfl⟩ := mem_map.1 ((perm_pageFiles hnames).mem_iff.1 hf)
  exact isAt_relative ht hg

/-- **What is sent.** The digests that are announced are those of the files below a folder, each under
its path. If a request fails, or its answer names no `id`, nothing is sent after it. Otherwise the
files whose digests the service requires are sent, each once, to its path and with its bytes, up to
the first that is refused. All of them are sent if none is, and the site is put up only then. -/
theorem netlify_requests (h : Host) {dir : Path} {w : World} (hw : w.files.WellFormed)
    (hnames : ∀ f ∈ w.files.files dir, ∀ name ∈ f.1, '\\' ∉ name.toList) :
    ∃ digests, digests.Perm (((w.files.files dir).map relative).map digestOf) ∧
      (digests.map Prod.fst).Nodup ∧
      ∃ sent, ((deployNetlify h dir).exec w).2.requests =
          w.requests ++ (siteRequests h dir ++ sent) ∧
        (site? h w.responses = none → sent = []) ∧
        ∀ site rest, site? h w.responses = some (site, rest) →
          (answer? rest = none → sent = [digestRequest h site digests]) ∧
          ∀ v id rest', answer? rest = some (v, id, rest') →
            ∃ required puts, v.member "required" (.list []) = .ok required ∧
              puts.Perm (uploads h dir id required ((w.files.files dir).map relative)) ∧
              sent = digestRequest h site digests :: untilRefused w.putStatuses puts ∧
              (Granted w.putStatuses puts → sent = digestRequest h site digests :: puts) ∧
              (((deployNetlify h dir).exec w).1.isOk = true → Granted w.putStatuses puts) := by
  have hperm := perm_pageFiles hnames
  have hat := isAt_pageFiles hw hnames
  have hkeys := ((hperm.map digestOf).map Prod.fst).nodup_iff.2 (nodup_digests hw)
  refine ⟨(pageFiles w.files dir).map digestOf, hperm.map digestOf, hkeys, ?_⟩
  rw [deployNetlify, exec_bind]
  rcases exec_netlifySite h dir w with ⟨site, rest, hsite, hexec⟩ | ⟨hsite, e, rest, hexec⟩
  · have hfiles : (onFiles fun t => pageFiles t dir).exec (after w (siteRequests h dir) rest) =
        (.ok (pageFiles w.files dir), after w (siteRequests h dir) rest) := rfl
    obtain ⟨puts, hsent, hnone, hsome⟩ :=
      exec_announce (w := after w (siteRequests h dir) rest) h site hat
    rw [hexec, hsite]
    simp only [exec_bind, hfiles]
    refine ⟨_, hsent.trans (append_assoc _ _ _), nofun, ?_⟩
    rintro _ _ ⟨⟩
    refine ⟨fun ha => by rw [hnone ha], fun v id rest' ha => ?_⟩
    obtain ⟨required, hrequired, rfl, hgranted⟩ := hsome v id rest' ha
    refine ⟨required, _, hrequired, (hperm.filter _).map _, rfl, fun hall => ?_, hgranted⟩
    exact congrArg _ (untilRefused_of_granted hall)
  · rw [hexec, hsite]
    exact ⟨[], by simp [after], fun _ => rfl, nofun⟩

/-- Two files of one content, and a service that requires it. -/
def twins : World where
  files := ⟨⟨"/", []⟩, [(["d"], .folder), (["d", "a"], .file [120]), (["d", "b"], .file [120])]⟩
  responses := [⟨200, "\x7b\"id\": \"D\", " ++
    "\"required\": [\"11f6ad8ec52a2984abaafd7c3b516503785c2072\"]\x7d"⟩]

def givenSite : Host := ⟨.netlify, .str "T", .str "S"⟩

theorem netlify_requests_twins : ∃ digests id puts,
    ((deployNetlify givenSite ⟨"/", ["d"]⟩).exec twins).2.requests =
      digestRequest givenSite (.str "S") digests :: puts ∧
    puts.Perm ([⟨"a", [120]⟩, ⟨"b", [120]⟩].map (fileRequest givenSite ⟨"/", ["d"]⟩ id)) := by
  obtain ⟨hw, hnames, hanswer⟩ : twins.files.WellFormed ∧
      (∀ f ∈ twins.files.files ⟨"/", ["d"]⟩, ∀ name ∈ f.1, '\\' ∉ name.toList) ∧
      (answer? twins.responses).any (fun a => (a.1.member "required" (.list [])).toOption.any
        fun required => ((twins.files.files ⟨"/", ["d"]⟩).map relative).filter (isWanted required) ==
          [⟨"a", [120]⟩, ⟨"b", [120]⟩]) = true := by decide +kernel
  obtain ⟨digests, -, -, sent, hsent, -, hsite⟩ := netlify_requests givenSite hw hnames
  cases ha : answer? twins.responses with
  | none => rw [ha] at hanswer; cases hanswer
  | some a =>
    obtain ⟨required, puts, hrequired, hputs, -, hall, -⟩ := (hsite _ _ rfl).2 a.1 a.2.1 a.2.2 ha
    rw [ha, Option.any_some, hrequired] at hanswer
    rw [uploads, eq_of_beq hanswer] at hputs
    refine ⟨digests, a.2.1, puts, hsent.trans (hall ?_), hputs⟩
    simp [Granted, twins]

/-- The service answers without an `id`. -/
def anonymous : World :=
  { twins with responses := [⟨200,
    "\x7b\"required\": [\"11f6ad8ec52a2984abaafd7c3b516503785c2072\"]\x7d"⟩] }

/-- The service refuses the first file. -/
def refusing : World := { twins with putStatuses := [500] }

/-- The files that the first answer requires, whatever else it says. -/
def requiredFiles (w : World) (dir : Path) : List PageFile :=
  match w.responses.head?.bind fun r => (Json.read r.body.toList).toOption with
  | some v =>
    let required := (v.member "required" (.list [])).toOption.getD (.list [])
    ((w.files.files dir).map relative).filter (isWanted required)
  | none => []

/-- Though the answer is a success and requires two files, none is sent, or one. -/
theorem required_not_sent :
    (∀ w ∈ [anonymous, refusing], w.responses.all (fun r => isSuccess r.status) = true ∧
      (requiredFiles w ⟨"/", ["d"]⟩).length = 2) ∧
    ((deployNetlify givenSite ⟨"/", ["d"]⟩).exec anonymous).2.requests.length = 1 ∧
    ((deployNetlify givenSite ⟨"/", ["d"]⟩).exec refusing).2.requests.length ≤ 2 := by
  obtain ⟨hrequired, hw, hnames, hunnamed, hanswer⟩ :
      (∀ w ∈ [anonymous, refusing], w.responses.all (fun r => isSuccess r.status) = true ∧
        (requiredFiles w ⟨"/", ["d"]⟩).length = 2) ∧ twins.files.WellFormed ∧
      (∀ f ∈ twins.files.files ⟨"/", ["d"]⟩, ∀ name ∈ f.1, '\\' ∉ name.toList) ∧
      (answer? anonymous.responses).isNone = true ∧
      (answer? refusing.responses).isSome = true := by decide +kernel
  have hat := isAt_pageFiles hw hnames
  refine ⟨hrequired, ?_, ?_⟩
  · obtain ⟨puts, hsent, hnone, -⟩ := exec_announce (w := anonymous) givenSite (.str "S") hat
    rw [hnone (Option.isNone_iff_eq_none.1 hunnamed)] at hsent
    exact congrArg length hsent
  · obtain ⟨puts, hsent, -, hsome⟩ := exec_announce (w := refusing) givenSite (.str "S") hat
    obtain ⟨⟨v, id, rest⟩, ha⟩ := Option.isSome_iff_exists.1 hanswer
    obtain ⟨required, -, rfl, -⟩ := hsome v id rest ha
    refine Nat.le_trans (Nat.le_of_eq (congrArg length hsent)) ?_
    cases uploads givenSite ⟨"/", ["d"]⟩ id required (pageFiles twins.files ⟨"/", ["d"]⟩) with
    | nil => decide
    | cons r rs => exact Nat.le_refl 2

end Hosting

end Docsmith
