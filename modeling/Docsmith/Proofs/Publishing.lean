/-
Three ways to build from afar: a build by itself, a push that a gateway reports and a push that a
function is told of. They come to one run (`exec_published`), so that they succeed together, leave
one world and report one outcome.
-/
import Docsmith.Proofs.Authorization
import Docsmith.Proofs.Rebuild

namespace Docsmith

theorem Value.member_ok {v d d' x : Value} {name : String} (name' : String)
    (h : v.member name d = .ok x) : ∃ y, v.member name' d' = .ok y := by
  fun_induction Value.member v name d with
  | case1 entries => exact ⟨_, rfl⟩
  | case2 n v ih => exact ih h
  | case3 => cases h

theorem Action.exec_of_map {α β : Type} {f : α → β} (hf : Function.Injective f) {a b : Action α}
    {w : World} (h : (f <$> a).exec w = (f <$> b).exec w) : a.exec w = b.exec w := by
  rw [exec_map, exec_map] at h
  obtain ⟨hresult, hworld⟩ := Prod.mk.inj h
  refine Prod.ext ?_ hworld
  rcases ha : (a.exec w).1 with e | x <;> rcases hb : (b.exec w).1 with e' | y <;>
    rw [ha, hb] at hresult
  · rw [Except.error.inj hresult]
  · cases hresult
  · cases hresult
  · rw [hf (Except.ok.inj hresult)]

namespace Remote

open Action (exec_bind exec_map)

/-! ## Accepted pushes -/

theorem checked_of_open {α : Type} {body : Except Fault (List UInt8)} {given event : Value}
    {refuse ignore build : Action α} (hevent : event = .str "push") :
    checked "" body given event refuse ignore build = build := by
  subst hevent
  rfl

namespace Message

/-- A push that is accepted: it is posted and, if there is a key, signed with it. -/
structure IsAccepted (w : World) (m : Message) : Prop where
  isPost : m.IsPost
  event : m.eventRead = .ok (.str "push")
  signed : m.key w ≠ "" → ∃ bytes, m.bytesRead = .ok bytes ∧ m.signatureRead =
    .ok (.str ("sha256=" ++ Digest.Hmac.hexDigest (m.key w).toUTF8.toList bytes))

theorem handle_of_accepted {m : Message} {w : World} (h : m.IsAccepted w) :
    m.handle.exec w = m.rebuild.exec w := by
  by_cases hkey : m.key w = ""
  · have hevent := h.event
    cases m with
    | toServer s headers body =>
      refine exec_map_congr _ ?_
      rw [webhook_eq, show s.secret = "" from hkey, checked_of_open (Except.ok.inj hevent)]
    | toGateway event =>
      have hpost : methodOf event = .ok (.str "POST") := h.isPost
      obtain ⟨headers, hheaders, hpush⟩ : ∃ headers, headersOf event = .ok headers ∧
          headerIn headers "x-github-event" = .str "push" := by
        rw [eventRead] at hevent
        cases hheaders : headersOf event with
        | error e => rw [hheaders] at hevent; cases hevent
        | ok headers => exact ⟨headers, rfl, Except.ok.inj (hheaders ▸ hevent)⟩
      obtain ⟨context, hcontext, -⟩ := Except.bind_ok_iff.1 hpost
      obtain ⟨body, hbody⟩ := Value.member_ok "body" hcontext
      refine exec_map_congr _ ?_
      rw [exec_handleEvent hpost hheaders hbody, hkey, checked_of_open hpush]
    | toFunction r =>
      refine exec_map_congr _ ?_
      rw [exec_handleRequest h.isPost, hkey, checked_of_open (Except.ok.inj hevent)]
  · exact handle_of_bears hkey h.isPost ⟨h.signed hkey, h.event⟩

end Message

/-! ## What a push leads to -/

/-- An environment that names a source, an output and a format, and no hosting service. -/
structure Configured (w : World) (source output : Path) (format : String) : Prop where
  source : w.env.lookup "AUTODOCS_SOURCE" = some source.text
  output : w.env.lookup "AUTODOCS_OUTPUT" = some output.text
  format : w.env.lookup "AUTODOCS_FORMAT" = some format
  target : (w.env.lookup "AUTODOCS_DEPLOY_TARGET").getD "" = ""

/-- What is answered about a build. -/
def Outcome.answer (made : Outcome) : Value :=
  .object [("status", .str "rebuilt"), ("modules", .int made.modules), ("files", .int made.files)]

def functionAnswer (status : Nat) (v : Value) : Value :=
  .object [("statusCode", .int status), ("body", .str (Json.compact v)), jsonHeaders]

theorem exec_env (name default : String) (w : World) :
    (Action.env name default).exec w = (.ok ((w.env.lookup name).getD default), w) := rfl

theorem exec_resolve (p : Path) (w : World) :
    (Action.resolve p).exec w = (.ok (p.resolve w.files.cwd), w) := rfl

section Published

variable {source output : Path} {format : String} {w : World}

/-- What is done after a build: the pages are sent where the environment says. -/
def send (output : Path) (made : Outcome) : Action Value := do
  let result := [("status", Value.str "rebuilt"), ("modules", .int made.modules),
    ("files", .int made.files)]
  let target ← Action.env "AUTODOCS_DEPLOY_TARGET" ""
  if target.isEmpty then pure (.object result)
  else
    let url ← Hosting.deployTo target output
    pure (.object (result ++ [("deployed_url", url)]))

theorem exec_send (htarget : (w.env.lookup "AUTODOCS_DEPLOY_TARGET").getD "" = "")
    (output : Path) (made : Outcome) : (send output made).exec w = (.ok made.answer, w) := by
  simp only [send, exec_bind, exec_env, htarget]
  rfl

/-- **Publishing is building**, with what the environment names. -/
theorem exec_publish (hw : w.files.WellFormed) (hsource : source.Normal) (houtput : output.Normal)
    (hconfig : Configured w source output format) (default : String) :
    (publish default).exec w =
      (Outcome.answer <$> rebuild source output (.ofName format)).exec w := by
  have hread {p : Path} (hp : p.Normal) : (Path.ofString p.text).resolve w.files.cwd = p := by
    rw [hp.ofString_text, hp.resolve_eq]
  have hpublish : (publish default).exec w =
      ((Action.makeFolders output >>= fun _ => rebuild source output (.ofName format)) >>=
        send output).exec w := by
    simp only [publish, exec_bind _ _ w, exec_env, exec_resolve, hconfig.source, hconfig.output,
      hconfig.format, Option.getD_some, hread hsource, hread houtput, bind_assoc]
    rfl
  rw [hpublish, exec_bind, rebuild_makeFolders hsource houtput.proper hw, exec_map]
  rcases hrebuild : (rebuild source output (.ofName format)).exec w with ⟨e | made, w'⟩
  · rfl
  · obtain ⟨_, _, _, _, _, t, -, -, -, -, -, -, rfl, -⟩ := rebuild_ok.1 hrebuild
    exact exec_send (w := { w with files := t }) hconfig.target output made

theorem exec_published (hw : w.files.WellFormed) (hsource : source.Normal) (houtput : output.Normal)
    (hconfig : Configured w source output format) (default : String) :
    (published default).exec w =
      match (rebuild source output (.ofName format)).exec w with
      | (.ok made, w') => (.ok (200, made.answer), w')
      | (.error e, w') => (.ok (500, .object [("error", .str e.message)]), w') := by
  rw [published, exec_bind, Action.exec_attempt, exec_publish hw hsource houtput hconfig, exec_map]
  rcases (rebuild source output (.ofName format)).exec w with ⟨e | made, w'⟩ <;> rfl

end Published

/-- An answer that reports success. -/
def Succeeds (r : Except Fault Value × World) : Prop :=
  ∃ v, r.1 = .ok v ∧ v.get? "statusCode" = some (.int 200)

/-- **The three ways to build from afar agree.** When one of them succeeds, all do: they leave one
world, with its pages and its state, and what is answered is the outcome of the build. -/
theorem entrances_agree {source output : Path} {format : String} {w : World}
    {event : Value} {r : FunctionRequest} (hw : w.files.WellFormed) (hsource : source.Normal)
    (houtput : output.Normal) (hconfig : Configured w source output format)
    (hevent : (Message.toGateway event).IsAccepted w) (hr : (Message.toFunction r).IsAccepted w)
    (h : (∃ made, ((rebuild source output (.ofName format)).exec w).1 = .ok made) ∨
      Succeeds ((handleEvent event).exec w) ∨ Succeeds ((handleRequest r).exec w)) :
    ∃ made w', (rebuild source output (.ofName format)).exec w = (.ok made, w') ∧
      (handleEvent event).exec w = (.ok (gatewayAnswer 200 made.answer), w') ∧
      (handleRequest r).exec w = (.ok (functionAnswer 200 made.answer), w') := by
  have hgateway := Action.exec_of_map (fun _ _ => Sum.inr.inj) (Message.handle_of_accepted hevent)
  have hfunction := Action.exec_of_map (fun _ _ => Sum.inr.inj) (Message.handle_of_accepted hr)
  rw [exec_bind, exec_published hw hsource houtput hconfig] at hgateway hfunction
  rcases hrebuild : (rebuild source output (.ofName format)).exec w with ⟨e | made, w'⟩
  · rw [hrebuild] at h hgateway hfunction
    rw [hgateway, hfunction] at h
    rcases h with ⟨made, h⟩ | ⟨v, hv, h⟩ | ⟨v, hv, h⟩
    · cases h
    · cases hv; cases h
    · cases hv; cases h
  · rw [hrebuild] at hgateway hfunction
    exact ⟨made, w', rfl, hgateway, hfunction⟩

def pushSignature : String :=
  "sha256=601f34a13f988e6e9f3a8069cc08856e777dd3fbb72f8fe98b9dc72c91b76269"

def gatewayPush : Value :=
  .object
    [("httpMethod", .str "POST"), ("body", .str "\x7b\x7d"),
      ("headers", .object
        [("x-hub-signature-256", .str pushSignature), ("x-github-event", .str "push")])]

def functionPush : FunctionRequest where
  method := "POST"
  headers :=
    [(.str "x-hub-signature-256", .str pushSignature), (.str "x-github-event", .str "push")]
  body := .str "\x7b\x7d"

/-- A world in which the pages lie below the sources and hold the state of an earlier build. -/
def nestedPages : World :=
  { files := ⟨⟨"/", []⟩,
      [(["p"], .folder), (["p", "a.py"], .file "\"A.\"\n".toUTF8.toList), (["p", "docs"], .folder),
        (["p", "docs", ".autoredocs_state.json"],
          .file "\x7b\"hashes\": \x7b\"gone.py\": \"0\"\x7d\x7d".toUTF8.toList)]⟩
    env := [("GITHUB_WEBHOOK_SECRET", "clé"), ("AUTODOCS_SOURCE", "/p"),
      ("AUTODOCS_OUTPUT", "/p/docs"), ("AUTODOCS_FORMAT", "markdown")] }

theorem facts_nestedPages : nestedPages.files.WellFormed ∧
    ((rebuild projectFolder pagesFolder (.ofName "markdown")).exec nestedPages).1.isOk = true ∧
    pushSignature = "sha256=" ++
      Digest.Hmac.hexDigest "clé".toUTF8.toList "\x7b\x7d".toUTF8.toList := by
  decide +kernel

theorem isAccepted_gatewayPush : (Message.toGateway gatewayPush).IsAccepted nestedPages where
  isPost := rfl
  event := rfl
  signed _ := ⟨_, rfl, congrArg (fun s => Except.ok (Value.str s)) facts_nestedPages.2.2⟩

theorem isAccepted_functionPush : (Message.toFunction functionPush).IsAccepted nestedPages where
  isPost := rfl
  event := rfl
  signed _ := ⟨_, rfl, congrArg (fun s => Except.ok (Value.str s)) facts_nestedPages.2.2⟩

theorem configured_nestedPages :
    Configured nestedPages projectFolder pagesFolder "markdown" :=
  ⟨rfl, rfl, rfl, rfl⟩

theorem entrances_agree_nestedPages :
    ∃ made w', (rebuild projectFolder pagesFolder (.ofName "markdown")).exec nestedPages =
        (.ok made, w') ∧
      (handleEvent gatewayPush).exec nestedPages = (.ok (gatewayAnswer 200 made.answer), w') ∧
      (handleRequest functionPush).exec nestedPages =
        (.ok (functionAnswer 200 made.answer), w') := by
  obtain ⟨hw, hok, -⟩ := facts_nestedPages
  refine entrances_agree hw normal_projectFolder normal_pagesFolder configured_nestedPages
    isAccepted_gatewayPush isAccepted_functionPush (.inl ?_)
  revert hok
  cases ((rebuild projectFolder pagesFolder (.ofName "markdown")).exec nestedPages).1 with
  | error e => intro hok; cases hok
  | ok made => exact fun _ => ⟨made, rfl⟩

end Remote

end Docsmith
