/-
Who may cause a rebuild. Messages of a repository come in through three entry points: the
documentation server, a gateway and a function. Each of them has a step that looks at the signature
and then one that looks at the event (`checked`). Until both are passed nothing is done
(`checked_of_not_accepted`), and from there on all that is done is the rebuild
(`checked_of_accepted`).
-/
import Docsmith.Proofs.Action
import Docsmith.Remote.Handler
import Docsmith.Remote.Server

namespace Docsmith.Remote

open Action (exec_bind exec_map)

/-! ## Signatures -/

theorem digitChar_lt {n : Nat} (h : n < 16) : (Nat.digitChar n).toNat < 128 :=
  (by decide : ∀ n : Fin 16, (Nat.digitChar n).toNat < 128) ⟨n, h⟩

theorem signature_ascii (secret : String) (message : List UInt8) :
    ((signature secret message).toList.all fun c => c.toNat < 128) = true := by
  simp only [signature, Digest.Hmac.hexDigest, Digest.hex, String.toList_append,
    String.toList_ofList, List.all_append, Bool.and_eq_true]
  refine ⟨by decide, ?_⟩
  simp only [List.all_eq_true, List.mem_flatMap, decide_eq_true_eq]
  rintro c ⟨b, -, hc⟩
  simp only [List.mem_cons, List.not_mem_nil, or_false] at hc
  have hb : b.toNat < 256 := b.toNat_lt
  rcases hc with rfl | rfl <;> exact digitChar_lt (by omega)

theorem isSigned_iff {secret : String} {message : List UInt8} {given : Value} :
    isSigned secret message given = .ok true ↔ given = .str (signature secret message) := by
  constructor
  · intro h
    unfold isSigned at h
    split at h
    next s =>
      split at h
      · simp only [Except.ok.injEq, beq_iff_eq] at h
        rw [h]
      · cases h
    next => cases h
  · rintro rfl
    simp only [isSigned, signature_ascii, if_true, beq_self_eq_true]

theorem beq_str_iff {v : Value} {s : String} : (v == .str s) = true ↔ v = .str s := by
  cases v <;> simp [BEq.beq, Value.same]

/-! ## The checks -/

def Affected (w w' : World) : Prop :=
  w'.files ≠ w.files ∨ w'.requests ≠ w.requests ∨ w'.uploads ≠ w.uploads

theorem not_affected (w : World) : ¬ Affected w w := by
  simp [Affected]

/-- What a message has to bear: the keyed digest of its body as its signature, and a push as its
event. -/
def Accepted (secret : String) (body : Except Fault (List UInt8)) (given event : Value) : Prop :=
  (∃ bytes, body = .ok bytes ∧
    given = .str ("sha256=" ++ Digest.Hmac.hexDigest secret.toUTF8.toList bytes)) ∧
  event = .str "push"

section Checked

variable {α : Type}

/-- What all entry points have in common: a message without its signature is refused, and one that
does not report a push is ignored. -/
def checked (secret : String) (body : Except Fault (List UInt8)) (given event : Value)
    (refuse ignore build : Action α) : Action α := do
  let isTrusted ←
    if secret.isEmpty then pure true
    else Action.ofExcept do
      let bytes ← body
      isSigned secret bytes given
  if !isTrusted then refuse else if !(event == .str "push") then ignore else build

variable {secret : String} {body : Except Fault (List UInt8)} {given event : Value}
  {refuse ignore build : Action α}

theorem exec_checked (hkey : secret ≠ "") (w : World) :
    (checked secret body given event refuse ignore build).exec w =
      match body >>= fun bytes => isSigned secret bytes given with
      | .error e => (.error e, w)
      | .ok isTrusted =>
        (if !isTrusted then refuse
          else if !(event == .str "push") then ignore else build).exec w := by
  have hempty : secret.isEmpty = false := by simpa using hkey
  simp only [checked, hempty, Bool.false_eq_true, if_false, exec_bind, Action.exec_ofExcept]
  cases body >>= fun bytes => isSigned secret bytes given <;> rfl

theorem checked_of_accepted (hkey : secret ≠ "") (h : Accepted secret body given event)
    (w : World) :
    (checked secret body given event refuse ignore build).exec w = build.exec w := by
  obtain ⟨⟨bytes, rfl, hgiven⟩, rfl⟩ := h
  have hsigned : (Except.ok bytes >>= fun bytes => isSigned secret bytes given) = .ok true :=
    isSigned_iff.2 hgiven
  rw [exec_checked hkey, hsigned]
  rfl

theorem checked_of_not_accepted (hkey : secret ≠ "") (h : ¬ Accepted secret body given event)
    {w : World} (hrefuse : (refuse.exec w).2 = w) (hignore : (ignore.exec w).2 = w) :
    ((checked secret body given event refuse ignore build).exec w).2 = w := by
  rw [exec_checked hkey]
  split
  next => rfl
  next isTrusted hok =>
    obtain ⟨bytes, hbytes, hsigned⟩ := Except.bind_ok_iff.1 hok
    cases isTrusted with
    | false => exact hrefuse
    | true =>
      have hpush : (event == .str "push") = false := by
        rw [Bool.eq_false_iff]
        intro hevent
        exact h ⟨⟨bytes, hbytes, isSigned_iff.1 hsigned⟩, beq_str_iff.1 hevent⟩
      simp only [hpush, Bool.not_true, Bool.false_eq_true, if_false, Bool.not_false, if_true]
      exact hignore

end Checked

/-! ## The entry points -/

/-- A message of a repository, by the entry point that takes it. -/
inductive Message where
  | toServer (s : Server) (headers : List (String × String)) (body : List UInt8)
  | toGateway (event : Value)
  | toFunction (r : FunctionRequest)

namespace Message

def headerIn (headers : List (Value × Value)) (name : String) : Value :=
  (Value.lookup headers name).getD (.str "")

def key (w : World) : Message → String
  | toServer s _ _ => s.secret
  | toGateway _ | toFunction _ => (w.env.lookup "GITHUB_WEBHOOK_SECRET").getD ""

/-- Whether a message is a post. The server takes nothing else. -/
def IsPost : Message → Prop
  | toServer _ _ _ => True
  | toGateway event => methodOf event = .ok (.str "POST")
  | toFunction r => r.method = "POST"

def signatureRead : Message → Except Fault Value
  | toServer _ headers _ => .ok (.str (Server.header headers "X-Hub-Signature-256"))
  | toGateway event => (headersOf event).map fun headers => headerIn headers "x-hub-signature-256"
  | toFunction r => .ok (headerIn r.headers "x-hub-signature-256")

def eventRead : Message → Except Fault Value
  | toServer _ headers _ => .ok (.str (Server.header headers "X-GitHub-Event"))
  | toGateway event => (headersOf event).map fun headers => headerIn headers "x-github-event"
  | toFunction r => .ok (headerIn r.headers "x-github-event")

def bytesRead : Message → Except Fault (List UInt8)
  | toServer _ _ body => .ok body
  | toGateway event => do bodyBytes (← event.member "body" (.str ""))
  | toFunction r => bodyBytes r.body

def handle : Message → Action (Answer ⊕ Value)
  | toServer s headers body => Sum.inl <$> s.webhook headers body
  | toGateway event => Sum.inr <$> handleEvent event
  | toFunction r => Sum.inr <$> handleRequest r

def rebuild : Message → Action (Answer ⊕ Value)
  | toServer s _ _ => Sum.inl <$> s.rebuilt "rebuilt"
  | toGateway _ => Sum.inr <$> do
    let (status, v) ← published "/var/task/src"
    pure (gatewayAnswer status v)
  | toFunction _ => Sum.inr <$> do
    let (status, v) ← published "."
    pure (.object [("statusCode", .int status), ("body", .str (Json.compact v)), jsonHeaders])

/-- The signature and the event that a message has to bear for a rebuild: the keyed digest of its
body under the key, and a push. -/
def Bears (w : World) (m : Message) : Prop :=
  (∃ bytes, m.bytesRead = .ok bytes ∧ m.signatureRead =
    .ok (.str ("sha256=" ++ Digest.Hmac.hexDigest (m.key w).toUTF8.toList bytes))) ∧
  m.eventRead = .ok (.str "push")

theorem exec_map_congr {α β : Type} (f : α → β) {a b : Action α} {w : World}
    (h : a.exec w = b.exec w) : (f <$> a).exec w = (f <$> b).exec w := by
  rw [exec_map, exec_map, h]

theorem exec_secret (w : World) :
    secret.exec w = (.ok ((w.env.lookup "GITHUB_WEBHOOK_SECRET").getD ""), w) := rfl

/-! Each entry point is `checked`, behind the tests of its own. -/

theorem webhook_eq (s : Server) (headers : List (String × String)) (body : List UInt8) :
    s.webhook headers body =
      checked s.secret (.ok body) (.str (Server.header headers "X-Hub-Signature-256"))
        (.str (Server.header headers "X-GitHub-Event")) (throw (.refused 403 "Invalid signature"))
        (pure (.json 200 (.object [("status", .str "ignored"),
          ("event", .str (Server.header headers "X-GitHub-Event"))])))
        (s.rebuilt "rebuilt") := by
  by_cases hevent : Server.header headers "X-GitHub-Event" = "push"
  · have hpush : (Value.str "push" == .str "push") = true := beq_str_iff.2 rfl
    simp only [Server.webhook, checked, hevent, hpush, if_true, Bool.not_true, Bool.false_eq_true,
      if_false]
    rfl
  · have hpush : (Value.str (Server.header headers "X-GitHub-Event") == .str "push") = false := by
      rw [Bool.eq_false_iff, ne_eq, beq_str_iff, Value.str.injEq]
      exact hevent
    simp only [Server.webhook, checked, hevent, hpush, if_true, Bool.not_false, if_false]
    rfl

theorem exec_handleRequest {r : FunctionRequest} (h : r.method = "POST") (w : World) :
    (handleRequest r).exec w =
      (checked (key w (.toFunction r)) (bodyBytes r.body) (headerIn r.headers "x-hub-signature-256")
        (headerIn r.headers "x-github-event")
        (pure (.object [("statusCode", .int 403), ("body", .str "Invalid signature")]))
        (pure (.object [("statusCode", .int 200), ("body", .str (Json.compact (.object
          [("status", .str "ignored"), ("event", headerIn r.headers "x-github-event")])))]))
        (do
          let (status, v) ← published "."
          pure (.object
            [("statusCode", .int status), ("body", .str (Json.compact v)),
              jsonHeaders]))).exec w := by
  simp only [handleRequest, h, ne_eq, not_true_eq_false, if_false, exec_bind, exec_secret]
  rfl

theorem exec_handleEvent {event body : Value} {headers : List (Value × Value)}
    (hmethod : methodOf event = .ok (.str "POST")) (hheaders : headersOf event = .ok headers)
    (hbody : event.member "body" (.str "") = .ok body) (w : World) :
    (handleEvent event).exec w =
      (checked (key w (.toGateway event)) (bodyBytes body) (headerIn headers "x-hub-signature-256")
        (headerIn headers "x-github-event")
        (pure (gatewayAnswer 403 (.object [("error", .str "Invalid signature")])))
        (pure (gatewayAnswer 200 (.object
          [("status", .str "ignored"), ("event", headerIn headers "x-github-event")])))
        (do
          let (status, v) ← published "/var/task/src"
          pure (gatewayAnswer status v))).exec w := by
  have hpost : (Value.str "POST" == .str "POST") = true := beq_str_iff.2 rfl
  simp only [handleEvent, exec_bind, Action.exec_ofExcept, hmethod, hheaders, hbody, hpost,
    Bool.not_true, Bool.false_eq_true, if_false, exec_secret]
  rfl

theorem handle_of_bears {m : Message} {w : World} (hkey : m.key w ≠ "") (hpost : m.IsPost)
    (h : m.Bears w) : m.handle.exec w = m.rebuild.exec w := by
  obtain ⟨⟨bytes, hbytes, hsign⟩, hevent⟩ := h
  cases m with
  | toServer s headers body =>
    have hok : Accepted s.secret (.ok body) (.str (Server.header headers "X-Hub-Signature-256"))
        (.str (Server.header headers "X-GitHub-Event")) :=
      ⟨⟨bytes, hbytes, Except.ok.inj hsign⟩, Except.ok.inj hevent⟩
    refine exec_map_congr _ ?_
    rw [webhook_eq]
    exact checked_of_accepted hkey hok w
  | toGateway event =>
    obtain ⟨body, hbody, hbytes⟩ := Except.bind_ok_iff.1 hbytes
    simp only [signatureRead, eventRead] at hsign hevent
    cases hheaders : headersOf event with
    | error e => rw [hheaders] at hsign; cases hsign
    | ok headers =>
      rw [hheaders] at hsign hevent
      refine exec_map_congr _ ?_
      rw [exec_handleEvent hpost hheaders hbody]
      exact checked_of_accepted hkey ⟨⟨bytes, hbytes, Except.ok.inj hsign⟩, Except.ok.inj hevent⟩ w
  | toFunction r =>
    refine exec_map_congr _ ?_
    rw [exec_handleRequest hpost]
    exact checked_of_accepted hkey ⟨⟨bytes, hbytes, Except.ok.inj hsign⟩, Except.ok.inj hevent⟩ w

theorem handle_of_not_bears {m : Message} {w : World} (hkey : m.key w ≠ "") (h : ¬ m.Bears w) :
    (m.handle.exec w).2 = w := by
  cases m with
  | toServer s headers body =>
    rw [handle, exec_map, webhook_eq]
    refine checked_of_not_accepted hkey ?_ rfl rfl
    rintro ⟨⟨bytes, hbytes, hgiven⟩, hevent⟩
    exact h ⟨⟨bytes, hbytes, congrArg Except.ok hgiven⟩, congrArg Except.ok hevent⟩
  | toGateway event =>
    rw [handle, exec_map]
    cases hmethod : methodOf event with
    | error e => simp only [handleEvent, exec_bind, Action.exec_ofExcept, hmethod]
    | ok method =>
      cases hheaders : headersOf event with
      | error e => simp only [handleEvent, exec_bind, Action.exec_ofExcept, hmethod, hheaders]
      | ok headers =>
        cases hbody : event.member "body" (.str "") with
        | error e =>
          simp only [handleEvent, exec_bind, Action.exec_ofExcept, hmethod, hheaders, hbody]
        | ok body =>
          by_cases hpost : method = .str "POST"
          · subst hpost
            rw [exec_handleEvent hmethod hheaders hbody]
            refine checked_of_not_accepted hkey ?_ rfl rfl
            rintro ⟨⟨bytes, hbytes, hgiven⟩, hevent⟩
            refine h ⟨⟨bytes, Except.bind_ok_iff.2 ⟨body, hbody, hbytes⟩, ?_⟩, ?_⟩
            · rw [signatureRead, hheaders]
              exact congrArg Except.ok hgiven
            · rw [eventRead, hheaders]
              exact congrArg Except.ok hevent
          · have hother : (method == .str "POST") = false := by
              rw [Bool.eq_false_iff, ne_eq, beq_str_iff]
              exact hpost
            simp only [handleEvent, exec_bind, Action.exec_ofExcept, hmethod, hheaders, hbody,
              hother, Bool.not_false, if_true]
            rfl
  | toFunction r =>
    rw [handle, exec_map]
    by_cases hpost : r.method = "POST"
    · rw [exec_handleRequest hpost]
      refine checked_of_not_accepted hkey ?_ rfl rfl
      rintro ⟨⟨bytes, hbytes, hgiven⟩, hevent⟩
      exact h ⟨⟨bytes, hbytes, congrArg Except.ok hgiven⟩, congrArg Except.ok hevent⟩
    · simp only [handleRequest, ne_eq, hpost, not_false_eq_true, if_true]
      rfl

/-- Only a message with the signature of its body under the key, and with a push as its event,
changes a file or sends anything to a hosting service, whatever the message and the world are. Such
a message, if posted, leads to the rebuild. -/
theorem effects_need_signature (m : Message) (w : World) (hkey : m.key w ≠ "") :
    (Affected w (m.handle.exec w).2 → m.Bears w) ∧
      (m.IsPost → m.Bears w → m.handle.exec w = m.rebuild.exec w) := by
  refine ⟨fun haffected => ?_, fun hpost h => handle_of_bears hkey hpost h⟩
  by_cases h : m.Bears w
  · exact h
  · rw [handle_of_not_bears hkey h] at haffected
    exact absurd haffected (not_affected w)

/-- A push that a gateway reports, with the names of its headers in capitals. -/
def push : Message :=
  .toGateway (.object
    [("httpMethod", .str "POST"), ("body", .str "\x7b\x7d"),
      ("headers", .object
        [("X-Hub-Signature-256", .str
            "sha256=601f34a13f988e6e9f3a8069cc08856e777dd3fbb72f8fe98b9dc72c91b76269"),
          ("X-GitHub-Event", .str "push")])])

/-- A world with a key and no files. -/
def keyed : World :=
  { files := ⟨⟨"/", []⟩, []⟩
    env := [("GITHUB_WEBHOOK_SECRET", "clé"), ("AUTODOCS_SOURCE", "/src"),
      ("AUTODOCS_OUTPUT", "/out")] }

theorem affected_push :
    push.key keyed ≠ "" ∧ Affected keyed (push.handle.exec keyed).2 ∧ push.Bears keyed := by
  have hkey : push.key keyed ≠ "" := by decide +kernel
  have hfiles : Affected keyed (push.handle.exec keyed).2 := .inl (by decide +kernel)
  exact ⟨hkey, hfiles, (effects_need_signature push keyed hkey).1 hfiles⟩

end Message

end Docsmith.Remote
