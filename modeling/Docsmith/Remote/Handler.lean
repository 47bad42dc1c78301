/-
Functions that services run on demand: they take a message of a repository, rebuild the pages when
it reports a push, and send them to a hosting service if one is named.
-/
import Docsmith.Hosting.Deploy
import Docsmith.Remote.Rebuild
import Docsmith.Remote.Signature

namespace Docsmith.Remote

/-- Builds pages where the environment says, and sends them where it says; gives what is to be
answered. -/
def publish (defaultSource : String) : Action Value := do
  let source ← Action.resolve (.ofString (← Action.env "AUTODOCS_SOURCE" defaultSource))
  let output ← Action.resolve (.ofString (← Action.env "AUTODOCS_OUTPUT" "/tmp/docs"))
  let format ← Action.env "AUTODOCS_FORMAT" "html"
  Action.makeFolders output
  let made ← rebuild source output (.ofName format)
  let result := [("status", Value.str "rebuilt"), ("modules", .int made.modules),
    ("files", .int made.files)]
  let target ← Action.env "AUTODOCS_DEPLOY_TARGET" ""
  if target.isEmpty then pure (.object result)
  else
    let url ← Hosting.deployTo target output
    pure (.object (result ++ [("deployed_url", url)]))

def published (defaultSource : String) : Action (Nat × Value) := do
  match ← (publish defaultSource).attempt with
  | .ok v => pure (200, v)
  | .error e => pure (500, .object [("error", .str e.message)])

def bodyBytes : Value → Except Fault (List UInt8)
  | .str s => .ok s.toUTF8.toList
  | .bytes bs => .ok bs
  | v => if v.isGiven then .error .notBytes else .ok []

def secret : Action String := Action.env "GITHUB_WEBHOOK_SECRET" ""

def jsonHeaders : String × Value := ("headers", .object [("Content-Type", .str "application/json")])

/-! ## Events of a gateway -/

def gatewayAnswer (status : Nat) (body : Value) : Value :=
  .object [("statusCode", .int status), jsonHeaders, ("body", .str (Json.compact body))]

def methodOf (event : Value) : Except Fault Value := do
  let context ← event.member "requestContext" (.map [])
  let http ← context.member "http" (.map [])
  let method ← http.member "method" (.str "")
  event.member "httpMethod" method

def headersOf (event : Value) : Except Fault (List (Value × Value)) := do
  let headers ← event.member "headers" .null
  match headers with
  | .map entries =>
    .ok (entries.foldl
      (fun done (k, v) =>
        match k with
        | .str name => Value.insert done (.str (String.ofList (Text.foldCase name.toList))) v
        | k => Value.insert done k v) [])
  | v => if v.isGiven then .error (.noMember v.kind "items") else .ok []

def handleEvent (event : Value) : Action Value := do
  let method ← Action.ofExcept (methodOf event)
  let headers ← Action.ofExcept (headersOf event)
  let body ← Action.ofExcept (event.member "body" (.str ""))
  if !(method == .str "POST") then
    pure (gatewayAnswer 405 (.object [("error", .str "Method not allowed")]))
  else
    let header (name : String) : Value := (Value.lookup headers name).getD (.str "")
    let secret ← secret
    let isTrusted ←
      if secret.isEmpty then pure true
      else Action.ofExcept do
        let bytes ← bodyBytes body
        isSigned secret bytes (header "x-hub-signature-256")
    if !isTrusted then pure (gatewayAnswer 403 (.object [("error", .str "Invalid signature")]))
    else
      let kind := header "x-github-event"
      if !(kind == .str "push") then
        pure (gatewayAnswer 200 (.object [("status", .str "ignored"), ("event", kind)]))
      else
        let (status, v) ← published "/var/task/src"
        pure (gatewayAnswer status v)

/-! ## Requests of a function -/

/-- A request to a function. Its headers are found by their exact names. -/
structure FunctionRequest where
  method : String
  headers : List (Value × Value)
  body : Value

def handleRequest (r : FunctionRequest) : Action Value := do
  let header (name : String) : Value := (Value.lookup r.headers name).getD (.str "")
  let plain (status : Nat) (body : String) : Value :=
    .object [("statusCode", .int status), ("body", .str body)]
  if r.method ≠ "POST" then pure (plain 405 "Method not allowed")
  else
    let secret ← secret
    let isTrusted ←
      if secret.isEmpty then pure true
      else Action.ofExcept do
        let bytes ← bodyBytes r.body
        isSigned secret bytes (header "x-hub-signature-256")
    if !isTrusted then pure (plain 403 "Invalid signature")
    else
      let kind := header "x-github-event"
      if !(kind == .str "push") then
        pure (plain 200 (Json.compact (.object [("status", .str "ignored"), ("event", kind)])))
      else
        let (status, v) ← published "."
        pure (.object
          [("statusCode", .int status), ("body", .str (Json.compact v)), jsonHeaders])

end Docsmith.Remote
