/-
Sending pages to a hosting service. Three services are known; each takes its credentials from its
settings or from the environment.
-/
import Docsmith.Digest.Sha1
import Docsmith.Hosting.ContentType
import Docsmith.Json.Reader
import Docsmith.World

namespace Docsmith.Hosting

inductive Target where
  | netlify
  | vercel
  | s3
  deriving DecidableEq, Repr

namespace Target

def named : List (String × Target) := [("netlify", netlify), ("vercel", vercel), ("s3", s3)]

def name : Target → String
  | netlify => "Netlify"
  | vercel => "Vercel"
  | s3 => "S3"

def ofName (name : String) : Except Fault Target :=
  match named.lookup (String.ofList (Text.foldCase name.toList)) with
  | some t => .ok t
  | none => .error (.unknownTarget name)

/-- What a service is set up with: first what it cannot do without and where the environment has
it, then the rest. -/
def settings : Target → List (String × String)
  | netlify => [("token", "NETLIFY_TOKEN"), ("site_id", "NETLIFY_SITE_ID")]
  | vercel => [("token", "VERCEL_TOKEN"), ("project_id", "VERCEL_PROJECT_ID")]
  | s3 => [("bucket", "S3_BUCKET"), ("region", "AWS_REGION")]

end Target

structure Host where
  target : Target
  credential : Value
  detail : Value

namespace Host

def setting (given : List (String × Value)) (env : List (String × String)) (name place default : String) :
    Value :=
  match given.lookup name with
  | some v => if v.isGiven then v else .str ((env.lookup place).getD default)
  | none => .str ((env.lookup place).getD default)

def setUp (t : Target) (given : List (String × Value)) (env : List (String × String)) :
    Except Fault Host :=
  match given.find? fun g => (t.settings.lookup g.1).isNone with
  | some (name, _) => .error (.unknownSetting (t.name ++ "Deployer") name)
  | none =>
    match t.settings with
    | [(thing, place), (other, otherPlace)] =>
      let credential := setting given env thing place ""
      let detail := setting given env other otherPlace (if t = .s3 then "us-east-1" else "")
      if credential.isGiven then .ok ⟨t, credential, detail⟩
      else .error (.noCredential t.name thing place)
    | _ => .error (.unknownTarget t.name)

def ofName (name : String) (given : List (String × Value)) (env : List (String × String)) :
    Except Fault Host := do
  let t ← Target.ofName name
  setUp t given env

end Host

/-! ## Requests -/

def isSuccess (status : Int) : Bool := 200 ≤ status && status < 300

def post (url : String) (headers : List (String × String)) (timeout : Nat) (v : Value) :
    Action String := do
  let sent : Request := ⟨"POST", url, headers, timeout, .json v⟩
  let w ← get
  set { w with requests := w.requests ++ [sent] }
  match w.responses with
  | [] => throw .noResponse
  | r :: rest =>
    modify fun w => { w with responses := rest }
    if isSuccess r.status then pure r.body else throw (.badStatus r.status url)

def put (url : String) (headers : List (String × String)) (timeout : Nat) (bytes : List UInt8) :
    Action Unit := do
  let sent : Request := ⟨"PUT", url, headers, timeout, .bytes bytes⟩
  let w ← get
  set { w with requests := w.requests ++ [sent], putStatuses := w.putStatuses.tail }
  let status := w.putStatuses.head?.getD 200
  if isSuccess status then pure () else throw (.badStatus status url)

def bodyValue (body : String) : Action Value :=
  match Json.read body.toList with
  | .ok v => pure v
  | .error e => throw (e.fault body.toList)

def entry (v : Value) (key : String) : Except Fault Value :=
  match v with
  | .map entries =>
    match Value.lookup entries key with
    | some v => .ok v
    | none => .error (.missingKey key)
  | v => .error (.notIndexable v.kind)

/-- Whether a text is in a value: an item of a list, a key of a map, or a part of a text. -/
def isIn (s : String) : Value → Except Fault Bool
  | .list xs => .ok (xs.any (· == .str s))
  | .map entries => .ok (entries.any fun e => e.1 == .str s)
  | .str t => .ok (Text.occurs s.toList t.toList)
  | v => .error (.notSearchable v.kind)

structure PageFile where
  place : String
  bytes : List UInt8
  deriving DecidableEq, Repr

def pageFiles (tree : FileTree) (dir : Path) : List PageFile :=
  let slashed (s : String) : String := String.ofList (Text.subst ['\\'] ['/'] s.toList)
  let files := (tree.files dir).map fun (names, bytes) =>
    (⟨slashed ("/".intercalate names), bytes⟩ : PageFile)
  files.mergeSort fun a b => !decide (b.place < a.place)

/-! ## Services -/

def netlifyUrl : String := "https://api.netlify.com/api/v1"

def bearer (token : Value) : String × String := ("Authorization", "Bearer " ++ token.display)

def typed (mediaType : String) : String × String := ("Content-Type", mediaType)

def ask (url : String) (headers : List (String × String)) (timeout : Nat) (sent : Value) :
    Action (Value × Value) := do
  let v ← bodyValue (← post url headers timeout sent)
  let id ← Action.ofExcept (entry v "id")
  pure (v, id)

def netlifySite (h : Host) (dir : Path) : Action Value :=
  if h.detail.isGiven then pure h.detail
  else do
    let (_, id) ← ask (netlifyUrl ++ "/sites") [bearer h.credential] 30
      (.object [("name", .str ("autoredocs-" ++ dir.name))])
    pure id

def digestOf (f : PageFile) : String × Value :=
  ("/" ++ f.place, .str (Digest.Sha1.hexDigest f.bytes))

def netlifyUpload (h : Host) (dir : Path) (deploy required : Value) (f : PageFile) : Action Unit := do
  let isWanted ← Action.ofExcept (isIn (Digest.Sha1.hexDigest f.bytes) required)
  if isWanted then
    let file := dir / String.ofList (f.place.toList.dropWhile (· == '/'))
    let bytes ← Action.readBytes file
    put (netlifyUrl ++ "/deploys/" ++ deploy.display ++ "/files/" ++ f.place)
      [bearer h.credential, typed (contentType file)] 60 bytes

/-- Sends the digests of files, then the files that the service asks for. -/
def announce (h : Host) (dir : Path) (site : Value) (files : List PageFile) : Action Value := do
  let (v, deploy) ← ask (netlifyUrl ++ "/sites/" ++ site.display ++ "/deploys")
    [bearer h.credential, typed "application/json"] 30
    (.object [("files", .object (files.map digestOf))])
  let required ← Action.ofExcept (v.member "required" (.list []))
  files.forM (netlifyUpload h dir deploy required)
  let url ← Action.ofExcept (v.member "url" (.str ""))
  Action.ofExcept (v.member "ssl_url" url)

def deployNetlify (h : Host) (dir : Path) : Action Value := do
  let site ← netlifySite h dir
  announce h dir site (← Action.onFiles fun t => pageFiles t dir)

def vercelUrl : String := "https://api.vercel.com"

/-- The text of a file; what is no text becomes a mark. -/
def lossyText (bytes : List UInt8) : String :=
  String.ofList (Text.unifyLineEnds (Text.Utf8.decodeLossy bytes))

def deployVercel (h : Host) (dir : Path) : Action Value := do
  let files ← Action.onFiles fun t => pageFiles t dir
  let payload := [("files", Value.list (files.map fun f =>
      .object [("file", .str f.place), ("data", .str (lossyText f.bytes))])),
    ("name", .str "autoredocs")]
  let payload := if h.detail.isGiven then payload ++ [("project", h.detail)] else payload
  let body ← post (vercelUrl ++ "/v13/deployments")
    [bearer h.credential, typed "application/json"] 60 (.object payload)
  let v ← bodyValue body
  let url ← Action.ofExcept (v.member "url" (.str ""))
  pure (.str ("https://" ++ url.display))

def deployS3 (h : Host) (dir : Path) : Action Value := do
  Action.need .storageClient
  let files ← Action.onFiles fun t => t.files dir
  let uploads := files.map fun (names, _) =>
    let place := "/".intercalate names
    let file := dir / place
    let key := String.ofList (Text.subst ['\\'] ['/'] place.toList)
    (⟨file.text, h.credential.display, key, contentType file, h.detail.display⟩ : Upload)
  let ordered := uploads.mergeSort fun a b => !decide (b.key < a.key)
  modify fun w => { w with uploads := w.uploads ++ ordered }
  pure (.str ("http://" ++ h.credential.display ++ ".s3-website-" ++ h.detail.display ++
    ".amazonaws.com"))

def deploy (h : Host) (dir : Path) : Action Value :=
  match h.target with
  | .netlify => deployNetlify h dir
  | .vercel => deployVercel h dir
  | .s3 => deployS3 h dir

def deployTo (name : String) (dir : Path) : Action Value := do
  let w ← get
  let h ← Action.ofExcept (Host.ofName name [] w.env)
  deploy h dir

end Docsmith.Hosting
