/-
What can go wrong, by cause. The wording of each is in `Fault.message`.
-/
import Docsmith.Text.Quote
import Docsmith.Text.Utf8

namespace Docsmith

inductive Package where
  | chatClient
  | storageClient
  | webFramework
  | webServer
  deriving DecidableEq, Repr

/-- What gives out when a text nests too deep to be read. -/
inductive Overflow where
  | stack
  | memory
  deriving DecidableEq, Repr

/-- A failure, by cause. Where a value of the wrong kind is the cause, the kind is given by its
name. -/
inductive Fault where
  | unnamedParam
  | positionOutOfText
  | tooDeep
  | overflow (what : Overflow)
  | badMarkup (message : String)
  | backslashInField
  | tooManyDigits
  | tooManyDigitsRead (count : Nat)
  | noSuchFile (path : String)
  | notAFolder (path : String)
  | isAFolder (path : String)
  | fileExists (path : String)
  | undecodable (error : Text.Utf8.Error)
  | notBelow (path base : String)
  | noMember (kind member : String)
  | notJoinable (kind : String)
  | notAPath (kind : String)
  | notIterable (kind : String)
  | notSearchable (kind : String)
  | unhashable (kind : String)
  | notIndexable (kind : String)
  | notAssignable (kind : String)
  | removalFromList
  | missingKey (key : String)
  | noSubstring
  | noChatKey
  | chatFailed (message : String)
  | noResponse
  | badStatus (status : Int) (url : String)
  | badJson (message : String)
  | missingPackage (package : Package)
  | noCredential (service thing place : String)
  | unknownTarget (target : String)
  | unknownSetting (service setting : String)
  | nonAsciiSignature
  | signatureKind (kind : String)
  | notBytes
  | notWritable (kind : String)
  | notAKey (kind : String)
  | refused (status : Nat) (detail : String)
  | noPages (path : String)
  | rebuildFailed (message : String)
  | exit (code : Nat)
  deriving DecidableEq, Repr

namespace Fault

/-- Whether a failure is about what was given rather than about doing something with it. -/
def isInvalid : Fault → Bool
  | backslashInField | tooManyDigits | tooManyDigitsRead _ | undecodable _ | notBelow _ _
  | noSubstring | noChatKey | badJson _ | noCredential _ _ _ | unknownTarget _ => true
  | _ => false

def packageMessage : Package → String
  | .chatClient => "No module named 'openai'"
  | .storageClient => "boto3 is required for S3 deploy. Install with: pip install boto3"
  | .webFramework =>
    "FastAPI is required for server mode. Install with: pip install autoredocs[server]"
  | .webServer => "No module named 'uvicorn'"

def reasons : List (Int × String) :=
  [(100, "Continue"), (101, "Switching Protocols"), (102, "Processing"), (103, "Early Hints"),
    (300, "Multiple Choices"), (301, "Moved Permanently"), (302, "Found"), (303, "See Other"),
    (304, "Not Modified"), (305, "Use Proxy"), (307, "Temporary Redirect"),
    (308, "Permanent Redirect"), (400, "Bad Request"), (401, "Unauthorized"),
    (402, "Payment Required"), (403, "Forbidden"), (404, "Not Found"),
    (405, "Method Not Allowed"), (406, "Not Acceptable"), (407, "Proxy Authentication Required"),
    (408, "Request Timeout"), (409, "Conflict"), (410, "Gone"), (411, "Length Required"),
    (412, "Precondition Failed"), (413, "Request Entity Too Large"),
    (414, "Request-URI Too Long"), (415, "Unsupported Media Type"),
    (416, "Requested Range Not Satisfiable"), (417, "Expectation Failed"), (418, "I'm a teapot"),
    (421, "Misdirected Request"), (422, "Unprocessable Entity"), (423, "Locked"),
    (424, "Failed Dependency"), (425, "Too Early"), (426, "Upgrade Required"),
    (428, "Precondition Required"), (429, "Too Many Requests"),
    (431, "Request Header Fields Too Large"), (451, "Unavailable For Legal Reasons"),
    (500, "Internal Server Error"), (501, "Not Implemented"), (502, "Bad Gateway"),
    (503, "Service Unavailable"), (504, "Gateway Timeout"), (505, "HTTP Version Not Supported"),
    (506, "Variant Also Negotiates"), (507, "Insufficient Storage"), (508, "Loop Detected"),
    (510, "Not Extended"), (511, "Network Authentication Required")]

def statusMessage (status : Int) (url : String) : String :=
  let kind :=
    if status / 100 = 1 then "Informational response"
    else if status / 100 = 3 then "Redirect response"
    else if status / 100 = 4 then "Client error"
    else if status / 100 = 5 then "Server error"
    else "Invalid status code"
  kind ++ " '" ++ toString status ++ " " ++ (reasons.lookup status).getD "" ++ "' for url '" ++ url ++
    "'\nFor more information check: https://developer.mozilla.org/en-US/docs/Web/HTTP/Status/" ++
    toString status

def digitsMessage (found : String) : String :=
  "Exceeds the limit (4300 digits) for integer string conversion" ++ found ++
    "; use sys.set_int_max_str_digits() to increase the limit"

def message : Fault → String
  | unnamedParam => "list index out of range"
  | positionOutOfText => "string index out of range"
  | tooDeep => "maximum recursion depth exceeded"
  | overflow .stack => "maximum recursion depth exceeded during ast construction"
  | overflow .memory => ""
  | badMarkup message => message
  | backslashInField => "Unable to avoid backslash in f-string expression part"
  | tooManyDigits => digitsMessage ""
  | tooManyDigitsRead count => digitsMessage (": value has " ++ toString count ++ " digits")
  | noSuchFile path => "[Errno 2] No such file or directory: " ++ Text.quote path
  | notAFolder path => "[Errno 20] Not a directory: " ++ Text.quote path
  | isAFolder path => "[Errno 21] Is a directory: " ++ Text.quote path
  | fileExists path => "[Errno 17] File exists: " ++ Text.quote path
  | undecodable error => error.message
  | notBelow path base =>
    Text.quote path ++ " is not in the subpath of " ++ Text.quote base ++
      " OR one path is relative and the other is absolute."
  | noMember kind member => "'" ++ kind ++ "' object has no attribute '" ++ member ++ "'"
  | notJoinable kind => "unsupported operand type(s) for /: 'PosixPath' and '" ++ kind ++ "'"
  | notAPath kind =>
    if kind = "bytes" then
      "argument should be a str object or an os.PathLike object returning str, not <class 'bytes'>"
    else "expected str, bytes or os.PathLike object, not " ++ kind
  | notIterable kind => "'" ++ kind ++ "' object is not iterable"
  | notSearchable kind => "argument of type '" ++ kind ++ "' is not iterable"
  | unhashable kind => "unhashable type: '" ++ kind ++ "'"
  | notIndexable kind =>
    if kind = "list" then "list indices must be integers or slices, not str"
    else if kind = "str" then "string indices must be integers, not 'str'"
    else "'" ++ kind ++ "' object is not subscriptable"
  | notAssignable kind =>
    if kind = "list" then "list indices must be integers or slices, not str"
    else "'" ++ kind ++ "' object does not support item assignment"
  | removalFromList => "pop expected at most 1 argument, got 2"
  | missingKey key => Text.quote key
  | noSubstring => "substring not found"
  | noChatKey => "Groq API key not found. Set GROQ_API_KEY in your .env or pass via config."
  | chatFailed message => message
  | noResponse => "no response left"
  | badStatus status url => statusMessage status url
  | badJson message => message
  | missingPackage package => packageMessage package
  | noCredential service thing place =>
    service ++ " " ++ thing ++ " required. Set " ++ place ++ " env var."
  | unknownTarget target =>
    "Unknown deploy target '" ++ target ++ "'. Options: netlify, vercel, s3"
  | unknownSetting service setting =>
    service ++ ".__init__() got an unexpected keyword argument '" ++ setting ++ "'"
  | nonAsciiSignature => "comparing strings with non-ASCII characters is not supported"
  | signatureKind kind =>
    "unsupported operand types(s) or combination of types: '" ++ kind ++ "' and 'str'"
  | notBytes => "object supporting the buffer API required"
  | notWritable kind => "Object of type " ++ kind ++ " is not JSON serializable"
  | notAKey kind => "keys must be str, int, float, bool or None, not " ++ kind
  | refused _ detail => detail
  | noPages path => "Directory '" ++ path ++ "' does not exist"
  | rebuildFailed message => message
  | exit code => toString code

end Fault

end Docsmith
