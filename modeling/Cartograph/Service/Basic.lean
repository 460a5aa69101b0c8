import Cartograph.Analysis
import Cartograph.Graph.Codec
import Cartograph.Service.Body
import Cartograph.Service.MediaType
import Cartograph.Settings.Layers
import Cartograph.Text.Blank

/-!
# The service

Requests and what is answered to them. There are two routes: one tells that the service is alive,
and one analyzes a repository of the machine. A path of a repository that begins with a tilde begins
in the home directory.
-/

namespace Cartograph.Service

open Text

/-! ## Requests and responses -/

/-- A request. -/
structure Request where
  method : String
  /-- What is asked for, with the query. -/
  target : String
  mediaType : Option String
  body : String
  deriving DecidableEq, Inhabited, Repr

/-- A response; a body that is not JSON is not kept. -/
structure Response where
  status : Nat
  body : Option Json
  deriving BEq, Inhabited, Repr

/-- A response without a body. -/
def bare (status : Nat) : Response :=
  { status, body := none }

/-- A response that tells what went wrong. -/
def failure (status : Nat) (detail : String) : Response :=
  { status, body := some (.obj [("detail", .str detail)]) }

/-- A response with what was asked for. -/
def success (body : Json) : Response :=
  { status := 200, body := some body }

/-! ## Routes -/

/-- The route that analyzes a repository. -/
def analyzePath : String :=
  "/api/analyze"

/-- The route that tells that the service is alive. -/
def statusPath : String :=
  "/api/status"

/-- The path of a target, without the query. -/
def routeOf (target : String) : String :=
  String.ofList (target.toList.takeWhile fun c => c != '?' && c != '#')

/-! ## Paths of repositories -/

/-- What follows a tilde that stands for the home directory. -/
def afterTilde? (path : String) : Option String :=
  match path.toList with
  | ['~'] => some ""
  | '~' :: '/' :: rest => some (String.ofList (rest.dropWhile (· = '/')))
  | _ => none

/-- The path with the home directory in place of a tilde in front. -/
def expandHome (home? : Option RawText) (path : String) : RawText :=
  match afterTilde? path, home? with
  | some rest, some home => if rest.isEmpty then home else FilePath.join home rest
  | _, _ => path

/-! ## Answers -/

/-- How many bytes a body may have. -/
def bodyLimit : Nat :=
  2097152

/-- Where the service runs: the machine with its files, the working directory, the home directory
and the settings. -/
structure Site where
  host : Host
  tree : FileTree
  here : Place
  home? : Option RawText
  settings : Settings

/-- The answer to a request to analyze the repository at a path. -/
def analyzeRepository (site : Site) (path : String) : Response :=
  let path := trim path
  if path.isEmpty then failure 400 "repo_path is required"
  else
    let expanded := expandHome site.home? path
    if !site.tree.isDirectoryAt site.here expanded then
      failure 400 ("Directory not found: " ++ path)
    else
      match analyze site.host site.tree site.settings site.here expanded with
      | .ok report => success report.toJson
      | .error (.notDirectory p) => failure 400 ("Directory not found: " ++ p.shown)
      | .error e => failure 500 e.message

/-- The answer to a posted request for an analysis. -/
def answerAnalyze (site : Site) (request : Request) : Response :=
  if !request.mediaType.any announcesJson then bare 415
  else if bodyLimit < request.body.utf8ByteSize then bare 413
  else
    match readBody request.body.toList with
    | .ok path => analyzeRepository site path
    | .error .unfit => bare 422
    | .error .malformed => bare 400

/-- The answer to a request for a sign of life. -/
def answerStatus : Response :=
  success (.obj [("status", .str "ok")])

/-- The answer to a request. Any page of the web may ask what it may send. -/
def answer (site : Site) (request : Request) : Response :=
  let route := routeOf request.target
  if request.method = "OPTIONS" then bare 200
  else if route = analyzePath then
    if request.method = "POST" then answerAnalyze site request else bare 405
  else if route = statusPath then
    if request.method = "GET" then answerStatus
    else if request.method = "HEAD" then bare 200
    else bare 405
  else bare 404

end Cartograph.Service
