import DevPilot.Lib.PathText
import DevPilot.Lib.UnifiedDiff

/-!
The canonical form of a path in the comparison of a session's changes with the working
tree, and the part of it below the repository root.
-/

namespace DevPilot.SessionChanges

open PathText
open UnifiedDiff (isLineTerminator)

/-- One segment of `joinCanonicalPath`. -/
def pushSegment (absolute : Bool) (segments : List Text) (segment : Text) : List Text :=
  if segment = [] ∨ segment = dot then segments
  else if segment = dotdot then
    if segments ≠ [] ∧ segments.getLast? ≠ some dotdot then segments.dropLast
    else if absolute then segments
    else segments ++ [dotdot]
  else segments ++ [segment]

def joinCanonicalPath (root remainder : Text) (absolute : Bool) : Text :=
  let segments := (split remainder).foldl (pushSegment absolute) []
  if segments = [] then root
  else if root = [] then joinNames segments
  else if root = ['/'] then '/' :: joinNames segments
  else root ++ joinNames segments

/-- A name up to the next separator, and what comes from there on. -/
def name? (t : Text) : Option (Text × Text) :=
  let name := t.takeWhile (· ≠ '/')
  if name = [] then none else some (name, t.drop name.length)

/-- `(?:\/(.*))?$`: what stands behind the separator, if there is one. -/
def remainder? : Text → Option Text
  | [] => some []
  | '/' :: rest => if rest.any isLineTerminator then none else some rest
  | _ => none

/-- `path.match(/^(\/\/[^/]+\/[^/]+)(?:\/(.*))?$/)`: the share and the rest. -/
def uncMatch : Text → Option (Text × Text)
  | '/' :: '/' :: t => do
      let (server, t) ← name? t
      match t with
      | '/' :: t =>
          let (share, t) ← name? t
          let rest ← remainder? t
          return ('/' :: '/' :: (server ++ '/' :: share), rest)
      | _ => none
  | _ => none

def isDriveLetter (c : Char) : Bool := c.isAlpha

/-- `path.match(/^([a-z]:\/)(.*)$/i)`: the drive and the rest. -/
def driveMatch : Text → Option (Text × Text)
  | letter :: ':' :: '/' :: rest =>
      if isDriveLetter letter && !rest.any isLineTerminator then some ([letter, ':', '/'], rest) else none
  | _ => none

def lowerFirst : Text → Text
  | [] => []
  | c :: t => c.toLower :: t

def canonicalizePath (path : Text) : Text :=
  match uncMatch path with
  | some (root, remainder) => joinCanonicalPath root remainder true
  | none =>
      match driveMatch path with
      | some (root, remainder) => joinCanonicalPath (lowerFirst root) remainder true
      | none =>
          if isAbsolute path then joinCanonicalPath ['/'] (path.drop 1) true
          else joinCanonicalPath [] path false

/-- `/^\/\/[^/]+\/[^/]+$/u.test(path)`. -/
def isShareRoot (path : Text) : Bool :=
  match uncMatch path with
  | some (root, _) => root = path
  | none => false

/-- `/^[a-z]:\/$/i.test(path)`. -/
def isDriveRoot : Text → Bool
  | [letter, ':', '/'] => isDriveLetter letter
  | _ => false

def stripTrailingPathSeparator (path : Text) : Text :=
  if path = ['/'] ∨ isDriveRoot path ∨ isShareRoot path then path
  else (path.reverse.dropWhile (· = '/')).reverse

/-- `/^[A-Z]:/.test(path)`. -/
def hasUpperDrive : Text → Bool
  | letter :: ':' :: _ => letter.isUpper
  | _ => false

def normalizePathToken (value : Text) : Text :=
  let trimmed := trim value
  if trimmed = [] then []
  else
    let withForwardSlashes := trimmed.map fun c => if c = '\\' then '/' else c
    let normalizedDrivePrefix :=
      if hasUpperDrive withForwardSlashes then lowerFirst withForwardSlashes else withForwardSlashes
    stripTrailingPathSeparator (canonicalizePath normalizedDrivePrefix)

/-- `path.replace(/^\.\//, '')`. -/
def dropDotSlash : Text → Text
  | '.' :: '/' :: t => t
  | t => t

def normalizeRepositoryPathToken (value : Text) : Text :=
  let normalized := dropDotSlash (normalizePathToken value)
  if normalized = dot then [] else normalized

/-- `/^[a-z]:\//i.test(path) || path.startsWith('//')`. -/
def usesWindowsPathSemantics : Text → Bool
  | '/' :: '/' :: _ => true
  | letter :: ':' :: '/' :: _ => isDriveLetter letter
  | _ => false

variable (toLowerCase : Text → Text)

def comparablePath (path : Text) : Text :=
  if usesWindowsPathSemantics path then toLowerCase path else path

def deriveRepositoryRelativePath (filePath : Text) (repoRootPath : Option Text) : Option Text :=
  let rootPath := (repoRootPath.map normalizePathToken).getD []
  let filePath := normalizePathToken filePath
  if rootPath = [] ∨ filePath = [] then none
  else
    let comparableRoot := comparablePath toLowerCase rootPath
    let comparableFile := comparablePath toLowerCase filePath
    if comparableFile = comparableRoot then some []
    else if (comparableRoot ++ ['/']).isPrefixOf comparableFile then
      some (normalizeRepositoryPathToken (filePath.drop (rootPath.length + 1)))
    else none

def buildRepositoryPathCandidates (filePath : Text) (previousFilePath repoRootPath : Option Text) :
    List Text :=
  let rawCandidates := (filePath :: previousFilePath.toList).filter fun value => trim value ≠ []
  let candidates := rawCandidates.flatMap fun value =>
    (trim value :: normalizeRepositoryPathToken value ::
      (deriveRepositoryRelativePath toLowerCase value repoRootPath).toList).filter (· ≠ [])
  candidates.eraseDups

end DevPilot.SessionChanges
