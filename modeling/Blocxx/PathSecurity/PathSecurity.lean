import Blocxx.Library.Loop
import Blocxx.Library.Pieces

/-!
This file embeds `PathSecurity.cpp` and the file checks of `PosixPathSecurity.cpp` on POSIX.
The two vectors of characters are stacks: the head of a list is the back of its vector.
-/

namespace Blocxx.PathSecurity
open Library Library.Pieces

abbrev Path := List Char

inductive EFileType where
  | unknown
  | regular
  | directory
  | symlink
  | special
  deriving DecidableEq

/-- The fields of `FileInformation` that the security check reads. -/
structure FileInformation where
  owner : Nat
  group : Nat
  type : EFileType
  permissions : Nat
  deriving DecidableEq

def E_FILE_OTHER_WRITE : Nat := 2

def E_FILE_GROUP_WRITE : Nat := 16

def E_FILE_STICKY : Nat := 512

inductive EFileStatusReturn where
  | fileOk
  | fileBadOwner
  | fileBadOther
  deriving DecidableEq

inductive ESecurity where
  | insecure
  | secureDir
  | secureFile
  deriving DecidableEq

/-- The system calls under `lstat` and `readlink` and the current directory. A call fails with a
`FileSystemException`. -/
structure FileSystem (Failure : Type) where
  getFileInformation : Path → Except Failure FileInformation
  readSymbolicLink : Path → Except Failure Path
  currentWorkingDirectory : Path

inductive Errno where
  | ENOTDIR
  | ELOOP
  deriving DecidableEq

/-- The exceptions of the security check. -/
inductive PathException (Failure : Type) where
  | assertion
  | failure (cause : Failure)
  | errno (path : Path) (code : Errno)
  | message (text : Path)
  deriving DecidableEq

def groupOk (gid : Nat) : Prop := gid = 0

instance (gid : Nat) : Decidable (groupOk gid) := inferInstanceAs (Decidable (_ = _))

/-- No user outside the owner and a root group may write. -/
def checkGrpOth (x : FileInformation) : Prop :=
  x.permissions &&&
    (if groupOk x.group then E_FILE_OTHER_WRITE else E_FILE_OTHER_WRITE ||| E_FILE_GROUP_WRITE) = 0

instance (x : FileInformation) : Decidable (checkGrpOth x) := inferInstanceAs (Decidable (_ = _))

def fileOk (x : FileInformation) (uid : Nat) (fullPath : Bool) : EFileStatusReturn :=
  if x.owner = 0 ∨ x.owner = uid then
    if ¬ (x.type = .symlink ∨ checkGrpOth x ∨
        (x.type = .directory ∧ fullPath = false ∧ x.permissions &&& E_FILE_STICKY ≠ 0)) then
      .fileBadOther
    else .fileOk
  else .fileBadOwner

def getFileStatus (x : FileInformation) (uid : Nat) (isFullPath : Bool) : EFileStatusReturn :=
  fileOk x uid isFullPath

structure PartiallyResolvedPath where
  resolved : List Char
  unresolved : List Char

namespace PartiallyResolvedPath

variable {Failure : Type} (prp : PartiallyResolvedPath)

/-- A failed `BLOCXX_ASSERT` throws. -/
def require (condition : Prop) [Decidable condition] (result : PartiallyResolvedPath) :
    Except (PathException Failure) PartiallyResolvedPath :=
  if condition then .ok result else .error .assertion

/-- The constructor. -/
def new (baseDir : Path) : PartiallyResolvedPath := ⟨baseDir.reverse, []⟩

/-- The loop runs from the end of the path and drops repeated and final separators. -/
def multiPushUnresolved (path : Path) : Except (PathException Failure) PartiallyResolvedPath :=
  require (path.head? ≠ some '/')
    (if path = [] then prp
    else { prp with unresolved := (path.foldr (squeeze '/') ('/' :: prp.unresolved, true)).1 })

/-- Without its first component and the separators after it. -/
def dropComponent : List Char := (prp.unresolved.dropWhile (· ≠ '/')).dropWhile (· = '/')

def popUnresolved : Except (PathException Failure) PartiallyResolvedPath :=
  require (prp.unresolved ≠ []) { prp with unresolved := prp.dropComponent }

def unresolvedEmpty : Bool := prp.unresolved.isEmpty

def unresolvedStartsWithCurdir : Bool :=
  prp.unresolved[0]? = some '.' ∧ (prp.unresolved.length = 1 ∨ prp.unresolved[1]? = some '/')

def unresolvedStartsWithParent : Bool :=
  prp.unresolved[0]? = some '.' ∧ prp.unresolved[1]? = some '.' ∧
    (prp.unresolved.length = 2 ∨ prp.unresolved[2]? = some '/')

def xferComponent : Except (PathException Failure) PartiallyResolvedPath :=
  require (prp.unresolved ≠ [] ∧ 0 < prp.resolved.length ∧
      (prp.resolved.length = 1 ∨ prp.resolved.head? ≠ some '/'))
    { resolved := (prp.unresolved.takeWhile (· ≠ '/')).reverse ++
        (if 1 < prp.resolved.length then '/' :: prp.resolved else prp.resolved)
      unresolved := prp.dropComponent }

/-- The parent of the root is the root. -/
def popResolved : Except (PathException Failure) PartiallyResolvedPath :=
  require (0 < prp.resolved.length ∧ prp.resolved.getLast? = some '/' ∧
      (prp.resolved.length = 1 ∨ prp.resolved.head? ≠ some '/'))
    (if prp.resolved.length = 1 then prp
    else
      let parent := prp.resolved.dropWhile (· ≠ '/')
      { prp with resolved := if 1 < parent.length then parent.tail else parent })

def resetResolved : PartiallyResolvedPath := { prp with resolved := ['/'] }

def getResolved : Path := prp.resolved.reverse

end PartiallyResolvedPath

def MAX_SYMBOLIC_LINKS : Nat := 100

def stripLeadingSlashes (path : Path) : Path := path.dropWhile (· = '/')

def isPathAbsolute (path : Path) : Bool := path.head? = some '/'

/-- A call of the system, with its failure as an exception of the check. -/
def attempt {Failure Answer : Type} :
    Except Failure Answer → Except (PathException Failure) Answer
  | .ok answer => .ok answer
  | .error cause => .error (.failure cause)

/-- The local variables of `path_security` at the head of its loop. -/
structure Walk where
  prp : PartiallyResolvedPath
  statusIfSecure : ESecurity
  numSymbolicLinks : Nat
  fileStatus : EFileStatusReturn

section Walk

variable {Failure : Type} (fs : FileSystem Failure) (uid : Nat)

/-- The splice of a link target in front of the unresolved part. -/
def followLink (prp : PartiallyResolvedPath) (slpath : Path) :
    Except (PathException Failure) PartiallyResolvedPath :=
  if slpath.head? = some '/' then
    prp.resetResolved.multiPushUnresolved (stripLeadingSlashes slpath)
  else do
    let parent ← prp.popResolved
    parent.multiPushUnresolved slpath

/-- The look-up of the component that was just moved to the resolved part. -/
def lookUp (walk : Walk) (prp : PartiallyResolvedPath) :
    Except (PathException Failure) Walk := do
  let st ← attempt (fs.getFileInformation prp.getResolved)
  let fileStatus := getFileStatus st uid prp.unresolvedEmpty
  match st.type with
  | .regular =>
      if prp.unresolvedEmpty = false then .error (.errno prp.getResolved .ENOTDIR)
      else .ok ⟨prp, .secureFile, walk.numSymbolicLinks, fileStatus⟩
  | .symlink =>
      if MAX_SYMBOLIC_LINKS < walk.numSymbolicLinks + 1 then
        .error (.errno prp.getResolved .ELOOP)
      else do
        let slpath ← attempt (fs.readSymbolicLink prp.getResolved)
        let followed ← followLink prp slpath
        .ok ⟨followed, walk.statusIfSecure, walk.numSymbolicLinks + 1, fileStatus⟩
  | .directory => .ok ⟨prp, walk.statusIfSecure, walk.numSymbolicLinks, fileStatus⟩
  | _ => .error (.message
      (prp.getResolved ++ " is not a directory, symbolic link, nor regular file".toList))

/-- One iteration of the loop, when the unresolved part is not empty. -/
def iteration (walk : Walk) : Except (PathException Failure) Walk :=
  if walk.prp.unresolvedStartsWithCurdir then do
    let prp ← walk.prp.popUnresolved
    .ok { walk with prp := prp }
  else if walk.prp.unresolvedStartsWithParent then do
    let popped ← walk.prp.popUnresolved
    let prp ← popped.popResolved
    .ok { walk with prp := prp }
  else do
    let prp ← walk.prp.xferComponent
    lookUp fs uid walk prp

def body (walk : Walk) : Loop.Iteration Walk (Except (PathException Failure) Walk) :=
  if walk.prp.unresolvedEmpty then .stop (.ok walk)
  else
    match iteration fs uid walk with
    | .ok walk => .next walk
    | .error exception => .stop (.error exception)

/-- The code of `path_security` before its loop. -/
def startWalk (baseDir relPath : Path) : Except (PathException Failure) Walk := do
  if baseDir.head? = some '/' ∧ (baseDir.length = 1 ∨ baseDir.getLast? ≠ some '/') ∧
      relPath.head? ≠ some '/' then
    let prp ← (PartiallyResolvedPath.new baseDir).multiPushUnresolved relPath
    if prp.unresolvedEmpty then
      let st ← attempt (fs.getFileInformation prp.getResolved)
      .ok ⟨prp, .secureDir, 0, getFileStatus st uid true⟩
    else .ok ⟨prp, .secureDir, 0, .fileBadOther⟩
  else .error .assertion

/-- The code of `path_security` after its loop. -/
def answer (bdsecure : Bool) (walk : Walk) : ESecurity × Path :=
  (if bdsecure = true ∧ walk.fileStatus = .fileOk then walk.statusIfSecure else .insecure,
    walk.prp.getResolved)

/-- `path_security` with a base directory. The loop gives no answer when the fuel is too short. -/
def pathSecurityFrom (fuel : Nat) (baseDir relPath : Path) (bdsecure : Bool) :
    Option (Except (PathException Failure) (ESecurity × Path)) :=
  match startWalk fs uid baseDir relPath with
  | .error exception => some (.error exception)
  | .ok walk => (Loop.run (body fs uid) fuel walk).map fun last => last.map (answer bdsecure)

/-- `path_security` with an absolute path. -/
def pathSecurity (fuel : Nat) (path : Path) :
    Option (Except (PathException Failure) (ESecurity × Path)) :=
  if isPathAbsolute path then
    let relpath := stripLeadingSlashes path
    match attempt (fs.getFileInformation ['/']) with
    | .error exception => some (.error exception)
    | .ok st =>
        pathSecurityFrom fs uid fuel ['/'] relpath
          (getFileStatus st uid (relpath = []) = .fileOk)
  else some (.error (.message (path ++ " is not an absolute path".toList)))

/-- A relative path starts at the current directory. -/
def abspath (path : Path) : Path :=
  if isPathAbsolute path then path else fs.currentWorkingDirectory ++ '/' :: path

/-- `FileSystem::Path::security`. -/
def security (fuel : Nat) (path : Path) :
    Option (Except (PathException Failure) (ESecurity × Path)) :=
  pathSecurity fs uid fuel (abspath fs path)

/-- `FileSystem::Path::security` with a base directory. -/
def securityFrom (fuel : Nat) (baseDir relPath : Path) :
    Option (Except (PathException Failure) (ESecurity × Path)) :=
  pathSecurityFrom fs uid fuel baseDir relPath true

/-- `FileSystem::Path::realPath` asks for the security of user 0 and drops it. -/
def realPath (fuel : Nat) (path : Path) : Option (Except (PathException Failure) Path) :=
  (if isPathAbsolute path then security fs 0 fuel path
    else securityFrom fs 0 fuel fs.currentWorkingDirectory path).map fun result =>
      result.map Prod.snd

end Walk

end Blocxx.PathSecurity
