import Mathlib.Data.List.Dedup
import HdmiLos.Broker.Text
import HdmiLos.Separated.Fields

/-!
# Pinned projects and their directories

`prepare-build-manifest.py` adds the proprietary projects of a profile to a captured manifest, and
`sync-exact-manifest.py` checks every project of the result out into a directory of its own, several
at a time. The first compares the paths of the projects as texts; the second reads them as
`PurePosixPath`, which drops `.` components and empty ones. The manifest is the tree of elements
that both programs work on, with the attributes they read.
-/

namespace HdmiLos.Build

open Separated

/-! ## Elements -/

/-- A `project` element. -/
structure Project where
  name : Option Text := none
  path : Option Text := none
  revision : Option Text := none
  remote : Option Text := none
  deriving DecidableEq, Repr

/-- `project.get("path", project.get("name", ""))`. -/
def Project.pathText (p : Project) : Text := p.path.getD (p.name.getD [])

/-- A `remote` element. -/
structure Remote where
  name : Option Text := none
  fetch : Option Text := none
  deriving DecidableEq, Repr

/-- A manifest. -/
structure Manifest where
  /-- The `remote` attribute of the `default` element, if there are such an element and attribute. -/
  defaultRemote : Option Text := none
  remotes : List Remote := []
  projects : List Project := []
  deriving DecidableEq, Repr

/-- A proprietary project of the profile. A field that is missing is empty. -/
structure Item where
  name : Text := []
  path : Text := []
  revision : Text := []
  deriving DecidableEq, Repr

/-- The device profile. -/
structure Profile where
  qcomDisplayPath : Option Text := none
  qcomDisplayRevision : Option Text := none
  /-- Nothing if it is not a list. -/
  proprietaryProjects : Option (List Item) := none

/-- `SHA1.fullmatch`. -/
def isSha1 (text : Text) : Bool :=
  text.length == 40 && text.all fun c => c.isDigit || ('a' ≤ c && c ≤ 'f')

/-! ## Paths -/

/-- `pathlib.PurePosixPath(path).parts` of a relative path. -/
def parts (path : Text) : List Text := (fields (· == '/') path).filter (· != ['.'])

/-- `pathlib.PurePosixPath(path).is_absolute()`. -/
def isAbsolute (path : Text) : Bool := path.head? == some '/'

/-- The condition on a path that both programs check. -/
def isUnsafe (path : Text) : Bool :=
  isAbsolute path || (parts path).isEmpty || (parts path).contains "..".toList

/-! ## Preparing the manifest -/

/-- Why a manifest is refused. -/
inductive PrepareError where
  | duplicatePaths
  | notPinned (project : Project)
  | displayMismatch
  | noProprietary
  | invalidEntry (item : Item)
  | collision (path : Text)
  deriving DecidableEq, Repr

def remoteName : Text := "hdmi-los-proprietary".toList

/-- Adds the remote if it is missing. -/
def addRemote (remotes : List Remote) : List Remote :=
  if remotes.any (·.name == some remoteName) then remotes
  else { name := some remoteName, fetch := some "https://github.com".toList } :: remotes

/-- The project of an entry. -/
def Item.project (i : Item) : Project :=
  { name := some i.name, path := some i.path, revision := some i.revision,
    remote := some remoteName }

/-- The loop over the proprietary projects: the elements to add, with the paths that are taken. -/
def addItems (paths : List Text) : List Item → Except PrepareError (List Project)
  | [] => .ok []
  | item :: items =>
    if item.name.isEmpty || isUnsafe item.path || !isSha1 item.revision then
      .error (.invalidEntry item)
    else if paths.contains item.path then .error (.collision item.path)
    else (addItems (item.path :: paths) items).map (item.project :: ·)

/-- The project of the display. -/
def displayProject (manifest : Manifest) (profile : Profile) : Option Project :=
  manifest.projects.find? fun p => p.path.or p.name == profile.qcomDisplayPath

/-- `prepare-build-manifest.py`. -/
def prepareBuildManifest (manifest : Manifest) (profile : Profile) :
    Except PrepareError Manifest :=
  let paths := manifest.projects.map Project.pathText
  if paths.dedup.length != manifest.projects.length then .error .duplicatePaths
  else
    match manifest.projects.find? fun p => !isSha1 (p.revision.getD []) with
    | some project => .error (.notPinned project)
    | none =>
      if (displayProject manifest profile).map Project.revision !=
          some profile.qcomDisplayRevision then .error .displayMismatch
      else
        match profile.proprietaryProjects with
        | none => .error .noProprietary
        | some items =>
          if items.isEmpty then .error .noProprietary
          else (addItems paths items).map fun added =>
            { manifest with remotes := addRemote manifest.remotes,
                            projects := manifest.projects ++ added }

/-! ## Checking the projects out -/

/-- Why a checkout is refused. -/
inductive SyncError where
  | noDefaultRemote
  | unsafePath (path : Text)
  | notPinned (path revision : Text)
  | unknownRemote (path remote : Text)
  deriving DecidableEq, Repr

/-- What a worker is given for a project. -/
structure SyncItem where
  path : Text
  target : Text
  legacyGitdir : Text
  revision : Text
  url : Text
  deriving DecidableEq, Repr

/-- The path with these components. -/
def absolute (components : List Text) : Text := '/' :: joined '/' components

/-- The resolved directory that the projects are checked out into. -/
structure Tree where
  components : List Text
  plain : ∀ part ∈ components, part ≠ [] ∧ ∀ c ∈ part, (c == '/') = false

/-- The components with `.git` added to the last one. -/
def gitSuffixed : List Text → List Text
  | [] => []
  | [last] => [last ++ ".git".toList]
  | first :: components => first :: gitSuffixed components

/-- `remotes.get(name)`: the fetch URL of the last remote of that name. -/
def fetchOf (remotes : List Remote) (name : Text) : Option Text :=
  (remotes.reverse.find? (·.name == some name)).bind Remote.fetch

/-- `f"{fetch.rstrip('/')}/{name.lstrip('/')}"`, with the fetch URL `..` made explicit. -/
def urlOf (fetch name : Text) : Text :=
  let fetch := if fetch == "..".toList then "https://github.com".toList else fetch
  (fetch.reverse.dropWhile (· == '/')).reverse ++ '/' :: name.dropWhile (· == '/')

/-- The loop of `main` for one project. -/
def syncItem (tree : Tree) (manifest : Manifest) (defaultRemote : Text) (p : Project) :
    Except SyncError SyncItem :=
  let name := p.name.getD []
  let path := p.pathText
  let revision := p.revision.getD []
  let remote := p.remote.getD defaultRemote
  if isUnsafe path then .error (.unsafePath path)
  else if !isSha1 revision then .error (.notPinned (joined '/' (parts path)) revision)
  else
    match fetchOf manifest.remotes remote with
    | none => .error (.unknownRemote (joined '/' (parts path)) remote)
    | some fetch =>
      if fetch.isEmpty then .error (.unknownRemote (joined '/' (parts path)) remote)
      else .ok
        { path := joined '/' (parts path)
          target := absolute (tree.components ++ parts path)
          legacyGitdir := absolute (tree.components ++ [".repo".toList, "projects".toList] ++
            gitSuffixed (parts path))
          revision := revision
          url := urlOf fetch name }

/-- `main` up to the workers. -/
def syncItems (tree : Tree) (manifest : Manifest) : Except SyncError (List SyncItem) :=
  match manifest.defaultRemote with
  | none => .error .noDefaultRemote
  | some defaultRemote =>
    if defaultRemote.isEmpty then .error .noDefaultRemote
    else manifest.projects.mapM (syncItem tree manifest defaultRemote)

/-- `completed[path] = revision`. -/
def setCompleted (completed : List (Text × Text)) (item : SyncItem) : List (Text × Text) :=
  if completed.any (·.1 == item.path) then
    completed.map fun entry => if entry.1 == item.path then (item.path, item.revision) else entry
  else completed ++ [(item.path, item.revision)]

/-- The map that is recorded when the workers have finished in the given order. -/
def recorded (finished : List SyncItem) : List (Text × Text) := finished.foldl setCompleted []

/-! ## One directory for each project -/

/-- No two projects have the same directory, and the recorded map has one entry for each project,
    whatever the order in which they are finished. -/
structure Separate (items : List SyncItem) : Prop where
  targets : (items.map SyncItem.target).Nodup
  recorded : ∀ finished, finished.Perm items →
    recorded finished = finished.map fun item => (item.path, item.revision)

/-- No two projects spell one path differently. -/
def SpeltOnce (projects : List Project) : Prop :=
  ∀ p ∈ projects, ∀ p' ∈ projects, parts p.pathText = parts p'.pathText → p.pathText = p'.pathText

instance (projects : List Project) : Decidable (SpeltOnce projects) :=
  inferInstanceAs (Decidable (∀ _ ∈ _, _))

end HdmiLos.Build
