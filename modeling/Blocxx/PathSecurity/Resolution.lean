import Blocxx.PathSecurity.PathSecurity

/-!
This file states the reference resolution of a path, component by component, and what it keeps, and
the file systems that are finite trees.
-/

namespace Blocxx.PathSecurity
open Library Library.Pieces

abbrev Name := List Char

/-- The absolute path with these components. -/
def render (names : List Name) : Path :=
  if names = [] then ['/'] else preceded '/' names

/-- One directory entry that the resolution looked up. `last` says that no component followed. -/
structure Visit where
  entry : List Name
  info : FileInformation
  last : Bool

/-- The components of the real path and the entries on the way, in order. -/
structure Resolution where
  names : List Name
  visits : List Visit

def Resolution.visit (visit : Visit) (resolution : Resolution) : Resolution :=
  { resolution with visits := visit :: resolution.visits }

variable {Failure : Type} {fs : FileSystem Failure}

/-- This function resolves the pending components below a real directory. A parent is the
physical parent, the parent of the root is the root, and an absolute link target starts at the
root. The budget is the number of links that may still be followed. -/
def resolve (fs : FileSystem Failure) (budget : Nat) (dir pending : List Name) :
    Except (PathException Failure) Resolution :=
  match pending with
  | [] => .ok ⟨dir, []⟩
  | name :: rest =>
      if name = ['.'] then resolve fs budget dir rest
      else if name = ['.', '.'] then resolve fs budget dir.dropLast rest
      else
        let entry := dir ++ [name]
        match fs.getFileInformation (render entry) with
        | .error cause => .error (.failure cause)
        | .ok info =>
            let visit : Visit := ⟨entry, info, rest.isEmpty⟩
            match info.type, budget with
            | .regular, _ =>
                if rest = [] then .ok ⟨entry, [visit]⟩ else .error (.errno (render entry) .ENOTDIR)
            | .directory, budget => (resolve fs budget entry rest).map (.visit visit)
            | .symlink, 0 => .error (.errno (render entry) .ELOOP)
            | .symlink, left + 1 =>
                match fs.readSymbolicLink (render entry) with
                | .error cause => .error (.failure cause)
                | .ok target =>
                    (resolve fs left (if target.head? = some '/' then [] else dir)
                      (pieces '/' target ++ rest)).map (.visit visit)
            | _, _ => .error (.message (render entry ++
                " is not a directory, symbolic link, nor regular file".toList))
  termination_by (budget, pending.length)

/-- This relation is `resolve`, with one rule for each of its branches. -/
inductive Resolves (fs : FileSystem Failure) :
    Nat → List Name → List Name → Except (PathException Failure) Resolution → Prop
  | done (budget : Nat) (dir : List Name) : Resolves fs budget dir [] (.ok ⟨dir, []⟩)
  | curdir {budget : Nat} {dir rest : List Name}
      {result : Except (PathException Failure) Resolution}
      (later : Resolves fs budget dir rest result) : Resolves fs budget dir (['.'] :: rest) result
  | parent {budget : Nat} {dir rest : List Name}
      {result : Except (PathException Failure) Resolution}
      (later : Resolves fs budget dir.dropLast rest result) :
      Resolves fs budget dir (['.', '.'] :: rest) result
  | missing {budget : Nat} {dir rest : List Name} {name : Name} {cause : Failure}
      (plain : name ≠ ['.'] ∧ name ≠ ['.', '.'])
      (fails : fs.getFileInformation (render (dir ++ [name])) = .error cause) :
      Resolves fs budget dir (name :: rest) (.error (.failure cause))
  | file {budget : Nat} {dir : List Name} {name : Name} {info : FileInformation}
      (plain : name ≠ ['.'] ∧ name ≠ ['.', '.'])
      (found : fs.getFileInformation (render (dir ++ [name])) = .ok info)
      (regular : info.type = .regular) :
      Resolves fs budget dir [name] (.ok ⟨dir ++ [name], [⟨dir ++ [name], info, true⟩]⟩)
  | notDirectory {budget : Nat} {dir rest : List Name} {name : Name} {info : FileInformation}
      (plain : name ≠ ['.'] ∧ name ≠ ['.', '.'])
      (found : fs.getFileInformation (render (dir ++ [name])) = .ok info)
      (regular : info.type = .regular) (more : rest ≠ []) :
      Resolves fs budget dir (name :: rest) (.error (.errno (render (dir ++ [name])) .ENOTDIR))
  | directory {budget : Nat} {dir rest : List Name} {name : Name} {info : FileInformation}
      {result : Except (PathException Failure) Resolution}
      (plain : name ≠ ['.'] ∧ name ≠ ['.', '.'])
      (found : fs.getFileInformation (render (dir ++ [name])) = .ok info)
      (directory : info.type = .directory)
      (later : Resolves fs budget (dir ++ [name]) rest result) :
      Resolves fs budget dir (name :: rest)
        (result.map (.visit ⟨dir ++ [name], info, rest.isEmpty⟩))
  | tooManyLinks {dir rest : List Name} {name : Name} {info : FileInformation}
      (plain : name ≠ ['.'] ∧ name ≠ ['.', '.'])
      (found : fs.getFileInformation (render (dir ++ [name])) = .ok info)
      (symlink : info.type = .symlink) :
      Resolves fs 0 dir (name :: rest) (.error (.errno (render (dir ++ [name])) .ELOOP))
  | unreadable {left : Nat} {dir rest : List Name} {name : Name} {info : FileInformation}
      {cause : Failure} (plain : name ≠ ['.'] ∧ name ≠ ['.', '.'])
      (found : fs.getFileInformation (render (dir ++ [name])) = .ok info)
      (symlink : info.type = .symlink)
      (fails : fs.readSymbolicLink (render (dir ++ [name])) = .error cause) :
      Resolves fs (left + 1) dir (name :: rest) (.error (.failure cause))
  | link {left : Nat} {dir rest : List Name} {name : Name} {info : FileInformation} {target : Path}
      {result : Except (PathException Failure) Resolution}
      (plain : name ≠ ['.'] ∧ name ≠ ['.', '.'])
      (found : fs.getFileInformation (render (dir ++ [name])) = .ok info)
      (symlink : info.type = .symlink)
      (reads : fs.readSymbolicLink (render (dir ++ [name])) = .ok target)
      (later : Resolves fs left (if target.head? = some '/' then [] else dir)
        (pieces '/' target ++ rest) result) :
      Resolves fs (left + 1) dir (name :: rest)
        (result.map (.visit ⟨dir ++ [name], info, rest.isEmpty⟩))
  | special {budget : Nat} {dir rest : List Name} {name : Name} {info : FileInformation}
      (plain : name ≠ ['.'] ∧ name ≠ ['.', '.'])
      (found : fs.getFileInformation (render (dir ++ [name])) = .ok info)
      (special : info.type = .special ∨ info.type = .unknown) :
      Resolves fs budget dir (name :: rest) (.error (.message (render (dir ++ [name]) ++
        " is not a directory, symbolic link, nor regular file".toList)))

/-- The function follows the rules. -/
theorem resolves (fs : FileSystem Failure) (budget : Nat) (dir pending : List Name) :
    Resolves fs budget dir pending (resolve fs budget dir pending) := by
  induction budget, dir, pending using resolve.induct fs with
  | case1 budget dir =>
      rw [resolve]
      exact .done budget dir
  | case2 budget dir rest ih =>
      rw [resolve, if_pos rfl]
      exact .curdir ih
  | case3 budget dir rest notCurdir ih =>
      rw [resolve, if_neg notCurdir, if_pos rfl]
      exact .parent ih
  | case4 budget dir name rest notCurdir notParent entry cause fails =>
      rw [resolve, if_neg notCurdir, if_neg notParent]
      simp only [fails, entry]
      exact .missing ⟨notCurdir, notParent⟩ fails
  | case5 budget dir name notCurdir notParent entry info found regular =>
      rw [resolve, if_neg notCurdir, if_neg notParent]
      simp only [found, regular, entry]
      exact .file ⟨notCurdir, notParent⟩ found regular
  | case6 budget dir name rest notCurdir notParent entry info found regular more =>
      rw [resolve, if_neg notCurdir, if_neg notParent]
      simp only [found, regular, more, entry]
      exact .notDirectory ⟨notCurdir, notParent⟩ found regular more
  | case7 dir name rest notCurdir notParent entry info found budget directory ih =>
      rw [resolve, if_neg notCurdir, if_neg notParent]
      simp only [found, directory, entry]
      exact .directory ⟨notCurdir, notParent⟩ found directory ih
  | case8 dir name rest notCurdir notParent entry info found symlink =>
      rw [resolve, if_neg notCurdir, if_neg notParent]
      simp only [found, symlink, entry]
      exact .tooManyLinks ⟨notCurdir, notParent⟩ found symlink
  | case9 dir name rest notCurdir notParent entry info found left symlink cause fails =>
      rw [resolve, if_neg notCurdir, if_neg notParent]
      simp only [found, symlink, fails, entry]
      exact .unreadable ⟨notCurdir, notParent⟩ found symlink fails
  | case10 dir name rest notCurdir notParent entry info found left symlink target reads ih =>
      rw [resolve, if_neg notCurdir, if_neg notParent]
      simp only [found, symlink, reads, entry]
      exact .link ⟨notCurdir, notParent⟩ found symlink reads ih
  | case11 budget dir name rest notCurdir notParent entry info found notRegular notDirectory
      notLast notLink =>
      rw [resolve, if_neg notCurdir, if_neg notParent]
      have special : info.type = .special ∨ info.type = .unknown := by
        cases type : info.type with
        | regular => exact absurd type notRegular
        | directory => exact absurd type notDirectory
        | symlink =>
            cases budget with
            | zero => exact (notLast type rfl).elim
            | succ left => exact (notLink left type rfl).elim
        | special => exact .inl rfl
        | unknown => exact .inr rfl
      have rule : Resolves fs budget dir (name :: rest) _ :=
        .special ⟨notCurdir, notParent⟩ found special
      rcases special with type | type
      · simp only [found, type, entry]
        exact rule
      · simp only [found, type, entry]
        exact rule

/-- The reference meaning of an absolute path. The root is looked up first. -/
def reference (fs : FileSystem Failure) (path : Path) :
    Except (PathException Failure) Resolution :=
  match fs.getFileInformation ['/'] with
  | .error cause => .error (.failure cause)
  | .ok _ => resolve fs MAX_SYMBOLIC_LINKS [] (pieces '/' path)

/-- A component of a real path. -/
structure IsName (name : Name) : Prop where
  piece : IsPiece '/' name
  notCurdir : name ≠ ['.']
  notParent : name ≠ ['.', '.']

/-- The components are names, and each entry on the way exists and is of an allowed type. -/
structure Way (fs : FileSystem Failure) (allowed : EFileType → Prop) (names : List Name) :
    Prop where
  isName : ∀ name ∈ names, IsName name
  entries : ∀ above, above <+: names → above ≠ [] →
    ∃ info, fs.getFileInformation (render above) = .ok info ∧ allowed info.type

section Way

variable {allowed : EFileType → Prop} {names : List Name}

theorem Way.nil : Way fs allowed [] where
  isName := by simp
  entries := by
    intro above inside notEmpty
    exact absurd (List.prefix_nil.mp inside) notEmpty

theorem Way.dropLast (way : Way fs allowed names) : Way fs allowed names.dropLast where
  isName name member := way.isName name (List.mem_of_mem_dropLast member)
  entries above inside := way.entries above (inside.trans (List.dropLast_prefix names))

/-- A way goes on to an entry that was looked up. -/
theorem Way.concat (way : Way fs allowed names) {name : Name} (isName : IsName name)
    {info : FileInformation} (found : fs.getFileInformation (render (names ++ [name])) = .ok info)
    (fits : allowed info.type) : Way fs allowed (names ++ [name]) where
  isName := by
    intro other member
    rcases List.mem_append.mp member with old | new
    · exact way.isName other old
    · rwa [List.mem_singleton.mp new]
  entries := by
    intro above inside notEmpty
    rcases List.prefix_concat_iff.mp inside with rfl | before
    · exact ⟨info, found, fits⟩
    · exact way.entries above before notEmpty

theorem Way.weaken {weaker : EFileType → Prop} (way : Way fs allowed names)
    (implies : ∀ type, allowed type → weaker type) : Way fs weaker names where
  isName := way.isName
  entries := by
    intro above inside notEmpty
    obtain ⟨info, found, fits⟩ := way.entries above inside notEmpty
    exact ⟨info, found, implies _ fits⟩

end Way

variable {budget : Nat} {dir pending : List Name}
  {result : Except (PathException Failure) Resolution} {resolution : Resolution}

/-- A visit is added to a resolution that succeeds. -/
theorem map_visit_eq_ok {visit : Visit} :
    result.map (.visit visit) = .ok resolution ↔
      ∃ later, result = .ok later ∧ resolution = later.visit visit := by
  cases result with
  | error exception => simp [Except.map]
  | ok later => simp [Except.map, eq_comm]

/-- No entry on the way of a real path is a symbolic link. -/
theorem Resolves.way (resolves : Resolves fs budget dir pending result)
    (way : Way fs (· = .directory) dir) (isPiece : ∀ name ∈ pending, IsPiece '/' name)
    (ok : result = .ok resolution) : Way fs (· ≠ .symlink) resolution.names := by
  have isName {name : Name} {rest : List Name} (plain : name ≠ ['.'] ∧ name ≠ ['.', '.'])
      (isPiece : ∀ part ∈ name :: rest, IsPiece '/' part) : IsName name :=
    ⟨isPiece name List.mem_cons_self, plain.1, plain.2⟩
  induction resolves generalizing resolution with
  | done budget dir =>
      obtain rfl : _ = resolution := Except.ok.inj ok
      exact way.weaken fun type isDirectory => by simp [isDirectory]
  | curdir later ih =>
      exact ih way (fun name member => isPiece name (List.mem_cons_of_mem _ member)) ok
  | parent later ih =>
      exact ih way.dropLast (fun name member => isPiece name (List.mem_cons_of_mem _ member)) ok
  | file plain found regular =>
      obtain rfl : _ = resolution := Except.ok.inj ok
      have before : Way fs (· ≠ .symlink) _ :=
        way.weaken fun type isDirectory => by simp [isDirectory]
      exact before.concat (isName plain isPiece) found (by simp [regular])
  | directory plain found directory later ih =>
      obtain ⟨rest, ends, rfl⟩ := map_visit_eq_ok.mp ok
      have real := ih (way.concat (isName plain isPiece) found directory)
        (fun name member => isPiece name (List.mem_cons_of_mem _ member)) ends
      exact real
  | @link left dir rest name info target result plain found symlink reads later ih =>
      obtain ⟨after, ends, rfl⟩ := map_visit_eq_ok.mp ok
      have base : Way fs (· = .directory) (if target.head? = some '/' then [] else dir) := by
        split
        · exact .nil
        · exact way
      have spliced : ∀ part ∈ pieces '/' target ++ rest, IsPiece '/' part := by
        intro part member
        rcases List.mem_append.mp member with inTarget | inRest
        · exact isPiece_of_mem inTarget
        · exact isPiece part (List.mem_cons_of_mem _ inRest)
      have real := ih base spliced ends
      exact real
  | missing | notDirectory | tooManyLinks | unreadable | special => cases ok

/-- The visited entries were looked up, and at most `budget` of them are links. -/
theorem Resolves.visits (resolves : Resolves fs budget dir pending result)
    (ok : result = .ok resolution) :
    (∀ visit ∈ resolution.visits, fs.getFileInformation (render visit.entry) = .ok visit.info) ∧
      resolution.visits.countP (·.info.type = .symlink) ≤ budget := by
  induction resolves generalizing resolution with
  | done budget dir =>
      obtain rfl : _ = resolution := Except.ok.inj ok
      simp
  | curdir later ih => exact ih ok
  | parent later ih => exact ih ok
  | file plain found regular =>
      obtain rfl : _ = resolution := Except.ok.inj ok
      simp [found, regular]
  | directory plain found directory later ih =>
      obtain ⟨rest, ends, rfl⟩ := map_visit_eq_ok.mp ok
      obtain ⟨lookedUp, links⟩ := ih ends
      exact ⟨by simpa [Resolution.visit, found] using lookedUp,
        by simpa [Resolution.visit, directory] using links⟩
  | link plain found symlink reads later ih =>
      obtain ⟨rest, ends, rfl⟩ := map_visit_eq_ok.mp ok
      obtain ⟨lookedUp, links⟩ := ih ends
      exact ⟨by simpa [Resolution.visit, found] using lookedUp,
        by simpa [Resolution.visit, symlink] using links⟩
  | missing | notDirectory | tooManyLinks | unreadable | special => cases ok

theorem render_head (names : List Name) : (render names).head? = some '/' := by
  cases names with
  | nil => rfl
  | cons name rest => rfl

/-- A rendered path ends with the last letter of its last component. -/
theorem render_getLast {names : List Name} (isPiece : ∀ name ∈ names, IsPiece '/' name) :
    render names = ['/'] ∨ (render names).getLast? ≠ some '/' := by
  rcases List.eq_nil_or_concat names with rfl | ⟨before, last, rfl⟩
  · exact .inl rfl
  · right
    rw [List.concat_eq_append] at isPiece ⊢
    obtain ⟨notEmpty, clean⟩ := isPiece last (by simp)
    rw [render, if_neg (by simp), preceded_concat, List.getLast?_append_of_ne_nil _ (by simp),
      List.getLast?_cons, List.getLast?_eq_some_getLast notEmpty]
    intro ends
    apply clean
    rw [← Option.some.inj ends]
    exact List.getLast_mem notEmpty

theorem pieces_render {names : List Name} (isPiece : ∀ name ∈ names, IsPiece '/' name) :
    pieces '/' (render names) = names := by
  cases names with
  | nil => simp [render]
  | cons name rest =>
      rw [render, if_neg (by simp)]
      exact pieces_preceded isPiece

/-- The canonical form that the documentation of `realPath` describes. -/
structure Canonical (fs : FileSystem Failure) (path : Path) : Prop where
  absolute : path.head? = some '/'
  separators : path = render (pieces '/' path)
  trailing : path = ['/'] ∨ path.getLast? ≠ some '/'
  names : ∀ name ∈ pieces '/' path, name ≠ ['.'] ∧ name ≠ ['.', '.']
  links : ∀ above, above <+: pieces '/' path → above ≠ [] →
    ∃ info, fs.getFileInformation (render above) = .ok info ∧ info.type ≠ .symlink

theorem Way.canonical {names : List Name} (way : Way fs (· ≠ .symlink) names) :
    Canonical fs (render names) := by
  have isPiece : ∀ name ∈ names, IsPiece '/' name :=
    fun name member => (way.isName name member).piece
  have equal := pieces_render isPiece
  exact {
    absolute := render_head names
    separators := by rw [equal]
    trailing := render_getLast isPiece
    names := by
      rw [equal]
      intro name member
      have isName := way.isName name member
      exact ⟨isName.notCurdir, isName.notParent⟩
    links := by
      rw [equal]
      exact way.entries }

/-- A finite tree of directories, regular files, and symbolic links. -/
inductive FileTree where
  | file (owner group permissions : Nat)
  | symlink (owner group permissions : Nat) (target : Path)
  | directory (owner group permissions : Nat) (entries : List (Name × FileTree))

inductive LookupFailure where
  | ENOENT
  | EINVAL
  deriving DecidableEq

namespace FileTree

def info : FileTree → FileInformation
  | .file owner group permissions => ⟨owner, group, .regular, permissions⟩
  | .symlink owner group permissions _ => ⟨owner, group, .symlink, permissions⟩
  | .directory owner group permissions _ => ⟨owner, group, .directory, permissions⟩

/-- The node below these directories. No link is followed. -/
def find : FileTree → List Name → Option FileTree
  | node, [] => some node
  | .directory _ _ _ entries, name :: rest =>
      match entries.lookup name with
      | some child => child.find rest
      | none => none
  | _, _ :: _ => none

/-- The system calls on a tree. Only paths without links above their last component matter. -/
def fileSystem (root : FileTree) : FileSystem LookupFailure where
  getFileInformation path :=
    match root.find (pieces '/' path) with
    | some node => .ok node.info
    | none => .error .ENOENT
  readSymbolicLink path :=
    match root.find (pieces '/' path) with
    | some (.symlink _ _ _ target) => .ok target
    | some _ => .error .EINVAL
    | none => .error .ENOENT
  currentWorkingDirectory := ['/']

end FileTree

end Blocxx.PathSecurity
