import Blocxx.Library.Operation
import Blocxx.PathSecurity.Resolution

/-!
This file proves that the loop over the two character stacks follows the reference resolution.
-/

namespace Blocxx.PathSecurity
open Library Library.Pieces

variable {Failure : Type} {fs : FileSystem Failure} {uid : Nat}

/-- The stacks hold the path of a real directory or entry and the pending components. -/
structure Represents (prp : PartiallyResolvedPath) (dir pending : List Name) : Prop where
  resolved : prp.resolved = (render dir).reverse
  unresolved : prp.unresolved = terminated '/' pending
  dirPieces : ∀ name ∈ dir, IsPiece '/' name
  pendingPieces : ∀ name ∈ pending, IsPiece '/' name

namespace Represents

variable {prp : PartiallyResolvedPath} {dir rest pending : List Name} {name : Name}

theorem getResolved (represents : Represents prp dir pending) : prp.getResolved = render dir := by
  rw [PartiallyResolvedPath.getResolved, represents.resolved, List.reverse_reverse]

theorem unresolvedEmpty (represents : Represents prp dir pending) :
    prp.unresolvedEmpty = pending.isEmpty := by
  rw [PartiallyResolvedPath.unresolvedEmpty, represents.unresolved]
  cases pending with
  | nil => rfl
  | cons name rest => simp [terminated]

theorem unresolved_cons (represents : Represents prp dir (name :: rest)) :
    prp.unresolved = name ++ '/' :: terminated '/' rest := by
  rw [represents.unresolved]
  simp [terminated]

theorem restPieces (represents : Represents prp dir (name :: rest)) :
    ∀ part ∈ rest, IsPiece '/' part :=
  fun part member => represents.pendingPieces part (List.mem_cons_of_mem name member)

theorem startsWithCurdir (represents : Represents prp dir (name :: rest)) :
    prp.unresolvedStartsWithCurdir = true ↔ name = ['.'] := by
  obtain ⟨notEmpty, clean⟩ := represents.pendingPieces name List.mem_cons_self
  rw [PartiallyResolvedPath.unresolvedStartsWithCurdir, represents.unresolved_cons]
  match name with
  | [] => exact absurd rfl notEmpty
  | [first] => simp
  | first :: second :: more =>
      have different : second ≠ '/' := fun same => clean (by simp [same])
      simp [different]

theorem startsWithParent (represents : Represents prp dir (name :: rest)) :
    prp.unresolvedStartsWithParent = true ↔ name = ['.', '.'] := by
  obtain ⟨notEmpty, clean⟩ := represents.pendingPieces name List.mem_cons_self
  rw [PartiallyResolvedPath.unresolvedStartsWithParent, represents.unresolved_cons]
  match name with
  | [] => exact absurd rfl notEmpty
  | [first] => simp
  | [first, second] => simp
  | first :: second :: third :: more =>
      have different : third ≠ '/' := fun same => clean (by simp [same])
      simp [different]

theorem dropComponent (represents : Represents prp dir (name :: rest)) :
    prp.dropComponent = terminated '/' rest := by
  have isPiece := represents.pendingPieces name List.mem_cons_self
  rw [PartiallyResolvedPath.dropComponent, represents.unresolved_cons,
    (takeWhile_piece isPiece _).2, List.dropWhile_cons_of_pos (by simp),
    terminated_dropWhile represents.restPieces]

theorem popUnresolved (represents : Represents prp dir (name :: rest)) :
    ∃ popped, prp.popUnresolved = (.ok popped : Except (PathException Failure) _) ∧
      Represents popped dir rest := by
  refine ⟨{ prp with unresolved := prp.dropComponent }, ?_, ?_⟩
  · rw [PartiallyResolvedPath.popUnresolved, PartiallyResolvedPath.require, if_pos]
    rw [represents.unresolved_cons]
    simp
  · exact {
      resolved := represents.resolved
      unresolved := represents.dropComponent
      dirPieces := represents.dirPieces
      pendingPieces := represents.restPieces }

/-- The resolved stack is one separator or does not end with a separator. -/
theorem resolved_ends (represents : Represents prp dir pending) :
    0 < prp.resolved.length ∧ prp.resolved.getLast? = some '/' ∧
      (prp.resolved.length = 1 ∨ prp.resolved.head? ≠ some '/') := by
  have first := render_head dir
  rw [represents.resolved]
  refine ⟨?_, ?_, ?_⟩
  · rw [List.length_reverse]
    cases found : render dir with
    | nil => simp [found] at first
    | cons letter more => simp
  · rwa [List.getLast?_reverse]
  · rw [List.head?_reverse]
    rcases render_getLast represents.dirPieces with root | ends
    · left
      rw [root]
      rfl
    · exact .inr ends

/-- The separator that `xfer_component` adds is the one of the rendered path. -/
theorem render_push (dirPieces : ∀ part ∈ dir, IsPiece '/' part) (name : Name) :
    name.reverse ++ (if 1 < (render dir).reverse.length then '/' :: (render dir).reverse
      else (render dir).reverse) = (render (dir ++ [name])).reverse := by
  cases dir with
  | nil => simp [render, preceded]
  | cons first more =>
      obtain ⟨letter, letters, rfl⟩ :=
        List.exists_cons_of_ne_nil (dirPieces first List.mem_cons_self).1
      have long : 1 < (render ((letter :: letters) :: more)).reverse.length := by
        simp [render, preceded]
        omega
      rw [if_pos long, render, if_neg (by simp), render, if_neg (by simp), preceded_concat]
      simp

theorem xferComponent (represents : Represents prp dir (name :: rest)) :
    ∃ moved, prp.xferComponent = (.ok moved : Except (PathException Failure) _) ∧
      Represents moved (dir ++ [name]) rest := by
  have isPiece := represents.pendingPieces name List.mem_cons_self
  obtain ⟨long, _, ends⟩ := represents.resolved_ends
  have required : prp.unresolved ≠ [] ∧ 0 < prp.resolved.length ∧
      (prp.resolved.length = 1 ∨ prp.resolved.head? ≠ some '/') := by
    refine ⟨?_, long, ends⟩
    rw [represents.unresolved_cons]
    simp
  rw [PartiallyResolvedPath.xferComponent, PartiallyResolvedPath.require, if_pos required]
  refine ⟨_, rfl, ?_⟩
  exact {
    resolved := by
      dsimp only
      rw [represents.unresolved_cons, (takeWhile_piece isPiece _).1, represents.resolved]
      exact render_push represents.dirPieces name
    unresolved := represents.dropComponent
    dirPieces := by
      intro part member
      rcases List.mem_append.mp member with old | new
      · exact represents.dirPieces part old
      · rwa [List.mem_singleton.mp new]
    pendingPieces := represents.restPieces }

theorem popResolved (represents : Represents prp dir pending) :
    ∃ popped, prp.popResolved = (.ok popped : Except (PathException Failure) _) ∧
      Represents popped dir.dropLast pending := by
  rw [PartiallyResolvedPath.popResolved, PartiallyResolvedPath.require,
    if_pos represents.resolved_ends]
  refine ⟨_, rfl, ?_⟩
  have parentPieces : ∀ part ∈ dir.dropLast, IsPiece '/' part :=
    fun part member => represents.dirPieces part (List.mem_of_mem_dropLast member)
  rcases List.eq_nil_or_concat dir with rfl | ⟨before, last, rfl⟩
  · rw [if_pos (by rw [represents.resolved]; rfl)]
    exact represents
  · rw [List.concat_eq_append] at represents parentPieces ⊢
    rw [List.dropLast_concat] at parentPieces ⊢
    have isPiece : IsPiece '/' last.reverse := by
      obtain ⟨notEmpty, clean⟩ := represents.dirPieces last (by simp)
      exact ⟨by simpa using notEmpty, by simpa using clean⟩
    have stack : prp.resolved = last.reverse ++ '/' :: (preceded '/' before).reverse := by
      rw [represents.resolved, render, if_neg (by simp), preceded_concat]
      simp
    have long : prp.resolved.length ≠ 1 := by
      rw [stack, List.length_append, List.length_cons]
      have letters := List.length_pos_of_ne_nil isPiece.1
      omega
    rw [if_neg long]
    exact {
      resolved := by
        dsimp only
        rw [stack, (takeWhile_piece isPiece _).2]
        cases before with
        | nil => rfl
        | cons first more =>
            have parentLong : 1 < ('/' :: (preceded '/' (first :: more)).reverse).length := by
              simp [preceded]
            rw [if_pos parentLong, List.tail_cons, render, if_neg (by simp)]
      unresolved := represents.unresolved
      dirPieces := parentPieces
      pendingPieces := represents.pendingPieces }

theorem multiPushUnresolved (represents : Represents prp dir pending) {path : Path}
    (relative : path.head? ≠ some '/') :
    ∃ pushed, prp.multiPushUnresolved path = (.ok pushed : Except (PathException Failure) _) ∧
      Represents pushed dir (pieces '/' path ++ pending) := by
  rw [PartiallyResolvedPath.multiPushUnresolved, PartiallyResolvedPath.require, if_pos relative]
  refine ⟨_, rfl, ?_⟩
  have allPieces : ∀ part ∈ pieces '/' path ++ pending, IsPiece '/' part := by
    intro part member
    rcases List.mem_append.mp member with new | old
    · exact isPiece_of_mem new
    · exact represents.pendingPieces part old
  by_cases empty : path = []
  · subst empty
    rw [if_pos rfl, pieces_nil, List.nil_append]
    exact represents
  · rw [if_neg empty]
    exact {
      resolved := represents.resolved
      unresolved := by
        have inside : ¬ (path = [] ∨ path.head? = some '/') := not_or.mpr ⟨empty, relative⟩
        dsimp only
        rw [(foldr_squeeze path _).2 inside, represents.unresolved, terminated_append]
      dirPieces := represents.dirPieces
      pendingPieces := allPieces }

end Represents

/-- The local variables after a look-up, without the path. -/
def Walk.record (uid : Nat) (walk : Walk) (visit : Visit) : Walk :=
  { walk with
    statusIfSecure := if visit.info.type = .regular then .secureFile else walk.statusIfSecure
    numSymbolicLinks :=
      if visit.info.type = .symlink then walk.numSymbolicLinks + 1 else walk.numSymbolicLinks
    fileStatus := getFileStatus visit.info uid visit.last }

/-- The status after these look-ups is the one of the last of them. -/
def statusAfter (uid : Nat) (status : EFileStatusReturn) (visits : List Visit) :
    EFileStatusReturn :=
  match visits.getLast? with
  | some visit => getFileStatus visit.info uid visit.last
  | none => status

theorem fold_fileStatus (walk : Walk) (visits : List Visit) :
    (visits.foldl (Walk.record uid) walk).fileStatus = statusAfter uid walk.fileStatus visits := by
  rw [statusAfter]
  rcases List.eq_nil_or_concat visits with rfl | ⟨before, last, rfl⟩
  · rfl
  · rw [List.concat_eq_append, List.foldl_append, List.getLast?_concat]
    rfl

theorem fold_statusIfSecure (visits : List Visit) : ∀ walk : Walk,
    (visits.foldl (Walk.record uid) walk).statusIfSecure =
      if ∃ visit ∈ visits, visit.info.type = .regular then .secureFile
      else walk.statusIfSecure := by
  induction visits with
  | nil => simp
  | cons visit rest ih =>
      intro walk
      rw [List.foldl_cons, ih, Walk.record]
      by_cases later : ∃ visit ∈ rest, visit.info.type = .regular
      · rw [if_pos later, if_pos]
        obtain ⟨regular, member, type⟩ := later
        exact ⟨regular, List.mem_cons_of_mem _ member, type⟩
      · rw [if_neg later]
        dsimp only
        by_cases regular : visit.info.type = .regular
        · rw [if_pos regular, if_pos ⟨visit, List.mem_cons_self, regular⟩]
        · rw [if_neg regular, if_neg]
          rintro ⟨other, member, type⟩
          rcases List.mem_cons.mp member with rfl | inRest
          · exact regular type
          · exact later ⟨other, inRest, type⟩

/-- The local variables after all look-ups of a resolution. -/
def Walk.finish (uid : Nat) (walk : Walk) (resolution : Resolution) : Walk :=
  { resolution.visits.foldl (Walk.record uid) walk with
    prp := ⟨(render resolution.names).reverse, []⟩ }

variable (uid) in
theorem Walk.finish_prp (walk : Walk) (prp : PartiallyResolvedPath) (resolution : Resolution) :
    Walk.finish uid { walk with prp := prp } resolution = Walk.finish uid walk resolution := by
  have fold (visits : List Visit) : ∀ walk : Walk,
      { visits.foldl (Walk.record uid) { walk with prp := prp } with
        prp := ⟨(render resolution.names).reverse, []⟩ } =
      { visits.foldl (Walk.record uid) walk with
        prp := ⟨(render resolution.names).reverse, []⟩ } := by
    induction visits with
    | nil => intro walk; rfl
    | cons visit rest ih => exact fun walk => ih (walk.record uid visit)
  exact fold resolution.visits walk

/-- A look-up that goes on is recorded in front of the later ones. -/
theorem map_finish_visit (walk : Walk) (visit : Visit)
    (result : Except (PathException Failure) Resolution) :
    (result.map (.visit visit)).map (Walk.finish uid walk) =
      result.map (Walk.finish uid (walk.record uid visit)) := by
  cases result <;> rfl

section Simulation

variable {walk : Walk} {dir rest : List Name} {name : Name}

theorem body_next (represents : Represents walk.prp dir (name :: rest)) {later : Walk}
    (goes : iteration fs uid walk = .ok later) : body fs uid walk = .next later := by
  rw [body, represents.unresolvedEmpty, goes]
  rfl

theorem body_stop (represents : Represents walk.prp dir (name :: rest))
    {exception : PathException Failure} (throws : iteration fs uid walk = .error exception) :
    body fs uid walk = .stop (.error exception) := by
  rw [body, represents.unresolvedEmpty, throws]
  rfl

variable (fs uid) in
/-- A component that is not a dot is moved and looked up. -/
theorem iteration_plain (represents : Represents walk.prp dir (name :: rest))
    (plain : name ≠ ['.'] ∧ name ≠ ['.', '.']) :
    ∃ moved, Represents moved (dir ++ [name]) rest ∧
      iteration fs uid walk = lookUp fs uid walk moved := by
  obtain ⟨moved, moves, after⟩ := represents.xferComponent
  refine ⟨moved, after, ?_⟩
  rw [iteration, if_neg (mt represents.startsWithCurdir.mp plain.1),
    if_neg (mt represents.startsWithParent.mp plain.2), moves]
  rfl

variable (fs uid) in
theorem iteration_curdir (represents : Represents walk.prp dir (['.'] :: rest)) :
    ∃ popped, Represents popped dir rest ∧
      iteration fs uid walk = .ok { walk with prp := popped } := by
  obtain ⟨popped, pops, after⟩ := represents.popUnresolved
  refine ⟨popped, after, ?_⟩
  rw [iteration, if_pos (represents.startsWithCurdir.mpr rfl), pops]
  rfl

variable (fs uid) in
theorem iteration_parent (represents : Represents walk.prp dir (['.', '.'] :: rest)) :
    ∃ parent, Represents parent dir.dropLast rest ∧
      iteration fs uid walk = .ok { walk with prp := parent } := by
  obtain ⟨popped, pops, between⟩ := represents.popUnresolved
  obtain ⟨parent, climbs, after⟩ := between.popResolved
  refine ⟨parent, after, ?_⟩
  rw [iteration, if_neg (mt represents.startsWithCurdir.mp (by decide)),
    if_pos (represents.startsWithParent.mpr rfl), pops]
  change (do let prp ← popped.popResolved; _) = _
  rw [climbs]
  rfl

variable (Failure) in
/-- The target of a link is spliced in below the directory of the link or below the root. -/
theorem followLink_eq {prp : PartiallyResolvedPath}
    (represents : Represents prp (dir ++ [name]) rest) (target : Path) :
    ∃ followed, Represents followed (if target.head? = some '/' then [] else dir)
        (pieces '/' target ++ rest) ∧
      followLink prp target = (.ok followed : Except (PathException Failure) _) := by
  unfold followLink
  split
  next absolute =>
    have root : Represents prp.resetResolved [] rest := {
      resolved := rfl
      unresolved := represents.unresolved
      dirPieces := by simp
      pendingPieces := represents.pendingPieces }
    obtain ⟨pushed, pushes, after⟩ := root.multiPushUnresolved (dropWhile_head target)
    rw [pieces_dropWhile] at after
    exact ⟨pushed, after, pushes⟩
  next relative =>
    obtain ⟨parent, climbs, below⟩ := represents.popResolved
    rw [List.dropLast_concat] at below
    obtain ⟨pushed, pushes, after⟩ := below.multiPushUnresolved relative
    refine ⟨pushed, after, ?_⟩
    rw [climbs]
    exact pushes

variable (uid) in
/-- A regular file ends the walk. -/
theorem iteration_file (represents : Represents walk.prp dir [name])
    (plain : name ≠ ['.'] ∧ name ≠ ['.', '.']) {info : FileInformation}
    (found : fs.getFileInformation (render (dir ++ [name])) = .ok info)
    (regular : info.type = .regular) :
    ∃ moved, Represents moved (dir ++ [name]) [] ∧ iteration fs uid walk =
      .ok { walk.record uid ⟨dir ++ [name], info, true⟩ with prp := moved } := by
  obtain ⟨moved, after, goes⟩ := iteration_plain fs uid represents plain
  have last : moved.unresolvedEmpty = true := after.unresolvedEmpty
  refine ⟨moved, after, ?_⟩
  simp [goes, lookUp, after.getResolved, found, attempt, regular, last, Walk.record, bind,
    Except.bind]

variable (uid) in
theorem iteration_directory (represents : Represents walk.prp dir (name :: rest))
    (plain : name ≠ ['.'] ∧ name ≠ ['.', '.']) {info : FileInformation}
    (found : fs.getFileInformation (render (dir ++ [name])) = .ok info)
    (directory : info.type = .directory) :
    ∃ moved, Represents moved (dir ++ [name]) rest ∧ iteration fs uid walk =
      .ok { walk.record uid ⟨dir ++ [name], info, rest.isEmpty⟩ with prp := moved } := by
  obtain ⟨moved, after, goes⟩ := iteration_plain fs uid represents plain
  refine ⟨moved, after, ?_⟩
  simp [goes, lookUp, after.getResolved, found, attempt, directory, after.unresolvedEmpty,
    Walk.record, bind, Except.bind]

variable (uid) in
/-- A link is followed while its number is within the limit. -/
theorem iteration_link (represents : Represents walk.prp dir (name :: rest))
    (plain : name ≠ ['.'] ∧ name ≠ ['.', '.']) {info : FileInformation} {target : Path}
    (found : fs.getFileInformation (render (dir ++ [name])) = .ok info)
    (symlink : info.type = .symlink)
    (reads : fs.readSymbolicLink (render (dir ++ [name])) = .ok target)
    (room : ¬ MAX_SYMBOLIC_LINKS < walk.numSymbolicLinks + 1) :
    ∃ followed, Represents followed (if target.head? = some '/' then [] else dir)
        (pieces '/' target ++ rest) ∧ iteration fs uid walk =
      .ok { walk.record uid ⟨dir ++ [name], info, rest.isEmpty⟩ with prp := followed } := by
  obtain ⟨moved, after, goes⟩ := iteration_plain fs uid represents plain
  obtain ⟨followed, spliced, follows⟩ := followLink_eq Failure after target
  refine ⟨followed, spliced, ?_⟩
  simp [goes, lookUp, after.getResolved, found, attempt, symlink, room, reads, follows,
    after.unresolvedEmpty, Walk.record, bind, Except.bind]

variable (uid) in
/-- The loop stops, with the exception of the reference or with its real path. -/
theorem returns_of_resolves {budget : Nat} {pending : List Name}
    {result : Except (PathException Failure) Resolution}
    (resolves : Resolves fs budget dir pending result) :
    ∀ walk : Walk, Represents walk.prp dir pending →
      walk.numSymbolicLinks + budget = MAX_SYMBOLIC_LINKS →
        Loop.Returns (body fs uid) walk (result.map (Walk.finish uid walk)) := by
  induction resolves with
  | done budget dir =>
      intro walk represents _
      obtain ⟨⟨resolved, unresolved⟩, statusIfSecure, numSymbolicLinks, fileStatus⟩ := walk
      obtain rfl : resolved = (render dir).reverse := represents.resolved
      obtain rfl : unresolved = [] := represents.unresolved
      exact .stop rfl
  | curdir later ih =>
      intro walk represents left
      obtain ⟨popped, after, goes⟩ := iteration_curdir fs uid represents
      have returns := ih { walk with prp := popped } after left
      rw [funext (Walk.finish_prp uid walk popped)] at returns
      exact .next (body_next represents goes) returns
  | parent later ih =>
      intro walk represents left
      obtain ⟨parent, after, goes⟩ := iteration_parent fs uid represents
      have returns := ih { walk with prp := parent } after left
      rw [funext (Walk.finish_prp uid walk parent)] at returns
      exact .next (body_next represents goes) returns
  | missing plain fails =>
      intro walk represents left
      obtain ⟨moved, after, goes⟩ := iteration_plain fs uid represents plain
      apply Loop.Returns.stop
      apply body_stop represents
      rw [goes, lookUp, after.getResolved, fails]
      rfl
  | file plain found regular =>
      intro walk represents left
      obtain ⟨⟨resolved, unresolved⟩, after, looked⟩ :=
        iteration_file uid represents plain found regular
      obtain rfl : resolved = (render _).reverse := after.resolved
      obtain rfl : unresolved = [] := after.unresolved
      exact .next (body_next represents looked) (.stop rfl)
  | @notDirectory budget dir rest name info plain found regular more =>
      intro walk represents left
      obtain ⟨moved, after, goes⟩ := iteration_plain fs uid represents plain
      have notLast : moved.unresolvedEmpty = false := by
        rw [after.unresolvedEmpty]
        simpa using more
      apply Loop.Returns.stop
      apply body_stop represents
      simp [goes, lookUp, after.getResolved, found, attempt, regular, notLast, bind, Except.bind]
  | @directory budget dir rest name info result plain found directory later ih =>
      intro walk represents left
      obtain ⟨moved, after, looked⟩ := iteration_directory uid represents plain found directory
      have returns := ih { walk.record uid ⟨dir ++ [name], info, rest.isEmpty⟩ with prp := moved }
        after (by simpa [Walk.record, directory] using left)
      rw [funext (Walk.finish_prp uid _ moved), ← map_finish_visit] at returns
      exact .next (body_next represents looked) returns
  | tooManyLinks plain found symlink =>
      intro walk represents left
      obtain ⟨moved, after, goes⟩ := iteration_plain fs uid represents plain
      have full : MAX_SYMBOLIC_LINKS < walk.numSymbolicLinks + 1 := by omega
      apply Loop.Returns.stop
      apply body_stop represents
      simp [goes, lookUp, after.getResolved, found, attempt, symlink, full, bind, Except.bind]
  | unreadable plain found symlink fails =>
      intro walk represents left
      obtain ⟨moved, after, goes⟩ := iteration_plain fs uid represents plain
      have room : ¬ MAX_SYMBOLIC_LINKS < walk.numSymbolicLinks + 1 := by omega
      apply Loop.Returns.stop
      apply body_stop represents
      simp [goes, lookUp, after.getResolved, found, attempt, symlink, room, fails, bind,
        Except.bind]
  | @link left dir rest name info target result plain found symlink reads later ih =>
      intro walk represents within
      have room : ¬ MAX_SYMBOLIC_LINKS < walk.numSymbolicLinks + 1 := by omega
      obtain ⟨followed, spliced, looked⟩ :=
        iteration_link uid represents plain found symlink reads room
      have returns := ih
        { walk.record uid ⟨dir ++ [name], info, rest.isEmpty⟩ with prp := followed } spliced
        (by simp [Walk.record, symlink]; omega)
      rw [funext (Walk.finish_prp uid _ followed), ← map_finish_visit] at returns
      exact .next (body_next represents looked) returns
  | special plain found special =>
      intro walk represents left
      obtain ⟨moved, after, goes⟩ := iteration_plain fs uid represents plain
      apply Loop.Returns.stop
      apply body_stop represents
      rcases special with type | type
      · simp [goes, lookUp, after.getResolved, found, attempt, type, bind, Except.bind]
      · simp [goes, lookUp, after.getResolved, found, attempt, type, bind, Except.bind]

end Simulation

/-- No iteration follows a link beyond the limit. -/
theorem iteration_links {walk later : Walk} (goes : iteration fs uid walk = .ok later)
    (few : walk.numSymbolicLinks ≤ MAX_SYMBOLIC_LINKS) :
    later.numSymbolicLinks ≤ MAX_SYMBOLIC_LINKS := by
  unfold iteration at goes
  split at goes
  · obtain ⟨popped, _, ends⟩ := bind_eq_ok.mp goes
    rwa [← Except.ok.inj ends]
  · split at goes
    · obtain ⟨popped, _, climbs⟩ := bind_eq_ok.mp goes
      obtain ⟨parent, _, ends⟩ := bind_eq_ok.mp climbs
      rwa [← Except.ok.inj ends]
    · obtain ⟨moved, _, looks⟩ := bind_eq_ok.mp goes
      obtain ⟨st, _, sees⟩ := bind_eq_ok.mp looks
      dsimp only at sees
      split at sees
      · split at sees
        · cases sees
        · rwa [← Except.ok.inj sees]
      · split at sees
        · cases sees
        next room =>
          obtain ⟨target, _, reads⟩ := bind_eq_ok.mp sees
          obtain ⟨followed, _, ends⟩ := bind_eq_ok.mp reads
          rw [← Except.ok.inj ends]
          exact Nat.le_of_not_lt room
      · rwa [← Except.ok.inj sees]
      · cases sees

theorem startWalk_links {baseDir relPath : Path} {start : Walk}
    (starts : startWalk fs uid baseDir relPath = .ok start) :
    start.numSymbolicLinks ≤ MAX_SYMBOLIC_LINKS := by
  unfold startWalk at starts
  split at starts
  · obtain ⟨prp, _, more⟩ := bind_eq_ok.mp starts
    split at more
    · obtain ⟨st, _, ends⟩ := bind_eq_ok.mp more
      rw [← Except.ok.inj ends]
      exact Nat.zero_le _
    · rw [← Except.ok.inj more]
      exact Nat.zero_le _
  · cases starts

theorem visits_links {start walk : Walk}
    (few : start.numSymbolicLinks ≤ MAX_SYMBOLIC_LINKS)
    (visits : Loop.Visits (body fs uid) start walk) :
    walk.numSymbolicLinks ≤ MAX_SYMBOLIC_LINKS := by
  induction visits with
  | start => exact few
  | @next state later before goes ih =>
      unfold body at goes
      split at goes
      · cases goes
      · split at goes
        next walk looked =>
          obtain rfl : walk = later := by simpa using goes
          exact iteration_links looked ih
        · cases goes

variable (uid) in
/-- The local variables before the loop, for a base directory that exists. -/
theorem startWalk_eq {dir : List Name} (dirPieces : ∀ name ∈ dir, IsPiece '/' name)
    {relPath : Path} (relative : relPath.head? ≠ some '/') {info : FileInformation}
    (found : fs.getFileInformation (render dir) = .ok info) :
    ∃ prp, Represents prp dir (pieces '/' relPath) ∧
      startWalk fs uid (render dir) relPath = .ok ⟨prp, .secureDir, 0,
        if relPath = [] then getFileStatus info uid true else .fileBadOther⟩ := by
  have base : Represents (.new (render dir)) dir [] := {
    resolved := rfl
    unresolved := rfl
    dirPieces := dirPieces
    pendingPieces := by simp }
  obtain ⟨prp, pushes, represents⟩ :
      ∃ prp, (PartiallyResolvedPath.new (render dir)).multiPushUnresolved relPath =
        (.ok prp : Except (PathException Failure) _) ∧
          Represents prp dir (pieces '/' relPath ++ []) := base.multiPushUnresolved relative
  rw [List.append_nil] at represents
  refine ⟨prp, represents, ?_⟩
  have asserted : (render dir).head? = some '/' ∧
      ((render dir).length = 1 ∨ (render dir).getLast? ≠ some '/') ∧ relPath.head? ≠ some '/' := by
    refine ⟨render_head dir, ?_, relative⟩
    rcases render_getLast dirPieces with root | ends
    · left
      rw [root]
      rfl
    · exact .inr ends
  rw [startWalk, if_pos asserted, pushes]
  by_cases empty : relPath = []
  · have done : prp.unresolvedEmpty = true := by
      rw [represents.unresolvedEmpty, empty, pieces_nil]
      rfl
    have atDir : Represents prp dir [] := by
      rwa [empty, pieces_nil] at represents
    simp [done, atDir.getResolved, found, attempt, empty, bind, Except.bind]
  · have more : prp.unresolvedEmpty = false := by
      rw [represents.unresolvedEmpty, List.isEmpty_eq_false_iff]
      exact mt (pieces_eq_nil relative).mp empty
    simp [more, empty, bind, Except.bind]

/-- The local variables before the loop for an absolute path, without the path. -/
def firstWalk (uid : Nat) (root : FileInformation) (path : Path) : Walk :=
  ⟨⟨[], []⟩, .secureDir, 0,
    if pieces '/' path = [] then getFileStatus root uid true else .fileBadOther⟩

/-- The specification of `security` for an absolute path, told by the reference resolution. -/
def judged (fs : FileSystem Failure) (uid : Nat) (path : Path) :
    Except (PathException Failure) (ESecurity × Path) :=
  match fs.getFileInformation ['/'] with
  | .error cause => .error (.failure cause)
  | .ok root =>
      (resolve fs MAX_SYMBOLIC_LINKS [] (pieces '/' path)).map fun resolution =>
        answer (getFileStatus root uid (pieces '/' path = []) = .fileOk)
          (Walk.finish uid (firstWalk uid root path) resolution)

/-- Enough fuel makes `path_security` stop, and more fuel changes nothing. -/
theorem pathSecurity_judged (fs : FileSystem Failure) (uid : Nat) {path : Path}
    (absolute : isPathAbsolute path = true) :
    ∃ fuel, ∀ more, fuel ≤ more → pathSecurity fs uid more path = some (judged fs uid path) := by
  cases found : fs.getFileInformation ['/'] with
  | error cause =>
      refine ⟨0, fun more _ => ?_⟩
      simp [pathSecurity, judged, absolute, found, attempt]
  | ok root =>
      have relative : (stripLeadingSlashes path).head? ≠ some '/' := dropWhile_head path
      have same : pieces '/' (stripLeadingSlashes path) = pieces '/' path := pieces_dropWhile path
      have whole : stripLeadingSlashes path = [] ↔ pieces '/' path = [] := by
        rw [← same, pieces_eq_nil relative]
      have rootFound : fs.getFileInformation (render []) = .ok root := found
      obtain ⟨prp, represents, starts⟩ := startWalk_eq uid (by simp) relative rootFound
      simp only [whole] at starts
      rw [same] at represents
      obtain ⟨fuel, runs⟩ := returns_of_resolves uid
        (resolves fs MAX_SYMBOLIC_LINKS [] (pieces '/' path))
        { firstWalk uid root path with prp := prp } represents rfl
      rw [funext (Walk.finish_prp uid (firstWalk uid root path) prp)] at runs
      refine ⟨fuel, fun more enough => ?_⟩
      have longer := Loop.run_mono enough runs
      change startWalk fs uid ['/'] (stripLeadingSlashes path) =
        .ok { firstWalk uid root path with prp := prp } at starts
      rw [pathSecurity, if_pos absolute, found, judged, found]
      simp only [attempt, pathSecurityFrom, starts, whole]
      rw [longer]
      cases resolve fs MAX_SYMBOLIC_LINKS [] (pieces '/' path) <;> rfl

theorem abspath_of_absolute {path : Path} (absolute : isPathAbsolute path = true) :
    abspath fs path = path := by
  rw [abspath, if_pos absolute]

/-- The path part of the specification is the reference. -/
theorem judged_path (fs : FileSystem Failure) (uid : Nat) (path : Path) :
    (judged fs uid path).map Prod.snd =
      (reference fs path).map fun resolution => render resolution.names := by
  rw [judged, reference]
  cases fs.getFileInformation ['/'] with
  | error cause => rfl
  | ok root =>
      cases resolve fs MAX_SYMBOLIC_LINKS [] (pieces '/' path) with
      | error exception => rfl
      | ok resolution =>
          simp [Except.map, answer, PartiallyResolvedPath.getResolved, Walk.finish]

/-- These properties say that `realPath` and `security` stop with the path of the reference. -/
structure ResolvesLikeReference (fs : FileSystem Failure) (uid : Nat) (path : Path) : Prop where
  stops : ∃ fuel, ∀ more, fuel ≤ more →
    (security fs uid more path).map (fun result => result.map Prod.snd) =
      some ((reference fs path).map fun resolution => render resolution.names) ∧
    realPath fs more path =
      some ((reference fs path).map fun resolution => render resolution.names)
  links : ∀ start, startWalk fs uid ['/'] (stripLeadingSlashes path) = .ok start →
    ∀ walk, Loop.Visits (body fs uid) start walk → walk.numSymbolicLinks ≤ MAX_SYMBOLIC_LINKS
  canonical : ∀ resolution, reference fs path = .ok resolution →
    Canonical fs (render resolution.names)

/-- On every file system every absolute path is resolved like the reference, canonically, with at
most `MAX_SYMBOLIC_LINKS` links. -/
theorem real_path_resolves (fs : FileSystem Failure) (uid : Nat) {path : Path}
    (absolute : isPathAbsolute path = true) : ResolvesLikeReference fs uid path where
  stops := by
    obtain ⟨first, judges⟩ := pathSecurity_judged fs uid absolute
    obtain ⟨second, judgesRoot⟩ := pathSecurity_judged fs 0 absolute
    refine ⟨max first second, fun more enough => ⟨?_, ?_⟩⟩
    · rw [security, abspath_of_absolute absolute, judges more (le_of_max_le_left enough),
        Option.map_some, judged_path]
    · rw [realPath, if_pos absolute, security, abspath_of_absolute absolute,
        judgesRoot more (le_of_max_le_right enough), Option.map_some, judged_path]
  links := by
    intro start starts walk visits
    exact visits_links (startWalk_links starts) visits
  canonical := by
    intro resolution resolved
    rw [reference] at resolved
    cases found : fs.getFileInformation ['/'] with
    | error cause => simp [found] at resolved
    | ok root =>
        rw [found] at resolved
        have rule := resolves fs MAX_SYMBOLIC_LINKS [] (pieces '/' path)
        exact (rule.way .nil (fun name member => isPiece_of_mem member) resolved).canonical

/-- The root has a directory, a link into it, and a link to itself. -/
def linkedTree : FileTree :=
  .directory 0 0 0o755
    [("d".toList, .directory 0 0 0o755 [("f".toList, .file 0 0 0o644)]),
      ("in".toList, .symlink 0 0 0o777 "/d/".toList),
      ("loop".toList, .symlink 0 0 0o777 "loop".toList)]

example : realPath linkedTree.fileSystem 9 "//in/.././in/f".toList = some (.ok "/d/f".toList) := by
  decide

theorem real_path_resolves_linkedTree :
    ResolvesLikeReference linkedTree.fileSystem 1000 "/loop".toList :=
  real_path_resolves linkedTree.fileSystem 1000 (by decide)

end Blocxx.PathSecurity
