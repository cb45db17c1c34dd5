import Blocxx.PathSecurity.RealPath

/-!
This file finds the paths for which a secure answer of `security` means what its documentation says.
-/

namespace Blocxx.PathSecurity
open Library Library.Pieces

variable {Failure : Type} {fs : FileSystem Failure} {uid : Nat}

/-- Only root and the user own the entry, and no other user can write to it. A sticky directory may
be writable when it is not the result. -/
def EntryOk (uid : Nat) (isResult : Prop) (info : FileInformation) : Prop :=
  (info.owner = 0 ∨ info.owner = uid) ∧
    (info.type = .symlink ∨ checkGrpOth info ∨
      (info.type = .directory ∧ info.permissions &&& E_FILE_STICKY ≠ 0 ∧ ¬ isResult))

/-- The check of the real path has no exception for a sticky directory. -/
def ResultOk (uid : Nat) (info : FileInformation) : Prop :=
  (info.owner = 0 ∨ info.owner = uid) ∧ checkGrpOth info

theorem fileOk_eq_fileOk {info : FileInformation} {fullPath : Bool} :
    fileOk info uid fullPath = .fileOk ↔ EntryOk uid (fullPath = true) info := by
  unfold fileOk EntryOk
  by_cases owned : info.owner = 0 ∨ info.owner = uid
  · rw [if_pos owned]
    split
    · next bad =>
        simp only [reduceCtorEq, false_iff, not_and]
        intro _ good
        apply bad
        rcases good with link | notWritable | ⟨directory, sticky, notResult⟩
        · exact .inl link
        · exact .inr (.inl notWritable)
        · exact .inr (.inr ⟨directory, by simpa using notResult, sticky⟩)
    · next good =>
        simp only [true_iff]
        refine ⟨owned, ?_⟩
        rcases not_not.mp good with link | notWritable | ⟨directory, notFull, sticky⟩
        · exact .inl link
        · exact .inr (.inl notWritable)
        · exact .inr (.inr ⟨directory, sticky, by simp [notFull]⟩)
  · rw [if_neg owned]
    simp [owned]

theorem EntryOk.weaken {isResult weaker : Prop} {info : FileInformation}
    (ok : EntryOk uid isResult info) (implies : weaker → isResult) : EntryOk uid weaker info := by
  obtain ⟨owned, good⟩ := ok
  refine ⟨owned, ?_⟩
  rcases good with link | notWritable | ⟨directory, sticky, notResult⟩
  · exact .inl link
  · exact .inr (.inl notWritable)
  · exact .inr (.inr ⟨directory, sticky, mt implies notResult⟩)

theorem ResultOk.entryOk {info : FileInformation} (ok : ResultOk uid info) (isResult : Prop) :
    EntryOk uid isResult info :=
  ⟨ok.1, .inr (.inl ok.2)⟩

/-- An entry that passes when it is not the result, and passes fully when it is, passes. -/
theorem EntryOk.of_result {isResult : Prop} {info : FileInformation}
    (ok : EntryOk uid False info) (result : isResult → ResultOk uid info) :
    EntryOk uid isResult info := by
  by_cases real : isResult
  · exact (result real).entryOk isResult
  · exact ok.weaken real

/-- The next iteration of the loop looks this path up. -/
def Walk.LooksUp (Failure : Type) (walk : Walk) (entry : Path) : Prop :=
  walk.prp.unresolvedEmpty = false ∧ walk.prp.unresolvedStartsWithCurdir = false ∧
    walk.prp.unresolvedStartsWithParent = false ∧
      ∃ moved, walk.prp.xferComponent = (.ok moved : Except (PathException Failure) _) ∧
        entry = moved.getResolved

/-- The loop that starts here looks this path up in some iteration. -/
def Walk.LooksUpLater (fs : FileSystem Failure) (uid : Nat) (walk : Walk) (entry : Path) : Prop :=
  ∃ later, Loop.Visits (body fs uid) walk later ∧ later.LooksUp Failure entry

/-- The call of `path_security` with an absolute path looks up this directory entry. -/
def LookedUp (fs : FileSystem Failure) (uid : Nat) (path entry : Path) : Prop :=
  entry = ['/'] ∨ ∃ start, startWalk fs uid ['/'] (stripLeadingSlashes path) = .ok start ∧
    start.LooksUpLater fs uid entry

/-- The claimed meaning of an answer other than `insecure`. -/
def Sound (fs : FileSystem Failure) (uid : Nat) (path : Path) : Prop :=
  ∀ fuel sec real, security fs uid fuel path = some (.ok (sec, real)) → sec ≠ .insecure →
    (∀ entry info, LookedUp fs uid (abspath fs path) entry →
      fs.getFileInformation entry = .ok info → EntryOk uid (entry = real) info) ∧
    ∃ info, fs.getFileInformation real = .ok info ∧ ResultOk uid info

section LookedUp

variable {walk : Walk} {dir rest : List Name} {name : Name} {entry : Path}

theorem looksUpLater_iff : walk.LooksUpLater fs uid entry ↔
    walk.LooksUp Failure entry ∨
      ∃ later, body fs uid walk = .next later ∧ later.LooksUpLater fs uid entry := by
  constructor
  · rintro ⟨state, visits, looks⟩
    rcases Loop.visits_iff.mp visits with rfl | ⟨later, first, visitsLater⟩
    · exact .inl looks
    · exact .inr ⟨later, first, state, visitsLater, looks⟩
  · rintro (looks | ⟨later, first, state, visitsLater, looks⟩)
    · exact ⟨walk, .start, looks⟩
    · exact ⟨state, Loop.visits_iff.mpr (.inr ⟨later, first, visitsLater⟩), looks⟩

theorem looksUpLater_next {later : Walk} (goes : body fs uid walk = .next later) :
    walk.LooksUpLater fs uid entry ↔
      walk.LooksUp Failure entry ∨ later.LooksUpLater fs uid entry := by
  rw [looksUpLater_iff]
  simp [goes]

/-- A component that is not a dot is looked up below the real directory. -/
theorem looksUp_plain (represents : Represents walk.prp dir (name :: rest))
    (plain : name ≠ ['.'] ∧ name ≠ ['.', '.']) :
    walk.LooksUp Failure entry ↔ entry = render (dir ++ [name]) := by
  obtain ⟨moved, moves, after⟩ :
      ∃ moved, walk.prp.xferComponent = (.ok moved : Except (PathException Failure) _) ∧
        Represents moved (dir ++ [name]) rest := represents.xferComponent
  have notCurdir : walk.prp.unresolvedStartsWithCurdir = false :=
    Bool.eq_false_iff.mpr (mt represents.startsWithCurdir.mp plain.1)
  have notParent : walk.prp.unresolvedStartsWithParent = false :=
    Bool.eq_false_iff.mpr (mt represents.startsWithParent.mp plain.2)
  rw [Walk.LooksUp, represents.unresolvedEmpty, moves, ← after.getResolved]
  simp [notCurdir, notParent]

theorem not_looksUp_dot (represents : Represents walk.prp dir (name :: rest))
    (dot : name = ['.'] ∨ name = ['.', '.']) : ¬ walk.LooksUp Failure entry := by
  rintro ⟨_, notCurdir, notParent, _⟩
  rcases dot with curdir | parent
  · rw [represents.startsWithCurdir.mpr curdir] at notCurdir
    cases notCurdir
  · rw [represents.startsWithParent.mpr parent] at notParent
    cases notParent

variable (uid) in
/-- The loop looks up exactly the entries of the reference resolution. -/
theorem looksUpLater_iff_visits {budget : Nat} {pending : List Name}
    {result : Except (PathException Failure) Resolution} {resolution : Resolution}
    (resolves : Resolves fs budget dir pending result) (ok : result = .ok resolution)
    (entry : Path) :
    ∀ walk : Walk, Represents walk.prp dir pending →
      walk.numSymbolicLinks + budget = MAX_SYMBOLIC_LINKS →
        (walk.LooksUpLater fs uid entry ↔
          ∃ visit ∈ resolution.visits, entry = render visit.entry) := by
  induction resolves generalizing resolution with
  | done budget dir =>
      intro walk represents _
      obtain rfl : _ = resolution := Except.ok.inj ok
      have done : walk.prp.unresolvedEmpty = true := represents.unresolvedEmpty
      rw [looksUpLater_iff]
      simp [body, Walk.LooksUp, done]
  | curdir later ih =>
      intro walk represents left
      obtain ⟨popped, after, goes⟩ := iteration_curdir fs uid represents
      rw [looksUpLater_next (body_next represents goes),
        or_iff_right (not_looksUp_dot represents (.inl rfl))]
      exact ih ok { walk with prp := popped } after left
  | parent later ih =>
      intro walk represents left
      obtain ⟨parent, after, goes⟩ := iteration_parent fs uid represents
      rw [looksUpLater_next (body_next represents goes),
        or_iff_right (not_looksUp_dot represents (.inr rfl))]
      exact ih ok { walk with prp := parent } after left
  | file plain found regular =>
      intro walk represents left
      obtain rfl : _ = resolution := Except.ok.inj ok
      obtain ⟨moved, after, looked⟩ := iteration_file uid represents plain found regular
      have done : moved.unresolvedEmpty = true := after.unresolvedEmpty
      rw [looksUpLater_next (body_next represents looked), looksUp_plain represents plain,
        looksUpLater_iff]
      simp [body, Walk.LooksUp, done]
  | @directory budget dir rest name info result plain found directory later ih =>
      intro walk represents left
      obtain ⟨after, ends, rfl⟩ := map_visit_eq_ok.mp ok
      obtain ⟨moved, below, looked⟩ := iteration_directory uid represents plain found directory
      have more := ih ends
        { walk.record uid ⟨dir ++ [name], info, rest.isEmpty⟩ with prp := moved } below
        (by simpa [Walk.record, directory] using left)
      rw [looksUpLater_next (body_next represents looked), looksUp_plain represents plain, more]
      simp [Resolution.visit]
  | @link left dir rest name info target result plain found symlink reads later ih =>
      intro walk represents within
      obtain ⟨after, ends, rfl⟩ := map_visit_eq_ok.mp ok
      have room : ¬ MAX_SYMBOLIC_LINKS < walk.numSymbolicLinks + 1 := by omega
      obtain ⟨followed, spliced, looked⟩ :=
        iteration_link uid represents plain found symlink reads room
      have more := ih ends
        { walk.record uid ⟨dir ++ [name], info, rest.isEmpty⟩ with prp := followed } spliced
        (by simp [Walk.record, symlink]; omega)
      rw [looksUpLater_next (body_next represents looked), looksUp_plain represents plain, more]
      simp [Resolution.visit]
  | missing | notDirectory | tooManyLinks | unreadable | special => cases ok

end LookedUp

/-- The status at the end of the loop is the one of the last entry that was looked up. -/
def keptStatus (uid : Nat) (root : FileInformation) (path : Path) (resolution : Resolution) :
    EFileStatusReturn :=
  match resolution.visits.getLast? with
  | some visit => fileOk visit.info uid visit.last
  | none => if pieces '/' path = [] then fileOk root uid true else .fileBadOther

theorem finish_fileStatus (uid : Nat) (root : FileInformation) (path : Path)
    (resolution : Resolution) :
    (Walk.finish uid (firstWalk uid root path) resolution).fileStatus =
      keptStatus uid root path resolution :=
  fold_fileStatus (firstWalk uid root path) resolution.visits

/-- The answer for a secure path is one of the two secure values. -/
theorem finish_statusIfSecure (uid : Nat) (root : FileInformation) (path : Path)
    (resolution : Resolution) :
    (Walk.finish uid (firstWalk uid root path) resolution).statusIfSecure ≠ .insecure := by
  change (resolution.visits.foldl (Walk.record uid) (firstWalk uid root path)).statusIfSecure ≠ _
  rw [fold_statusIfSecure, firstWalk]
  split <;> simp

theorem pathSecurityFrom_mono {fuel more : Nat} (enough : fuel ≤ more) {baseDir relPath : Path}
    {bdsecure : Bool} {result : Except (PathException Failure) (ESecurity × Path)}
    (returns : pathSecurityFrom fs uid fuel baseDir relPath bdsecure = some result) :
    pathSecurityFrom fs uid more baseDir relPath bdsecure = some result := by
  unfold pathSecurityFrom at returns ⊢
  split at returns
  · exact returns
  · obtain ⟨last, runs, ends⟩ := Option.map_eq_some_iff.mp returns
    rw [Loop.run_mono enough runs, Option.map_some, ends]

theorem pathSecurity_mono {fuel more : Nat} (enough : fuel ≤ more) {path : Path}
    {result : Except (PathException Failure) (ESecurity × Path)}
    (returns : pathSecurity fs uid fuel path = some result) :
    pathSecurity fs uid more path = some result := by
  unfold pathSecurity at returns ⊢
  split at returns
  · next absolute =>
      rw [if_pos absolute]
      dsimp only at returns ⊢
      split at returns
      · exact returns
      · exact pathSecurityFrom_mono enough returns
  · next relative =>
      rw [if_neg relative]
      exact returns

/-- Every answer is the one that the specification gives. -/
theorem pathSecurity_eq_judged {fuel : Nat} {path : Path}
    (absolute : isPathAbsolute path = true)
    {result : Except (PathException Failure) (ESecurity × Path)}
    (returns : pathSecurity fs uid fuel path = some result) : result = judged fs uid path := by
  obtain ⟨enough, judges⟩ := pathSecurity_judged fs uid absolute
  have longer := pathSecurity_mono (Nat.le_max_left fuel enough) returns
  rw [judges _ (Nat.le_max_right fuel enough)] at longer
  exact (Option.some.inj longer).symm

/-- The root passes and so does the last entry that was looked up. -/
def EndsOk (uid : Nat) (root : FileInformation) (path : Path) (resolution : Resolution) : Prop :=
  fileOk root uid (pieces '/' path = []) = .fileOk ∧ keptStatus uid root path resolution = .fileOk

/-- The specification gives a secure answer exactly when the two ends of the walk pass. -/
theorem judged_secure_iff {path real : Path} :
    (∃ sec, judged fs uid path = .ok (sec, real) ∧ sec ≠ .insecure) ↔
      ∃ root resolution, fs.getFileInformation ['/'] = .ok root ∧
        reference fs path = .ok resolution ∧ real = render resolution.names ∧
          EndsOk uid root path resolution := by
  rw [judged, reference]
  cases fs.getFileInformation ['/'] with
  | error cause => simp
  | ok root =>
      cases resolve fs MAX_SYMBOLIC_LINKS [] (pieces '/' path) with
      | error exception => simp [Except.map]
      | ok resolution =>
          have secure := finish_statusIfSecure uid root path resolution
          have names : (Walk.finish uid (firstWalk uid root path) resolution).prp.getResolved =
              render resolution.names := by
            simp [Walk.finish, PartiallyResolvedPath.getResolved]
          have passes : (decide (getFileStatus root uid (pieces '/' path = []) = .fileOk) = true ∧
              (Walk.finish uid (firstWalk uid root path) resolution).fileStatus = .fileOk) ↔
                EndsOk uid root path resolution := by
            rw [finish_fileStatus, decide_eq_true_iff]
            rfl
          simp only [Except.map, answer, names]
          constructor
          · rintro ⟨sec, ends, notInsecure⟩
            obtain ⟨rfl, rfl⟩ := Prod.mk.inj (Except.ok.inj ends)
            refine ⟨root, resolution, rfl, rfl, rfl, ?_⟩
            by_contra bad
            exact notInsecure (if_neg (mt passes.mp bad))
          · rintro ⟨_, _, rootFound, ends, rfl, endsOk⟩
            obtain rfl := Except.ok.inj rootFound
            obtain rfl := Except.ok.inj ends
            exact ⟨_, by rw [if_pos (passes.mpr endsOk)], secure⟩

/-- No bad status is overwritten: when the root and the last entry pass, so do the entries between
them, and the real path passes without the exception for a sticky directory. -/
def NothingOverwritten (fs : FileSystem Failure) (uid : Nat) (path : Path) : Prop :=
  ∀ root resolution, fs.getFileInformation ['/'] = .ok root →
    reference fs (abspath fs path) = .ok resolution → isPathAbsolute (abspath fs path) = true →
      EndsOk uid root (abspath fs path) resolution →
        (∀ visit ∈ resolution.visits, fileOk visit.info uid false = .fileOk) ∧
          ∀ info, fs.getFileInformation (render resolution.names) = .ok info → ResultOk uid info

/-- The entries that `path_security` looks up are the root and those of the reference. -/
theorem lookedUp_iff {path : Path} {root : FileInformation} {resolution : Resolution}
    (found : fs.getFileInformation ['/'] = .ok root) (ends : reference fs path = .ok resolution)
    (entry : Path) : LookedUp fs uid path entry ↔
      entry = ['/'] ∨ ∃ visit ∈ resolution.visits, entry = render visit.entry := by
  have relative : (stripLeadingSlashes path).head? ≠ some '/' := dropWhile_head path
  have rootFound : fs.getFileInformation (render []) = .ok root := found
  obtain ⟨prp, represents, starts⟩ := startWalk_eq uid (by simp) relative rootFound
  have same : pieces '/' (stripLeadingSlashes path) = pieces '/' path := pieces_dropWhile path
  rw [same] at represents
  rw [reference, found] at ends
  change startWalk fs uid ['/'] _ = _ at starts
  have rule := resolves fs MAX_SYMBOLIC_LINKS [] (pieces '/' path)
  have visits (status : EFileStatusReturn) :=
    looksUpLater_iff_visits uid rule ends entry ⟨prp, .secureDir, 0, status⟩ represents rfl
  simp [LookedUp, starts, visits]

/-- The real path exists. -/
theorem reference_found {path : Path} {root : FileInformation} {resolution : Resolution}
    (found : fs.getFileInformation ['/'] = .ok root) (ends : reference fs path = .ok resolution) :
    ∃ info, fs.getFileInformation (render resolution.names) = .ok info := by
  rw [reference, found] at ends
  by_cases atRoot : resolution.names = []
  · rw [atRoot]
    exact ⟨root, found⟩
  · have rule := resolves fs MAX_SYMBOLIC_LINKS [] (pieces '/' path)
    have way := rule.way .nil (fun name member => isPiece_of_mem member) ends
    obtain ⟨info, read, _⟩ := way.entries resolution.names List.prefix_rfl atRoot
    exact ⟨info, read⟩

/-- The information of a visit is what the file system tells about its entry. -/
theorem reference_visit {path : Path} {root : FileInformation} {resolution : Resolution}
    (found : fs.getFileInformation ['/'] = .ok root) (ends : reference fs path = .ok resolution)
    {visit : Visit} (member : visit ∈ resolution.visits) :
    fs.getFileInformation (render visit.entry) = .ok visit.info := by
  rw [reference, found] at ends
  exact ((resolves fs MAX_SYMBOLIC_LINKS [] (pieces '/' path)).visits ends).1 visit member

theorem Sound.of_nothingOverwritten {path : Path} (kept : NothingOverwritten fs uid path) :
    Sound fs uid path := by
  intro fuel sec real returns notInsecure
  by_cases absolute : isPathAbsolute (abspath fs path) = true
  · have judges := pathSecurity_eq_judged absolute returns
    obtain ⟨root, resolution, found, ends, rfl, endsOk⟩ :=
      judged_secure_iff.mp ⟨sec, judges.symm, notInsecure⟩
    obtain ⟨visitsOk, resultOk⟩ := kept root resolution found ends absolute endsOk
    refine ⟨?_, ?_⟩
    · intro entry info looked read
      apply EntryOk.of_result
      · rcases (lookedUp_iff found ends entry).mp looked with rfl | ⟨visit, member, rfl⟩
        · rw [found] at read
          rw [← Except.ok.inj read]
          exact (fileOk_eq_fileOk.mp endsOk.1).weaken False.elim
        · rw [reference_visit found ends member] at read
          rw [← Except.ok.inj read]
          exact (fileOk_eq_fileOk.mp (visitsOk visit member)).weaken False.elim
      · intro isResult
        exact resultOk info (by rw [← isResult, read])
    · obtain ⟨info, read⟩ := reference_found found ends
      exact ⟨info, read, resultOk info read⟩
  · rw [security, pathSecurity, if_neg absolute] at returns
    cases Option.some.inj returns

theorem Sound.nothingOverwritten {path : Path} (sound : Sound fs uid path) :
    NothingOverwritten fs uid path := by
  intro root resolution found ends absolute endsOk
  obtain ⟨sec, secure, notInsecure⟩ :=
    judged_secure_iff.mpr ⟨root, resolution, found, ends, rfl, endsOk⟩
  obtain ⟨fuel, judges⟩ := pathSecurity_judged fs uid absolute
  have returns := (judges fuel le_rfl).trans (congrArg some secure)
  obtain ⟨entriesOk, result, resultFound, resultOk⟩ := sound fuel sec _ returns notInsecure
  refine ⟨?_, ?_⟩
  · intro visit member
    have looked : LookedUp fs uid (abspath fs path) (render visit.entry) :=
      (lookedUp_iff found ends _).mpr (.inr ⟨visit, member, rfl⟩)
    have ok := entriesOk _ visit.info looked (reference_visit found ends member)
    exact fileOk_eq_fileOk.mpr (ok.weaken Bool.false_ne_true.elim)
  · intro info read
    rw [read] at resultFound
    rwa [Except.ok.inj resultFound]

/-- A secure answer is sound exactly when the walk overwrites no bad status. -/
theorem security_sound_iff (fs : FileSystem Failure) (uid : Nat) (path : Path) :
    Sound fs uid path ↔ NothingOverwritten fs uid path :=
  ⟨Sound.nothingOverwritten, Sound.of_nothingOverwritten⟩

/-- Every user may write to the directory of the file. -/
def openTree : FileTree :=
  .directory 0 0 0o755 [("a".toList, .directory 0 0 0o777 [("f".toList, .file 0 0 0o644)])]

/-- The good status of the file overwrites the bad status of its directory. -/
theorem security_not_sound : ¬ Sound openTree.fileSystem 1000 "/a/f".toList := by
  intro sound
  obtain ⟨entriesOk, _⟩ := sound 9 .secureFile "/a/f".toList (by decide) (by decide)
  have looked : LookedUp openTree.fileSystem 1000 "/a/f".toList "/a".toList :=
    .inr ⟨_, rfl, _, .start, rfl, rfl, rfl, _, rfl, rfl⟩
  obtain ⟨_, link | notWritable | ⟨_, sticky, _⟩⟩ :=
    entriesOk "/a".toList ⟨0, 0, .directory, 0o777⟩ looked (by decide)
  · cases link
  · exact absurd notWritable (by decide)
  · exact sticky (by decide)

end Blocxx.PathSecurity
